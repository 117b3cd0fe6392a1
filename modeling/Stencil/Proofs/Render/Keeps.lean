import Stencil.Render

/-!
What a part of a render leaves as it was.

A `view` shows some of the state of a render.  A part of a render keeps a view if the view shows the
same before and after, whether the part ends with a result or with a failure.  Keeping a view is
closed under everything that renders are built with, so that a construct is looked at once, where it
changes the state and where it undoes the change.

Two views matter.  `standing` shows the frame, the count of open constructs and the policy for
undefined variables.  `surroundings` shows the same except for the variables of the innermost layer,
into which statements assign.
-/

namespace Stencil

/-! ## §1. Runs -/

namespace Render

variable {ω α β γ : Type}

@[simp] theorem run_pure (a : α) (s : RenderState ω) :
    (pure a : Render ω α).run s = (.ok a, s) := rfl

@[simp] theorem run_throw (e : Failure) (s : RenderState ω) :
    (throw e : Render ω α).run s = (.error e, s) := rfl

@[simp] theorem run_get (s : RenderState ω) : (get : Render ω (RenderState ω)).run s = (.ok s, s) :=
  rfl

@[simp] theorem run_set (t s : RenderState ω) : (set t : Render ω PUnit).run s = (.ok ⟨⟩, t) := rfl

@[simp] theorem run_modify (f : RenderState ω → RenderState ω) (s : RenderState ω) :
    (modify f : Render ω PUnit).run s = (.ok ⟨⟩, f s) := rfl

/-- A failure of the first part is the failure of both. -/
theorem run_bind (x : Render ω α) (f : α → Render ω β) (s : RenderState ω) :
    (x >>= f).run s =
      match x.run s with
      | (.ok a, t) => (f a).run t
      | (.error e, t) => (.error e, t) := by
  show (ExceptT.bind x f) s = _
  simp only [ExceptT.bind, ExceptT.mk, bind, StateT.bind, ExceptT.run]
  -- The state comes through either way; only what is done with the result differs.
  rcases x s with ⟨_ | _, t⟩ <;> rfl

theorem run_bind_ok {x : Render ω α} {s t : RenderState ω} {a : α} (h : x.run s = (.ok a, t))
    (f : α → Render ω β) : (x >>= f).run s = (f a).run t := by
  rw [run_bind, h]

theorem run_bind_error {x : Render ω α} {s t : RenderState ω} {e : Failure}
    (h : x.run s = (.error e, t)) (f : α → Render ω β) : (x >>= f).run s = (.error e, t) := by
  rw [run_bind, h]

/-- Both parts together end with a result where each of them does. -/
theorem run_bind_eq_ok {x : Render ω α} {f : α → Render ω β} {s t : RenderState ω} {b : β}
    (h : (x >>= f).run s = (.ok b, t)) : ∃ a u, x.run s = (.ok a, u) ∧ (f a).run u = (.ok b, t) := by
  rw [run_bind] at h
  rcases hr : x.run s with ⟨e | a, u⟩
  · rw [hr] at h
    cases h
  · rw [hr] at h
    exact ⟨a, u, rfl, h⟩

theorem run_map (f : α → β) (x : Render ω α) (s : RenderState ω) :
    (f <$> x).run s = ((x.run s).1.map f, (x.run s).2) := by
  show (ExceptT.map f x) s = _
  simp only [ExceptT.map, ExceptT.mk, bind, StateT.bind, ExceptT.run]
  rcases x s with ⟨_ | _, t⟩ <;> rfl

theorem run_ending (x : Render ω α) (f : RenderState ω → RenderState ω) (s : RenderState ω) :
    (ending x f).run s = ((x.run s).1, f (x.run s).2) := rfl

theorem run_capture (x : Render ω Unit) (s : RenderState ω) :
    (capture x).run s =
      ((x.run { s with output := ⟨[], none⟩ }).1.map fun _ =>
          (x.run { s with output := ⟨[], none⟩ }).2.output.text,
        { (x.run { s with output := ⟨[], none⟩ }).2 with output := s.output }) := rfl

theorem run_frame (s : RenderState ω) : (frame : Render ω (Frame ω)).run s = (.ok s.frame, s) := rfl

theorem run_changeFrame (f : Frame ω → Frame ω) (s : RenderState ω) :
    (changeFrame f).run s = (.ok ⟨⟩, { s with frame := f s.frame }) := rfl

theorem run_failAt (pos : Position) (kind : RenderErrorKind) (s : RenderState ω) :
    (failAt pos kind : Render ω α).run s =
      (.error (.error (.render s.frame.template.name pos kind)), s) := rfl

/-- Beyond the limit nothing is run. -/
theorem run_deeper_of_limit (inner : Option (Runner ω)) (pos : Position)
    (k : Runner ω → Render ω α) {s : RenderState ω} (h : maxDepth ≤ s.depth) :
    (deeper inner pos k).run s =
      (.error (.error (.render s.frame.template.name pos (.recursionLimit maxDepth))), s) := by
  have he : (enter pos : Render ω Unit).run s = (failAt pos (.recursionLimit maxDepth)).run s := by
    simp [enter, run_bind, h]
  exact run_bind_error (he.trans (run_failAt pos _ s)) _

/-- Below the limit the code is run with the count one higher. -/
theorem run_deeper_of_lt (inner : Option (Runner ω)) (pos : Position)
    (k : Runner ω → Render ω α) {s : RenderState ω} (h : s.depth < maxDepth) :
    (deeper inner pos k).run s =
      (ending (match inner with
        | some runner => k runner
        | none => throw .exhausted) leave).run { s with depth := s.depth + 1 } := by
  have he : (enter pos : Render ω Unit).run s = (.ok ⟨⟩, { s with depth := s.depth + 1 }) := by
    simp [enter, run_bind, Nat.not_le.mpr h]
  exact run_bind_ok he _

end Render

/-! ## §2. Keeping a view -/

section Keeps

variable {ω α β σ τ : Type}

/-- Whether a part of a render leaves what a view shows of the state as it was, however it ends. -/
def Keeps (view : RenderState ω → σ) (x : Render ω α) : Prop :=
  ∀ s, view (x.run s).2 = view s

namespace Keeps

variable {view : RenderState ω → σ}

/-- What shows less is kept too. -/
theorem mono {x : Render ω α} (h : Keeps view x) (g : σ → τ) : Keeps (g ∘ view) x :=
  fun s => congrArg g (h s)

theorem pure (a : α) : Keeps view (Pure.pure a : Render ω α) := fun _ => rfl

theorem throw (e : Failure) : Keeps view (MonadExcept.throw e : Render ω α) := fun _ => rfl

theorem get : Keeps view (MonadState.get : Render ω (RenderState ω)) := fun _ => rfl

theorem bind {x : Render ω α} {f : α → Render ω β} (hx : Keeps view x)
    (hf : ∀ a, Keeps view (f a)) : Keeps view (x >>= f) := by
  intro s
  have hs := hx s
  rw [Render.run_bind]
  -- A failure ends here, and the view is what it was after `x`; a result goes on to `f`.
  rcases hr : x.run s with ⟨_ | a, t⟩
  · rw [hr] at hs
    exact hs
  · rw [hr] at hs
    exact (hf a t).trans hs

theorem map {x : Render ω α} (hx : Keeps view x) (f : α → β) : Keeps view (f <$> x) := by
  intro s
  rw [Render.run_map]
  exact hx s

/-- Reading the state first, with what comes after it kept from that state on. -/
theorem get_bind {f : RenderState ω → Render ω α}
    (h : ∀ s, view ((f s).run s).2 = view s) : Keeps view (MonadState.get >>= f) := by
  intro s
  rw [Render.run_bind_ok (Render.run_get s)]
  exact h s

theorem frame : Keeps view (Render.frame : Render ω (Frame ω)) :=
  bind get fun _ => pure _

theorem fail (e : Error) : Keeps view (Render.fail e : Render ω α) := throw _

theorem failAt (pos : Position) (kind : RenderErrorKind) :
    Keeps view (Render.failAt pos kind : Render ω α) :=
  bind frame fun _ => fail _

theorem ofCall (pos : Position) (name : String) (r : Except String α) :
    Keeps view (Render.ofCall pos name r : Render ω α) := by
  cases r with
  | error message => exact failAt pos _
  | ok a => exact pure a

/-- What is captured goes to an output of its own; the view must not show the output. -/
theorem capture {x : Render ω Unit} (hx : Keeps view x)
    (hview : ∀ s o, view { s with output := o } = view s) : Keeps view (Render.capture x) := by
  intro s
  show view { (x.run { s with output := ⟨[], none⟩ }).2 with output := s.output } = view s
  rw [hview, hx, hview]

/-- Writing is kept by a view that does not show the output. -/
theorem write (text : String) (hview : ∀ s o, view { s with output := o } = view s) :
    Keeps view (Render.write text : Render ω Unit) := by
  apply get_bind
  intro s
  by_cases h : text.isEmpty
  · simp [h]
  -- An output is unlimited, full, or has room for some texts more.
  · rcases hr : s.output.room with _ | _ | n
    · simpa [h] using hview s _
    · simp [h, Render.fail]
    · simpa [h] using hview s _

end Keeps

end Keeps

/-! ## §3. Standing and surroundings -/

/-- What the running code works in, and how it is to be run. -/
structure Standing (ω : Type) where
  frame : Frame ω
  depth : Nat
  lenient : Bool

namespace Standing

variable {ω : Type}

/-- The standing apart from the variables of the innermost layer. -/
def outside (p : Standing ω) : Standing ω :=
  { p with frame := { p.frame with scope := { p.frame.scope with innermost := [] } } }

/-- The standing apart from the frame. -/
def counts (p : Standing ω) : Nat × Bool :=
  (p.depth, p.lenient)

end Standing

namespace RenderState

variable {ω : Type}

/-- The frame, the count of open constructs and the policy for undefined variables. -/
def standing (s : RenderState ω) : Standing ω :=
  ⟨s.frame, s.depth, s.lenient⟩

/-- The standing apart from the variables of the innermost layer. -/
def surroundings (s : RenderState ω) : Standing ω :=
  s.standing.outside

theorem standing_eq_iff {s t : RenderState ω} :
    t.standing = s.standing ↔ t.frame = s.frame ∧ t.depth = s.depth ∧ t.lenient = s.lenient := by
  simp [standing]

/-- Surroundings agree when all but the variables of the innermost layer does. -/
theorem surroundings_eq_iff {s t : RenderState ω} :
    t.surroundings = s.surroundings ↔
      t.frame.template = s.frame.template ∧ t.frame.scope.root = s.frame.scope.root ∧
        t.frame.scope.below = s.frame.scope.below ∧ t.frame.blocks = s.frame.blocks ∧
        t.frame.current = s.frame.current ∧ t.depth = s.depth ∧ t.lenient = s.lenient := by
  simp [surroundings, standing, Standing.outside, and_assoc]

end RenderState

open RenderState in
/-- What keeps the standing keeps the surroundings. -/
theorem Keeps.toSurroundings {ω α : Type} {x : Render ω α} (h : Keeps standing x) :
    Keeps surroundings x :=
  h.mono Standing.outside

end Stencil
