import Stencil.Proofs.Render.Closure

/-!
Where nothing is strict.

The environment says whether undefined variables are errors, and a flag of the state says that they
are not for now.  In an environment in which they never are the flag is of no account: a render does
the same with it and without it.  So what is done leniently is done as ever, there and wherever the
flag is up already.
-/

namespace Stencil

variable {ω α β : Type}

/-- The state with the flag up or down. -/
def RenderState.withLenient (s : RenderState ω) (b : Bool) : RenderState ω :=
  { s with lenient := b }

/-- Whether undefined variables are null in a state: because the environment says so, or because the
flag is up. -/
def RenderState.IsLenient (env : Environment ω) (s : RenderState ω) : Prop :=
  env.undefined = .lenient ∨ s.lenient = true

namespace Render

/-! ## §1. Parts of renders that do not look at the flag -/

/-- A part of a render that does the same with the flag and without it, and leaves it alone. -/
def Indifferent (x : Render ω α) : Prop :=
  ∀ s b, x.run (s.withLenient b) = ((x.run s).1, (x.run s).2.withLenient b)

namespace Indifferent

variable {x : Render ω α}

theorem pure (a : α) : Indifferent (Pure.pure a : Render ω α) := fun _ _ => rfl

theorem throw (e : Failure) : Indifferent (MonadExcept.throw e : Render ω α) := fun _ _ => rfl

theorem bind {f : α → Render ω β} (hx : Indifferent x) (hf : ∀ a, Indifferent (f a)) :
    Indifferent (x >>= f) := by
  intro s b
  have h := hx s b
  rcases hr : x.run s with ⟨e | a, t⟩
  · rw [hr] at h
    rw [run_bind_error hr, run_bind_error h]
  · rw [hr] at h
    rw [run_bind_ok hr, run_bind_ok h]
    exact hf a t b

theorem frame : Indifferent (Render.frame : Render ω (Frame ω)) := fun _ _ => rfl

theorem changeFrame (f : Frame ω → Frame ω) : Indifferent (Render.changeFrame f) := fun _ _ => rfl

theorem write (text : String) : Indifferent (Render.write text : Render ω Unit) := by
  intro s b
  unfold Render.write
  rw [run_bind_ok (run_get s), run_bind_ok (run_get (s.withLenient b))]
  have houtput : (s.withLenient b).output = s.output := rfl
  rw [houtput]
  split
  · rfl
  · split <;> rfl

theorem meet (v : Value ω) : Indifferent (Render.meet v) := fun _ _ => rfl

theorem load (env : Environment ω) (name : String) : Indifferent (Render.load env name) :=
  fun s b => run_load_change env name (·.withLenient b) (fun _ _ _ => rfl) s

theorem loadIfThere (env : Environment ω) (name : String) :
    Indifferent (Render.loadIfThere env name) := by
  intro s b
  rw [run_loadIfThere, run_loadIfThere, load env name s b]

theorem capture {x : Render ω Unit} (hx : Indifferent x) : Indifferent (Render.capture x) := by
  intro s b
  have h := hx { s with output := ⟨[], none⟩ } b
  have hentered : ({ s.withLenient b with output := ⟨[], none⟩ } : RenderState ω) =
      RenderState.withLenient { s with output := ⟨[], none⟩ } b := rfl
  rw [run_capture, run_capture, hentered, h]
  rfl

/-- The flag that is up before is none of the flag that a lenient operand puts up. -/
theorem leniently (x : Render ω α) : Indifferent (Render.leniently x) := fun _ _ => rfl

theorem inFrame (enter : Frame ω → Frame ω) (leave : Frame ω → Frame ω → Frame ω)
    (hx : Indifferent x) : Indifferent (Render.inFrame enter leave x) := by
  intro s b
  have h := hx { s with frame := enter s.frame } b
  have hrun : ∀ u : RenderState ω, (Render.inFrame enter leave x).run u =
      let inside := x.run { u with frame := enter u.frame }
      (inside.1, { inside.2 with frame := leave u.frame inside.2.frame }) := fun _ => rfl
  have hentered : ({ s.withLenient b with frame := enter (s.withLenient b).frame } :
      RenderState ω) = RenderState.withLenient { s with frame := enter s.frame } b := rfl
  rw [hrun, hrun, hentered, h]
  rfl

theorem deeper {inner : Option (Runner ω)} (pos : Position) {k : Runner ω → Render ω α}
    (hk : ∀ r ∈ inner, Indifferent (k r)) : Indifferent (Render.deeper inner pos k) := by
  intro s b
  by_cases hlimit : maxDepth ≤ s.depth
  · have hlimit' : maxDepth ≤ (s.withLenient b).depth := hlimit
    rw [run_deeper_of_limit _ _ _ hlimit, run_deeper_of_limit _ _ _ hlimit']
    rfl
  · have hlt : s.depth < maxDepth := Nat.lt_of_not_le hlimit
    have hlt' : (s.withLenient b).depth < maxDepth := hlt
    rw [run_deeper_of_lt _ _ _ hlt, run_deeper_of_lt _ _ _ hlt', run_ending, run_ending]
    have hentered : ({ s.withLenient b with depth := (s.withLenient b).depth + 1 } :
        RenderState ω) = RenderState.withLenient { s with depth := s.depth + 1 } b := rfl
    rw [hentered]
    cases inner with
    | none => rfl
    | some r =>
      dsimp only
      rw [hk r rfl { s with depth := s.depth + 1 } b]
      rfl

end Indifferent

/-! ## §2. Renders in a lenient environment -/

variable {env : Environment ω}

theorem indifferent_undefined (h : env.undefined = .lenient) (pos : Position) (name : String) :
    Indifferent (undefined env pos name) := by
  have hnull : undefined env pos name = (do
      let _ ← (get : Render ω (RenderState ω))
      pure Value.null) := by
    unfold undefined
    congr 1
    funext s
    rw [if_neg (by simp [h])]
  rw [hnull]
  intro s b
  rfl

theorem closed_indifferent (h : env.undefined = .lenient) : Closed env Indifferent where
  pure := .pure
  throw := .throw
  bind := .bind
  frame := .frame
  changeFrame := .changeFrame
  undefined := indifferent_undefined h
  write := .write
  meet := .meet
  load := .load env
  loadIfThere := .loadIfThere env
  capture := .capture
  leniently := fun _ => .leniently _
  inFrame := .inFrame
  deeper := fun _ pos _ hk => .deeper pos hk

/-- Where undefined variables are null anyway, what is done leniently is done as ever. -/
theorem leniently_of_isLenient [HostObject ω] {n : Nat} {x : Render ω α} (hmoves : Moves env n x)
    (hkeeps : Keeps RenderState.standing x) {s : RenderState ω}
    (h : s.IsLenient env) : (leniently x).run s = x.run s := by
  -- The flag comes back as it was, whichever way it is put up.
  have hflag : (x.run s).2.lenient = s.lenient :=
    (RenderState.standing_eq_iff.mp (hkeeps s)).2.2
  have hrun : (leniently x).run s =
      ((x.run (s.withLenient true)).1, (x.run (s.withLenient true)).2.withLenient s.lenient) := rfl
  rw [hrun]
  rcases h with hlenient | hup
  · rw [(closed_indifferent hlenient).of_moves hmoves s true, ← hflag]
    rfl
  · have hself : s.withLenient true = s := by
      rw [← hup]
      rfl
    rw [hself, ← hflag]
    rfl

end Render

end Stencil
