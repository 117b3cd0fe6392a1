import Stencil.Proofs.Render.Keeps
import Stencil.Proofs.Value.Rename

/-!
Two renders in tandem.

Two renders that run the same code may differ in what the code cannot see: the number under which an
object was met, the requests made before, what has been written.  As long as both are in states that
match, they do the same, and their results match.  They may also be allowed to part: the first one
ends with one of certain errors where the second one goes on.  Then the first is behind: all that it
has written and requested is the beginning of what the second has, whatever the second does next.

`Tandem.InStep` is this judgement about two parts of renders.  It is closed under everything that
renders are built with, so that each construct is looked at once.
-/

namespace Stencil

/-! ## §1. States that match -/

instance {ω : Type} : Rename (Frame ω) where
  rename f fr := { fr with scope := rename f fr.scope }
  rename_id fr := by simp

/-- In what two renders that run in tandem may differ. -/
structure Tandem where
  /-- The number that the second render has for an object that the first one met. -/
  number : Nat → Nat
  number_injective : Function.Injective number
  /-- The errors at which the first render may end while the second one goes on. -/
  parts : Error → Prop
  /-- Renders that may part have the same numbers. -/
  number_of_parts : ∀ {e}, parts e → number = id
  /-- A template that is not found may be passed over, which is no way to part. -/
  found_of_parts : ∀ {e}, parts e → e.isNotFound = false
  /-- What the requests so far have to do with each other. -/
  requests : List String → List String → Prop
  requests_cons : ∀ {q r} name, requests q r → requests (name :: q) (name :: r)

namespace Tandem

variable {ω : Type} (τ : Tandem)

/-- States of two renders between which the code that runs sees no difference, with outputs that
are related. -/
structure Matched (out : Output → Output → Prop) (s t : RenderState ω) : Prop where
  frame : t.frame = rename τ.number s.frame
  depth : t.depth = s.depth
  lenient : t.lenient = s.lenient
  loaded : t.loaded = s.loaded
  requests : τ.requests s.requests t.requests
  output : out s.output t.output
  met : ∀ i, τ.number (s.met + i) = t.met + i

/-- The first render has ended at a point that the second one has come past. -/
structure Behind (out : Output → Output → Prop) (s t : RenderState ω) : Prop where
  written : ∃ o, out s.output o ∧ o.written <:+ t.output.written
  requested : ∃ q, τ.requests s.requests q ∧ q <:+ t.requests

variable {τ} {out : Output → Output → Prop} {s t u : RenderState ω}

theorem Matched.behind (h : τ.Matched out s t) : τ.Behind out s t :=
  ⟨⟨t.output, h.output, List.suffix_refl _⟩, ⟨t.requests, h.requests, List.suffix_refl _⟩⟩

/-- Nothing that was written or requested is taken back. -/
def Extends (s t : RenderState ω) : Prop :=
  s.output.written <:+ t.output.written ∧ s.requests <:+ t.requests

theorem Extends.refl (s : RenderState ω) : Extends s s :=
  ⟨List.suffix_refl _, List.suffix_refl _⟩

theorem Extends.trans (h : Extends s t) (h' : Extends t u) : Extends s u :=
  ⟨h.1.trans h'.1, h.2.trans h'.2⟩

theorem Behind.mono (h : τ.Behind out s t) (h' : Extends t u) : τ.Behind out s u := by
  obtain ⟨⟨o, ho, hsub⟩, q, hq, hsub'⟩ := h
  exact ⟨⟨o, ho, hsub.trans h'.1⟩, q, hq, hsub'.trans h'.2⟩

/-! ## §2. Parts of renders that run in step -/

variable {α β : Type} [Rename α] [Rename β]

variable (τ) in
/-- How two parts of renders end that were in step. -/
inductive Ends (out : Output → Output → Prop) :
    Except Failure α × RenderState ω → Except Failure α × RenderState ω → Prop
  /-- The results are the same up to numbers, and the states match again. -/
  | both {r r' s t} (result : r' = rename τ.number r) (states : τ.Matched out s t) :
    Ends out (r, s) (r', t)
  /-- The first one has ended with an error at which they may part. -/
  | apart {e s r t} (parts : τ.parts e) (behind : τ.Behind out s t) :
    Ends out (.error (.error e), s) (r, t)

/-- The states can be changed when both have ended. -/
theorem Ends.after {p q : Except Failure α × RenderState ω} (h : τ.Ends out p q)
    {f g : RenderState ω → RenderState ω}
    (hmatched : τ.Matched out p.2 q.2 → τ.Matched out (f p.2) (g q.2))
    (hbehind : τ.Behind out p.2 q.2 → τ.Behind out (f p.2) (g q.2)) :
    τ.Ends out (p.1, f p.2) (q.1, g q.2) := by
  cases h with
  | both result states => exact .both result (hmatched states)
  | apart parts behind => exact .apart parts (hbehind behind)

variable (τ) in
/-- Whether two parts of renders do the same, run in states that match, unless they part. -/
structure InStep (out : Output → Output → Prop) (x y : Render ω α) : Prop where
  ends : ∀ {s t}, τ.Matched out s t → τ.Ends out (x.run s) (y.run t)
  /-- The second one can be left alone where they may have parted. -/
  grows : ∀ {e}, τ.parts e → ∀ t, Extends t (y.run t).2

namespace InStep

open Render (run_bind run_bind_ok run_bind_error run_pure run_throw run_get)

variable {x y : Render ω α}

theorem of_pure {a b : α} (h : b = rename τ.number a) :
    τ.InStep out (Pure.pure a : Render ω α) (Pure.pure b) :=
  ⟨fun m => .both (congrArg Except.ok h) m, fun _ t => .refl t⟩

/-- The same result, where there are no identities in it. -/
theorem pure (a : α) (h : rename τ.number a = a) :
    τ.InStep out (Pure.pure a : Render ω α) (Pure.pure a) :=
  of_pure h.symm

theorem throw (e : Failure) : τ.InStep out (MonadExcept.throw e : Render ω α) (throw e) :=
  ⟨fun m => .both rfl m, fun _ t => .refl t⟩

theorem bind {f g : α → Render ω β} (hx : τ.InStep out x y)
    (hf : ∀ a, τ.InStep out (f a) (g (rename τ.number a))) : τ.InStep out (x >>= f) (y >>= g) := by
  -- Where the renders may part every result is its own renaming, so `hf` covers all results of `y`.
  have hgrows : ∀ {e}, τ.parts e → ∀ b t, Extends t ((g b).run t).2 := by
    intro e he b t
    have h := (hf b).grows he t
    rwa [τ.number_of_parts he, Rename.rename_id] at h
  constructor
  · intro s t m
    have h := hx.ends m
    rw [run_bind, run_bind]
    rcases hr : x.run s with ⟨r, s'⟩
    rcases hr' : y.run t with ⟨r', t'⟩
    rw [hr, hr'] at h
    cases h with
    | both result states =>
      subst result
      cases r with
      | ok a => exact (hf a).ends states
      | error e => exact .both rfl states
    | apart parts behind =>
      cases r' with
      | ok b => exact .apart parts (behind.mono (hgrows parts b t'))
      | error e => exact .apart parts behind
  · intro e he t
    have h := hx.grows he t
    rw [run_bind]
    rcases hr : y.run t with ⟨_ | b, t'⟩
    · rwa [hr] at h
    · rw [hr] at h
      exact h.trans (hgrows he b t')

theorem map {f g : α → β} (hx : τ.InStep out x y)
    (hf : ∀ a, g (rename τ.number a) = rename τ.number (f a)) :
    τ.InStep out (f <$> x) (g <$> y) := by
  rw [map_eq_pure_bind, map_eq_pure_bind]
  exact hx.bind fun a => of_pure (hf a)

/-- Reading the states first. -/
theorem get_bind {f g : RenderState ω → Render ω α}
    (h : ∀ {s t}, τ.Matched out s t → τ.Ends out ((f s).run s) ((g t).run t))
    (hgrows : ∀ {e}, τ.parts e → ∀ t, Extends t ((g t).run t).2) :
    τ.InStep out (MonadState.get >>= f) (MonadState.get >>= g) := by
  constructor
  · intro s t m
    rw [run_bind_ok (run_get s), run_bind_ok (run_get t)]
    exact h m
  · intro e he t
    rw [run_bind_ok (run_get t)]
    exact hgrows he t

/-- Two runs that begin in step when the states match. -/
theorem get_bind_of {f g : RenderState ω → Render ω α}
    (h : ∀ s t : RenderState ω, t.lenient = s.lenient → τ.InStep out (f s) (g t)) :
    τ.InStep out (MonadState.get >>= f) (MonadState.get >>= g) :=
  get_bind (fun m => (h _ _ m.lenient).ends m) fun he t => (h t t rfl).grows he t

/-! ## §3. Frames and failures -/

theorem frame : τ.InStep out (Render.frame : Render ω (Frame ω)) Render.frame :=
  get_bind (fun m => .both (congrArg Except.ok m.frame) m) fun _ t => .refl t

theorem changeFrame {f g : Frame ω → Frame ω}
    (h : ∀ fr, g (rename τ.number fr) = rename τ.number (f fr)) :
    τ.InStep out (Render.changeFrame f) (Render.changeFrame g) := by
  constructor
  · intro s t m
    refine .both rfl ⟨?_, m.depth, m.lenient, m.loaded, m.requests, m.output, m.met⟩
    show g t.frame = _
    rw [m.frame, h]
  · exact fun _ t => ⟨List.suffix_refl _, List.suffix_refl _⟩

theorem assign (name : String) (v : Value ω) :
    τ.InStep out (Render.assign name v) (Render.assign name (rename τ.number v)) :=
  changeFrame fun fr =>
    congrArg (fun scope => { fr with scope := scope }) (Scope.rename_assign _ fr.scope name v).symm

theorem fail (e : Error) : τ.InStep out (Render.fail e : Render ω α) (Render.fail e) := throw _

theorem failAt (pos : Position) (kind : RenderErrorKind) :
    τ.InStep out (Render.failAt pos kind : Render ω α) (Render.failAt pos kind) :=
  bind frame fun _ => fail _

theorem ofCall (pos : Position) (name : String) {r r' : Except String α}
    (h : r' = rename τ.number r) :
    τ.InStep out (Render.ofCall pos name r : Render ω α) (Render.ofCall pos name r') := by
  subst h
  cases r with
  | ok a => exact of_pure rfl
  | error message => exact failAt pos _

/-! ## §4. Constructs that undo a change -/

/-- Changing both states alike when the code has ended. -/
theorem ending {f g : RenderState ω → RenderState ω} (hx : τ.InStep out x y)
    (hmatch : ∀ {s t}, τ.Matched out s t → τ.Matched out (f s) (g t))
    (hleft : ∀ s, (f s).output = s.output ∧ (f s).requests = s.requests)
    (hright : ∀ t, (g t).output = t.output ∧ (g t).requests = t.requests) :
    τ.InStep out (Render.ending x f) (Render.ending y g) := by
  constructor
  · intro s t m
    refine (hx.ends m).after hmatch fun behind => ⟨?_, ?_⟩
    · rw [(hleft _).1, (hright _).1]
      exact behind.written
    · rw [(hleft _).2, (hright _).2]
      exact behind.requested
  · intro e he t
    have h := hx.grows he t
    rw [Render.run_ending]
    rwa [Extends, (hright _).1, (hright _).2]

/-- Code that runs in a frame of its own. -/
theorem within {f g : Frame ω → Frame ω}
    (h : ∀ fr, g (rename τ.number fr) = rename τ.number (f fr)) (hx : τ.InStep out x y) :
    τ.InStep out (Render.within f x) (Render.within g y) := by
  constructor
  · intro s t m
    have minner : τ.Matched out { s with frame := f s.frame } { t with frame := g t.frame } := by
      refine ⟨?_, m.depth, m.lenient, m.loaded, m.requests, m.output, m.met⟩
      show g t.frame = _
      rw [m.frame, h]
    refine (hx.ends minner).after (f := fun u => { u with frame := s.frame })
      (g := fun u => { u with frame := t.frame }) (fun m' => ?_) fun behind => ?_
    · exact ⟨m.frame, m'.depth, m'.lenient, m'.loaded, m'.requests, m'.output, m'.met⟩
    · exact ⟨behind.written, behind.requested⟩
  · intro e he t
    exact hx.grows he { t with frame := g t.frame }

/-- What is captured has an output of its own, the same in both renders. -/
theorem capture {x y : Render ω Unit} (hx : τ.InStep Eq x y) :
    τ.InStep out (Render.capture x) (Render.capture y) := by
  constructor
  · intro s t m
    have minner : τ.Matched Eq { s with output := ⟨[], none⟩ } { t with output := ⟨[], none⟩ } :=
      ⟨m.frame, m.depth, m.lenient, m.loaded, m.requests, rfl, m.met⟩
    have hends := hx.ends minner
    rw [Render.run_capture, Render.run_capture]
    rcases hr : x.run { s with output := ⟨[], none⟩ } with ⟨r, s'⟩
    rcases hr' : y.run { t with output := ⟨[], none⟩ } with ⟨r', t'⟩
    rw [hr, hr'] at hends
    cases hends with
    | both result states =>
      refine .both ?_ ⟨states.frame, states.depth, states.lenient, states.loaded, states.requests,
        m.output, states.met⟩
      have houtput : s'.output = t'.output := states.output
      rw [result, houtput]
      cases r <;> rfl
    | apart parts behind =>
      -- The captured text is dropped, and what was written outside is still the same.
      exact .apart parts ⟨⟨t.output, m.output, List.suffix_refl _⟩, behind.requested⟩
  · intro e he t
    have h := hx.grows he { t with output := ⟨[], none⟩ }
    rw [Render.run_capture]
    exact ⟨List.suffix_refl _, h.2⟩

theorem leniently (hx : τ.InStep out x y) :
    τ.InStep out (Render.leniently x) (Render.leniently y) := by
  apply get_bind_of
  intro s t hlenient
  refine bind (f := fun _ => Render.ending x fun u => { u with lenient := s.lenient })
    (g := fun _ => Render.ending y fun u => { u with lenient := t.lenient }) ?_ fun _ => ?_
  · exact ⟨fun m => .both rfl ⟨m.frame, m.depth, rfl, m.loaded, m.requests, m.output, m.met⟩,
      fun _ u => ⟨List.suffix_refl _, List.suffix_refl _⟩⟩
  · refine ending hx (fun m => ?_) (fun _ => ⟨rfl, rfl⟩) fun _ => ⟨rfl, rfl⟩
    exact ⟨m.frame, m.depth, hlenient, m.loaded, m.requests, m.output, m.met⟩

theorem inLayer {layer layer' : Table (Value ω)} (h : layer' = rename τ.number layer)
    (hx : τ.InStep out x y) :
    τ.InStep out (Render.inLayer layer x) (Render.inLayer layer' y) := by
  subst h
  refine bind (changeFrame fun fr => rfl) fun _ => ?_
  refine ending hx (fun m => ?_) (fun _ => ⟨rfl, rfl⟩) fun _ => ⟨rfl, rfl⟩
  refine ⟨?_, m.depth, m.lenient, m.loaded, m.requests, m.output, m.met⟩
  simp only [m.frame]
  exact congrArg (fun scope => Frame.mk _ scope _ _) (Scope.rename_pop _ _).symm

end InStep

/-! ## §5. Runners -/

variable (τ) in
/-- Outputs stay related as texts are written to both. -/
def Writable (ω : Type) (out : Output → Output → Prop) : Prop :=
  ∀ text, τ.InStep out (Render.write text : Render ω Unit) (Render.write text)

/-- Equal outputs stay equal, or are full together. -/
theorem writable_eq : τ.Writable ω Eq := by
  intro text
  apply InStep.get_bind
  · intro s t m
    by_cases h : text.isEmpty
    · simp only [h, if_true]
      exact .both rfl m
    · have houtput : s.output = t.output := m.output
      simp only [h, houtput]
      rcases hr : t.output.room with _ | _ | n
      · exact .both rfl ⟨m.frame, m.depth, m.lenient, m.loaded, m.requests, rfl, m.met⟩
      · exact .both rfl m
      · exact .both rfl ⟨m.frame, m.depth, m.lenient, m.loaded, m.requests, rfl, m.met⟩
  · intro e _ t
    by_cases h : text.isEmpty
    · simp only [h, if_true]
      exact .refl t
    · simp only [h]
      rcases hr : t.output.room with _ | _ | n
      · exact ⟨List.suffix_cons _ _, List.suffix_refl _⟩
      · exact .refl t
      · exact ⟨List.suffix_cons _ _, List.suffix_refl _⟩

variable (τ) in
/-- Two runners whose code runs in step: expressions whatever has been written, as they write
nothing but what they capture, and bodies as long as the outputs stay related. -/
structure Runners (r r' : Render.Runner ω) : Prop where
  eval : ∀ {out : Output → Output → Prop} e, τ.InStep out (r.eval e) (r'.eval e)
  body : ∀ {out : Output → Output → Prop}, τ.Writable ω out → ∀ ss,
    τ.InStep out (r.body ss) (r'.body ss)

variable (τ) in
/-- The runners of one level deeper: there is none, or there are two that run in step. -/
abbrev Inner (inner inner' : Option (Render.Runner ω)) : Prop :=
  Option.Rel τ.Runners inner inner'

namespace InStep

open Render (run_bind_ok run_pure run_throw run_get)

variable {inner inner' : Option (Render.Runner ω)}

/-- Both go one level deeper, or both meet the limit. -/
theorem deeper (hinner : τ.Inner inner inner') (pos : Position)
    {k k' : Render.Runner ω → Render ω α}
    (hk : ∀ {r r'}, τ.Runners r r' → τ.InStep out (k r) (k' r')) :
    τ.InStep out (Render.deeper inner pos k) (Render.deeper inner' pos k') := by
  have henter : τ.InStep out (Render.enter pos : Render ω Unit) (Render.enter pos) := by
    apply get_bind
    · intro s t m
      simp only [m.depth]
      split
      · exact (failAt pos _).ends m
      · exact .both rfl
          ⟨m.frame, congrArg (· + 1) m.depth, m.lenient, m.loaded, m.requests, m.output, m.met⟩
    · intro e he t
      split
      · exact (failAt pos _ : τ.InStep out _ _).grows he t
      · exact ⟨List.suffix_refl _, List.suffix_refl _⟩
  have hleave : ∀ {x y : Render ω α}, τ.InStep out x y →
      τ.InStep out (Render.ending x Render.leave) (Render.ending y Render.leave) := by
    intro x y hx
    refine ending hx (fun m => ?_) (fun _ => ⟨rfl, rfl⟩) fun _ => ⟨rfl, rfl⟩
    exact ⟨m.frame, congrArg (· - 1) m.depth, m.lenient, m.loaded, m.requests, m.output, m.met⟩
  refine bind henter fun _ => ?_
  cases hinner with
  | some h => exact hleave (hk h)
  | none => exact hleave (throw _)

end InStep

end Tandem

end Stencil
