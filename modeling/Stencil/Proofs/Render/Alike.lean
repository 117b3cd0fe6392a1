import Stencil.Proofs.Render.Moves
import Stencil.Proofs.Render.Relocation

/-!
Two renders of which the second one runs copies.

Two renders of one environment go side by side.  Most of the time both run the same code in the same
template.  Where a block has a copy in another template, the first render may run the block and the
second one the copy: then their frames differ in the template, and the definitions of blocks that
they know differ in the same way.  Code that does not ask for its template cannot see this.

`Alike` is the judgement that two parts of renders do the same, run in states that match in this
sense: both come to the same result, with states that match again, or both fail.  Why they fail may
differ, as errors tell where they come from.  It is closed under everything that renders are built
with, so that each construct is looked at once.
-/

namespace Stencil

/-! ## §1. Environments that always answer the same -/

variable {ω α β : Type}

/-- The answer to a request in an environment whose templates come from a table. -/
def Environment.answer (env : Environment ω) (name : String) : Except Failure LiveTemplate :=
  (env.template name).map fun t => ⟨t, .loaded⟩

/-- What was loaded is what a request for its name is answered with. -/
def RenderState.Answered (env : Environment ω) (s : RenderState ω) : Prop :=
  ∀ name t, s.loaded.find? name = some t → env.answer name = .ok t

theorem Environment.answered_startState (env : Environment ω) (t : LiveTemplate)
    (context : Context ω) (room : Option Nat) (requests : List String) :
    (startState t context room requests).Answered env :=
  fun _ _ h => nomatch h

/-- The answer to a request does not depend on the requests before it. -/
def Environment.Steady (env : Environment ω) : Prop :=
  ∀ requests name, env.source requests name = env.source [] name

namespace Render

variable {env : Environment ω}

/-- Loading a template keeps all of the state but what has been loaded and requested. -/
theorem run_load_of_steady (steady : env.Steady) (name : String) {s : RenderState ω}
    (hs : s.Answered env) :
    ∃ loaded requests, (load env name).run s =
        (env.answer name, { s with loaded := loaded, requests := requests }) ∧
      ({ s with loaded := loaded, requests := requests } : RenderState ω).Answered env := by
  rw [run_load]
  cases hfind : s.loaded.find? name with
  | some t =>
    rw [hs name t hfind]
    exact ⟨s.loaded, s.requests, rfl, hs⟩
  | none =>
    rw [steady s.requests name]
    cases hsource : env.source [] name with
    | error e =>
      refine ⟨s.loaded, name :: s.requests, ?_, hs⟩
      simp only [Environment.answer, Environment.template, hsource]
      rfl
    | ok source =>
      cases hprepare : env.prepare name source with
      | error failure =>
        refine ⟨s.loaded, name :: s.requests, ?_, hs⟩
        simp only [Environment.answer, Environment.template, hsource, hprepare]
        rfl
      | ok t =>
        have hanswer : env.answer name = .ok ⟨t, .loaded⟩ := by
          simp only [Environment.answer, Environment.template, hsource, hprepare]
          rfl
        refine ⟨s.loaded.insert name ⟨t, .loaded⟩, name :: s.requests, ?_, fun name' t' h => ?_⟩
        · simp only [hanswer, hprepare]
        · by_cases heq : name = name'
          · subst heq
            rw [Table.find?_insert_self] at h
            cases h
            exact hanswer
          · rw [Table.find?_insert_ne _ _ heq] at h
            exact hs name' t' h

end Render

/-! ## §2. States that match -/

/-- How code gets from one template into another one: the places that its nodes come to stand at,
the numbers that its blocks get, and which blocks are copied. -/
structure Relocation where
  source : LiveTemplate
  target : LiveTemplate
  move : Position → Position
  number : DefinitionId → DefinitionId
  copied : DefinitionId → Prop

/-- What two renders run: the same code, or code and its copy. -/
inductive Pairing
  | same
  | copy

namespace Relocation

variable (ρ : Relocation)

/-- Where the second render finds the code that the first one has at a place. -/
def place : Pairing → Position → Position
  | .same => id
  | .copy => ρ.move

/-- Under which number the second render finds a block. -/
def numberOf : Pairing → DefinitionId → DefinitionId
  | .same => id
  | .copy => ρ.number

/-- The templates that code runs in. -/
def Templates : Pairing → LiveTemplate → LiveTemplate → Prop
  | .same, t, t' => t' = t
  | .copy, t, t' => t = ρ.source ∧ t' = ρ.target

/-- References to the same block, or to a block and its copy. -/
inductive Refs : BlockRef → BlockRef → Prop
  | same (r : BlockRef) : Refs r r
  | copy {id : DefinitionId} : ρ.copied id → Refs ⟨ρ.source, id⟩ ⟨ρ.target, ρ.number id⟩

/-- Compositions of the same names, each with references to the same block or to copies. -/
def Compositions (c c' : Composition) : Prop :=
  List.Forall₂ (fun entry entry' => entry'.1 = entry.1 ∧ ρ.Refs entry.2 entry'.2) c c'

/-- Frames between which the code that runs sees no difference. -/
structure Frames (π : Pairing) (f g : Frame ω) : Prop where
  templates : ρ.Templates π f.template g.template
  scope : g.scope = f.scope
  blocks : Option.Rel ρ.Compositions f.blocks g.blocks
  current : g.current = f.current

/-- States between which the code that runs sees no difference, with outputs that are related. -/
structure Matched (env : Environment ω) (π : Pairing) (out : Output → Output → Prop)
    (s t : RenderState ω) : Prop where
  frame : ρ.Frames π s.frame t.frame
  depth : t.depth = s.depth
  lenient : t.lenient = s.lenient
  met : t.met = s.met
  output : out s.output t.output
  left : s.Answered env
  right : t.Answered env

/-- How two parts of renders end that began in states that match. -/
inductive Ends (env : Environment ω) (π : Pairing) (out : Output → Output → Prop) :
    Except Failure α × RenderState ω → Except Failure α × RenderState ω → Prop
  /-- The results are the same, and the states match again. -/
  | both {s t : RenderState ω} (a : α) : ρ.Matched env π out s t →
    Ends env π out (.ok a, s) (.ok a, t)
  | failed {s t : RenderState ω} {e e' : Failure} : out s.output t.output →
    Ends env π out (.error e, s) (.error e', t)

/-- Whether two parts of renders do the same in states that match. -/
def Alike (env : Environment ω) (π : Pairing) (out : Output → Output → Prop)
    (x y : Render ω α) : Prop :=
  ∀ s t, ρ.Matched env π out s t → ρ.Ends env π out (x.run s) (y.run t)

variable {ρ} {env : Environment ω} {π π' : Pairing} {out : Output → Output → Prop}
  {s t : RenderState ω}

/-- The states can be changed when both have ended. -/
theorem Ends.after {p q : Except Failure α × RenderState ω} (h : ρ.Ends env π out p q)
    {π' : Pairing} {out' : Output → Output → Prop} {f g : RenderState ω → RenderState ω}
    (hmatched : ρ.Matched env π out p.2 q.2 → ρ.Matched env π' out' (f p.2) (g q.2))
    (hout : out p.2.output q.2.output → out' (f p.2).output (g q.2).output) :
    ρ.Ends env π' out' (p.1, f p.2) (q.1, g q.2) := by
  cases h with
  | both a states => exact .both a (hmatched states)
  | failed output => exact .failed (hout output)

/-! ## §3. Parts of renders that do the same -/

namespace Alike

open Render (run_bind run_bind_ok run_bind_error run_get)

variable {x y : Render ω α}

theorem pure (a : α) : ρ.Alike env π out (Pure.pure a : Render ω α) (Pure.pure a) :=
  fun _ _ m => .both a m

theorem throw (e e' : Failure) :
    ρ.Alike env π out (MonadExcept.throw e : Render ω α) (MonadExcept.throw e') :=
  fun _ _ m => .failed m.output

theorem bind {f g : α → Render ω β} (hx : ρ.Alike env π out x y)
    (hf : ∀ a, ρ.Alike env π out (f a) (g a)) : ρ.Alike env π out (x >>= f) (y >>= g) := by
  intro s t m
  have h := hx s t m
  rw [run_bind, run_bind]
  rcases hr : x.run s with ⟨r, s'⟩
  rcases hr' : y.run t with ⟨r', t'⟩
  rw [hr, hr'] at h
  cases h with
  | both a states => exact hf a s' t' states
  | failed output => exact .failed output

theorem map (f : α → β) (hx : ρ.Alike env π out x y) : ρ.Alike env π out (f <$> x) (f <$> y) := by
  rw [map_eq_pure_bind, map_eq_pure_bind]
  exact hx.bind fun a => pure (f a)

/-- Looking at the states first. -/
theorem get_bind {f g : RenderState ω → Render ω α}
    (h : ∀ s t, ρ.Matched env π out s t → ρ.Ends env π out ((f s).run s) ((g t).run t)) :
    ρ.Alike env π out (MonadState.get >>= f) (MonadState.get >>= g) := by
  intro s t m
  rw [run_bind_ok (run_get s), run_bind_ok (run_get t)]
  exact h s t m

/-- Looking at the frames first. -/
theorem frame_bind {f g : Frame ω → Render ω α}
    (h : ∀ fr fr', ρ.Frames π fr fr' → ρ.Alike env π out (f fr) (g fr')) :
    ρ.Alike env π out (Render.frame >>= f) (Render.frame >>= g) := by
  intro s t m
  rw [run_bind_ok (Render.run_frame s), run_bind_ok (Render.run_frame t)]
  exact h _ _ m.frame s t m

theorem changeFrame {f g : Frame ω → Frame ω}
    (h : ∀ fr fr', ρ.Frames π fr fr' → ρ.Frames π (f fr) (g fr')) :
    ρ.Alike env π out (Render.changeFrame f) (Render.changeFrame g) :=
  fun _ _ m => .both () ⟨h _ _ m.frame, m.depth, m.lenient, m.met, m.output, m.left, m.right⟩

theorem fail (e e' : Error) :
    ρ.Alike env π out (Render.fail e : Render ω α) (Render.fail e') :=
  throw _ _

theorem failAt (pos pos' : Position) (kind kind' : RenderErrorKind) :
    ρ.Alike env π out (Render.failAt pos kind : Render ω α) (Render.failAt pos' kind') :=
  frame_bind fun _ _ _ => fail _ _

theorem ofCall (pos pos' : Position) (name : String) (r : Except String α) :
    ρ.Alike env π out (Render.ofCall pos name r : Render ω α) (Render.ofCall pos' name r) := by
  cases r with
  | ok a => exact pure a
  | error message => exact failAt pos pos' _ _

/-- Assigning leaves the rest of the frames alone. -/
theorem assign (name : String) (v : Value ω) :
    ρ.Alike env π out (Render.assign name v) (Render.assign name v) :=
  changeFrame fun _ _ h => ⟨h.templates, by rw [h.scope], h.blocks, h.current⟩

theorem meet (v : Value ω) : ρ.Alike env π out (Render.meet v) (Render.meet v) := by
  apply get_bind
  intro s t m
  rw [m.met]
  exact .both _ ⟨m.frame, m.depth, m.lenient, rfl, m.output, m.left, m.right⟩

/-- Equal outputs stay equal, or are full together. -/
theorem write (text : String) :
    ρ.Alike env π Eq (Render.write text : Render ω Unit) (Render.write text) := by
  apply get_bind
  intro s t m
  rw [← m.output]
  by_cases hempty : text.isEmpty
  · rw [if_pos hempty, if_pos hempty]
    exact .both () m
  · rw [if_neg hempty, if_neg hempty]
    rcases s.output.room with _ | _ | n
    · exact .both () ⟨m.frame, m.depth, m.lenient, m.met, rfl, m.left, m.right⟩
    · exact .failed m.output
    · exact .both () ⟨m.frame, m.depth, m.lenient, m.met, rfl, m.left, m.right⟩

/-! ## §4. Constructs that undo a change -/

/-- Code in other frames: they may pair other code than those around them. -/
theorem inFrame (π' : Pairing) {enter enter' : Frame ω → Frame ω}
    {leave leave' : Frame ω → Frame ω → Frame ω}
    (henter : ∀ fr fr', ρ.Frames π fr fr' → ρ.Frames π' (enter fr) (enter' fr'))
    (hleave : ∀ fr fr' gr gr', ρ.Frames π fr fr' → ρ.Frames π' gr gr' →
      ρ.Frames π (leave fr gr) (leave' fr' gr'))
    (hx : ρ.Alike env π' out x y) :
    ρ.Alike env π out (Render.inFrame enter leave x) (Render.inFrame enter' leave' y) := by
  intro s t m
  have h := hx { s with frame := enter s.frame } { t with frame := enter' t.frame }
    ⟨henter _ _ m.frame, m.depth, m.lenient, m.met, m.output, m.left, m.right⟩
  refine h.after (f := fun u => { u with frame := leave s.frame u.frame })
    (g := fun u => { u with frame := leave' t.frame u.frame }) (fun m' => ?_) id
  exact ⟨hleave _ _ _ _ m.frame m'.frame, m'.depth, m'.lenient, m'.met, m'.output, m'.left,
    m'.right⟩

theorem within (π' : Pairing) {f g : Frame ω → Frame ω}
    (h : ∀ fr fr', ρ.Frames π fr fr' → ρ.Frames π' (f fr) (g fr'))
    (hx : ρ.Alike env π' out x y) :
    ρ.Alike env π out (Render.within f x) (Render.within g y) := by
  show ρ.Alike env π out (Render.inFrame f (fun before _ => before) x)
    (Render.inFrame g (fun before _ => before) y)
  exact inFrame π' h (fun _ _ _ _ hbefore _ => hbefore) hx

theorem inLayer (layer : Table (Value ω)) (hx : ρ.Alike env π out x y) :
    ρ.Alike env π out (Render.inLayer layer x) (Render.inLayer layer y) := by
  show ρ.Alike env π out
    (Render.inFrame (fun f => { f with scope := f.scope.push layer })
      (fun _ f => { f with scope := f.scope.pop }) x)
    (Render.inFrame (fun f => { f with scope := f.scope.push layer })
      (fun _ f => { f with scope := f.scope.pop }) y)
  exact inFrame π (fun _ _ h => ⟨h.templates, by rw [h.scope], h.blocks, h.current⟩)
    (fun _ _ _ _ _ h => ⟨h.templates, by rw [h.scope], h.blocks, h.current⟩) hx

/-- What is captured goes to outputs of their own, which are the same in both renders. -/
theorem capture {x y : Render ω Unit} (hx : ρ.Alike env π Eq x y) :
    ρ.Alike env π out (Render.capture x) (Render.capture y) := by
  intro s t m
  have h := hx { s with output := ⟨[], none⟩ } { t with output := ⟨[], none⟩ }
    ⟨m.frame, m.depth, m.lenient, m.met, rfl, m.left, m.right⟩
  rw [Render.run_capture, Render.run_capture]
  rcases hr : x.run { s with output := ⟨[], none⟩ } with ⟨r, s'⟩
  rcases hr' : y.run { t with output := ⟨[], none⟩ } with ⟨r', t'⟩
  rw [hr, hr'] at h
  cases h with
  | both a states =>
    have houtput : s'.output = t'.output := states.output
    simp only [houtput]
    exact .both _ ⟨states.frame, states.depth, states.lenient, states.met, m.output, states.left,
      states.right⟩
  | failed => exact .failed m.output

theorem leniently (hx : ρ.Alike env π out x y) :
    ρ.Alike env π out (Render.leniently x) (Render.leniently y) := by
  apply get_bind
  intro s t m
  have h := hx { s with lenient := true } { t with lenient := true }
    ⟨m.frame, m.depth, rfl, m.met, m.output, m.left, m.right⟩
  refine h.after (f := fun u => { u with lenient := s.lenient })
    (g := fun u => { u with lenient := t.lenient }) (fun m' => ?_) id
  exact ⟨m'.frame, m'.depth, m.lenient, m'.met, m'.output, m'.left, m'.right⟩

/-- Both go one level deeper, or both meet the limit. -/
theorem deeper {inner : Option (Render.Runner ω)} {pos pos' : Position}
    {k k' : Render.Runner ω → Render ω α}
    (hk : ∀ r ∈ inner, ρ.Alike env π out (k r) (k' r)) :
    ρ.Alike env π out (Render.deeper inner pos k) (Render.deeper inner pos' k') := by
  intro s t m
  by_cases hlimit : Render.maxDepth ≤ s.depth
  · rw [Render.run_deeper_of_limit _ _ _ hlimit,
      Render.run_deeper_of_limit _ _ _ (by rwa [m.depth])]
    exact .failed m.output
  · rw [Render.run_deeper_of_lt _ _ _ (Nat.lt_of_not_le hlimit),
      Render.run_deeper_of_lt _ _ _ (by rw [m.depth]; exact Nat.lt_of_not_le hlimit)]
    have hbody : ∀ {x y : Render ω α}, ρ.Alike env π out x y → ρ.Ends env π out
        ((Render.ending x Render.leave).run { s with depth := s.depth + 1 })
        ((Render.ending y Render.leave).run { t with depth := t.depth + 1 }) := by
      intro x y hx
      have h := hx { s with depth := s.depth + 1 } { t with depth := t.depth + 1 }
        ⟨m.frame, congrArg (· + 1) m.depth, m.lenient, m.met, m.output, m.left, m.right⟩
      refine h.after (f := Render.leave) (g := Render.leave) (fun m' => ?_) id
      exact ⟨m'.frame, congrArg (· - 1) m'.depth, m'.lenient, m'.met, m'.output, m'.left, m'.right⟩
    cases inner with
    | some r => exact hbody (hk r rfl)
    | none => exact hbody (throw _ _)

/-! ## §5. Templates -/

/-- A request is answered in the same way, whatever has been loaded. -/
theorem run_load (steady : env.Steady) (name : String) (m : ρ.Matched env π out s t) :
    ∃ s' t', (Render.load env name).run s = (env.answer name, s') ∧
      (Render.load env name).run t = (env.answer name, t') ∧ ρ.Matched env π out s' t' := by
  obtain ⟨loaded, requests, hs, hanswered⟩ := Render.run_load_of_steady steady name m.left
  obtain ⟨loaded', requests', ht, hanswered'⟩ := Render.run_load_of_steady steady name m.right
  exact ⟨_, _, hs, ht, m.frame, m.depth, m.lenient, m.met, m.output, hanswered, hanswered'⟩

theorem load (steady : env.Steady) (name : String) :
    ρ.Alike env π out (Render.load env name) (Render.load env name) := by
  intro s t m
  obtain ⟨s', t', hs, ht, m'⟩ := run_load steady name m
  rw [hs, ht]
  cases env.answer name with
  | ok live => exact .both live m'
  | error e => exact .failed m'.output

theorem loadIfThere (steady : env.Steady) (name : String) :
    ρ.Alike env π out (Render.loadIfThere env name) (Render.loadIfThere env name) := by
  intro s t m
  obtain ⟨s', t', hs, ht, m'⟩ := run_load steady name m
  rw [Render.run_loadIfThere, Render.run_loadIfThere, hs, ht]
  dsimp only
  cases Render.orMissing (env.answer name) with
  | ok r => exact .both r m'
  | error e => exact .failed m'.output

theorem loadFirst (steady : env.Steady) (missing : Option Error) (names : List String) :
    ρ.Alike env π out (Render.loadFirst env missing names)
      (Render.loadFirst env missing names) := by
  induction names generalizing missing with
  | nil => exact pure _
  | cons name names ih =>
    refine bind (loadIfThere steady name) fun r => ?_
    cases r with
    | error e => exact ih (some e)
    | ok live => exact pure _

end Alike

end Relocation

end Stencil
