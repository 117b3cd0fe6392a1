import Stencil.Proofs.Render.Likeness
import Stencil.Proofs.Render.Restoration

/-!
Renders that agree.

Two renders agree as long as they work in states that are alike: the same but for alike templates in
the place of each other.  `Likeness.Agree` is the judgement that two parts of renders do the same in
such states.  They end alike: with results that are related and in states that are alike, or with
the same failure.  What they have written and what they have requested is then not only alike but
the same.

The judgement is closed under everything that renders are built with, so that each construct is
looked at once.
-/

namespace Stencil

/-! ## §1. Choices and results -/

section Choices

variable {α β γ δ : Type} {R : α → β → Prop} {Q : γ → δ → Prop}

theorem optionRel_or {a c : Option α} {b d : Option β} (h : Option.Rel R a b)
    (h' : Option.Rel R c d) : Option.Rel R (a.or c) (b.or d) := by
  cases h with
  | none => exact h'
  | some h => exact .some h

theorem optionRel_bind {f : α → Option γ} {g : β → Option δ} {a : Option α} {b : Option β}
    (h : Option.Rel R a b) (hfg : ∀ a b, R a b → Option.Rel Q (f a) (g b)) :
    Option.Rel Q (a.bind f) (b.bind g) := by
  cases h with
  | none => exact .none
  | some h => exact hfg _ _ h

theorem isSome_of_optionRel {a : Option α} {b : Option β} (h : Option.Rel R a b) :
    b.isSome = a.isSome := by
  cases h <;> rfl

theorem findSome?_of_forall₂ {f : α → Option γ} {g : β → Option δ} {as : List α} {bs : List β}
    (h : List.Forall₂ R as bs) (hfg : ∀ a b, R a b → Option.Rel Q (f a) (g b)) :
    Option.Rel Q (as.findSome? f) (bs.findSome? g) := by
  induction h with
  | nil => exact .none
  | @cons a b _ _ hab _ ih =>
    have hhead := hfg a b hab
    rw [List.findSome?_cons, List.findSome?_cons]
    generalize f a = c, g b = d at hhead
    cases hhead with
    | none => exact ih
    | some h => exact .some h

/-- Results that are related, or the same failure. -/
inductive Results {ε : Type} (R : α → β → Prop) : Except ε α → Except ε β → Prop
  | ok {a b} : R a b → Results R (.ok a) (.ok b)
  | error (e : ε) : Results R (.error e) (.error e)

theorem Results.refl {ε : Type} {S : α → α → Prop} (h : ∀ a, S a a) (r : Except ε α) :
    Results S r r := by
  cases r with
  | ok a => exact .ok (h a)
  | error e => exact .error e

end Choices

namespace Likeness

variable {ω : Type} (κ : Likeness)

/-! ## §2. Frames and states -/

/-- Scopes with the same root variables and with layers that are alike. -/
structure Scopes (s s' : Scope ω) : Prop where
  root : s'.root = s.root
  innermost : κ.Tables s.innermost s'.innermost
  below : List.Forall₂ κ.Tables s.below s'.below

/-- Blocks of the same number, of templates that are alike. -/
structure Refs (r r' : BlockRef) : Prop where
  owner : κ.Live r.owner r'.owner
  id : r'.id = r.id

/-- Blocks of two renders, by name. -/
abbrev Blocks (bs bs' : List (String × BlockRef)) : Prop := Table.Rel κ.Refs bs bs'

/-- Frames whose templates, variables and blocks are alike. -/
structure Frames (f f' : Frame ω) : Prop where
  template : κ.Live f.template f'.template
  scope : κ.Scopes f.scope f'.scope
  blocks : Option.Rel κ.Blocks f.blocks f'.blocks
  current : f'.current = f.current

/-- States of two renders between which there is no difference but in the templates. -/
structure Matched (s s' : RenderState ω) : Prop where
  frame : κ.Frames s.frame s'.frame
  depth : s'.depth = s.depth
  lenient : s'.lenient = s.lenient
  loaded : Table.Rel κ.Live s.loaded s'.loaded
  requests : s'.requests = s.requests
  output : s'.output = s.output
  met : s'.met = s.met

/-- A template from which the same blocks are taken over, under the same names. -/
structure Uses (u u' : UsedTemplate) : Prop where
  template : κ.Live u.template u'.template
  aliases : u'.aliases = u.aliases

/-- Levels of two chains. -/
structure Levels (l l' : Level) : Prop where
  template : κ.Live l.template l'.template
  uses : List.Forall₂ κ.Uses l.uses l'.uses

variable {κ}

namespace Scopes

variable {s s' : Scope ω}

theorem refl (s : Scope ω) : κ.Scopes s s :=
  ⟨rfl, Values.tables_refl s.innermost, List.forall₂_same.mpr fun t _ => Values.tables_refl t⟩

theorem ofLayer (root : Option (Table (Value ω))) {layer layer' : Table (Value ω)}
    (h : κ.Tables layer layer') : κ.Scopes (.ofLayer root layer) (.ofLayer root layer') :=
  ⟨rfl, h, .nil⟩

theorem layers (h : κ.Scopes s s') : List.Forall₂ κ.Tables s.layers s'.layers :=
  .cons h.innermost h.below

theorem find? (h : κ.Scopes s s') (name : String) :
    Option.Rel κ.Values (s.find? name) (s'.find? name) := by
  unfold Scope.find?
  rw [h.root]
  refine optionRel_or ?_ (optionRel_of_refl .same _)
  exact findSome?_of_forall₂ h.layers fun _ _ hlayer => Table.find?_rel hlayer name

theorem assign (h : κ.Scopes s s') (name : String) {v v' : Value ω} (hv : κ.Values v v') :
    κ.Scopes (s.assign name v) (s'.assign name v') :=
  ⟨h.root, Table.insert_rel h.innermost name hv, h.below⟩

theorem push (h : κ.Scopes s s') {layer layer' : Table (Value ω)} (hl : κ.Tables layer layer') :
    κ.Scopes (s.push layer) (s'.push layer') :=
  ⟨h.root, hl, h.layers⟩

theorem pop (h : κ.Scopes s s') : κ.Scopes s.pop s'.pop := by
  obtain ⟨root, innermost, below⟩ := s
  obtain ⟨root', innermost', below'⟩ := s'
  obtain ⟨hroot, hinnermost, hbelow⟩ := h
  cases hbelow with
  | nil => exact ⟨hroot, hinnermost, .nil⟩
  | cons hlayer hbelow => exact ⟨hroot, hlayer, hbelow⟩

theorem flatten (h : κ.Scopes s s') : κ.Tables s.flatten s'.flatten := by
  unfold Scope.flatten
  generalize hs : s.layers = layers, hs' : s'.layers = layers'
  have hlayers : List.Forall₂ κ.Tables layers layers' := hs ▸ hs' ▸ h.layers
  clear hs hs'
  induction hlayers with
  | nil => exact .nil
  | cons hlayer _ ih => exact Table.insertAll_rel ih hlayer

end Scopes

/-- The blocks meant are the same but for their code, which is alike. -/
theorem Refs.block? {r r' : BlockRef} (h : κ.Refs r r') : Option.Rel
    (fun b b' => b'.name = b.name ∧ κ.code b.body b'.body) r.block? r'.block? := by
  unfold BlockRef.block?
  rw [h.id]
  exact κ.block h.owner.template r.id

/-- Blocks of templates that are alike, by a table of numbers that they share. -/
theorem Live.blocks {t t' : LiveTemplate} (h : κ.Live t t') (table : Table DefinitionId) :
    κ.Blocks (t.blocks table) (t'.blocks table) := by
  induction table with
  | nil => exact .nil
  | cons entry table ih => exact .cons ⟨rfl, h, rfl⟩ ih

theorem Uses.exports {u u' : UsedTemplate} (h : κ.Uses u u') : κ.Blocks u.exports u'.exports := by
  have hname : ∀ name, u'.exportName name = u.exportName name := by
    intro name
    unfold UsedTemplate.exportName
    rw [h.aliases]
  have hblocks := h.template.blocks u.template.template.blockTable
  unfold UsedTemplate.exports
  rw [κ.blockTable h.template.template]
  refine List.forall₂_map_left_iff.mpr (List.forall₂_map_right_iff.mpr ?_)
  refine hblocks.imp fun e e' hentry => ⟨?_, hentry.2⟩
  show u'.exportName e'.1 = u.exportName e.1
  rw [hname, hentry.1]

theorem Levels.blocks {l l' : Level} (h : κ.Levels l l') : κ.Blocks l.blocks l'.blocks := by
  have hown := h.template.blocks l.template.template.blockTable
  unfold Level.blocks
  rw [κ.blockTable h.template.template]
  exact List.rel_append hown
    (List.rel_flatMap (List.rel_reverse h.uses) fun _ _ hu => hu.exports)

theorem Levels.composition {ls ls' : List Level} (h : List.Forall₂ κ.Levels ls ls')
    {overrides overrides' : List (String × BlockRef)} (ho : κ.Blocks overrides overrides') :
    κ.Blocks (Composition.ofLevels overrides ls) (Composition.ofLevels overrides' ls') :=
  List.rel_append ho (List.rel_flatMap h fun _ _ hl => hl.blocks)

/-- One of the definitions of a block. -/
theorem candidate?_rel {c c' : Composition} (h : κ.Blocks c c') (name : String) (index : Nat) :
    Option.Rel κ.Refs (c.candidate? name index) (c'.candidate? name index) := by
  refine getElem?_of_forall₂ ?_ index
  unfold Composition.candidates
  induction h with
  | nil => exact .nil
  | @cons e e' _ _ hentry _ ih =>
    rw [List.filter_cons, List.filter_cons, hentry.1]
    by_cases hname : (e.1 == name) = true
    · simp only [hname, if_true, List.map_cons]
      exact .cons hentry.2 ih
    · simp only [hname]
      exact ih

namespace Frames

variable {f f' : Frame ω} (h : κ.Frames f f')
include h

theorem name : f'.template.name = f.template.name := h.template.name

theorem withTemplate {t t' : LiveTemplate} (ht : κ.Live t t') :
    κ.Frames { f with template := t } { f' with template := t' } :=
  ⟨ht, h.scope, h.blocks, h.current⟩

theorem withScope {s s' : Scope ω} (hs : κ.Scopes s s') :
    κ.Frames { f with scope := s } { f' with scope := s' } :=
  ⟨h.template, hs, h.blocks, h.current⟩

theorem candidate? (name : String) (index : Nat) :
    Option.Rel κ.Refs (Render.candidate? f name index) (Render.candidate? f' name index) :=
  optionRel_bind h.blocks fun _ _ hc => candidate?_rel hc name index

theorem blockNamed? (name : String) :
    Option.Rel κ.Refs (Render.blockNamed? f name) (Render.blockNamed? f' name) := by
  unfold Render.blockNamed?
  rw [κ.blockTable h.template.template]
  refine optionRel_or (h.candidate? name 0) ?_
  cases f.template.template.blockTable.find? name with
  | none => exact .none
  | some id => exact .some ⟨h.template, rfl⟩

theorem macroNamed? (name : String) :
    Option.Rel κ.Macros (Render.macroNamed? f name) (Render.macroNamed? f' name) := by
  have hfind := h.scope.find? name
  have hown : Option.Rel κ.Macros
      ((f.template.template.macroTable.find? name).map fun id => ⟨f.template, id⟩)
      ((f'.template.template.macroTable.find? name).map fun id => ⟨f'.template, id⟩) := by
    rw [κ.macroTable h.template.template]
    cases f.template.template.macroTable.find? name with
    | none => exact .none
    | some id => exact .some ⟨h.template, rfl⟩
  unfold Render.macroNamed?
  rcases Values.callable_or hfind with ⟨m, m', hm, hm', hmacros⟩ | ⟨hno, _⟩
  · rw [hm, hm']
    exact .some hmacros
  · split
    · exact absurd ‹_› (hno _)
    · exact hown

end Frames

/-! ## §3. Parts of renders that agree -/

variable {α β γ δ : Type} {R : α → β → Prop} {Q : γ → δ → Prop}

variable (κ) in
/-- How two parts of renders end that agree. -/
structure Ends (R : α → β → Prop) (p : Except Failure α × RenderState ω)
    (q : Except Failure β × RenderState ω) : Prop where
  results : Results R p.1 q.1
  states : κ.Matched p.2 q.2

variable (κ) in
/-- Whether two parts of renders do the same in states that are alike. -/
def Agree (R : α → β → Prop) (x : Render ω α) (y : Render ω β) : Prop :=
  ∀ ⦃s s'⦄, κ.Matched s s' → κ.Ends R (x.run s) (y.run s')

namespace Agree

open Render (run_bind run_bind_ok run_pure run_throw run_get run_set run_modify)

variable {x : Render ω α} {y : Render ω β}

theorem pure {a : α} {b : β} (h : R a b) :
    κ.Agree R (Pure.pure a : Render ω α) (Pure.pure b) :=
  fun _ _ m => ⟨.ok h, m⟩

theorem throw (e : Failure) :
    κ.Agree R (MonadExcept.throw e : Render ω α) (MonadExcept.throw e : Render ω β) :=
  fun _ _ m => ⟨.error e, m⟩

/-- What comes second agrees where the first one has ended with a result, which may say something
about the state. -/
theorem bind_of {P : RenderState ω → Prop} {f : α → Render ω γ} {g : β → Render ω δ}
    (hx : κ.Agree R x y) (hP : ∀ {s a t}, x.run s = (.ok a, t) → P t)
    (hf : ∀ a b, R a b → ∀ {s s'}, κ.Matched s s' → P s → κ.Ends Q ((f a).run s) ((g b).run s')) :
    κ.Agree Q (x >>= f) (y >>= g) := by
  intro s s' m
  have h := hx m
  rw [run_bind, run_bind]
  rcases hr : x.run s with ⟨r, t⟩
  rcases hr' : y.run s' with ⟨r', t'⟩
  rw [hr, hr'] at h
  obtain ⟨results, states⟩ := h
  cases results with
  | ok hab => exact hf _ _ hab states (hP hr)
  | error e => exact ⟨.error e, states⟩

theorem bind {f : α → Render ω γ} {g : β → Render ω δ} (hx : κ.Agree R x y)
    (hf : ∀ a b, R a b → κ.Agree Q (f a) (g b)) : κ.Agree Q (x >>= f) (y >>= g) :=
  hx.bind_of (P := fun _ => True) (fun _ => trivial) fun a b hab _ _ m _ => hf a b hab m

theorem map {f : α → γ} {g : β → δ} (hx : κ.Agree R x y) (hf : ∀ a b, R a b → Q (f a) (g b)) :
    κ.Agree Q (f <$> x) (g <$> y) := by
  rw [map_eq_pure_bind, map_eq_pure_bind]
  exact hx.bind fun a b hab => pure (hf a b hab)

/-- Reading the states first. -/
theorem get_bind {f : RenderState ω → Render ω α} {g : RenderState ω → Render ω β}
    (h : ∀ {s s'}, κ.Matched s s' → κ.Ends R ((f s).run s) ((g s').run s')) :
    κ.Agree R (MonadState.get >>= f) (MonadState.get >>= g) := by
  intro s s' m
  rw [run_bind_ok (run_get s), run_bind_ok (run_get s')]
  exact h m

/-! ### Frames and failures -/

theorem frame : κ.Agree κ.Frames (Render.frame : Render ω (Frame ω)) Render.frame :=
  get_bind fun m => ⟨.ok m.frame, m⟩

theorem changeFrame {f g : Frame ω → Frame ω}
    (h : ∀ {fr fr'}, κ.Frames fr fr' → κ.Frames (f fr) (g fr')) :
    κ.Agree Eq (Render.changeFrame f) (Render.changeFrame g) :=
  fun _ _ m =>
    ⟨.ok rfl, h m.frame, m.depth, m.lenient, m.loaded, m.requests, m.output, m.met⟩

theorem assign (name : String) {v v' : Value ω} (h : κ.Values v v') :
    κ.Agree Eq (Render.assign name v) (Render.assign name v') :=
  changeFrame fun hfr => hfr.withScope (hfr.scope.assign name h)

theorem fail (e : Error) :
    κ.Agree R (Render.fail e : Render ω α) (Render.fail e : Render ω β) := throw _

theorem failAt (pos : Position) (kind : RenderErrorKind) :
    κ.Agree R (Render.failAt pos kind : Render ω α) (Render.failAt pos kind : Render ω β) := by
  apply bind frame
  intro fr fr' hfr
  rw [hfr.name]
  exact fail _

theorem ofCall (pos : Position) (name : String) {r : Except String α} {r' : Except String β}
    (h : Results R r r') :
    κ.Agree R (Render.ofCall pos name r : Render ω α) (Render.ofCall pos name r') := by
  cases h with
  | ok hab => exact pure hab
  | error message => exact failAt pos _

theorem meet {v v' : Value ω} (h : κ.Values v v') :
    κ.Agree κ.Values (Render.meet v) (Render.meet v') := by
  apply get_bind
  intro s s' m
  obtain ⟨hvalue, hnext⟩ := h.identify .met s.met
  rw [m.met]
  exact ⟨.ok hvalue, m.frame, m.depth, m.lenient, m.loaded, m.requests, m.output, hnext⟩

theorem write (text : String) :
    κ.Agree Eq (Render.write text : Render ω Unit) (Render.write text) := by
  apply get_bind
  intro s s' m
  rw [m.output]
  by_cases hempty : text.isEmpty
  · simp only [hempty, if_true]
    exact ⟨.ok rfl, m⟩
  · simp only [hempty]
    rcases s.output.room with _ | _ | n
    · exact ⟨.ok rfl, m.frame, m.depth, m.lenient, m.loaded, m.requests, rfl, m.met⟩
    · exact ⟨.error _, m⟩
    · exact ⟨.ok rfl, m.frame, m.depth, m.lenient, m.loaded, m.requests, rfl, m.met⟩

/-! ### Constructs that undo a change -/

/-- Changing both states alike when the code has ended. -/
theorem ending {f g : RenderState ω → RenderState ω} (hx : κ.Agree R x y)
    (hmatch : ∀ {s s'}, κ.Matched s s' → κ.Matched (f s) (g s')) :
    κ.Agree R (Render.ending x f) (Render.ending y g) := by
  intro s s' m
  exact ⟨(hx m).results, hmatch (hx m).states⟩

/-- Code that runs in a frame of its own. -/
theorem within {f g : Frame ω → Frame ω}
    (h : ∀ {fr fr'}, κ.Frames fr fr' → κ.Frames (f fr) (g fr')) (hx : κ.Agree R x y) :
    κ.Agree R (Render.within f x) (Render.within g y) := by
  intro s s' m
  have minner : κ.Matched { s with frame := f s.frame } { s' with frame := g s'.frame } :=
    ⟨h m.frame, m.depth, m.lenient, m.loaded, m.requests, m.output, m.met⟩
  obtain ⟨results, states⟩ := hx minner
  exact ⟨results, m.frame, states.depth, states.lenient, states.loaded, states.requests,
    states.output, states.met⟩

/-- What is captured is the same text. -/
theorem capture {x y : Render ω Unit} (hx : κ.Agree Eq x y) :
    κ.Agree Eq (Render.capture x) (Render.capture y) := by
  intro s s' m
  have minner : κ.Matched { s with output := ⟨[], none⟩ } { s' with output := ⟨[], none⟩ } :=
    ⟨m.frame, m.depth, m.lenient, m.loaded, m.requests, rfl, m.met⟩
  obtain ⟨results, states⟩ := hx minner
  rw [Render.run_capture, Render.run_capture, states.output]
  refine ⟨?_, states.frame, states.depth, states.lenient, states.loaded, states.requests,
    m.output, states.met⟩
  generalize (x.run _).1 = r, (y.run _).1 = r' at results
  cases results with
  | ok _ => exact .ok rfl
  | error e => exact .error e

theorem leniently (hx : κ.Agree R x y) :
    κ.Agree R (Render.leniently x) (Render.leniently y) := by
  apply get_bind
  intro s s' m
  have hset : κ.Matched { s with lenient := true } { s' with lenient := true } :=
    ⟨m.frame, m.depth, rfl, m.loaded, m.requests, m.output, m.met⟩
  have hback : κ.Agree R (Render.ending x fun u => { u with lenient := s.lenient })
      (Render.ending y fun u => { u with lenient := s'.lenient }) :=
    hx.ending fun m' =>
      ⟨m'.frame, m'.depth, m.lenient, m'.loaded, m'.requests, m'.output, m'.met⟩
  rw [run_bind_ok (run_modify _ _), run_bind_ok (run_modify _ _)]
  exact hback hset

theorem inLayer {layer layer' : Table (Value ω)} (h : κ.Tables layer layer')
    (hx : κ.Agree R x y) :
    κ.Agree R (Render.inLayer layer x) (Render.inLayer layer' y) := by
  apply bind (changeFrame fun hfr => hfr.withScope (hfr.scope.push h))
  intro _ _ _
  refine hx.ending fun m => ?_
  exact ⟨m.frame.withScope m.frame.scope.pop, m.depth, m.lenient, m.loaded, m.requests, m.output,
    m.met⟩

end Agree

/-! ## §4. Runners -/

variable (κ) in
/-- Two runners whose code agrees: the same expressions, and bodies that are alike.  The first one
leaves everything as it was when its code has ended. -/
structure Runners (r r' : Render.Runner ω) : Prop where
  restores : r.Restores
  eval : ∀ e, κ.Agree κ.Values (r.eval e) (r'.eval e)
  body : ∀ {ss ss'}, κ.code ss ss' → κ.Agree Eq (r.body ss) (r'.body ss')

variable (κ) in
/-- The runners of one level deeper: there is none, or there are two that agree. -/
abbrev Inner (inner inner' : Option (Render.Runner ω)) : Prop :=
  Option.Rel κ.Runners inner inner'

/-- Both go one level deeper, or both meet the limit. -/
theorem Agree.deeper {inner inner' : Option (Render.Runner ω)} (hinner : κ.Inner inner inner')
    (pos : Position) {k : Render.Runner ω → Render ω α} {k' : Render.Runner ω → Render ω β}
    (hk : ∀ {r r'}, κ.Runners r r' → κ.Agree R (k r) (k' r')) :
    κ.Agree R (Render.deeper inner pos k) (Render.deeper inner' pos k') := by
  have henter : κ.Agree Eq (Render.enter pos : Render ω Unit) (Render.enter pos) := by
    apply Agree.get_bind
    intro s s' m
    rw [m.depth]
    by_cases hdepth : Render.maxDepth ≤ s.depth
    · simp only [hdepth, if_true]
      exact Agree.failAt pos _ m
    · simp only [hdepth, if_false]
      exact ⟨.ok rfl, m.frame, congrArg (· + 1) m.depth, m.lenient, m.loaded, m.requests,
        m.output, m.met⟩
  have hleave : ∀ {x : Render ω α} {y : Render ω β}, κ.Agree R x y →
      κ.Agree R (Render.ending x Render.leave) (Render.ending y Render.leave) := by
    intro x y hx
    exact hx.ending fun m =>
      ⟨m.frame, congrArg (· - 1) m.depth, m.lenient, m.loaded, m.requests, m.output, m.met⟩
  refine Agree.bind henter fun _ _ _ => ?_
  cases hinner with
  | some h => exact hleave (hk h)
  | none => exact hleave (.throw _)

end Likeness

end Stencil
