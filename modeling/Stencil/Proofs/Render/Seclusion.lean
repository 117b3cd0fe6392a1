import Stencil.Proofs.Render.Candidates
import Stencil.Proofs.Render.Isolation
import Stencil.Proofs.Render.Required
import Stencil.Proofs.Render.Truncation

/-!
What a template that is included sees.

An inclusion starts its template in a scope of its own: what it passes is on top, and unless it
passes nothing else, all variables of the caller lie below.  The layers of the caller are merged for
this into a single one, which no name can tell from the stack that they were.

With `only` nothing but what is passed gets there.  Two such inclusions of one template that pass
the same, at the same depth, with the same templates loaded and under the same policy, write the
same texts and have the same outcome, wherever they stand.
-/

namespace Stencil

/-! ## §1. Merged layers -/

namespace Table

variable {α : Type}

theorem find?_append (t t' : Table α) (name : String) :
    Table.find? (t ++ t') name = (t.find? name).or (t'.find? name) := by
  induction t with
  | nil => rfl
  | cons entry t ih =>
    rw [List.cons_append, find?_cons, find?_cons, ih]
    split <;> rfl

/-- Of entries that are set one after the other the last one of a name is found. -/
theorem find?_insertAll (t : Table α) (entries : List (String × α)) (name : String) :
    (t.insertAll entries).find? name = (Table.find? entries.reverse name).or (t.find? name) := by
  induction entries generalizing t with
  | nil => rfl
  | cons entry entries ih =>
    show ((t.insert entry.1 entry.2).insertAll entries).find? name = _
    rw [ih, List.reverse_cons, find?_append, Option.or_assoc]
    congr 1
    by_cases hname : entry.1 = name
    · rw [← hname, find?_insert_self, find?_cons, if_pos rfl]
      rfl
    · rw [find?_insert_ne _ _ hname, find?_cons, if_neg hname]
      rfl

/-- Each name stands once in a table in order, so it does not matter from which end it is looked
for. -/
theorem Sorted.find?_reverse {t : Table α} (h : t.Sorted) (name : String) :
    Table.find? t.reverse name = t.find? name := by
  have hentries := h.filter_name name
  rw [find?, ← List.head?_filter, List.filter_reverse, hentries]
  cases t.find? name <;> rfl

end Table

namespace Scope

variable {ω : Type}

/-- All layers are tables in order. -/
def Sorted (s : Scope ω) : Prop :=
  ∀ layer ∈ s.layers, layer.Sorted

/-- A name has the same value in the merged layers as in the layers. -/
theorem find?_flatten {s : Scope ω} (h : s.Sorted) (name : String) :
    s.flatten.find? name = s.layers.findSome? (·.find? name) := by
  have hmerged : ∀ layers : List (Table (Value ω)), (∀ layer ∈ layers, layer.Sorted) →
      Table.find? (layers.foldr (fun layer merged => Table.insertAll merged layer) []) name =
        layers.findSome? (·.find? name) := by
    intro layers hlayers
    induction layers with
    | nil => rfl
    | cons layer layers ih =>
      obtain ⟨hlayer, hmore⟩ := List.forall_mem_cons.mp hlayers
      rw [List.foldr_cons, Table.find?_insertAll, hlayer.find?_reverse, ih hmore,
        List.findSome?_cons]
      cases layer.find? name <;> rfl
  exact hmerged s.layers h

end Scope

open Render

/-- What an inclusion passes hides what its caller sees, which is all there without `only` and not
there with it. -/
theorem Render.find?_inclusionScope {ω : Type} (only : Bool) (bindings : Table (Value ω))
    {caller : Scope ω} (h : caller.Sorted) (name : String) :
    (inclusionScope only bindings caller).find? name =
      if only then bindings.find? name
      else (bindings.find? name).or (caller.find? name) := by
  cases only with
  | true => simp [inclusionScope, Scope.find?, Scope.ofLayer, Scope.layers]
  | false =>
    show (List.findSome? (Table.find? · name) [bindings, caller.flatten]).or
      (caller.root.bind (Table.find? · name)) = _
    rw [Scope.find?, ← Scope.find?_flatten h, List.findSome?_cons, List.findSome?_cons]
    cases bindings.find? name with
    | some v => rfl
    | none => cases caller.flatten.find? name <;> rfl

/-! ## §2. Evaluating writes nothing -/

variable {ω α : Type}

/-- Two renders in tandem from two states on, of which the first has met `m` objects and the second
one `n`. -/
def Tandem.onward (m n : Nat) (q r : List String) : Tandem :=
  { Tandem.shifted m n with
    requests := fun q' r' => ∃ more, q' = more ++ q ∧ r' = more ++ r
    requests_cons := by
      rintro _ _ name ⟨more, rfl, rfl⟩
      exact ⟨name :: more, rfl, rfl⟩ }

@[simp] theorem Tandem.number_onward_self (m : Nat) (q r : List String) :
    (Tandem.onward m m q r).number = id := by
  funext k
  show (if k < m then k else k + (m - m)) = k
  rw [Nat.sub_self]
  split <;> rfl

/-- What runs in step whatever the outputs have to do with each other leaves them alone. -/
theorem Tandem.InStep.output_eq [Rename α] {x : Render ω α}
    (h : ∀ out, (Tandem.onward 0 0 [] []).InStep out x x) (s : RenderState ω) :
    (x.run s).2.output = s.output := by
  have hends := (h fun o _ => o = s.output).ends (s := s) (t := s)
    ⟨by rw [number_onward_self, Rename.rename_id], rfl, rfl, rfl,
      ⟨s.requests, (List.append_nil _).symm, (List.append_nil _).symm⟩, rfl,
      fun _ => by rw [number_onward_self]; rfl⟩
  generalize x.run s = p at hends ⊢
  cases hends with
  | both _ states => exact states.output
  | apart parts _ => exact parts.elim

theorem Truncates.silent {x : Render ω α} (hx : Truncates x)
    (houtput : ∀ s, (x.run s).2.output = s.output) : Silent x := by
  intro s
  obtain ⟨r, t, texts, h⟩ := hx s
  have hnone : texts = [] := by
    have hfree := houtput (s.into ⟨[], none⟩)
    rw [h.of_takes ⟨[], none⟩ nofun] at hfree
    simpa [Output.after] using congrArg Output.written hfree
  subst hnone
  have hrun : ∀ o, x.run (s.into o) = (r, t.into o) := by
    intro o
    rw [h.of_takes o fun _ _ => Nat.zero_le _, o.after_nil]
  have hself := hrun s.output
  rw [RenderState.into_output] at hself
  rw [hself]
  exact ⟨h.requests, hrun⟩

namespace Render

variable [HostObject ω] {env : Environment ω} {n : Nat} {stmt stmt' : Stmt} {i i' : Inclusion}
  {blocks blocks' : Table DefinitionId} {s s' : RenderState ω}

theorem twins_onward_self (env : Environment ω) (m : Nat) (q : List String) :
    (Tandem.onward m m q q).Twins env env := by
  refine twins_self (.inl (Tandem.number_onward_self m q q)) ?_
  rintro _ _ name ⟨more, rfl, rfl⟩
  rfl

theorem silent_inclusionTarget (env : Environment ω) (n : Nat) (i : Inclusion) :
    Silent (inclusionTarget env (eval env (innerRunner env n)) i) := by
  have twins := twins_onward_self env 0 []
  have hinner := inStep_innerRunner twins n
  apply Truncates.silent
  · exact (targetMoves (evalMoves (innerRunnerMoves env n)) i).truncates
  · exact Tandem.InStep.output_eq fun out =>
      inStep_inclusionTarget twins (inStep_eval twins hinner) i

theorem silent_inclusionBindings (env : Environment ω) (n : Nat) (i : Inclusion) :
    Silent (inclusionBindings (eval env (innerRunner env n)) i) := by
  have twins := twins_onward_self env 0 []
  have hinner := inStep_innerRunner twins n
  apply Truncates.silent
  · exact (bindingsMoves (evalMoves (innerRunnerMoves env n)) i).truncates
  · exact Tandem.InStep.output_eq fun out =>
      inStep_inclusionBindings (inStep_eval twins hinner) i

namespace Prepared

/-- Preparing an inclusion changes neither the frame nor the counts. -/
theorem standing_ready (p : Prepared env (innerRunner env n) i s) :
    p.ready.standing = s.standing := by
  have heval := keeps_eval env (innerRunner_restores env n)
  have hfound := keeps_inclusionTarget env heval i s
  have hready := keeps_inclusionBindings heval i p.found
  rw [p.target_eq] at hfound
  rw [p.bindings_eq] at hready
  exact hready.trans hfound

/-- It is the same with another output. -/
def into (p : Prepared env (innerRunner env n) i s) (o : Output) :
    Prepared env (innerRunner env n) i (s.into o) where
  template := p.template
  bindings := p.bindings
  found := p.found.into o
  ready := p.ready.into o
  target_eq := by rw [(silent_inclusionTarget env n i s).2, p.target_eq]
  bindings_eq := by rw [(silent_inclusionBindings env n i p.found).2, p.bindings_eq]

end Prepared

end Render

/-! ## §3. Renders that are alike -/

/-- What two states have in common in which a template is rendered with these variables alone: all
that it can see or run into.  The frames may differ, and so may what was written or requested so
far, as long as the source answers alike from then on.  If more objects were met in one of them, the
callbacks must not look at their numbers, and both have met those among the variables. -/
structure RenderState.SameForTemplate [HostObject ω] (env : Environment ω)
    (bindings : Table (Value ω)) (s t : RenderState ω) : Prop where
  loaded : t.loaded = s.loaded
  depth : t.depth = s.depth
  lenient : t.lenient = s.lenient
  source : ∀ more name, env.source (more ++ t.requests) name = env.source (more ++ s.requests) name
  objects : t.met = s.met ∨ env.Opaque ∧ Known s.met bindings ∧ Known t.met bindings

theorem RenderState.SameForTemplate.symm [HostObject ω] {env : Environment ω}
    {bindings : Table (Value ω)} {s t : RenderState ω} (h : s.SameForTemplate env bindings t) :
    t.SameForTemplate env bindings s where
  loaded := h.loaded.symm
  depth := h.depth.symm
  lenient := h.lenient.symm
  source more name := (h.source more name).symm
  objects := h.objects.imp Eq.symm fun ⟨opaqueEnv, known, known'⟩ => ⟨opaqueEnv, known', known⟩

namespace Render

variable [HostObject ω] {env : Environment ω} {n : Nat} {stmt stmt' : Stmt} {i i' : Inclusion}
  {blocks blocks' : Table DefinitionId} {s s' t : RenderState ω} {bindings : Table (Value ω)}

/-- A template that sees nothing of the frame, in two states that are alike, the first of which has
met no more objects than the second. -/
theorem outcome_renderTemplate_of_le (same : s.SameForTemplate env bindings t)
    (hle : s.met ≤ t.met) (houtput : t.output = s.output) (n : Nat) (live : LiveTemplate)
    (overrides : List (String × BlockRef)) :
    let x := renderTemplate env (runner env n) live (.ofLayer none bindings) overrides
    (x.run s).1 = (x.run t).1 ∧ (x.run s).2.output = (x.run t).2.output := by
  intro x
  let τ := Tandem.onward s.met t.met s.requests t.requests
  have hnumber : ∀ k < s.met, τ.number k = k := fun k hk => if_pos hk
  have hid : t.met = s.met → τ.number = id := by
    intro hmet
    show (Tandem.onward s.met t.met s.requests t.requests).number = id
    rw [hmet, Tandem.number_onward_self]
  have twins : τ.Twins env env := by
    refine twins_self (same.objects.imp hid And.left) ?_
    rintro _ _ name ⟨more, rfl, rfl⟩
    exact same.source more name
  have hbindings : rename τ.number bindings = bindings := by
    rcases same.objects with hmet | ⟨-, known, -⟩
    · rw [hid hmet, Rename.rename_id]
    · exact known _ hnumber
  have hscope : rename τ.number (Scope.ofLayer none bindings) = .ofLayer none bindings := by
    show Scope.ofLayer none (rename τ.number bindings) = _
    rw [hbindings]
  -- The template has a frame of its own, so its caller may just as well run in that frame.
  let f : Frame ω := Frame.forTemplate live (.ofLayer none bindings)
  have matched : τ.Matched Eq { s with frame := f } { t with frame := f } := by
    refine ⟨?_, same.depth, same.lenient, same.loaded, ⟨[], rfl, rfl⟩, houtput.symm, ?_⟩
    · exact congrArg (Frame.forTemplate live) hscope.symm
    · intro k
      show (if s.met + k < s.met then _ else s.met + k + (t.met - s.met)) = t.met + k
      rw [if_neg (by omega)]
      omega
  have hends := (inStep_renderTemplate twins (inStep_runner twins n) Tandem.writable_eq live
    (.ofLayer none bindings) overrides).ends matched
  rw [hscope] at hends
  have hs : ∀ u : RenderState ω, (x.run u).1 = (x.run { u with frame := f }).1 ∧
      (x.run u).2.output = (x.run { u with frame := f }).2.output := fun _ => ⟨rfl, rfl⟩
  rw [(hs s).1, (hs s).2, (hs t).1, (hs t).2]
  generalize x.run { s with frame := f } = p, x.run { t with frame := f } = p' at hends ⊢
  cases hends with
  | both result states =>
    subst result
    refine ⟨?_, states.output⟩
    rename_i r _ _
    cases r <;> rfl
  | apart parts _ => exact parts.elim

theorem outcome_renderTemplate (same : s.SameForTemplate env bindings t)
    (houtput : t.output = s.output) (n : Nat) (live : LiveTemplate)
    (overrides : List (String × BlockRef)) :
    let x := renderTemplate env (runner env n) live (.ofLayer none bindings) overrides
    (x.run s).1 = (x.run t).1 ∧ (x.run s).2.output = (x.run t).2.output := by
  rcases Nat.le_total s.met t.met with hle | hle
  · exact outcome_renderTemplate_of_le same hle houtput n live overrides
  · obtain ⟨hresult, hwritten⟩ :=
      outcome_renderTemplate_of_le same.symm hle houtput.symm n live overrides
    exact ⟨hresult.symm, hwritten.symm⟩

/-! ## §4. Inclusions that are alike -/

/-- Two inclusions that pass what they pass and nothing else. -/
structure Prepared.AlikeOnly (p : Prepared env (innerRunner env n) i s)
    (p' : Prepared env (innerRunner env n) i' s') : Prop where
  only : i.only = true
  only' : i'.only = true
  template : p'.template = p.template
  bindings : p'.bindings = p.bindings
  ready : p.ready.SameForTemplate env p.bindings p'.ready

namespace Prepared

variable {p : Prepared env (innerRunner env n) i s} {p' : Prepared env (innerRunner env n) i' s'}

theorem AlikeOnly.into (h : p.AlikeOnly p') (o : Output) : (p.into o).AlikeOnly (p'.into o) :=
  ⟨h.only, h.only', h.template, h.bindings,
    ⟨h.ready.loaded, h.ready.depth, h.ready.lenient, h.ready.source, h.ready.objects⟩⟩

/-- Two inclusions that are alike come to the same, if their outputs were the same. -/
theorem AlikeOnly.outcome (alike : p.AlikeOnly p') (h : stmt.Includes i blocks)
    (h' : stmt'.Includes i' blocks')
    (overrides : s'.frame.template.blocks blocks' = s.frame.template.blocks blocks)
    (houtput : p'.ready.output = p.ready.output) (hdepth : p.ready.depth < maxDepth) :
    ((runStmt env (innerRunner env n) stmt).run s).1 =
        ((runStmt env (innerRunner env n) stmt').run s').1 ∧
      ((runStmt env (innerRunner env n) stmt).run s).2.output =
        ((runStmt env (innerRunner env n) stmt').run s').2.output := by
  have hdepth' : p'.ready.depth < maxDepth := alike.ready.depth ▸ hdepth
  have hscope : ∀ caller : Scope ω,
      inclusionScope true p.bindings caller = .ofLayer none p.bindings := fun _ => rfl
  rw [p.run_eq h, p'.run_eq h', overrides, alike.template, alike.bindings, alike.only,
    alike.only', run_deeper_of_lt _ _ _ hdepth, run_deeper_of_lt _ _ _ hdepth', run_ending,
    run_ending]
  simp only [hscope]
  have deeper : RenderState.SameForTemplate env p.bindings
      { p.ready with depth := p.ready.depth + 1 } { p'.ready with depth := p'.ready.depth + 1 } :=
    ⟨alike.ready.loaded, congrArg (· + 1) alike.ready.depth, alike.ready.lenient,
      alike.ready.source, alike.ready.objects⟩
  cases n with
  | zero => exact ⟨rfl, houtput.symm⟩
  | succ n => exact outcome_renderTemplate deeper houtput n p.template _

end Prepared

omit [HostObject ω] in
/-- Two parts of renders that come to the same, if they write to outputs of their own, write the
same texts to any output. -/
theorem exists_emits {x y : Render ω Unit} (hx : Truncates x) (hy : Truncates y)
    (hresult : (x.run (s.into ⟨[], none⟩)).1 = (y.run (s'.into ⟨[], none⟩)).1)
    (houtput : (x.run (s.into ⟨[], none⟩)).2.output = (y.run (s'.into ⟨[], none⟩)).2.output) :
    ∃ result texts t t', Emits x s result t texts ∧ Emits y s' result t' texts := by
  obtain ⟨result, t, texts, h⟩ := hx s
  obtain ⟨result', t', texts', h'⟩ := hy s'
  have hrun := h.of_takes ⟨[], none⟩ nofun
  have hrun' := h'.of_takes ⟨[], none⟩ nofun
  rw [hrun, hrun'] at hresult houtput
  obtain rfl : result = result' := hresult
  have htexts : texts ++ [] = texts' ++ [] := congrArg Output.written houtput
  rw [List.append_nil, List.append_nil] at htexts
  subst htexts
  exact ⟨result, texts, t, t', h, h'⟩

/-- An inclusion beyond the limit fails as soon as it is prepared, and writes nothing. -/
theorem Prepared.emits_of_limit (p : Prepared env (innerRunner env n) i s)
    (h : stmt.Includes i blocks) (hdepth : maxDepth ≤ p.ready.depth) :
    Emits (runStmt env (innerRunner env n) stmt) s
      (.error (.error (.render s.frame.template.name i.position (.recursionLimit maxDepth))))
      p.ready [] := by
  have hframe : p.ready.frame = s.frame := (RenderState.standing_eq_iff.mp p.standing_ready).1
  refine ⟨?_, fun o _ => ?_, nofun⟩
  · have hfound := (silent_inclusionTarget env n i s).1
    have hready := (silent_inclusionBindings env n i p.found).1
    rw [p.target_eq] at hfound
    rw [p.bindings_eq] at hready
    exact hfound.trans hready
  · have hlimit : maxDepth ≤ (p.into o).ready.depth := hdepth
    have hframe' : (p.into o).ready.frame = s.frame := hframe
    rw [(p.into o).run_eq h, run_deeper_of_limit _ _ _ hlimit, o.after_nil, hframe']
    rfl

end Render

end Stencil
