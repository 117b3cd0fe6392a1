import Stencil.Loader.Directory
import Stencil.Loader.Source
import Stencil.Proofs.Render.Restoration

/-!
Which template an inclusion renders.

An `include` or an `embed` names one template or several.  They are asked for in order, until one is
there or one is out of order; only a template that is not there at all is passed over.  `Search`
says what comes of this by the answers of the source alone.  From then on the inclusion is the
render of the template that was found, and a failure of that render is its failure, also where the
template might have been missing.
-/

namespace Stencil

theorem Error.exists_of_isNotFound {e : Error} (h : e.isNotFound = true) :
    ∃ called reason, e = .notFound called reason := by
  cases e with
  | notFound called reason => exact ⟨called, reason, rfl⟩
  | _ => cases h

/-- A source that has no template of a name says so of this name. -/
def TemplateSource.Candid (source : TemplateSource) : Prop :=
  ∀ requests name called reason, source requests name = .error (.notFound called reason) →
    called = name

namespace TemplateSource

theorem candid_ofTable (sources : Table String) : Candid (ofTable sources) := by
  intro requests name called reason h
  unfold ofTable at h
  split at h
  · cases h
  · injection h with h
    injection h with h
    exact h.symm

theorem candid_ofName : Candid ofName := fun _ _ _ _ h => nomatch h

theorem candid_ofFiles (read : List Char → Except ReadError String) (root : List Char) :
    Candid (ofFiles read root) := by
  intro requests name called reason h
  unfold ofFiles at h
  split at h
  · injection h with h
    injection h with h
    exact h.symm
  · rename_i path _
    cases hread : read path with
    | ok source =>
      rw [hread] at h
      cases h
    | error e =>
      rw [hread] at h
      injection h with h
      injection h with h
      exact h.symm

end TemplateSource

/-- Whether a statement is an inclusion, under blocks of its own or under none. -/
inductive Stmt.Includes : Stmt → Inclusion → Table DefinitionId → Prop
  | includes (i : Inclusion) : Includes (.includes i) i []
  | embeds (i : Inclusion) (blocks : Table DefinitionId) : Includes (.embeds i blocks) i blocks

namespace Render

variable {ω : Type}

/-! ## §1. Searches -/

/-- What comes of a search for the first of several templates. -/
inductive Found
  | template (t : LiveTemplate)
  /-- The search is over, for another reason than that a template is not there. -/
  | broken (f : Failure)
  /-- There is none.  This is the answer about the last one. -/
  | missing (name : String) (reason : NotFound)

/-- Whether there is no template of any of these names, asked for one after the other when certain
requests have been made: none is loaded, and the source answers that it has none. -/
def AllMissing (env : Environment ω) (loaded : Table LiveTemplate) :
    List String → List String → Prop
  | _, [] => True
  | requests, name :: names =>
    loaded.find? name = none ∧
      (∃ called reason, env.source requests name = .error (.notFound called reason)) ∧
      AllMissing env loaded (name :: requests) names

/-- The state after requests for some names. -/
def asking (s : RenderState ω) (names : List String) : RenderState ω :=
  { s with requests := names.reverse ++ s.requests }

/-- How a search for the first of several templates ends.  All before the one that decides it are
missing; what comes after that one does not matter. -/
inductive Search (env : Environment ω) (s : RenderState ω) :
    List String → Found → RenderState ω → Prop
  /-- It was loaded before. -/
  | known (before : List String) {after : List String} {name : String} {t : LiveTemplate} :
    AllMissing env s.loaded s.requests before →
    s.loaded.find? name = some t →
    Search env s (before ++ name :: after) (.template t) (asking s before)
  /-- The source has it, and it can be parsed. -/
  | fresh (before : List String) {after : List String} {name source : String} {t : Template} :
    AllMissing env s.loaded s.requests before →
    s.loaded.find? name = none →
    env.source (before.reverse ++ s.requests) name = .ok source →
    env.prepare name source = .ok t →
    Search env s (before ++ name :: after) (.template ⟨t, .loaded⟩)
      { asking s (before ++ [name]) with loaded := s.loaded.insert name ⟨t, .loaded⟩ }
  /-- The source has it, and it cannot be parsed. -/
  | unparsed (before : List String) {after : List String} {name source : String} {e : ParseError} :
    AllMissing env s.loaded s.requests before →
    s.loaded.find? name = none →
    env.source (before.reverse ++ s.requests) name = .ok source →
    Template.parse name source = .error (.error e) →
    Search env s (before ++ name :: after) (.broken (.error (.parse name e)))
      (asking s (before ++ [name]))
  /-- The source has it, and a pass over it does not come to an end. -/
  | endless (before : List String) {after : List String} {name source : String} :
    AllMissing env s.loaded s.requests before →
    s.loaded.find? name = none →
    env.source (before.reverse ++ s.requests) name = .ok source →
    env.prepare name source = .error .exhausted →
    Search env s (before ++ name :: after) (.broken .exhausted) (asking s (before ++ [name]))
  /-- The source fails otherwise than by not having it. -/
  | refused (before : List String) {after : List String} {name : String} {e : Error} :
    AllMissing env s.loaded s.requests before →
    s.loaded.find? name = none →
    env.source (before.reverse ++ s.requests) name = .error e →
    e.isNotFound = false →
    Search env s (before ++ name :: after) (.broken (.error e)) (asking s (before ++ [name]))
  /-- The source has none of them. -/
  | missing (before : List String) {name called : String} {reason : NotFound} :
    AllMissing env s.loaded s.requests (before ++ [name]) →
    env.source (before.reverse ++ s.requests) name = .error (.notFound called reason) →
    Search env s (before ++ [name]) (.missing called reason) (asking s (before ++ [name]))

variable {env : Environment ω} {s t : RenderState ω} {name : String} {names : List String}

theorem asking_cons (s : RenderState ω) (name : String) (names : List String) :
    asking s (name :: names) = asking (asking s [name]) names := by
  simp [asking]

/-- Preparing a template fails with the error of its source, or does not come to an end. -/
theorem prepare_eq_error {source : String} {f : Failure} (h : env.prepare name source = .error f) :
    (∃ e, Template.parse name source = .error (.error e) ∧ f = .error (.parse name e)) ∨
      f = .exhausted := by
  unfold Environment.prepare at h
  rcases hparse : Template.parse name source with (e | _) | t
  · rw [hparse] at h
    cases h
    exact .inl ⟨e, rfl, rfl⟩
  · rw [hparse] at h
    cases h
    exact .inr rfl
  · rw [hparse] at h
    dsimp only at h
    split at h
    · cases h
      exact .inr rfl
    · cases h

/-- A search goes on after a template that is missing. -/
theorem Search.cons {found : Found} {called : String} {reason : NotFound}
    (hloaded : s.loaded.find? name = none)
    (hsource : env.source s.requests name = .error (.notFound called reason))
    (h : Search env (asking s [name]) names found t) : Search env s (name :: names) found t := by
  have hmissing : ∀ {before}, AllMissing env (asking s [name]).loaded (asking s [name]).requests
      before → AllMissing env s.loaded s.requests (name :: before) :=
    fun h => ⟨hloaded, ⟨called, reason, hsource⟩, h⟩
  have hrequests : ∀ before : List String, before.reverse ++ (asking s [name]).requests =
      (name :: before).reverse ++ s.requests := by
    simp [asking]
  cases h with
  | known before hbefore hknown =>
    rw [← asking_cons]
    exact .known _ (hmissing hbefore) hknown
  | fresh before hbefore hnew hsource hprepare =>
    rw [← asking_cons]
    rw [hrequests] at hsource
    exact .fresh _ (hmissing hbefore) hnew hsource hprepare
  | unparsed before hbefore hnew hsource hparse =>
    rw [← asking_cons]
    rw [hrequests] at hsource
    exact .unparsed _ (hmissing hbefore) hnew hsource hparse
  | endless before hbefore hnew hsource hprepare =>
    rw [← asking_cons]
    rw [hrequests] at hsource
    exact .endless _ (hmissing hbefore) hnew hsource hprepare
  | refused before hbefore hnew hsource he =>
    rw [← asking_cons]
    rw [hrequests] at hsource
    exact .refused _ (hmissing hbefore) hnew hsource he
  | missing before hbefore hsource =>
    rw [← asking_cons]
    rw [hrequests] at hsource
    exact .missing _ (hmissing hbefore) hsource

/-- Every search for one of some templates comes to something. -/
theorem exists_search (env : Environment ω) (s : RenderState ω) {names : List String}
    (h : names ≠ []) : ∃ found t, Search env s names found t := by
  induction names generalizing s with
  | nil => exact absurd rfl h
  | cons name names ih =>
    cases hloaded : s.loaded.find? name with
    | some t => exact ⟨_, _, .known [] trivial hloaded⟩
    | none =>
      cases hsource : env.source s.requests name with
      | ok source =>
        cases hprepare : env.prepare name source with
        | ok t => exact ⟨_, _, .fresh [] trivial hloaded hsource hprepare⟩
        | error f =>
          rcases prepare_eq_error hprepare with ⟨e, hparse, -⟩ | rfl
          · exact ⟨_, _, .unparsed [] trivial hloaded hsource hparse⟩
          · exact ⟨_, _, .endless [] trivial hloaded hsource hprepare⟩
      | error e =>
        cases he : e.isNotFound with
        | false => exact ⟨_, _, .refused [] trivial hloaded hsource he⟩
        | true =>
          obtain ⟨called, reason, rfl⟩ := Error.exists_of_isNotFound he
          cases names with
          | nil =>
            exact ⟨_, _, .missing [] ⟨hloaded, ⟨_, _, hsource⟩, trivial⟩ hsource⟩
          | cons next names =>
            obtain ⟨found, t, hsearch⟩ := ih (asking s [name]) (List.cons_ne_nil _ _)
            exact ⟨found, t, hsearch.cons hloaded hsource⟩

/-! ## §2. Runs of searches -/

/-- What a search gives that comes to something. -/
def Found.answer : Found → Except Failure (Except (Option Error) LiveTemplate)
  | .template t => .ok (.ok t)
  | .broken f => .error f
  | .missing called reason => .ok (.error (some (.notFound called reason)))

/-- The names before a missing one are missing, and it is missing after the requests for them. -/
theorem AllMissing.of_append {loaded : Table LiveTemplate} {requests before after : List String}
    (h : AllMissing env loaded requests (before ++ after)) :
    AllMissing env loaded requests before ∧
      AllMissing env loaded (before.reverse ++ requests) after := by
  induction before generalizing requests with
  | nil => exact ⟨trivial, h⟩
  | cons name before ih =>
    obtain ⟨hloaded, hsource, hrest⟩ := h
    obtain ⟨hbefore, hafter⟩ := ih hrest
    refine ⟨⟨hloaded, hsource, hbefore⟩, ?_⟩
    rwa [List.reverse_cons, List.append_assoc]

theorem run_load_missing {called : String} {reason : NotFound}
    (hloaded : s.loaded.find? name = none)
    (hsource : env.source s.requests name = .error (.notFound called reason)) :
    (load env name).run s = (.error (.error (.notFound called reason)), asking s [name]) := by
  rw [run_load, hloaded]
  simp only [hsource]
  rfl

/-- Missing templates are passed over. -/
theorem run_loadFirst_missing {before : List String} (missing : Option Error)
    (h : AllMissing env s.loaded s.requests before) :
    ∃ missing', ∀ after, (loadFirst env missing (before ++ after)).run s =
      (loadFirst env missing' after).run (asking s before) := by
  induction before generalizing s missing with
  | nil => exact ⟨missing, fun _ => rfl⟩
  | cons name before ih =>
    obtain ⟨hloaded, ⟨called, reason, hsource⟩, hbefore⟩ := h
    obtain ⟨missing', hrun⟩ := ih (s := asking s [name]) (some (.notFound called reason)) hbefore
    refine ⟨missing', fun after => ?_⟩
    have hname : (loadIfThere env name).run s =
        (.ok (.error (.notFound called reason)), asking s [name]) := by
      rw [run_loadIfThere, run_load_missing hloaded hsource]
      rfl
    rw [List.cons_append, loadFirst, run_bind_ok hname]
    exact (hrun after).trans (by rw [← asking_cons])

section Decided

variable {before after : List String} (h : AllMissing env s.loaded s.requests before)
include h

/-- The first template that is there decides the search. -/
theorem run_loadFirst_of_ok {live : LiveTemplate}
    (hname : (load env name).run (asking s before) = (.ok live, t)) :
    (loadFirst env none (before ++ name :: after)).run s = (.ok (.ok live), t) := by
  obtain ⟨missing, hrun⟩ := run_loadFirst_missing none h
  have hthere : (loadIfThere env name).run (asking s before) = (.ok (.ok live), t) := by
    rw [run_loadIfThere, hname]
    rfl
  rw [hrun, loadFirst, run_bind_ok hthere]
  rfl

/-- So does the first one that is there but out of order. -/
theorem run_loadFirst_of_error {f : Failure} (hf : ∀ e, f = .error e → e.isNotFound = false)
    (hname : (load env name).run (asking s before) = (.error f, t)) :
    (loadFirst env none (before ++ name :: after)).run s = (.error f, t) := by
  obtain ⟨missing, hrun⟩ := run_loadFirst_missing none h
  have hthere : (loadIfThere env name).run (asking s before) = (.error f, t) := by
    rw [run_loadIfThere, hname]
    cases f with
    | error e => simp only [orMissing, hf e rfl, Bool.false_eq_true, if_false]
    | exhausted => rfl
  rw [hrun, loadFirst, run_bind_error hthere]

end Decided

/-- What a search comes to is what the renderer makes of the names. -/
theorem run_loadFirst_of_search {found : Found} (h : Search env s names found t) :
    (loadFirst env none names).run s = (found.answer, t) := by
  have hasking : ∀ before name, asking (asking s before) [name] = asking s (before ++ [name]) := by
    simp [asking]
  cases h with
  | @known before after name live hbefore hknown =>
    apply run_loadFirst_of_ok hbefore
    rw [run_load]
    simp only [asking, hknown]
  | @fresh before after name source live hbefore hnew hsource hprepare =>
    apply run_loadFirst_of_ok hbefore
    rw [run_load]
    simp only [asking, hnew, hsource, hprepare, List.reverse_append]
    rfl
  | @unparsed before after name source e hbefore hnew hsource hparse =>
    apply run_loadFirst_of_error hbefore (fun _ h => by cases h; rfl)
    have hprepare : env.prepare name source = .error (.error (.parse name e)) := by
      rw [Environment.prepare, hparse]
    rw [run_load, ← hasking]
    simp only [asking, hnew, hsource, hprepare]
    rfl
  | @endless before after name source hbefore hnew hsource hprepare =>
    apply run_loadFirst_of_error hbefore (fun _ h => by cases h)
    rw [run_load, ← hasking]
    simp only [asking, hnew, hsource, hprepare]
    rfl
  | @refused before after name e hbefore hnew hsource he =>
    apply run_loadFirst_of_error hbefore (fun _ h => by cases h; exact he)
    rw [run_load, ← hasking]
    simp only [asking, hnew, hsource]
    rfl
  | @missing before name called reason hall hsource =>
    obtain ⟨hbefore, hname, -, -⟩ := hall.of_append
    obtain ⟨missing, hrun⟩ := run_loadFirst_missing none hbefore
    have hthere : (loadIfThere env name).run (asking s before) =
        (.ok (.error (.notFound called reason)), asking (asking s before) [name]) := by
      rw [run_loadIfThere, run_load_missing (s := asking s before) hname hsource]
      rfl
    rw [hrun, loadFirst, run_bind_ok hthere, hasking]
    rfl

/-- If there is none, the answer is about the last one. -/
theorem Search.last {called : String} {reason : NotFound}
    (candid : TemplateSource.Candid env.source)
    (h : Search env s names (.missing called reason) t) : names.getLast? = some called := by
  cases h with
  | missing before hall hsource =>
    rw [candid _ _ _ _ hsource, List.getLast?_concat]

/-! ## §3. Inclusions -/

section Inclusions

variable [HostObject ω]

/-- What an inclusion does with a template that was found. -/
def renderFound (env : Environment ω) (inner : Option (Runner ω)) (i : Inclusion)
    (overrides : List (String × BlockRef)) (t : LiveTemplate) : Render ω Unit := do
  let bindings ← inclusionBindings (eval env inner) i
  let scope := inclusionScope i.only bindings (← frame).scope
  deeper inner i.position fun runner => renderTemplate env runner t scope overrides

variable {inner : Option (Runner ω)} {stmt : Stmt} {i : Inclusion} {blocks : Table DefinitionId}

/-- An inclusion in the frame of a template is that of its target. -/
theorem run_inclusion (h : stmt.Includes i blocks) (s : RenderState ω) :
    (runStmt env inner stmt).run s =
      (renderInclusion env inner (eval env inner) i (s.frame.template.blocks blocks)).run s := by
  cases h with
  | includes => rw [runStmt]; rfl
  | embeds => rw [runStmt, run_bind_ok (run_frame s)]

/-- What an inclusion renders is what is done with the template that its search found. -/
theorem run_renderFound {overrides : List (String × BlockRef)} {live : LiveTemplate}
    {bindings : Table (Value ω)} {runner : Runner ω} (hinner : inner = some runner)
    (hbindings : (inclusionBindings (eval env inner) i).run s = (.ok bindings, t))
    (hdepth : t.depth < maxDepth) :
    ((renderFound env inner i overrides live).run s).1 =
      ((renderTemplate env runner live (inclusionScope i.only bindings t.frame.scope)
        overrides).run { t with depth := t.depth + 1 }).1 := by
  rw [renderFound, run_bind_ok hbindings, run_bind_ok (run_frame t), run_deeper_of_lt _ _ _ hdepth,
    run_ending, hinner]

variable (hstmt : stmt.Includes i blocks) (hself : isSelf i.template = false)
  {s₁ : RenderState ω} {v : Value ω} (hv : (eval env inner i.template).run s = (.ok v, s₁))
  (hne : candidateNames v ≠ [])
include hstmt hself hv

omit hstmt in
/-- The target of an inclusion once its search has come to something. -/
theorem run_inclusionTarget_of_search {found : Found} (h : Search env s₁ (candidateNames v) found t) :
    (inclusionTarget env (eval env inner) i).run s =
      (match found with
        | .template live => .ok (some live)
        | .broken f => .error f
        | .missing called reason =>
          if i.ignoreMissing then .ok none else .error (.error (.notFound called reason)), t) := by
  have hsearch := run_loadFirst_of_search h
  unfold inclusionTarget
  rw [hself, if_neg Bool.false_ne_true, run_bind_ok hv]
  cases found with
  | template live => exact run_bind_ok hsearch _
  | broken f => exact run_bind_error hsearch _
  | missing called reason =>
    refine (run_bind_ok hsearch _).trans ?_
    cases i.ignoreMissing <;> rfl

/-- What comes of an inclusion once its search has come to something. -/
theorem run_inclusion_of_search {found : Found} (h : Search env s₁ (candidateNames v) found t) :
    (runStmt env inner stmt).run s =
      match found with
      | .template live =>
        (renderFound env inner i (s.frame.template.blocks blocks) live).run t
      | .broken f => (.error f, t)
      | .missing called reason =>
        (if i.ignoreMissing then .ok () else .error (.error (.notFound called reason)), t) := by
  rw [run_inclusion hstmt, renderInclusion, run_bind, run_inclusionTarget_of_search hself hv h]
  cases found with
  | template live => rfl
  | broken f => rfl
  | missing called reason => cases i.ignoreMissing <;> rfl

include hne

end Inclusions

/-! ## §4. Lists of names -/

section Names

variable [HostObject ω] {inner : Option (Runner ω)}

theorem evalAll_strings (pos : Position) (names : List String) :
    evalAll env inner (names.map (.string pos)) = pure (names.map .string) := by
  induction names with
  | nil => rw [List.map_nil, evalAll]; rfl
  | cons name names ih => rw [List.map_cons, evalAll, eval, ih]; rfl

theorem eval_strings (pos : Position) (names : List String) :
    eval env inner (.array pos (names.map (.string pos))) = pure (.array (names.map .string)) := by
  rw [eval, evalAll_strings]
  rfl

theorem candidateNames_strings (names : List String) :
    candidateNames (.array (names.map .string) : Value ω) = names := by
  simp [candidateNames, Value.output, Function.comp_def]

end Names

theorem parse_unclosed :
    (match Template.parse "broken" "\x7b\x7b" with
      | .error (.error _) => true
      | _ => false) = true := by
  decide +kernel

theorem parse_including :
    (match Template.parse "outer" "\x7b% include 'inner' %\x7d" with
      | .ok ⟨_, none, [.includes ⟨_, .string _ inner, none, false, false⟩], [], [], [], []⟩ =>
        decide (inner = "inner")
      | _ => false) = true := by
  decide +kernel

end Render

end Stencil
