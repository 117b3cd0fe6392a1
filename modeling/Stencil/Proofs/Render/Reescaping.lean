import Stencil.Loader.Source
import Stencil.Proofs.Render.Concord
import Stencil.Proofs.Template.Reescaping

/-!
Escaping twice is escaping once.

What has been escaped is a safe text, and the filter `escape` leaves a text alone that is safe for
the kind of output it is asked for.  So a print in two calls of `escape` for one kind of output
writes what it writes in one call.

A second run of the pass wraps each print once more for the same kind of output.  Templates that
differ in such calls alone are alike in the sense of `Likeness`, and all renders with them come to
the same report.
-/

namespace Stencil

open AutoEscape (Again IsWrapped Rewrapped WrappedFor escapeBody escapeStmt)

/-! ## §1. Escaped values -/

section Values

variable {ω : Type} [HostObject ω]

/-- What is escaped for a kind of output is a text that is safe for it. -/
theorem Escape.value_eq_safe (v : Value ω) (context : String) :
    ∃ s, value v context = .safe s ∧ s.isSafeFor context = true := by
  have hcontext : ∀ text, SafeText.isSafeFor ⟨text, .contexts [context]⟩ context = true := by
    intro text
    show [context].contains context = true
    rw [List.contains_cons, BEq.rfl, Bool.true_or]
  by_cases hsafe : ∃ s, v = .safe s ∧ s.isSafeFor context = true
  · obtain ⟨s, rfl, hs⟩ := hsafe
    exact ⟨s, if_pos hs, hs⟩
  · cases v with
    | safe s => exact ⟨_, if_neg fun hs => hsafe ⟨s, rfl, hs⟩, hcontext _⟩
    | _ => exact ⟨_, rfl, hcontext _⟩

/-- Escaping for one kind of output twice is escaping once. -/
theorem Escape.value_value (v : Value ω) (context : String) :
    value (value v context) context = value v context := by
  obtain ⟨s, hs, hsafe⟩ := value_eq_safe v context
  rw [hs]
  exact if_pos hsafe

end Values

/-! ## §2. Escaped prints -/

namespace Render

variable {ω : Type} [HostObject ω] {env : Environment ω}
  (hescape : env.filters.find? "escape" = some Catalog.escape) (inner : Option (Runner ω))
include hescape

/-- A call of `escape` for a kind of output evaluates what is in it and escapes the value. -/
theorem eval_escaped (pos : Position) (context : String) (e : Expr) :
    eval env inner (AutoEscape.escaped pos context e) =
      (fun v => Escape.value v context) <$> eval env inner e := by
  have hargs : evalAll env inner [.string pos context] = pure [.string context] := by
    simp only [evalAll, eval, pure_bind]
  have hname : ("escape" : String) ≠ "default" := by decide
  have happly : ∀ v : Value ω, applyFilter env pos "escape" v (pure [.string context]) =
      pure (Escape.value v context) := by
    intro v
    obtain ⟨s, hs, _⟩ := Escape.value_eq_safe v context
    have hanswer : ∀ state, Catalog.escape state v [.string context] = .ok (.safe s) :=
      fun _ => congrArg Except.ok hs
    unfold applyFilter
    rw [hescape, hs]
    -- A text holds no object that would be met.
    simp only [pure_bind, hanswer]
    rfl
  rw [AutoEscape.escaped, eval, if_neg hname, hargs, map_eq_pure_bind]
  exact congrArg (eval env inner e >>= ·) (funext happly)

theorem eval_escaped_escaped (pos pos' : Position) (context : String) (e : Expr) :
    eval env inner (AutoEscape.escaped pos context (AutoEscape.escaped pos' context e)) =
      eval env inner (AutoEscape.escaped pos' context e) := by
  rw [eval_escaped hescape, eval_escaped hescape, Functor.map_map]
  exact congrArg (· <$> eval env inner e) (funext fun v => Escape.value_value v context)

set_option linter.unusedSectionVars false in
mutual

/-- A statement whose prints are wrapped does the same when they are wrapped once more. -/
theorem runStmt_escapeStmt (context : String) : ∀ s : Stmt,
    (∀ e ∈ s.prints, ∃ pos inner, e = AutoEscape.escaped pos context inner) →
    runStmt env inner (escapeStmt context s) = runStmt env inner s
  | .print pos e, h => by
    obtain ⟨pos', e, rfl⟩ := h e (List.mem_singleton_self e)
    rw [escapeStmt, runStmt, runStmt, eval_escaped_escaped hescape]
  | .branch _ cond body orElse, h => by
    obtain ⟨hbody, horElse⟩ := List.forall_mem_append.mp h
    rw [escapeStmt, runStmt, runStmt, runBody_escapeBody context body hbody,
      runBody_escapeBody context orElse horElse]
  | .loop _ _ _ _ body orElse, h => by
    obtain ⟨hbody, horElse⟩ := List.forall_mem_append.mp h
    rw [escapeStmt, runStmt, runStmt, runBody_escapeBody context body hbody,
      runBody_escapeBody context orElse horElse]
  | .capture _ _ body, h | .filtered _ _ body, h => by
    rw [escapeStmt, runStmt, runStmt, runBody_escapeBody context body h]
  | .text .., _ | .block .., _ | .includes _, _ | .embeds .., _ | .reuses _, _ | .assign .., _
  | .perform .., _ | .defines .., _ | .importAll .., _ | .importSome .., _ => by
    rw [escapeStmt]

theorem runBody_escapeBody (context : String) : ∀ ss : List Stmt, WrappedFor context ss →
    runBody env inner (escapeBody context ss) = runBody env inner ss
  | [], _ => rfl
  | s :: ss, h => by
    obtain ⟨hs, hss⟩ := List.forall_mem_append.mp h
    rw [escapeBody, runBody, runBody, runStmt_escapeStmt context s hs,
      runBody_escapeBody context ss hss]

end

theorem runBody_of_again {ss ss' : List Stmt} (h : Again ss ss') :
    runBody env inner ss' = runBody env inner ss := by
  cases h with
  | same => rfl
  | twice hwrapped => exact runBody_escapeBody hescape inner _ ss hwrapped

end Render

/-! ## §3. Rewrapped templates are alike -/

/-- Templates that are the same but for wrapped bodies that are wrapped once more. -/
def Likeness.rewrapping : Likeness where
  template := Rewrapped
  code := Again
  refl := .refl
  name h := h.name
  parent h := h.parent
  reuses h := AutoEscape.reuses_of_again h.body
  blockTable h := h.blockTable
  macroTable h := h.macroTable
  block h := h.blocks
  definition h := h.macros
  preamble h _ := h.body.filter_isPreamble
  root h _ := h.body

/-! ## §4. Renders -/

namespace Environment

variable {ω : Type} {env : Environment ω}

/-- What is prepared of a template without an `embed` is wrapped, if the passes after the first one
leave wrapped templates wrapped. -/
theorem isWrapped_of_prepare (hauto : env.autoEscape = true)
    (hpasses : ∀ pass ∈ env.passes, ∀ t t', IsWrapped t → pass t = some t' → IsWrapped t')
    {name source : String} (hfree : ∀ t, Template.parse name source = .ok t → t.EmbedFree)
    {t : Template} (h : env.prepare name source = .ok t) : IsWrapped t := by
  have hrest : ∀ {passes : List Pass}, passes ⊆ env.passes → ∀ {t t' : Template}, IsWrapped t →
      passes.foldlM (fun t pass => pass t) t = some t' → IsWrapped t' := by
    intro passes hsubset
    induction passes with
    | nil =>
      intro t t' ht h
      cases h
      exact ht
    | cons pass passes ih =>
      intro t t' ht h
      rw [List.foldlM_cons] at h
      obtain ⟨u, hu, h⟩ := Option.bind_eq_some_iff.mp h
      obtain ⟨hpass, hmore⟩ := List.cons_subset.mp hsubset
      exact ih hmore (hpasses pass hpass t u ht hu) h
  unfold prepare allPasses at h
  rw [if_pos hauto] at h
  rcases hparse : Template.parse name source with (_ | _) | parsed
  · rw [hparse] at h
    cases h
  · rw [hparse] at h
    cases h
  · rw [hparse] at h
    simp only [List.foldlM_cons] at h
    split at h
    · cases h
    · rename_i t' hfold
      cases h
      obtain ⟨u, hu, hfold⟩ := Option.bind_eq_some_iff.mp hfold
      exact hrest (List.Subset.refl _)
        (AutoEscape.isWrapped_of_parse hparse (hfree parsed hparse) hu) hfold

/-- What is prepared with the pass registered once more is what is prepared without it, wrapped once
more. -/
theorem prepare_withPass_run (hauto : env.autoEscape = true)
    (hpasses : ∀ pass ∈ env.passes, ∀ t t', IsWrapped t → pass t = some t' → IsWrapped t')
    {name source : String} (hfree : ∀ t, Template.parse name source = .ok t → t.EmbedFree) :
    Results Rewrapped (env.prepare name source)
      ((env.withPass AutoEscape.run).prepare name source) := by
  rw [prepare_withPass]
  cases h : env.prepare name source with
  | error e => exact .error e
  | ok t =>
    obtain ⟨t', hrun, ht⟩ :=
      AutoEscape.exists_run_of_isWrapped (isWrapped_of_prepare hauto hpasses hfree h)
    show Results _ _ ((AutoEscape.run t).elim _ _)
    rw [hrun]
    exact .ok ht

variable [HostObject ω]

theorem render_of_error {name : String} {failure : Failure} (h : env.template name = .error failure)
    (context : Context ω) (room : Option Nat) :
    env.render name context room = ⟨.error failure, [], [name]⟩ := by
  unfold render
  rw [h]

theorem render_of_ok {name : String} {t : Template} (h : env.template name = .ok t)
    (context : Context ω) (room : Option Nat) :
    env.render name context room =
      env.renderFrom ⟨t, .entry⟩ (startState ⟨t, .entry⟩ context room [name]) := by
  unfold render
  rw [h]

section Rewrapping

variable (hescape : env.filters.find? "escape" = some Catalog.escape)
  (discreet : Likeness.rewrapping.Discreet env) (hauto : env.autoEscape = true)
  (hpasses : ∀ pass ∈ env.passes, ∀ t t', IsWrapped t → pass t = some t' → IsWrapped t')
  (hfree : ∀ requests name source t, env.source requests name = .ok source →
    Template.parse name source = .ok t → t.EmbedFree)
include discreet hauto hpasses hfree

theorem kin_withPass_run : Likeness.rewrapping.Kin env (env.withPass AutoEscape.run) := by
  refine ⟨rfl, ?_, rfl, rfl, rfl, rfl, rfl, rfl, discreet⟩
  intro requests name source hsource
  exact prepare_withPass_run hauto hpasses fun t ht => hfree requests name source t hsource ht

include hescape

/-- Templates that are alike are rendered alike, wherever they come from. -/
theorem renderFrom_withPass_run {t t' : Template} (h : Rewrapped t t') (context : Context ω)
    (room : Option Nat) (requests : List String) :
    (env.withPass AutoEscape.run).renderFrom ⟨t', .entry⟩
        (startState ⟨t', .entry⟩ context room requests) =
      env.renderFrom ⟨t, .entry⟩ (startState ⟨t, .entry⟩ context room requests) := by
  have hlive : Likeness.rewrapping.Live ⟨t, .entry⟩ ⟨t', .entry⟩ := ⟨rfl, h⟩
  have hescape' : (env.withPass AutoEscape.run).filters.find? "escape" = some Catalog.escape :=
    hescape
  exact Render.renderFrom_eq_of_runBody (kin_withPass_run discreet hauto hpasses hfree)
    (fun hcode inner => Render.runBody_of_again hescape' inner hcode) hlive
    (Render.startState_matched hlive context room requests)

end Rewrapping

end Environment

end Stencil
