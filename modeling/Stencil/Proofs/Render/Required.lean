import Stencil.Proofs.Render.Search

/-!
Inclusions whose template may not be missing.

Such an inclusion is done with its template or with an error: its search does not pass over the last
template that it asks for, and from a template that is found it goes on to render it.  There is one
case besides.  The target may be an array, and an array without items names no template at all.
Then the search is over before it has asked for anything, and there is no answer to fail with.
-/

namespace Stencil.Render

variable {ω : Type} [HostObject ω] {env : Environment ω} {inner : Option (Runner ω)} {stmt : Stmt}
  {i : Inclusion} {blocks : Table DefinitionId} {s t : RenderState ω}

/-! ## §1. Inclusions that render a template -/

/-- An inclusion that knows its template and what it passes to it. -/
structure Prepared (env : Environment ω) (inner : Option (Runner ω)) (i : Inclusion)
    (s : RenderState ω) where
  template : LiveTemplate
  bindings : Table (Value ω)
  /-- The state in which the template has been found. -/
  found : RenderState ω
  /-- The state in which its bindings are known as well. -/
  ready : RenderState ω
  target_eq : (inclusionTarget env (eval env inner) i).run s = (.ok (some template), found)
  bindings_eq : (inclusionBindings (eval env inner) i).run found = (.ok bindings, ready)

/-- An inclusion that comes to render its template, as this may be nested a level deeper. -/
structure Rendering (env : Environment ω) (inner : Option (Runner ω)) (i : Inclusion)
    (s : RenderState ω) extends Prepared env inner i s where
  runner : Runner ω
  inner_eq : inner = some runner
  depth_lt : ready.depth < maxDepth

/-- Once an inclusion is prepared, it goes one level deeper. -/
theorem Prepared.run_eq (p : Prepared env inner i s) (h : stmt.Includes i blocks) :
    (runStmt env inner stmt).run s =
      (deeper inner i.position fun runner => renderTemplate env runner p.template
        (inclusionScope i.only p.bindings p.ready.frame.scope)
        (s.frame.template.blocks blocks)).run p.ready := by
  rw [run_inclusion h, renderInclusion, run_bind_ok p.target_eq]
  dsimp only
  rw [run_bind_ok p.bindings_eq, run_bind_ok (run_frame _)]

namespace Rendering

/-- The scope in which the template starts. -/
def scope (r : Rendering env inner i s) : Scope ω :=
  inclusionScope i.only r.bindings r.ready.frame.scope

/-- What comes of the render of the template, under the blocks of an embedding statement. -/
def outcome (r : Rendering env inner i s) (overrides : List (String × BlockRef)) :
    Except Failure Unit × RenderState ω :=
  (ending (renderTemplate env r.runner r.template r.scope overrides) leave).run
    { r.ready with depth := r.ready.depth + 1 }

/-- An inclusion that comes to render a template does this and nothing else. -/
theorem run_eq (r : Rendering env inner i s) (h : stmt.Includes i blocks) :
    (runStmt env inner stmt).run s = r.outcome (s.frame.template.blocks blocks) := by
  obtain ⟨p, runner, rfl, hdepth⟩ := r
  rw [p.run_eq h, run_deeper_of_lt _ _ _ hdepth]
  rfl

end Rendering

/-- A prepared inclusion fails unless it comes to render its template. -/
theorem Prepared.exists_rendering (p : Prepared env inner i s) (h : stmt.Includes i blocks)
    (hok : ((runStmt env inner stmt).run s).1 = .ok ()) : Nonempty (Rendering env inner i s) := by
  rw [p.run_eq h] at hok
  by_cases hdepth : p.ready.depth < maxDepth
  · rw [run_deeper_of_lt _ _ _ hdepth] at hok
    cases inner with
    | none => cases hok
    | some runner => exact ⟨⟨p, runner, rfl, hdepth⟩⟩
  · rw [run_deeper_of_limit _ _ _ (Nat.le_of_not_lt hdepth)] at hok
    cases hok

/-- So does one that has found its template. -/
theorem exists_rendering_of_ok {live : LiveTemplate} (h : stmt.Includes i blocks)
    (htarget : (inclusionTarget env (eval env inner) i).run s = (.ok (some live), t))
    (hok : ((runStmt env inner stmt).run s).1 = .ok ()) : Nonempty (Rendering env inner i s) := by
  rcases hbindings : (inclusionBindings (eval env inner) i).run t with ⟨e | bindings, u⟩
  · rw [run_inclusion h, renderInclusion, run_bind_ok htarget] at hok
    dsimp only at hok
    rw [run_bind_error hbindings] at hok
    cases hok
  · exact Prepared.exists_rendering ⟨live, bindings, t, u, htarget, hbindings⟩ h hok

/-! ## §2. Inclusions that name none -/

/-- Whether the target of an inclusion names no template: its value is an array without items. -/
def NamesNone (env : Environment ω) (inner : Option (Runner ω)) (i : Inclusion)
    (s t : RenderState ω) : Prop :=
  isSelf i.template = false ∧ (eval env inner i.template).run s = (.ok (.array []), t)

theorem candidateNames_eq_nil {v : Value ω} : candidateNames v = [] ↔ v = .array [] := by
  cases v <;> simp [candidateNames]

/-- A template that may not be missing is not there only if none is named. -/
theorem run_inclusionTarget_eq_none_iff (required : i.ignoreMissing = false) :
    (inclusionTarget env (eval env inner) i).run s = (.ok none, t) ↔ NamesNone env inner i s t := by
  constructor
  · intro h
    by_cases hself : isSelf i.template
    · rw [inclusionTarget, if_pos hself, run_bind_ok (run_frame s)] at h
      cases h
    · rw [Bool.not_eq_true] at hself
      rcases hv : (eval env inner i.template).run s with ⟨f | v, s₁⟩
      · rw [inclusionTarget, hself, if_neg Bool.false_ne_true, run_bind_error hv] at h
        cases h
      · by_cases hnames : candidateNames v = []
        · have hempty := candidateNames_eq_nil.mp hnames
          subst hempty
          rw [inclusionTarget, hself, if_neg Bool.false_ne_true, run_bind_ok hv] at h
          cases h
          exact ⟨hself, hv⟩
        · obtain ⟨found, t', hsearch⟩ := exists_search env s₁ hnames
          rw [run_inclusionTarget_of_search hself hv hsearch, required] at h
          cases found <;> cases h
  · rintro ⟨hself, hv⟩
    rw [inclusionTarget, hself, if_neg Bool.false_ne_true, run_bind_ok hv]
    rfl

/-- An inclusion that names no template does nothing more. -/
theorem NamesNone.run_eq (h : NamesNone env inner i s t) (required : i.ignoreMissing = false)
    (hstmt : stmt.Includes i blocks) : (runStmt env inner stmt).run s = (.ok (), t) := by
  rw [run_inclusion hstmt, renderInclusion,
    run_bind_ok ((run_inclusionTarget_eq_none_iff required).mpr h)]
  rfl

theorem NamesNone.not_nonempty_rendering (h : NamesNone env inner i s t)
    (required : i.ignoreMissing = false) : ¬ Nonempty (Rendering env inner i s) := by
  rintro ⟨r⟩
  have hnone := (run_inclusionTarget_eq_none_iff required).mpr h
  rw [r.target_eq] at hnone
  cases hnone

/-! ## §3. Required inclusions -/

theorem parse_includingNone :
    (match Template.parse "page" "\x7b% include [] %\x7d" with
      | .ok ⟨_, none, [.includes ⟨_, .array _ [], none, false, false⟩], [], [], [], []⟩ => true
      | _ => false) = true := by
  decide +kernel

end Stencil.Render
