import Stencil.Proofs.Template.Contexts
import Stencil.Render.Chain

/-!
The pass on templates that it has been through.

After the pass a template without an `embed` is wrapped: every print that a walk comes by is in a
call of `escape`, for the kind of output that the names around it say.  The pass takes no notice of
this.  It comes by the same definitions with the same names around them, so that it puts each print
in one more call, and that call says the same kind of output as the one inside it.
-/

namespace Stencil.AutoEscape

open Visitor

/-! ## §1. Bodies -/

/-- Whether every print of a body is in a call of `escape` for a kind of output. -/
def WrappedFor (context : String) (body : List Stmt) : Prop :=
  ∀ e ∈ Stmt.printsAll body, ∃ pos inner, e = escaped pos context inner

theorem wrappedFor_escapeBody (context : String) (body : List Stmt) :
    WrappedFor context (escapeBody context body) :=
  fun _ he => escaped_of_mem_escapeBody context body he

/-- A body as it is or, if it is wrapped for a kind of output, wrapped for it once more. -/
inductive Again : List Stmt → List Stmt → Prop
  | same (body : List Stmt) : Again body body
  | twice {context : String} {body : List Stmt} :
    WrappedFor context body → Again body (escapeBody context body)

/-- The pass changes no statement into one of another kind. -/
theorem filter_isPreamble_escapeBody (context : String) (body : List Stmt) :
    (escapeBody context body).filter Render.isPreamble =
      escapeBody context (body.filter Render.isPreamble) := by
  induction body with
  | nil => rfl
  | cons s ss ih =>
    have hkind : Render.isPreamble (escapeStmt context s) = Render.isPreamble s := by
      cases s <;> rfl
    rw [escapeBody, List.filter_cons, List.filter_cons, hkind, ih]
    by_cases h : Render.isPreamble s = true
    · rw [if_pos h, if_pos h, escapeBody]
    · rw [if_neg h, if_neg h]

theorem printsAll_filter_subset (keep : Stmt → Bool) (body : List Stmt) :
    Stmt.printsAll (body.filter keep) ⊆ Stmt.printsAll body := by
  induction body with
  | nil => exact List.Subset.refl _
  | cons s ss ih =>
    rw [List.filter_cons]
    split
    · exact List.append_subset.mpr ⟨List.subset_append_left _ _,
        List.subset_append_of_subset_right _ ih⟩
    · exact List.subset_append_of_subset_right _ ih

theorem Again.filter_isPreamble {body body' : List Stmt} (h : Again body body') :
    Again (body.filter Render.isPreamble) (body'.filter Render.isPreamble) := by
  cases h with
  | same => exact .same _
  | twice hwrapped =>
    rw [filter_isPreamble_escapeBody]
    exact .twice fun e he => hwrapped e (printsAll_filter_subset _ _ he)

theorem reuses_of_again {t t' : Template} (h : Again t.body t'.body) : t'.reuses = t.reuses := by
  unfold Template.reuses
  generalize t.body = body, t'.body = body' at h
  cases h with
  | same => rfl
  | twice hwrapped =>
    clear hwrapped
    induction body with
    | nil => rfl
    | cons s ss ih => cases s <;> simp only [escapeBody, escapeStmt, List.filterMap_cons, ih]

/-! ## §2. Templates -/

/-- A template whose walk comes to an end and comes by no definition twice, and whose prints are all
wrapped for the kind of output that the names around them say. -/
structure IsWrapped (t : Template) : Prop where
  ranks : ∃ rank, t.Ranks rank
  once : t.visited.Nodup
  body : WrappedFor (contextIn [t.name]) t.body
  definitions : ∀ p names, (p, names) ∈ t.visits → WrappedFor (contextIn names) (t.statementsAt p)

/-- A template with some of its bodies wrapped once more. -/
structure Rewrapped (t t' : Template) : Prop where
  name : t'.name = t.name
  parent : t'.parent = t.parent
  blockTable : t'.blockTable = t.blockTable
  macroTable : t'.macroTable = t.macroTable
  body : Again t.body t'.body
  blocks : ∀ id, Option.Rel (fun b b' => b'.name = b.name ∧ Again b.body b'.body)
    (t.blockAt? id) (t'.blockAt? id)
  macros : ∀ id, Option.Rel
    (fun m m' => m'.name = m.name ∧ m'.params = m.params ∧ Again m.body m'.body)
    (t.macroAt? id) (t'.macroAt? id)

theorem Rewrapped.refl (t : Template) : Rewrapped t t where
  name := rfl
  parent := rfl
  blockTable := rfl
  macroTable := rfl
  body := .same _
  blocks id := by
    cases t.blockAt? id with
    | none => exact .none
    | some b => exact .some ⟨rfl, .same _⟩
  macros id := by
    cases t.macroAt? id with
    | none => exact .none
    | some m => exact .some ⟨rfl, rfl, .same _⟩

section Visits

variable {s u : WalkState (List String)} {visits : List (Definition × List String)}

/-- The bodies of definitions are wrapped once for each visit. -/
theorem Wraps.bodyIn (h : Wraps s visits u) (p : Definition) :
    bodyIn u p = escapeEach (contextsOf p visits) (bodyIn s p) := by
  have hnil : ∀ contexts, escapeEach contexts [] = [] := by
    intro contexts
    induction contexts with
    | nil => rfl
    | cons context contexts ih => exact ih
  cases p with
  | block id =>
    simp only [AutoEscape.bodyIn, Definition.body, h.blocks]
    cases s.blocks[id]? with
    | none => exact (hnil _).symm
    | some b => rfl
  | macroDef id =>
    simp only [AutoEscape.bodyIn, Definition.body, h.macros]
    cases s.macros[id]? with
    | none => exact (hnil _).symm
    | some m => rfl

/-- A definition is visited not at all, or its contexts are those of its one visit. -/
theorem contextsOf_cases (hnodup : (visits.map Prod.fst).Nodup) (p : Definition) :
    contextsOf p visits = [] ∨
      ∃ names, (p, names) ∈ visits ∧ contextsOf p visits = [contextIn names] := by
  by_cases hp : p ∈ visits.map Prod.fst
  · obtain ⟨⟨_, names⟩, hvisit, rfl⟩ := List.mem_map.mp hp
    exact .inr ⟨names, hvisit, contextsOf_eq_singleton hnodup hvisit⟩
  · refine .inl (contextsOf_eq_nil ?_)
    intro visit hvisit heq
    exact hp (heq ▸ List.mem_map_of_mem hvisit)

/-- Templates with the same names and mentions have the same visits. -/
theorem tour_congr {t t' : Template} (hgraph : t'.graph = t.graph)
    (hnames : ∀ id, (t'.blockAt? id).map Block.name = (t.blockAt? id).map Block.name)
    (d : Nat) (names : List String) (ps : List Definition) :
    t'.tour d names ps = t.tour d names ps := by
  have hinside : ∀ names p, t'.namesInside names p = t.namesInside names p := by
    intro names p
    cases p with
    | macroDef id => rfl
    | block id =>
      have helim : ∀ b? : Option Block,
          b?.elim names (·.name :: names) = (b?.map Block.name).elim names (· :: names) := by
        intro b?
        cases b? <;> rfl
      show (t'.blockAt? id).elim names _ = (t.blockAt? id).elim names _
      rw [helim, helim, hnames]
  induction d generalizing names ps with
  | zero => rfl
  | succ d ih =>
    rw [Template.tour, Template.tour]
    refine congrArg (ps.flatMap ·) (funext fun p => ?_)
    rw [hinside, hgraph, ih]

end Visits

/-! ## §3. The pass -/

section Pass

variable {t t' : Template} (hrun : AutoEscape.run t = some t')
include hrun

/-- What the pass comes by is the same afterwards. -/
theorem visits_run (hranks : ∃ rank, t.Ranks rank) :
    t'.visits = t.visits ∧ ∀ rank, t.Ranks rank → t'.Ranks rank := by
  obtain ⟨t'', hrun', hescapes⟩ := run_escapes t
  obtain rfl : t'' = t' := Option.some_inj.mp (hrun'.symm.trans hrun)
  obtain ⟨rank, hranks⟩ := hranks
  obtain ⟨u, hrun'', hwraps⟩ := run_wraps hranks
  obtain ⟨hblocks, hmacros⟩ :=
    lengths_eq (s := ⟨[], t.blocks, t.macros⟩) (t := ⟨[], t''.blocks, t''.macros⟩) hescapes.graph
  have hdepth : t''.depth = t.depth := by
    unfold Template.depth
    rw [hblocks, hmacros]
  have hnames : ∀ id, (t''.blockAt? id).map Block.name = (t.blockAt? id).map Block.name := by
    intro id
    obtain rfl := Option.some_inj.mp (hrun.symm.trans hrun'')
    show Option.map _ u.blocks[id]? = Option.map _ t.blocks[id]?
    rw [hwraps.blocks, Option.map_map]
    rfl
  constructor
  · unfold Template.visits
    rw [tour_congr hescapes.graph hnames, hescapes.mentions, hdepth, name_run hrun]
  · intro rank hranks
    refine ⟨fun p => hdepth ▸ hranks.lt_depth p, ?_⟩
    rw [hescapes.graph]
    exact hranks.lt

/-- After the pass a template is wrapped, if the pass comes by no definition twice. -/
theorem isWrapped_run (hranks : ∃ rank, t.Ranks rank) (hnodup : t.visited.Nodup) :
    IsWrapped t' := by
  obtain ⟨hvisits, hkeeps⟩ := visits_run hrun hranks
  obtain ⟨rank, hrank⟩ := hranks
  obtain ⟨u, hrun', hwraps⟩ := run_wraps hrank
  obtain rfl := Option.some_inj.mp (hrun'.symm.trans hrun)
  refine ⟨⟨rank, hkeeps rank hrank⟩, ?_, wrappedFor_escapeBody _ _, ?_⟩
  · unfold Template.visited
    rw [hvisits]
    exact hnodup
  · intro p names hvisit
    rw [hvisits] at hvisit
    have hbody := hwraps.bodyIn p
    rw [contextsOf_eq_singleton hnodup hvisit] at hbody
    show WrappedFor _ (bodyIn u p)
    rw [hbody]
    exact wrappedFor_escapeBody _ _

omit hrun in
/-- The pass comes to an end on a wrapped template, and wraps its bodies once more. -/
theorem exists_run_of_isWrapped (h : IsWrapped t) :
    ∃ t', AutoEscape.run t = some t' ∧ Rewrapped t t' := by
  obtain ⟨rank, hranks⟩ := h.ranks
  obtain ⟨u, hrun, hwraps⟩ := run_wraps hranks
  refine ⟨_, hrun, ?_⟩
  -- A body that is visited is wrapped for the kind of output of its visit, and is so once more.
  have hagain : ∀ p body, t.statementsAt p = body →
      Again body (escapeEach (contextsOf p t.visits) body) := by
    intro p body hbody
    subst hbody
    rcases contextsOf_cases h.once p with hnone | ⟨names, hvisit, hcontexts⟩
    · rw [hnone]
      exact .same _
    · rw [hcontexts]
      exact .twice (h.definitions p names hvisit)
  refine ⟨rfl, rfl, rfl, rfl, .twice h.body, ?_, ?_⟩
  · intro id
    have hblock := hwraps.blocks id
    unfold Template.blockAt?
    cases hb : t.blocks[id]? with
    | none =>
      rw [hb] at hblock
      rw [hblock]
      exact .none
    | some b =>
      have hbody : t.statementsAt (.block id) = b.body := by
        show (t.blocks[id]?.map Block.body).getD [] = b.body
        rw [hb]
        rfl
      rw [hb] at hblock
      rw [hblock]
      exact .some ⟨rfl, hagain _ _ hbody⟩
  · intro id
    have hdefinition := hwraps.macros id
    unfold Template.macroAt?
    cases hm : t.macros[id]? with
    | none =>
      rw [hm] at hdefinition
      rw [hdefinition]
      exact .none
    | some m =>
      have hbody : t.statementsAt (.macroDef id) = m.body := by
        show (t.macros[id]?.map MacroDef.body).getD [] = m.body
        rw [hm]
        rfl
      rw [hm] at hdefinition
      rw [hdefinition]
      exact .some ⟨rfl, rfl, hagain _ _ hbody⟩

end Pass

theorem embedFree_of_tables {t : Template} (h : t.statements.flatMap Stmt.tables = []) :
    t.EmbedFree := by
  intro inclusion table hs
  have hnil := List.flatMap_eq_nil_iff.mp h _ hs
  cases hnil

/-- What the pass makes of a parsed template without an `embed` is wrapped. -/
theorem isWrapped_of_parse {name source : String} {t t' : Template}
    (h : Template.parse name source = .ok t) (hfree : t.EmbedFree)
    (hrun : AutoEscape.run t = some t') : IsWrapped t' :=
  isWrapped_run hrun (Template.exists_ranks_of_parse h) (Template.nodup_visited_of_embedFree h hfree)

end Stencil.AutoEscape
