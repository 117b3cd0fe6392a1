import Stencil.Environment
import Stencil.Proofs.Template.Escaping
import Stencil.Proofs.Template.WellFormed

/-!
What belongs to a template.

Renders run code of several templates, and they hand numbers of blocks and macros around.  Both
belong to a template: code is a statement or an expression that is written in it, and a number is
one that it issued, which means that it stands in one of its statements or tables.  A template is
grounded if every number that it issued finds a definition.  Parsed templates are grounded, and
escaping by default keeps them so.
-/

namespace Stencil

/-! ## §1. Code -/

/-- Something that a render runs. -/
inductive Code
  | expr (e : Expr)
  | stmt (s : Stmt)

/-- An expression and those inside it, at any depth. -/
inductive Expr.Inside (whole : Expr) : Expr → Prop
  | whole : whole.Inside whole
  | part {e p : Expr} : whole.Inside e → p ∈ e.parts → whole.Inside p

theorem Stmt.mem_nodes_of_mem {s : Stmt} {ss : List Stmt} (h : s ∈ ss) : s ∈ nodes ss := by
  induction ss with
  | nil => cases h
  | cons s' ss ih =>
    rw [nodes]
    rcases List.mem_cons.mp h with rfl | h
    · exact .head _
    · exact .tail _ (List.mem_append_right _ (ih h))

mutual

/-- What is inside of a statement that is inside of another one is inside of that. -/
theorem Stmt.mem_inside_of_mem_inside : ∀ {s inner other : Stmt},
    inner ∈ s.inside → other ∈ inner.inside → other ∈ s.inside
  | .branch _ _ body orElse, inner, other, hinner, h
  | .loop _ _ _ _ body orElse, inner, other, hinner, h => by
    rw [inside] at hinner ⊢
    rcases List.mem_append.mp hinner with hinner | hinner
    · exact List.mem_append_left _ (mem_nodes_of_mem_inside hinner h)
    · exact List.mem_append_right _ (mem_nodes_of_mem_inside hinner h)
  | .capture _ _ body, inner, other, hinner, h | .filtered _ _ body, inner, other, hinner, h => by
    rw [inside] at hinner ⊢
    exact mem_nodes_of_mem_inside hinner h
  | .text .., _, _, h, _ | .print .., _, _, h, _ | .block .., _, _, h, _
  | .includes _, _, _, h, _ | .embeds .., _, _, h, _ | .reuses _, _, _, h, _
  | .assign .., _, _, h, _ | .perform .., _, _, h, _ | .defines .., _, _, h, _
  | .importAll .., _, _, h, _ | .importSome .., _, _, h, _ => by
    rw [inside] at h
    cases h

/-- Statements and those inside them are closed under what is inside. -/
theorem Stmt.mem_nodes_of_mem_inside : ∀ {ss : List Stmt} {inner other : Stmt},
    inner ∈ nodes ss → other ∈ inner.inside → other ∈ nodes ss
  | [], _, _, hinner, _ => by
    rw [nodes] at hinner
    cases hinner
  | s :: ss, inner, other, hinner, h => by
    rw [nodes] at hinner ⊢
    refine .tail _ ?_
    rcases List.mem_cons.mp hinner with rfl | hinner
    · exact List.mem_append_left _ h
    · rcases List.mem_append.mp hinner with hinner | hinner
      · exact List.mem_append_left _ (mem_inside_of_mem_inside hinner h)
      · exact List.mem_append_right _ (mem_nodes_of_mem_inside hinner h)

end

mutual

/-- A statement mentions what the statements inside it mention. -/
theorem Stmt.mentions_of_mem_inside : ∀ {s inner : Stmt} {p : Definition},
    inner ∈ s.inside → p ∈ inner.mentions → p ∈ s.mentions
  | .branch _ _ body orElse, inner, p, hinner, h
  | .loop _ _ _ _ body orElse, inner, p, hinner, h => by
    rw [inside] at hinner
    rw [mentions]
    rcases List.mem_append.mp hinner with hinner | hinner
    · exact List.mem_append_left _ (mentionsAll_of_mem_nodes hinner h)
    · exact List.mem_append_right _ (mentionsAll_of_mem_nodes hinner h)
  | .capture _ _ body, inner, p, hinner, h | .filtered _ _ body, inner, p, hinner, h => by
    rw [inside] at hinner
    rw [mentions]
    exact mentionsAll_of_mem_nodes hinner h
  | .text .., _, _, h, _ | .print .., _, _, h, _ | .block .., _, _, h, _
  | .includes _, _, _, h, _ | .embeds .., _, _, h, _ | .reuses _, _, _, h, _
  | .assign .., _, _, h, _ | .perform .., _, _, h, _ | .defines .., _, _, h, _
  | .importAll .., _, _, h, _ | .importSome .., _, _, h, _ => by
    rw [inside] at h
    cases h

theorem Stmt.mentionsAll_of_mem_nodes : ∀ {ss : List Stmt} {s : Stmt} {p : Definition},
    s ∈ nodes ss → p ∈ s.mentions → p ∈ mentionsAll ss
  | [], _, _, hs, _ => by
    rw [nodes] at hs
    cases hs
  | s' :: ss, s, p, hs, h => by
    rw [nodes] at hs
    rw [mentionsAll]
    rcases List.mem_cons.mp hs with rfl | hs
    · exact List.mem_append_left _ h
    · rcases List.mem_append.mp hs with hs | hs
      · exact List.mem_append_left _ (mentions_of_mem_inside hs h)
      · exact List.mem_append_right _ (mentionsAll_of_mem_nodes hs h)

end

namespace Template

/-- Whether code is written in a template: in its body, in the bodies of its definitions, in the
defaults of their parameters, or as what it extends. -/
def Owns (t : Template) : Code → Prop
  | .stmt s => s ∈ t.statements
  | .expr e => ∃ whole ∈ t.exprs, whole.Inside e

namespace Owns

variable {t : Template}

theorem body {s : Stmt} (h : s ∈ t.body) : t.Owns (.stmt s) :=
  List.mem_append_left _ (Stmt.mem_nodes_of_mem h)

theorem block {b : Block} {s : Stmt} (hb : b ∈ t.blocks) (h : s ∈ b.body) : t.Owns (.stmt s) :=
  List.mem_append_right _ (List.mem_append_left _
    (List.mem_flatMap.mpr ⟨b, hb, Stmt.mem_nodes_of_mem h⟩))

theorem definition {m : MacroDef} {s : Stmt} (hm : m ∈ t.macros) (h : s ∈ m.body) :
    t.Owns (.stmt s) :=
  List.mem_append_right _ (List.mem_append_right _
    (List.mem_flatMap.mpr ⟨m, hm, Stmt.mem_nodes_of_mem h⟩))

theorem whole {e : Expr} (h : e ∈ t.exprs) : t.Owns (.expr e) :=
  ⟨e, h, .whole⟩

theorem fallback {m : MacroDef} {param : Param} {e : Expr} (hm : m ∈ t.macros)
    (hparam : param ∈ m.params) (h : param.fallback = some e) : t.Owns (.expr e) :=
  whole (List.mem_append_right _
    (List.mem_flatMap.mpr ⟨m, hm, List.mem_filterMap.mpr ⟨param, hparam, h⟩⟩))

theorem parent {extended : Extends} (h : t.parent = some extended) :
    t.Owns (.expr extended.template) := by
  refine whole (List.mem_append_left _ (List.mem_append_left _ ?_))
  rw [h]
  exact List.mem_singleton_self _

/-- What is inside of a statement belongs to the same template. -/
theorem inside {s other : Stmt} (h : t.Owns (.stmt s)) (hother : other ∈ s.inside) :
    t.Owns (.stmt other) := by
  have h : s ∈ t.statements := h
  show other ∈ t.statements
  simp only [statements, List.mem_append, List.mem_flatMap] at h ⊢
  rcases h with h | ⟨b, hb, h⟩ | ⟨m, hm, h⟩
  · exact .inl (Stmt.mem_nodes_of_mem_inside h hother)
  · exact .inr (.inl ⟨b, hb, Stmt.mem_nodes_of_mem_inside h hother⟩)
  · exact .inr (.inr ⟨m, hm, Stmt.mem_nodes_of_mem_inside h hother⟩)

theorem expr {s : Stmt} {e : Expr} (h : t.Owns (.stmt s)) (he : e ∈ s.exprs) :
    t.Owns (.expr e) :=
  whole (List.mem_append_left _ (List.mem_append_right _ (List.mem_flatMap.mpr ⟨s, h, he⟩)))

theorem part {e p : Expr} (h : t.Owns (.expr e)) (hp : p ∈ e.parts) : t.Owns (.expr p) := by
  obtain ⟨whole, hwhole, he⟩ := h
  exact ⟨whole, hwhole, .part he hp⟩

theorem reuse {r : Reuse} (h : r ∈ t.reuses) : t.Owns (.expr r.template) := by
  obtain ⟨s, hs, hr⟩ := List.mem_filterMap.mp h
  refine (body hs).expr ?_
  split at hr
  · cases hr
    exact List.mem_singleton_self _
  · cases hr

end Owns

/-! ## §2. Numbers -/

/-- Whether a number was issued by a template: it stands in a statement or in a table of it. -/
def Issues (t : Template) (p : Definition) : Prop :=
  p ∈ Stmt.mentionsAll t.body ∨ p ∈ t.named ∨ ∃ q, p ∈ t.graph.next q

/-- Whether a number finds a definition. -/
def Defines (t : Template) : Definition → Prop
  | .block id => id < t.blocks.length
  | .macroDef id => id < t.macros.length

/-- A template in which every number that it issued finds a definition. -/
def Grounded (t : Template) : Prop :=
  ∀ p, t.Issues p → t.Defines p

variable {t : Template}

theorem Owns.issues {s : Stmt} {p : Definition} (h : t.Owns (.stmt s)) (hp : p ∈ s.mentions) :
    t.Issues p := by
  have h : s ∈ t.statements := h
  simp only [statements, List.mem_append, List.mem_flatMap] at h
  rcases h with h | ⟨b, hb, h⟩ | ⟨m, hm, h⟩
  · exact .inl (Stmt.mentionsAll_of_mem_nodes h hp)
  · obtain ⟨id, hid⟩ := List.getElem?_of_mem hb
    refine .inr (.inr ⟨.block id, ?_⟩)
    rw [graph, DefinitionGraph.next_of, Definition.body, hid]
    exact Stmt.mentionsAll_of_mem_nodes h hp
  · obtain ⟨id, hid⟩ := List.getElem?_of_mem hm
    refine .inr (.inr ⟨.macroDef id, ?_⟩)
    rw [graph, DefinitionGraph.next_of, Definition.body, hid]
    exact Stmt.mentionsAll_of_mem_nodes h hp

theorem issues_of_mem_blockTable {id : DefinitionId} (h : id ∈ t.blockTable.values) :
    t.Issues (.block id) :=
  .inr (.inl (List.mem_append_left _ (List.mem_map_of_mem h)))

theorem issues_of_mem_macroTable {id : DefinitionId} (h : id ∈ t.macroTable.values) :
    t.Issues (.macroDef id) :=
  .inr (.inl (List.mem_append_right _ (List.mem_map_of_mem h)))

namespace Grounded

/-- Where a template is grounded, a block that it issued the number of is there. -/
theorem exists_block (h : t.Grounded) {id : DefinitionId} (hid : t.Issues (.block id)) :
    ∃ b ∈ t.blocks, t.blockAt? id = some b := by
  have hlt : id < t.blocks.length := h _ hid
  exact ⟨t.blocks[id], List.getElem_mem hlt, List.getElem?_eq_getElem hlt⟩

theorem exists_macroDef (h : t.Grounded) {id : DefinitionId} (hid : t.Issues (.macroDef id)) :
    ∃ m ∈ t.macros, t.macroAt? id = some m := by
  have hlt : id < t.macros.length := h _ hid
  exact ⟨t.macros[id], List.getElem_mem hlt, List.getElem?_eq_getElem hlt⟩

end Grounded

/-- **Parsed templates are grounded.** -/
theorem grounded_of_parse {name source : String} {t : Template}
    (h : Template.parse name source = .ok t) : t.Grounded := by
  have hgood : ∀ n, Parse.Quiet (lex source) (Expr.parse n .any) :=
    fun n => Expr.quiet_parse n .any
  have hderives := (Template.parse_derives hgood h).2
  have hsound := (hderives.sound .empty).1
  obtain ⟨hordered, hbody⟩ := hderives.ordered .empty .empty
  have hdefines : ∀ p ∈ t.collected.definitions, t.Defines p := by
    intro p hp
    have hlt := Collected.mem_definitions.mp hp
    cases p <;> exact hlt
  rintro p (hp | hp | ⟨q, hp⟩)
  · exact hdefines p (hbody p hp)
  · rcases List.mem_append.mp hp with hp | hp
    · obtain ⟨id, hid, rfl⟩ := List.mem_map.mp hp
      exact (hsound.blockTables t.blockTable List.mem_cons_self).lt hid
    · obtain ⟨id, hid, rfl⟩ := List.mem_map.mp hp
      exact hsound.macroTable.lt hid
  · -- Only a definition that is there mentions anything.
    by_cases hq : q ∈ t.collected.definitions
    · exact hdefines p (hordered.closed q hq p hp)
    · have hnone : t.graph.next q = [] := Collected.next_eq_nil hq
      rw [hnone] at hp
      cases hp

end Template

/-! ## §3. Passes -/

/-- A pass that keeps templates grounded. -/
def Pass.Grounds (pass : Pass) : Prop :=
  ∀ t t', t.Grounded → pass t = some t' → t'.Grounded

/-- Escaping leaves numbers and their definitions where they are. -/
theorem AutoEscape.run_grounds : Pass.Grounds AutoEscape.run := by
  intro t t' ht hrun
  obtain ⟨u, hu, hescapes⟩ := AutoEscape.run_escapes t
  obtain rfl : u = t' := Option.some.inj (hu.symm.trans hrun)
  have hblocks : u.blocks.length = t.blocks.length := by
    simpa [Template.graph, DefinitionGraph.of] using
      congrArg (fun g => g.blocks.length) hescapes.graph
  have hmacros : u.macros.length = t.macros.length := by
    simpa [Template.graph, DefinitionGraph.of] using
      congrArg (fun g => g.macros.length) hescapes.graph
  intro p hp
  have hdefines := ht p
  simp only [Template.Issues, hescapes.mentions, hescapes.named, hescapes.graph] at hp hdefines
  cases p with
  | block id => simpa [Template.Defines, hblocks] using hdefines hp
  | macroDef id => simpa [Template.Defines, hmacros] using hdefines hp

/-- Passes one after the other. -/
theorem grounded_foldlM {passes : List Pass} (hpasses : ∀ pass ∈ passes, Pass.Grounds pass)
    {t t' : Template} (ht : t.Grounded)
    (h : passes.foldlM (fun t pass => pass t) t = some t') : t'.Grounded := by
  induction passes generalizing t with
  | nil =>
    cases h
    exact ht
  | cons pass passes ih =>
    rw [List.foldlM_cons] at h
    obtain ⟨u, hu, hrest⟩ := Option.bind_eq_some_iff.mp h
    obtain ⟨hpass, hpasses⟩ := List.forall_mem_cons.mp hpasses
    exact ih hpasses (hpass t u ht hu) hrest

/-- Whatever an environment prepares is grounded, if its own passes keep templates so. -/
theorem Environment.grounded_of_prepare {ω : Type} {env : Environment ω}
    (hpasses : ∀ pass ∈ env.passes, Pass.Grounds pass) {name source : String} {t : Template}
    (h : env.prepare name source = .ok t) : t.Grounded := by
  have hall : ∀ pass ∈ env.allPasses, Pass.Grounds pass := by
    unfold allPasses
    split
    · exact List.forall_mem_cons.mpr ⟨AutoEscape.run_grounds, hpasses⟩
    · exact hpasses
  unfold prepare at h
  split at h
  · cases h
  · cases h
  · next parsed hparse =>
    split at h
    · cases h
    · next hrun =>
      cases h
      exact grounded_foldlM hall (Template.grounded_of_parse hparse) hrun

end Stencil
