import Stencil.Proofs.Template.Building
import Stencil.Proofs.Template.Ordering

/-!
Parsed templates are well formed.

Renders and passes look definitions up by number and do nothing where there is none of that number,
and they follow numbers without watching out for circles.  Both are right because of what parsing
guarantees, which `WellFormed` lists: numbers find definitions, no definition has two places or
stands in two tables, and all that is inside a definition comes before it.

What parsing guarantees of names and expressions is kept by everything that adds to a template,
which is `Derives.sound`; what it guarantees of numbers is counted, and so is the order of
definitions.
-/

namespace Stencil

/-! ## §1. Well-formed templates -/

/-- What a table says of a name is the number of a definition of this name. -/
def Table.Labels {δ : Type} (table : Table DefinitionId) (nameOf : δ → String)
    (definitions : List δ) : Prop :=
  ∀ entry ∈ table, ∃ definition,
    definitions[entry.2]? = some definition ∧ nameOf definition = entry.1

namespace Template

/-- The statements of a template, in its body and in those of its definitions, at any depth. -/
def statements (t : Template) : List Stmt :=
  Stmt.nodes t.body ++ (t.blocks.flatMap (fun block => Stmt.nodes block.body) ++
    t.macros.flatMap fun definition => Stmt.nodes definition.body)

/-- The tables of blocks of a template: its own, and those of the embeds in it. -/
def blockTables (t : Template) : List (Table DefinitionId) :=
  t.blockTable :: t.statements.flatMap Stmt.tables

/-- The expressions of a template that are not inside another one. -/
def exprs (t : Template) : List Expr :=
  t.parent.toList.map Extends.template ++ t.statements.flatMap Stmt.exprs ++
    t.macros.flatMap fun definition => definition.params.filterMap Param.fallback

/-- A template that renders and passes can rely on. -/
structure WellFormed (t : Template) : Prop where
  block_lt : ∀ pos id, .block pos id ∈ t.statements → id < t.blocks.length
  macro_lt : ∀ pos id, .defines pos id ∈ t.statements → id < t.macros.length
  /-- A definition is written in one place only. -/
  placed_once : (t.statements.flatMap Stmt.places).Nodup
  blocks_labelled : ∀ table ∈ t.blockTables, table.Labels Block.name t.blocks
  macros_labelled : t.macroTable.Labels MacroDef.name t.macros
  /-- A block is in one table only. -/
  disjoint : t.blockTables.Pairwise fun table other => table.values.Disjoint other.values
  /-- The table of macros is a bijection from its names to the macros. -/
  macro_names : t.macroTable.names.Nodup
  macro_values : t.macroTable.values.Perm (List.range t.macros.length)
  /-- The blocks that are reached from inside a block come before it. -/
  block_order : ∀ i j,
    t.graph.Reaches (Stmt.mentionsAll (t.statementsAt (.block i))) (.block j) → j < i
  macro_order : ∀ i j,
    t.graph.Reaches (Stmt.mentionsAll (t.statementsAt (.macroDef i))) (.macroDef j) → j < i
  assigned : ∀ pos targets values,
    .assign pos targets values ∈ t.statements → values.length = targets.length
  /-- Filters have an argument, wherever they stand. -/
  applied : ∀ e ∈ t.exprs, e.Applied

end Template

/-! ## §2. Labels -/

namespace Table.Labels

variable {δ : Type} {table : Table DefinitionId} {nameOf : δ → String} {definitions more : List δ}

/-- Numbers go on to find the same definitions when there are more. -/
theorem extend (h : table.Labels nameOf definitions) (hmore : definitions <+: more) :
    table.Labels nameOf more := by
  intro entry hentry
  obtain ⟨definition, hfound, hname⟩ := h entry hentry
  obtain ⟨rest, rfl⟩ := hmore
  have hlt : entry.2 < definitions.length := (List.getElem?_eq_some_iff.mp hfound).1
  exact ⟨definition, by rwa [List.getElem?_append_left hlt], hname⟩

/-- A definition that is entered under its name and the next number is found there. -/
theorem insert (h : table.Labels nameOf definitions) (definition : δ)
    (hnew : table.has (nameOf definition) = false) :
    (Table.insert table (nameOf definition) definitions.length).Labels nameOf
      (definitions ++ [definition]) := by
  intro entry hentry
  rcases List.mem_cons.mp ((Table.perm_insert _ hnew).mem_iff.mp hentry) with rfl | hentry
  · exact ⟨definition, by simp, rfl⟩
  · exact h.extend (List.prefix_append _ _) entry hentry

theorem lt (h : table.Labels nameOf definitions) {id : DefinitionId} (hid : id ∈ table.values) :
    id < definitions.length := by
  obtain ⟨entry, hentry, rfl⟩ := List.mem_map.mp hid
  obtain ⟨_, hfound, -⟩ := h entry hentry
  exact (List.getElem?_eq_some_iff.mp hfound).1

end Table.Labels

/-! ## §3. Names and expressions -/

/-- A statement with expressions of a certain kind, whose table names blocks. -/
structure Stmt.Sound (good : Expr → Prop) (blocks : List Block) (s : Stmt) : Prop where
  exprs : ∀ e ∈ s.exprs, good e
  tables : ∀ table ∈ s.tables, table.Labels Block.name blocks
  assigned : ∀ pos targets values, s = .assign pos targets values →
    values.length = targets.length

theorem Stmt.Sound.extend {good : Expr → Prop} {blocks more : List Block} {s : Stmt}
    (h : s.Sound good blocks) (hmore : blocks <+: more) : s.Sound good more where
  exprs := h.exprs
  tables := fun table htable => (h.tables table htable).extend hmore
  assigned := h.assigned

theorem Stmt.Plain.sound {good : Expr → Prop} {s : Stmt} (h : s.Plain)
    (hexprs : ∀ e ∈ s.exprs, good e) (blocks : List Block) : s.Sound good blocks where
  exprs := hexprs
  tables := by
    rw [h.tables_eq]
    nofun
  assigned := by
    rintro pos targets values rfl
    exact h

namespace Collected

/-- What is collected is named as the tables say, and its expressions are of a certain kind. -/
structure Sound (good : Expr → Prop) (d : Collected) : Prop where
  parent : ∀ parent ∈ d.parent, good parent.template
  params : ∀ definition ∈ d.macros, ∀ param ∈ definition.params, ∀ e ∈ param.fallback, good e
  statements : ∀ s ∈ d.statements, s.Sound good d.blocks
  blockTables : ∀ table ∈ d.blockTable :: d.outerTables, table.Labels Block.name d.blocks
  macroTable : d.macroTable.Labels MacroDef.name d.macros
  macroNames : d.macroTable.names.Nodup
  macroValues : d.macroTable.values.Perm (List.range d.macros.length)

namespace Sound

variable {good : Expr → Prop} {d : Collected}

theorem empty : Collected.empty.Sound good where
  parent := nofun
  params := nofun
  statements := nofun
  blockTables := by simp [Collected.empty, Table.Labels]
  macroTable := nofun
  macroNames := List.nodup_nil
  macroValues := .nil

theorem extend (h : d.Sound good) {parent : Extends} (hparent : good parent.template) :
    (d.extend parent).Sound good :=
  { h with
    parent := by
      rintro _ ⟨⟩
      exact hparent }

theorem addBlock (h : d.Sound good) {block : Block} (hnew : d.blockTable.has block.name = false)
    (hbody : ∀ s ∈ Stmt.nodes block.body, s.Sound good d.blocks) :
    (d.addBlock block).Sound good :=
  have hmore : d.blocks <+: (d.addBlock block).blocks := List.prefix_append _ _
  { h with
    statements := by
      intro s hs
      rcases List.mem_append.mp ((d.perm_statements_addBlock block).mem_iff.mp hs) with hs | hs
      · exact (hbody s hs).extend hmore
      · exact (h.statements s hs).extend hmore
    blockTables := by
      obtain ⟨htable, houter⟩ := List.forall_mem_cons.mp h.blockTables
      refine List.forall_mem_cons.mpr ⟨htable.insert block hnew, fun table hmem => ?_⟩
      exact (houter table hmem).extend hmore }

theorem addMacro (h : d.Sound good) {definition : MacroDef}
    (hnew : d.macroTable.has definition.name = false)
    (hparams : ∀ param ∈ definition.params, ∀ e ∈ param.fallback, good e)
    (hbody : ∀ s ∈ Stmt.nodes definition.body, s.Sound good d.blocks) :
    (d.addMacro definition).Sound good :=
  have hperm := Table.perm_insert d.macros.length hnew
  { h with
    params := by
      intro other hother
      rcases List.mem_append.mp hother with hother | hother
      · exact h.params other hother
      · rw [List.mem_singleton.mp hother]
        exact hparams
    statements := by
      intro s hs
      rcases List.mem_append.mp ((d.perm_statements_addMacro definition).mem_iff.mp hs) with hs | hs
      · exact hbody s hs
      · exact h.statements s hs
    macroTable := h.macroTable.insert definition hnew
    macroNames := by
      refine (hperm.map Prod.fst).nodup_iff.mpr (List.nodup_cons.mpr ⟨?_, h.macroNames⟩)
      -- The name is new, so it does not stand in the table.
      intro hmem
      obtain ⟨entry, hentry, hname⟩ := List.mem_map.mp hmem
      have hhas : d.macroTable.has definition.name = true :=
        List.any_eq_true.mpr ⟨entry, hentry, beq_iff_eq.mpr hname⟩
      rw [hnew] at hhas
      cases hhas
    macroValues := by
      have hlength : (d.addMacro definition).macros.length = d.macros.length + 1 := by
        simp [Collected.addMacro]
      rw [hlength, List.range_succ]
      refine (hperm.map Prod.snd).trans ?_
      exact (h.macroValues.cons _).trans (List.perm_append_singleton _ _).symm }

theorem openTable (h : d.Sound good) : d.openTable.Sound good :=
  { h with blockTables := List.forall_mem_cons.mpr ⟨nofun, h.blockTables⟩ }

theorem closeTable (h : d.Sound good) : d.closeTable.Sound good := by
  unfold Collected.closeTable
  split
  · exact h
  · next table outer houter =>
    obtain ⟨-, htables⟩ := List.forall_mem_cons.mp h.blockTables
    rw [houter] at htables
    exact { h with blockTables := htables }

end Sound

end Collected

namespace Derives

variable {good : Expr → Prop} {d d' : Collected} {ss : List Stmt}

/-- A statement that only holds others is sound if they are and its expressions are good. -/
theorem sound_cons {s : Stmt} {blocks : List Block} (hexprs : ∀ e ∈ s.exprs, good e)
    (htables : s.tables = []) (hassign : ∀ pos targets values, s ≠ .assign pos targets values)
    (hinside : ∀ other ∈ s.inside, other.Sound good blocks) :
    ∀ other ∈ Stmt.nodes [s], other.Sound good blocks := by
  rw [Stmt.nodes_singleton]
  refine List.forall_mem_cons.mpr ⟨⟨hexprs, ?_, ?_⟩, hinside⟩
  · rw [htables]
    nofun
  · exact fun pos targets values h => absurd h (hassign pos targets values)

/-- Whatever is collected and left in bodies is named as the tables say. -/
theorem sound (h : Derives good d ss d') (hd : d.Sound good) :
    d'.Sound good ∧ ∀ s ∈ Stmt.nodes ss, s.Sound good d'.blocks := by
  induction h with
  | nil d => exact ⟨hd, nofun⟩
  | append _ h₂ ih₁ ih₂ =>
    obtain ⟨hd₁, hfirst⟩ := ih₁ hd
    obtain ⟨hd₂, hsecond⟩ := ih₂ hd₁
    refine ⟨hd₂, ?_⟩
    rw [Stmt.nodes_append]
    exact List.forall_mem_append.mpr ⟨fun s hs => (hfirst s hs).extend h₂.before.1, hsecond⟩
  | plain d hplain hgood =>
    refine ⟨hd, ?_⟩
    rw [Stmt.nodes_singleton, hplain.inside_eq]
    exact List.forall_mem_singleton.mpr (hplain.sound hgood d.blocks)
  | extending _ hparent => exact ⟨hd.extend hparent, nofun⟩
  | branch _ hgood _ h₂ ih₁ ih₂ | loop _ _ _ hgood _ h₂ ih₁ ih₂ =>
    obtain ⟨hd₁, hbody⟩ := ih₁ hd
    obtain ⟨hd₂, horElse⟩ := ih₂ hd₁
    refine ⟨hd₂, sound_cons (List.forall_mem_singleton.mpr hgood) rfl nofun ?_⟩
    exact List.forall_mem_append.mpr ⟨fun s hs => (hbody s hs).extend h₂.before.1, horElse⟩
  | capture _ _ _ ih =>
    obtain ⟨hd₁, hbody⟩ := ih hd
    exact ⟨hd₁, sound_cons nofun rfl nofun hbody⟩
  | filtered _ hgood _ ih =>
    obtain ⟨hd₁, hbody⟩ := ih hd
    refine ⟨hd₁, sound_cons (fun e he => ?_) rfl nofun hbody⟩
    obtain ⟨f, hf, he⟩ := List.mem_flatMap.mp he
    exact hgood f hf e he
  | block _ _ hnew ih =>
    obtain ⟨hd₁, hbody⟩ := ih hd
    exact ⟨hd₁.addBlock hnew hbody, sound_cons nofun rfl nofun nofun⟩
  | defines _ hparams _ hnew ih =>
    obtain ⟨hd₁, hbody⟩ := ih hd
    exact ⟨hd₁.addMacro hnew hparams hbody, sound_cons nofun rfl nofun nofun⟩
  | @embeds d₀ d₁ dropped i hgood _ ih =>
    -- Of what is dropped nothing but the blocks and macros in it counts, which are collected.
    obtain ⟨hd₁, -⟩ := ih hd.openTable
    refine ⟨hd₁.closeTable, ?_⟩
    rw [d₁.blocks_closeTable]
    have htable := hd₁.blockTables d₁.blockTable List.mem_cons_self
    exact List.forall_mem_singleton.mpr ⟨hgood, List.forall_mem_singleton.mpr htable, nofun⟩

/-! ## §4. The order of definitions -/

/-- Whatever is collected comes after all that it leads to, and bodies mention nothing else. -/
theorem ordered (h : Derives good d ss d') (hsound : d.Sound good) (hd : d.Ordered) :
    d'.Ordered ∧ ∀ p ∈ Stmt.mentionsAll ss, p ∈ d'.definitions := by
  induction h with
  | nil d => exact ⟨hd, nofun⟩
  | append h₁ h₂ ih₁ ih₂ =>
    obtain ⟨hd₁, hfirst⟩ := ih₁ hsound hd
    obtain ⟨hd₂, hsecond⟩ := ih₂ (h₁.sound hsound).1 hd₁
    refine ⟨hd₂, ?_⟩
    rw [Stmt.mentionsAll_append]
    refine List.forall_mem_append.mpr ⟨fun p hp => ?_, hsecond⟩
    exact h₂.before.mem_definitions (hfirst p hp)
  | plain d hplain _ =>
    refine ⟨hd, ?_⟩
    rw [Stmt.mentionsAll_singleton, hplain.mentions_eq]
    nofun
  | extending => exact ⟨hd.of_eq rfl rfl, nofun⟩
  | branch _ _ h₁ h₂ ih₁ ih₂ | loop _ _ _ _ h₁ h₂ ih₁ ih₂ =>
    obtain ⟨hd₁, hbody⟩ := ih₁ hsound hd
    obtain ⟨hd₂, horElse⟩ := ih₂ (h₁.sound hsound).1 hd₁
    refine ⟨hd₂, ?_⟩
    rw [Stmt.mentionsAll_singleton, Stmt.mentions]
    refine List.forall_mem_append.mpr ⟨fun p hp => ?_, horElse⟩
    exact h₂.before.mem_definitions (hbody p hp)
  | capture _ _ _ ih | filtered _ _ _ ih =>
    rw [Stmt.mentionsAll_singleton]
    exact ih hsound hd
  | @block d₀ d₁ body pos name _ _ ih =>
    obtain ⟨hd₁, hbody⟩ := ih hsound hd
    refine ⟨hd₁.addBlock hbody, ?_⟩
    rw [Stmt.mentionsAll_singleton]
    refine List.forall_mem_singleton.mpr (Collected.mem_definitions.mpr ?_)
    simp [Definition.id, Collected.countLike, Collected.addBlock]
  | @defines d₀ d₁ body pos name params _ _ _ ih =>
    obtain ⟨hd₁, hbody⟩ := ih hsound hd
    refine ⟨hd₁.addMacro hbody, ?_⟩
    rw [Stmt.mentionsAll_singleton]
    refine List.forall_mem_singleton.mpr (Collected.mem_definitions.mpr ?_)
    simp [Definition.id, Collected.countLike, Collected.addMacro]
  | @embeds d₀ d₁ dropped i _ h₁ ih =>
    obtain ⟨hd₁, -⟩ := ih hsound.openTable (hd.of_eq rfl rfl)
    refine ⟨hd₁.of_eq d₁.blocks_closeTable d₁.macros_closeTable, ?_⟩
    rw [Stmt.mentionsAll_singleton, d₁.definitions_closeTable]
    intro p hp
    obtain ⟨id, hid, rfl⟩ := List.mem_map.mp hp
    -- The table of the `embed` names blocks that are there.
    have htable := (h₁.sound hsound.openTable).1.blockTables d₁.blockTable List.mem_cons_self
    exact Collected.mem_definitions.mpr (htable.lt hid)

end Derives

/-! ## §5. Templates -/

namespace Template

/-- No block stands in two tables of a template that is derived from nothing. -/
theorem disjoint_blockTables {good : Expr → Prop} {t : Template}
    (h : Derives good .empty t.body t.collected) :
    t.blockTables.Pairwise fun table other => table.values.Disjoint other.values := by
  have hsubperm := h.subperm_entries
  have hentered : t.collected.entered = t.blockTable.values :=
    List.append_nil t.blockTable.values
  have hentries : t.statements.flatMap Stmt.entries =
      (t.statements.flatMap Stmt.tables).flatMap Table.values :=
    List.flatMap_assoc.symm
  have hall : (t.blockTables.flatMap Table.values).Subperm (List.range t.blocks.length) := by
    rw [blockTables, List.flatMap_cons, ← hentries, ← hentered]
    exact List.perm_append_comm.subperm.trans hsubperm
  obtain ⟨entries, hperm, hsublist⟩ := hall
  have hnodup := hperm.nodup_iff.mp (List.nodup_range.sublist hsublist)
  exact (List.nodup_flatMap.mp hnodup).2

/-- All expressions of a template are good if those that it was built up from are. -/
theorem good_of_derives {good : Expr → Prop} {t : Template}
    (h : Derives good .empty t.body t.collected) : ∀ e ∈ t.exprs, good e := by
  obtain ⟨hsound, hbody⟩ := h.sound .empty
  have hstatements : ∀ s ∈ t.statements, s.Sound good t.blocks :=
    List.forall_mem_append.mpr ⟨hbody, hsound.statements⟩
  intro e he
  rcases List.mem_append.mp he with he | he
  · rcases List.mem_append.mp he with he | he
    · obtain ⟨parent, hparent, rfl⟩ := List.mem_map.mp he
      exact hsound.parent parent (Option.mem_toList.mp hparent)
    · obtain ⟨s, hs, he⟩ := List.mem_flatMap.mp he
      exact (hstatements s hs).exprs e he
  · obtain ⟨definition, hdefinition, he⟩ := List.mem_flatMap.mp he
    obtain ⟨param, hparam, he⟩ := List.mem_filterMap.mp he
    exact hsound.params definition hdefinition param hparam e he

/-- **Every parsed template is well formed.** -/
theorem wellFormed_of_parse {name source : String} {t : Template}
    (h : Template.parse name source = .ok t) : t.WellFormed := by
  have hderives := (parse_derives (fun n => Expr.reads_parse n .any) h).2
  obtain ⟨hsound, hbody⟩ := hderives.sound .empty
  obtain ⟨hordered, -⟩ := hderives.ordered .empty .empty
  have hstatements : ∀ s ∈ t.statements, s.Sound Expr.Applied t.blocks :=
    List.forall_mem_append.mpr ⟨hbody, hsound.statements⟩
  have hplaces : (t.statements.flatMap Stmt.places).Subperm t.collected.definitions :=
    hderives.subperm_places
  have hplaced : ∀ s ∈ t.statements, ∀ p ∈ s.places, p.id < t.collected.countLike p :=
    fun s hs p hp => Collected.mem_definitions.mp
      (hplaces.subset (List.mem_flatMap.mpr ⟨s, hs, hp⟩))
  have hnext : ∀ p, t.graph.next p = Stmt.mentionsAll (t.statementsAt p) :=
    DefinitionGraph.next_of t.blocks t.macros
  exact {
    block_lt := fun pos id hs => hplaced _ hs (.block id) (List.mem_singleton_self _)
    macro_lt := fun pos id hs => hplaced _ hs (.macroDef id) (List.mem_singleton_self _)
    placed_once := by
      obtain ⟨places, hperm, hsublist⟩ := hplaces
      exact hperm.nodup_iff.mp (t.collected.nodup_definitions.sublist hsublist)
    blocks_labelled := by
      refine List.forall_mem_cons.mpr ⟨hsound.blockTables _ List.mem_cons_self, ?_⟩
      intro table htable
      obtain ⟨s, hs, htable⟩ := List.mem_flatMap.mp htable
      exact (hstatements s hs).tables table htable
    macros_labelled := hsound.macroTable
    disjoint := disjoint_blockTables hderives
    macro_names := hsound.macroNames
    macro_values := hsound.macroValues
    block_order := fun i j hreach => hordered.block_lt (by rwa [← hnext] at hreach)
    macro_order := fun i j hreach => hordered.macro_lt (by rwa [← hnext] at hreach)
    assigned := fun pos targets values hs => (hstatements _ hs).assigned pos targets values rfl
    applied := good_of_derives hderives }

/-- A block in a macro in a block, an `embed` with a block and a macro of its own, and a filter. -/
theorem wellFormed_of_parse_nested :
    ∃ t, Template.parse "t"
        ("\x7b% block a %\x7d\x7b% macro m(x = 1) %\x7d\x7b% block b x|join %\x7d" ++
        "\x7b% endmacro %\x7d\x7b% endblock %\x7d\x7b% embed 'e' %\x7d\x7b% block a %\x7d" ++
        "\x7b% set c, d = 1, 2 %\x7d\x7b% endblock %\x7d\x7b% endembed %\x7d") = .ok t ∧
      t.blocks.length = 3 ∧ t.macros.length = 1 ∧ t.WellFormed := by
  let source := "\x7b% block a %\x7d\x7b% macro m(x = 1) %\x7d\x7b% block b x|join %\x7d" ++
    "\x7b% endmacro %\x7d\x7b% endblock %\x7d\x7b% embed 'e' %\x7d\x7b% block a %\x7d" ++
    "\x7b% set c, d = 1, 2 %\x7d\x7b% endblock %\x7d\x7b% endembed %\x7d"
  have hlengths : (Template.parse "t" source).toOption.map
      (fun t => (t.blocks.length, t.macros.length)) = some (3, 1) := by
    decide +kernel
  cases h : Template.parse "t" source with
  | error e =>
    rw [h] at hlengths
    cases hlengths
  | ok t =>
    rw [h] at hlengths
    obtain ⟨hblocks, hmacros⟩ : t.blocks.length = 3 ∧ t.macros.length = 1 := by
      simpa [Except.toOption] using hlengths
    exact ⟨t, rfl, hblocks, hmacros, wellFormed_of_parse h⟩

end Template

end Stencil
