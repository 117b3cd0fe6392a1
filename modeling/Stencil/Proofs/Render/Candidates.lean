import Mathlib.Data.String.Basic
import Stencil.Proofs.Template.WellFormed
import Stencil.Render.Composition

/-!
Which definitions of a block compete for its slot, and in which order.

A composition is one list of definitions under their names.  A renderer that looks candidates up
often keeps a list for each name instead, to which it adds while it goes over the levels, and at
whose front it puts the blocks of an embedding statement at last.  Both give the same candidates,
and these can be said without either: `candidateList` names them level by level.

The tables of a level are in the order of their names, which is what makes a name stand at most
once in each of them.  Parsing keeps them so, as `sorted_of_parse` says.
-/

namespace Stencil

/-! ## §1. Tables in order -/

namespace Table

variable {α : Type} {t : Table α}

/-- What stands in a table after an entry was set is that entry or stood there before. -/
theorem mem_insert {name : String} {a : α} {entry : String × α} (h : entry ∈ t.insert name a) :
    entry = (name, a) ∨ entry ∈ t := by
  induction t with
  | nil => exact .inl (List.mem_singleton.mp h)
  | cons first t ih =>
    unfold insert at h
    split at h
    · exact (List.mem_cons.mp h).imp_right (List.mem_cons_of_mem _)
    · split at h
      · exact List.mem_cons.mp h
      · rcases List.mem_cons.mp h with rfl | h
        · exact .inr List.mem_cons_self
        · exact (ih h).imp_right (List.mem_cons_of_mem _)

/-- Setting an entry keeps the order of the names. -/
theorem sorted_insert (h : t.Sorted) (name : String) (a : α) : (t.insert name a).Sorted := by
  induction t with
  | nil => exact List.pairwise_singleton _ _
  | cons first t ih =>
    obtain ⟨hfirst, hmore⟩ := List.pairwise_cons.mp h
    unfold insert
    split
    · next hname =>
      -- The entry of the first name is replaced.
      exact List.pairwise_cons.mpr ⟨fun e he => beq_iff_eq.mp hname ▸ hfirst e he, hmore⟩
    · next hname =>
      split
      · next hlt =>
        have hall : ∀ e ∈ first :: t, name < e.1 :=
          List.forall_mem_cons.mpr ⟨hlt, fun e he => String.lt_trans hlt (hfirst e he)⟩
        exact List.pairwise_cons.mpr ⟨hall, h⟩
      · next hlt =>
        have hafter : first.1 < name :=
          lt_of_le_of_ne (String.not_lt.mp hlt) (fun heq => hname (beq_iff_eq.mpr heq))
        refine List.pairwise_cons.mpr ⟨fun e he => ?_, ih hmore⟩
        rcases mem_insert he with rfl | he
        · exact hafter
        · exact hfirst e he

/-- The entries of a name in a table in order: the one that is found, if there is one. -/
theorem Sorted.filter_name (h : t.Sorted) (name : String) :
    (t.filter fun entry => entry.1 == name) = ((t.find? name).map (name, ·)).toList := by
  induction t with
  | nil => rfl
  | cons first t ih =>
    obtain ⟨hfirst, hmore⟩ := List.pairwise_cons.mp h
    rw [find?_cons]
    by_cases hname : first.1 = name
    · -- All further names come after this one.
      have hnone : (t.filter fun entry => entry.1 == name) = [] :=
        List.filter_eq_nil_iff.mpr fun e he heq =>
          String.lt_irrefl name (by simpa [hname, beq_iff_eq.mp heq] using hfirst e he)
      subst hname
      simp [hnone]
    · simp [hname, ih hmore]

/-- In a table in order an entry stands exactly where it is found. -/
theorem Sorted.mem_iff (h : t.Sorted) {name : String} {a : α} :
    (name, a) ∈ t ↔ t.find? name = some a := by
  have hfilter : (name, a) ∈ t ↔ (name, a) ∈ t.filter fun entry => entry.1 == name := by simp
  rw [hfilter, h.filter_name]
  cases t.find? name <;> simp [eq_comm]

end Table

/-! ## §2. Parsed tables -/

/-- All tables of what is collected are in the order of their names. -/
structure Collected.Sorted (d : Collected) : Prop where
  blockTables : ∀ table ∈ d.blockTable :: d.outerTables, table.Sorted
  statements : ∀ s ∈ d.statements, ∀ table ∈ s.tables, table.Sorted

namespace Collected.Sorted

variable {d : Collected}

theorem addBlock (h : d.Sorted) {block : Block}
    (hbody : ∀ s ∈ Stmt.nodes block.body, ∀ table ∈ s.tables, table.Sorted) :
    (d.addBlock block).Sorted where
  blockTables := by
    obtain ⟨htable, houter⟩ := List.forall_mem_cons.mp h.blockTables
    exact List.forall_mem_cons.mpr ⟨Table.sorted_insert htable _ _, houter⟩
  statements := by
    intro s hs
    rcases List.mem_append.mp ((d.perm_statements_addBlock block).mem_iff.mp hs) with hs | hs
    · exact hbody s hs
    · exact h.statements s hs

theorem addMacro (h : d.Sorted) {definition : MacroDef}
    (hbody : ∀ s ∈ Stmt.nodes definition.body, ∀ table ∈ s.tables, table.Sorted) :
    (d.addMacro definition).Sorted where
  blockTables := h.blockTables
  statements := by
    intro s hs
    rcases List.mem_append.mp ((d.perm_statements_addMacro definition).mem_iff.mp hs) with hs | hs
    · exact hbody s hs
    · exact h.statements s hs

theorem openTable (h : d.Sorted) : d.openTable.Sorted where
  blockTables := List.forall_mem_cons.mpr ⟨.nil, h.blockTables⟩
  statements := h.statements

theorem closeTable (h : d.Sorted) : d.closeTable.Sorted where
  blockTables := by
    unfold Collected.closeTable
    split
    · exact h.blockTables
    · next table outer houter =>
      obtain ⟨-, htables⟩ := List.forall_mem_cons.mp h.blockTables
      rwa [houter] at htables
  statements := by
    rw [d.statements_closeTable]
    exact h.statements

end Collected.Sorted

/-- A statement without a table of its own has tables in order if those inside it are. -/
theorem Stmt.sorted_nodes {s : Stmt} (htables : s.tables = [])
    (hinside : ∀ other ∈ s.inside, ∀ table ∈ other.tables, table.Sorted) :
    ∀ other ∈ Stmt.nodes [s], ∀ table ∈ other.tables, table.Sorted := by
  rw [Stmt.nodes_singleton]
  refine List.forall_mem_cons.mpr ⟨?_, hinside⟩
  rw [htables]
  nofun

/-- Blocks are entered into tables in the order of their names, wherever they are written. -/
theorem Derives.sorted {good : Expr → Prop} {d d' : Collected} {ss : List Stmt}
    (h : Derives good d ss d') (hd : d.Sorted) :
    d'.Sorted ∧ ∀ s ∈ Stmt.nodes ss, ∀ table ∈ s.tables, table.Sorted := by
  induction h with
  | nil => exact ⟨hd, nofun⟩
  | extending => exact ⟨⟨hd.blockTables, hd.statements⟩, nofun⟩
  | append _ _ ih₁ ih₂ =>
    obtain ⟨hd₁, hfirst⟩ := ih₁ hd
    obtain ⟨hd₂, hsecond⟩ := ih₂ hd₁
    rw [Stmt.nodes_append]
    exact ⟨hd₂, List.forall_mem_append.mpr ⟨hfirst, hsecond⟩⟩
  | plain _ hplain =>
    refine ⟨hd, Stmt.sorted_nodes hplain.tables_eq ?_⟩
    rw [hplain.inside_eq]
    nofun
  | branch _ _ _ _ ih₁ ih₂ | loop _ _ _ _ _ _ ih₁ ih₂ =>
    obtain ⟨hd₁, hbody⟩ := ih₁ hd
    obtain ⟨hd₂, horElse⟩ := ih₂ hd₁
    exact ⟨hd₂, Stmt.sorted_nodes rfl (List.forall_mem_append.mpr ⟨hbody, horElse⟩)⟩
  | capture _ _ _ ih | filtered _ _ _ ih =>
    obtain ⟨hd₁, hbody⟩ := ih hd
    exact ⟨hd₁, Stmt.sorted_nodes rfl hbody⟩
  | block _ _ _ ih =>
    obtain ⟨hd₁, hbody⟩ := ih hd
    exact ⟨hd₁.addBlock hbody, Stmt.sorted_nodes rfl nofun⟩
  | defines _ _ _ _ ih =>
    obtain ⟨hd₁, hbody⟩ := ih hd
    exact ⟨hd₁.addMacro hbody, Stmt.sorted_nodes rfl nofun⟩
  | @embeds _ d₁ _ _ _ _ ih =>
    -- The table of the statement is the one that its blocks were entered into.
    obtain ⟨hd₁, -⟩ := ih hd.openTable
    refine ⟨hd₁.closeTable, ?_⟩
    have htable := hd₁.blockTables d₁.blockTable List.mem_cons_self
    rw [Stmt.nodes_singleton]
    exact List.forall_mem_cons.mpr ⟨List.forall_mem_singleton.mpr htable, nofun⟩

/-- The tables of blocks of a parsed template are in the order of their names. -/
theorem Template.sorted_of_parse {name source : String} {t : Template}
    (h : Template.parse name source = .ok t) : ∀ table ∈ t.blockTables, table.Sorted := by
  have hderives := (parse_derives (fun n => Expr.reads_parse n .any) h).2
  obtain ⟨hcollected, hbody⟩ := hderives.sorted ⟨by simp [Collected.empty, Table.Sorted], nofun⟩
  refine List.forall_mem_cons.mpr ⟨hcollected.blockTables _ List.mem_cons_self, ?_⟩
  intro table htable
  obtain ⟨s, hs, htable⟩ := List.mem_flatMap.mp htable
  rcases List.mem_append.mp hs with hs | hs
  · exact hbody s hs table htable
  · exact hcollected.statements s hs table htable

/-! ## §3. Candidates level by level -/

/-- The block that a table of a template has under a name. -/
def LiveTemplate.own? (t : LiveTemplate) (table : Table DefinitionId) (name : String) :
    Option BlockRef :=
  (table.find? name).map fun id => ⟨t, id⟩

/-- The blocks of a template that are taken over under a name, by their own names. -/
def UsedTemplate.exportedAs (u : UsedTemplate) (name : String) : Table DefinitionId :=
  u.template.template.blockTable.filter fun entry => u.exportName entry.1 == name

/-- The definitions of a block at a level: its own, and those it takes over, of which the ones of
the last `use` come first. -/
def Level.definitions (l : Level) (name : String) : List BlockRef :=
  (l.template.own? l.template.template.blockTable name).toList ++
    l.uses.reverse.flatMap fun u => (u.exportedAs name).values.map fun id => ⟨u.template, id⟩

/-- The definitions of a block under an embedding statement of a template with blocks of its own:
the statement's, and then those of the levels from the child to the root. -/
def candidateList (t : LiveTemplate) (overrides : Table DefinitionId) (levels : List Level)
    (name : String) : List BlockRef :=
  (t.own? overrides name).toList ++ levels.flatMap (·.definitions name)

namespace Composition

theorem candidates_append (c d : Composition) (name : String) :
    Composition.candidates (c ++ d) name = c.candidates name ++ d.candidates name := by
  simp [candidates]

theorem candidates_flatMap {α : Type} (f : α → Composition) (as : List α) (name : String) :
    Composition.candidates (as.flatMap f) name = as.flatMap fun a => (f a).candidates name := by
  simp [candidates, List.filter_flatMap, List.map_flatMap]

/-- Of the blocks in a table, the one of the name competes. -/
theorem candidates_blocks (t : LiveTemplate) {table : Table DefinitionId} (h : table.Sorted)
    (name : String) :
    Composition.candidates (t.blocks table) name = (t.own? table name).toList := by
  have hnames : ((fun entry : String × BlockRef => entry.1 == name) ∘
      fun (entry : String × DefinitionId) => (entry.1, ⟨t, entry.2⟩)) =
        fun entry => entry.1 == name := rfl
  simp only [candidates, LiveTemplate.blocks, List.filter_map, List.map_map]
  rw [hnames, h.filter_name name, LiveTemplate.own?]
  cases table.find? name <;> rfl

/-- Of the blocks taken over from a template, those exported under the name compete. -/
theorem candidates_exports (u : UsedTemplate) (name : String) :
    Composition.candidates u.exports name =
      (u.exportedAs name).values.map fun id => ⟨u.template, id⟩ := by
  simp only [candidates, UsedTemplate.exports, LiveTemplate.blocks, UsedTemplate.exportedAs,
    Table.values, List.filter_map, List.map_map]
  rfl

/-- A level brings its definitions, its own first. -/
theorem candidates_level {l : Level} (h : l.template.template.blockTable.Sorted) (name : String) :
    Composition.candidates l.blocks name = l.definitions name := by
  rw [Level.blocks, candidates_append, candidates_flatMap, candidates_blocks _ h]
  simp only [candidates_exports, Level.definitions]

end Composition

/-! ## §4. A list for each name -/

/-- The definitions of blocks with a list for each name, the most specific first. -/
abbrev BlockLists := Table (List BlockRef)

namespace BlockLists

/-- The list of a name. -/
def candidates (lists : BlockLists) (name : String) : List BlockRef :=
  (lists.find? name).getD []

/-- Adds a definition at the end of the list of its name. -/
def push (lists : BlockLists) (name : String) (r : BlockRef) : BlockLists :=
  lists.insert name (lists.candidates name ++ [r])

/-- Adds definitions one after the other. -/
def pushAll (lists : BlockLists) (entries : List (String × BlockRef)) : BlockLists :=
  entries.foldl (fun lists entry => lists.push entry.1 entry.2) lists

/-- Adds the definitions of a level: its own, and then those it takes over, from the last `use` to
the first. -/
def pushLevel (lists : BlockLists) (l : Level) : BlockLists :=
  l.uses.reverse.foldl (fun lists u => lists.pushAll u.exports)
    (lists.pushAll (l.template.blocks l.template.template.blockTable))

/-- The lists of the levels of a chain, given from the child to the root. -/
def ofLevels (levels : List Level) : BlockLists :=
  levels.foldl pushLevel []

/-- Puts the blocks of an embedding statement in front. -/
def cover (lists : BlockLists) (t : LiveTemplate) (overrides : Table DefinitionId) : BlockLists :=
  (t.blocks overrides).foldl
    (fun lists entry => lists.insert entry.1 (entry.2 :: lists.candidates entry.1)) lists

theorem candidates_insert (lists : BlockLists) (name other : String) (rs : List BlockRef) :
    BlockLists.candidates (lists.insert name rs) other =
      if name = other then rs else lists.candidates other := by
  unfold candidates
  split
  · next h => rw [h, Table.find?_insert_self, Option.getD_some]
  · next h => rw [Table.find?_insert_ne _ _ h]

/-- What is added comes to the end of the lists, each definition in the list of its name. -/
theorem candidates_pushAll (lists : BlockLists) (entries : Composition) (name : String) :
    (lists.pushAll entries).candidates name =
      lists.candidates name ++ entries.candidates name := by
  induction entries generalizing lists with
  | nil => simp [pushAll, Composition.candidates]
  | cons entry entries ih =>
    have hstep : (lists.push entry.1 entry.2).candidates name =
        lists.candidates name ++ Composition.candidates [entry] name := by
      rw [push, candidates_insert]
      by_cases h : entry.1 = name <;> simp [Composition.candidates, h]
    calc (lists.pushAll (entry :: entries)).candidates name
        = (lists.push entry.1 entry.2).candidates name ++
            Composition.candidates entries name := ih _
      _ = _ := by
        rw [hstep, List.append_assoc]
        simp [Composition.candidates, List.filter_cons]
        split <;> simp

theorem candidates_pushLevel (lists : BlockLists) (l : Level) (name : String) :
    (lists.pushLevel l).candidates name =
      lists.candidates name ++ Composition.candidates l.blocks name := by
  have huses : ∀ (uses : List UsedTemplate) (lists : BlockLists),
      (uses.foldl (fun lists u => lists.pushAll u.exports) lists).candidates name =
        lists.candidates name ++
          Composition.candidates (uses.flatMap UsedTemplate.exports) name := by
    intro uses
    induction uses with
    | nil => exact fun lists => (List.append_nil _).symm
    | cons u uses ih =>
      intro lists
      rw [List.foldl_cons, ih, candidates_pushAll, List.flatMap_cons,
        Composition.candidates_append, List.append_assoc]
  rw [pushLevel, huses, candidates_pushAll, Level.blocks, Composition.candidates_append,
    List.append_assoc]

/-- The lists of the levels hold what the levels define, from the child to the root. -/
theorem candidates_ofLevels (levels : List Level) (name : String) :
    (ofLevels levels).candidates name =
      Composition.candidates (levels.flatMap Level.blocks) name := by
  have hlevels : ∀ (levels : List Level) (lists : BlockLists),
      (levels.foldl pushLevel lists).candidates name =
        lists.candidates name ++ Composition.candidates (levels.flatMap Level.blocks) name := by
    intro levels
    induction levels with
    | nil => exact fun lists => (List.append_nil _).symm
    | cons l levels ih =>
      intro lists
      rw [List.foldl_cons, ih, candidates_pushLevel, List.flatMap_cons,
        Composition.candidates_append, List.append_assoc]
  exact hlevels levels []

/-- What covers the lists comes in front, the last that is put there first. -/
theorem candidates_cover (lists : BlockLists) (t : LiveTemplate) (overrides : Table DefinitionId)
    (name : String) :
    (lists.cover t overrides).candidates name =
      (Composition.candidates (t.blocks overrides) name).reverse ++ lists.candidates name := by
  unfold cover
  generalize t.blocks overrides = entries
  induction entries generalizing lists with
  | nil => rfl
  | cons entry entries ih =>
    rw [List.foldl_cons, ih, candidates_insert]
    by_cases h : entry.1 = name <;> simp [Composition.candidates, h]

end BlockLists

/-! ## §5. The order of candidates -/

/-- A level whose tables are in the order of their names. -/
def Level.Sorted (l : Level) : Prop :=
  l.template.template.blockTable.Sorted ∧
    ∀ u ∈ l.uses, u.template.template.blockTable.Sorted

/-- **The candidates of a block, level by level.**  Kept in one list or in a list for each name,
they are the block of the embedding statement, then what each level defines and takes over, from
the child to the root; and what is taken over from one template stands in the order of the names
that the blocks have there, each once. -/
theorem candidates_eq_candidateList (t : LiveTemplate) (overrides : Table DefinitionId)
    (levels : List Level) (name : String) (hoverrides : overrides.Sorted)
    (hlevels : ∀ l ∈ levels, l.Sorted) :
    (Composition.ofLevels (t.blocks overrides) levels).candidates name =
        candidateList t overrides levels name ∧
      ((BlockLists.ofLevels levels).cover t overrides).candidates name =
        candidateList t overrides levels name ∧
      ∀ l ∈ levels, ∀ u ∈ l.uses, (u.exportedAs name).Sorted ∧
        ∀ own id, (own, id) ∈ u.exportedAs name ↔
          u.template.template.blockTable.find? own = some id ∧ u.exportName own = name := by
  have hdefinitions : Composition.candidates (levels.flatMap Level.blocks) name =
      levels.flatMap (·.definitions name) := by
    rw [Composition.candidates_flatMap]
    exact List.flatMap_congr fun l hl => Composition.candidates_level (hlevels l hl).1 name
  refine ⟨?_, ?_, fun l hl u hu => ⟨?_, fun own id => ?_⟩⟩
  · rw [Composition.ofLevels, Composition.candidates_append, hdefinitions,
      Composition.candidates_blocks t hoverrides, candidateList]
  · rw [BlockLists.candidates_cover, BlockLists.candidates_ofLevels, hdefinitions,
      Composition.candidates_blocks t hoverrides, candidateList]
    -- At most one block of the statement has the name, so that its place does not matter.
    cases t.own? overrides name <;> rfl
  · exact ((hlevels l hl).2 u hu).filter _
  · rw [UsedTemplate.exportedAs, List.mem_filter, ((hlevels l hl).2 u hu).mem_iff, beq_iff_eq]

/-- A page that is embedded with a block `a` of its own and extends `base`: it takes blocks from
`first`, where `x` is renamed to a name that another block there has, and then from `second`. -/
theorem candidates_eq_candidateList_page :
    let live (name : String) (table : Table DefinitionId) : LiveTemplate :=
      ⟨⟨name, none, [], [], table, [], []⟩, .loaded⟩
    let first : UsedTemplate := ⟨live "first" [("a", 1), ("x", 0)], [("x", "a"), ("x", "b")]⟩
    let second : UsedTemplate := ⟨live "second" [("a", 0)], []⟩
    let levels : List Level :=
      [⟨live "page" [("a", 0), ("x", 1)], [first, second]⟩, ⟨live "base" [("a", 0)], []⟩]
    let composition := Composition.ofLevels ((live "host" [("a", 2)]).blocks [("a", 2)]) levels
    composition.candidates "a" = candidateList (live "host" [("a", 2)]) [("a", 2)] levels "a" ∧
      (composition.candidates "a").map (fun r => (r.owner.name, r.id)) =
        [("host", 2), ("page", 0), ("second", 0), ("first", 1), ("first", 0), ("base", 0)] := by
  intro live first second levels composition
  refine ⟨(candidates_eq_candidateList _ _ levels "a" ?_ ?_).1, ?_⟩
  · exact List.pairwise_singleton _ _
  · have hone (id : DefinitionId) : Table.Sorted [("a", id)] := List.pairwise_singleton _ _
    have hnames : "a" < "x" := by decide +kernel
    have htwo (i j : DefinitionId) : Table.Sorted [("a", i), ("x", j)] :=
      List.pairwise_pair.mpr hnames
    refine List.forall_mem_cons.mpr ⟨⟨htwo 0 1, ?_⟩, ?_⟩
    · exact List.forall_mem_cons.mpr ⟨htwo 1 0, List.forall_mem_singleton.mpr (hone 0)⟩
    · exact List.forall_mem_singleton.mpr ⟨hone 0, nofun⟩
  · rfl

end Stencil
