import Stencil.Proofs.Template.Derivation
import Mathlib.Data.List.Nodup
import Mathlib.Data.List.Perm.Subperm

/-!
What is in a template.

A template is a forest: the statements of its body and those of the bodies of its definitions, each
with the statements inside it.  Definitions are collected under fresh numbers, once each, and where
one is collected its place is left in a body and its number in a table.  So in the whole forest no
number has two places and none stands in two tables.  Both are shown by counting: whatever happens
while a template is built up, a number is met at most as often as it was given out.
-/

namespace Stencil

/-! ## §1. Statements at any depth -/

namespace Stmt

mutual

/-- The statements inside a statement, at any depth, in order. -/
def inside : Stmt → List Stmt
  | .branch _ _ body orElse | .loop _ _ _ _ body orElse => nodes body ++ nodes orElse
  | .capture _ _ body | .filtered _ _ body => nodes body
  | .text .. | .print .. | .block .. | .includes _ | .embeds .. | .reuses _ | .assign ..
  | .perform .. | .defines .. | .importAll .. | .importSome .. => []

/-- Statements and those inside them, in order. -/
def nodes : List Stmt → List Stmt
  | [] => []
  | s :: ss => s :: (s.inside ++ nodes ss)

end

@[simp] theorem nodes_nil : nodes [] = [] := by rw [nodes]

@[simp] theorem nodes_append (ss more : List Stmt) :
    nodes (ss ++ more) = nodes ss ++ nodes more := by
  induction ss with
  | nil => simp
  | cons s ss ih => simp [nodes, ih]

@[simp] theorem nodes_singleton (s : Stmt) : nodes [s] = s :: s.inside := by
  simp [nodes]

theorem Plain.inside_eq {s : Stmt} (h : s.Plain) : s.inside = [] := by
  cases s <;> first | rfl | cases h

/-- The definitions whose place a statement is. -/
def places : Stmt → List Definition
  | .block _ id => [.block id]
  | .defines _ id => [.macroDef id]
  | .text .. | .print .. | .branch .. | .loop .. | .includes _ | .embeds .. | .reuses _ | .assign ..
  | .capture .. | .perform .. | .filtered .. | .importAll .. | .importSome .. => []

/-- The table of blocks that a statement holds. -/
def tables : Stmt → List (Table DefinitionId)
  | .embeds _ blocks => [blocks]
  | .text .. | .print .. | .block .. | .branch .. | .loop .. | .includes _ | .reuses _ | .assign ..
  | .capture .. | .perform .. | .filtered .. | .defines .. | .importAll .. | .importSome .. => []

/-- The numbers of blocks in the table of a statement. -/
def entries (s : Stmt) : List DefinitionId :=
  s.tables.flatMap Table.values

theorem Plain.places_eq {s : Stmt} (h : s.Plain) : s.places = [] := by
  cases s <;> first | rfl | cases h

theorem Plain.mentions_eq {s : Stmt} (h : s.Plain) : s.mentions = [] := by
  cases s <;> first | rfl | cases h

theorem Plain.tables_eq {s : Stmt} (h : s.Plain) : s.tables = [] := by
  cases s <;> first | rfl | cases h

end Stmt

/-! ## §2. What is collected -/

namespace Table

variable {α : Type}

/-- A table with a new name has one entry more. -/
theorem perm_insert {t : Table α} {name : String} (a : α) (h : t.has name = false) :
    (t.insert name a).Perm ((name, a) :: t) := by
  induction t with
  | nil => rfl
  | cons entry t ih =>
    have hcons : (entry.1 == name) = false ∧ has t name = false := by
      simpa [has] using h
    obtain ⟨hne, hmore⟩ := hcons
    rw [insert, hne]
    by_cases hlt : name < entry.1
    · simp [hlt]
    · simp only [hlt, Bool.false_eq_true, if_false]
      exact ((ih hmore).cons entry).trans (.swap _ _ _)

end Table

namespace Collected

/-- The statements in the bodies of the definitions collected so far. -/
def statements (d : Collected) : List Stmt :=
  d.blocks.flatMap (fun block => Stmt.nodes block.body) ++
    d.macros.flatMap fun definition => Stmt.nodes definition.body

/-- The definitions collected so far, by their numbers. -/
def definitions (d : Collected) : List Definition :=
  (List.range d.blocks.length).map .block ++ (List.range d.macros.length).map .macroDef

/-- The numbers of blocks in the table that is being filled and in those around it. -/
def entered (d : Collected) : List DefinitionId :=
  d.blockTable.values ++ d.outerTables.flatMap Table.values

theorem perm_statements_addBlock (d : Collected) (block : Block) :
    (d.addBlock block).statements.Perm (Stmt.nodes block.body ++ d.statements) := by
  simp only [statements, addBlock, List.flatMap_append, List.flatMap_singleton]
  rw [← List.append_assoc]
  exact List.perm_append_comm.append_right _

theorem perm_statements_addMacro (d : Collected) (definition : MacroDef) :
    (d.addMacro definition).statements.Perm (Stmt.nodes definition.body ++ d.statements) := by
  simp only [statements, addMacro, List.flatMap_append, List.flatMap_singleton]
  rw [← List.append_assoc]
  exact List.perm_append_comm

theorem perm_definitions_addBlock (d : Collected) (block : Block) :
    (d.addBlock block).definitions.Perm (.block d.blocks.length :: d.definitions) := by
  simp only [definitions, addBlock, List.length_append, List.length_singleton, List.range_succ,
    List.map_append, List.map_singleton, List.append_assoc, List.singleton_append]
  exact List.perm_middle

theorem perm_definitions_addMacro (d : Collected) (definition : MacroDef) :
    (d.addMacro definition).definitions.Perm (.macroDef d.macros.length :: d.definitions) := by
  simp only [definitions, addMacro, List.length_append, List.length_singleton, List.range_succ,
    List.map_append, List.map_singleton, ← List.append_assoc]
  exact List.perm_append_singleton _ _

/-- The definitions collected are all different. -/
theorem nodup_definitions (d : Collected) : d.definitions.Nodup := by
  have hblocks : ((List.range d.blocks.length).map Definition.block).Nodup :=
    List.Nodup.map (fun _ _ h => Definition.block.inj h) List.nodup_range
  have hmacros : ((List.range d.macros.length).map Definition.macroDef).Nodup :=
    List.Nodup.map (fun _ _ h => Definition.macroDef.inj h) List.nodup_range
  refine List.nodup_append.mpr ⟨hblocks, hmacros, fun p hp q hq => ?_⟩
  obtain ⟨_, -, rfl⟩ := List.mem_map.mp hp
  obtain ⟨_, -, rfl⟩ := List.mem_map.mp hq
  nofun

theorem perm_entered_addBlock (d : Collected) (block : Block)
    (h : d.blockTable.has block.name = false) :
    (d.addBlock block).entered.Perm (d.blocks.length :: d.entered) :=
  ((Table.perm_insert d.blocks.length h).map Prod.snd).append_right _

/-- Without the innermost table, what is entered is what the tables around it hold. -/
theorem entered_closeTable (d : Collected) {table : Table DefinitionId}
    {outer : List (Table DefinitionId)} (h : d.outerTables = table :: outer) :
    d.entered = d.blockTable.values ++ d.closeTable.entered := by
  simp [entered, closeTable, h]

theorem statements_closeTable (d : Collected) : d.closeTable.statements = d.statements := by
  rw [statements, statements, d.blocks_closeTable, d.macros_closeTable]

theorem definitions_closeTable (d : Collected) : d.closeTable.definitions = d.definitions := by
  rw [definitions, definitions, d.blocks_closeTable, d.macros_closeTable]

end Collected

/-! ## §3. Places and tables -/

namespace Derives

variable {good : Expr → Prop} {d d' : Collected} {ss : List Stmt}

/-- A definition gets at most one place when its number is given out. -/
theorem count_places_le (h : Derives good d ss d') (p : Definition) :
    ((Stmt.nodes ss ++ d'.statements).flatMap Stmt.places).count p + d.definitions.count p ≤
      (d.statements.flatMap Stmt.places).count p + d'.definitions.count p := by
  induction h with
  | nil d => simp
  | append _ _ ih₁ ih₂ =>
    simp only [Stmt.nodes_append, List.flatMap_append, List.count_append] at ih₁ ih₂ ⊢
    omega
  | plain d hplain _ =>
    simp [hplain.inside_eq, hplain.places_eq]
  | @extending d parent =>
    have hstatements : (d.extend parent).statements = d.statements := rfl
    have hdefinitions : (d.extend parent).definitions = d.definitions := rfl
    simp [hstatements, hdefinitions]
  | branch _ _ _ _ ih₁ ih₂ | loop _ _ _ _ _ _ ih₁ ih₂ =>
    simp only [Stmt.nodes_singleton, Stmt.inside, Stmt.places, List.flatMap_append,
      List.flatMap_cons, List.count_append, List.nil_append] at ih₁ ih₂ ⊢
    omega
  | capture _ _ _ ih | filtered _ _ _ ih =>
    simpa [Stmt.inside, Stmt.places] using ih
  | @block d₀ d₁ body pos name _ _ ih =>
    -- The body moves into the block, whose place and number are both new.
    have hstatements := ((d₁.perm_statements_addBlock ⟨name, pos, body⟩).flatMap_right
      Stmt.places).count_eq p
    have hdefinitions := (d₁.perm_definitions_addBlock ⟨name, pos, body⟩).count_eq p
    simp only [Stmt.nodes_singleton, Stmt.inside, Stmt.places, List.flatMap_append,
      List.flatMap_cons, List.flatMap_nil, List.count_append, List.count_cons, List.count_nil,
      List.append_nil] at ih hstatements hdefinitions ⊢
    omega
  | @defines d₀ d₁ body pos name params _ _ _ ih =>
    have hstatements := ((d₁.perm_statements_addMacro ⟨name, pos, params, body⟩).flatMap_right
      Stmt.places).count_eq p
    have hdefinitions := (d₁.perm_definitions_addMacro ⟨name, pos, params, body⟩).count_eq p
    simp only [Stmt.nodes_singleton, Stmt.inside, Stmt.places, List.flatMap_append,
      List.flatMap_cons, List.flatMap_nil, List.count_append, List.count_cons, List.count_nil,
      List.append_nil] at ih hstatements hdefinitions ⊢
    omega
  | @embeds d₀ d₁ dropped i _ _ ih =>
    -- Places in the dropped statements are lost, so that only an inequality holds.
    have hstatements : d₀.openTable.statements = d₀.statements := rfl
    have hdefinitions : d₀.openTable.definitions = d₀.definitions := rfl
    rw [hstatements, hdefinitions] at ih
    rw [d₁.statements_closeTable, d₁.definitions_closeTable]
    simp only [Stmt.nodes_singleton, Stmt.inside, Stmt.places, List.flatMap_append,
      List.flatMap_cons, List.flatMap_nil, List.count_append, List.nil_append] at ih ⊢
    omega

/-- A block is entered into at most one table when its number is given out. -/
theorem count_entries_le (h : Derives good d ss d') (id : DefinitionId) :
    ((Stmt.nodes ss ++ d'.statements).flatMap Stmt.entries ++ d'.entered).count id +
        (List.range d.blocks.length).count id ≤
      (d.statements.flatMap Stmt.entries ++ d.entered).count id +
        (List.range d'.blocks.length).count id := by
  induction h with
  | nil d => simp
  | append _ _ ih₁ ih₂ =>
    simp only [Stmt.nodes_append, List.flatMap_append, List.count_append] at ih₁ ih₂ ⊢
    omega
  | plain d hplain _ =>
    simp [Stmt.entries, hplain.inside_eq, hplain.tables_eq]
  | @extending d parent =>
    have hstatements : (d.extend parent).statements = d.statements := rfl
    have hentered : (d.extend parent).entered = d.entered := rfl
    have hblocks : (d.extend parent).blocks = d.blocks := rfl
    simp [hstatements, hentered, hblocks]
  | branch _ _ _ _ ih₁ ih₂ | loop _ _ _ _ _ _ ih₁ ih₂ =>
    simp only [Stmt.nodes_singleton, Stmt.inside, Stmt.entries, Stmt.tables, List.flatMap_append,
      List.flatMap_cons, List.flatMap_nil, List.count_append, List.nil_append] at ih₁ ih₂ ⊢
    omega
  | capture _ _ _ ih | filtered _ _ _ ih =>
    simpa [Stmt.inside, Stmt.entries, Stmt.tables] using ih
  | @block d₀ d₁ body pos name _ hnew ih =>
    -- The number of the block is new, and so is its entry in the table that is being filled.
    have hstatements := ((d₁.perm_statements_addBlock ⟨name, pos, body⟩).flatMap_right
      Stmt.entries).count_eq id
    have hentered := (d₁.perm_entered_addBlock ⟨name, pos, body⟩ hnew).count_eq id
    have hblocks : (d₁.addBlock ⟨name, pos, body⟩).blocks.length = d₁.blocks.length + 1 := by
      simp [Collected.addBlock]
    simp only [Stmt.nodes_singleton, Stmt.inside, Stmt.entries, Stmt.tables, List.flatMap_append,
      List.flatMap_cons, List.flatMap_nil, List.count_append, List.count_cons, List.count_nil,
      List.append_nil, List.nil_append, hblocks, List.range_succ] at ih hstatements hentered ⊢
    omega
  | @defines d₀ d₁ body pos name params _ _ _ ih =>
    have hstatements := ((d₁.perm_statements_addMacro ⟨name, pos, params, body⟩).flatMap_right
      Stmt.entries).count_eq id
    have hentered : (d₁.addMacro ⟨name, pos, params, body⟩).entered = d₁.entered := rfl
    have hblocks : (d₁.addMacro ⟨name, pos, params, body⟩).blocks = d₁.blocks := rfl
    simp only [Stmt.nodes_singleton, Stmt.inside, Stmt.entries, Stmt.tables, List.flatMap_append,
      List.flatMap_cons, List.flatMap_nil, List.count_append, List.append_nil, List.nil_append,
      hentered, hblocks] at ih hstatements ⊢
    omega
  | @embeds d₀ d₁ dropped i _ hdropped ih =>
    -- The table that was filled goes into the statement, and the ones around it are as before.
    have hstatements : d₀.openTable.statements = d₀.statements := rfl
    have hentered : d₀.openTable.entered = d₀.entered := rfl
    have hblocks : d₀.openTable.blocks = d₀.blocks := rfl
    have hclosed := d₁.entered_closeTable hdropped.outerTables_eq
    rw [hstatements, hentered, hblocks] at ih
    rw [d₁.statements_closeTable, d₁.blocks_closeTable]
    simp only [hclosed, Stmt.nodes_singleton, Stmt.inside, Stmt.entries, Stmt.tables,
      List.flatMap_append, List.flatMap_cons, List.flatMap_nil, List.count_append, List.append_nil]
      at ih ⊢
    omega

/-- In all that is collected from the start no definition has two places. -/
theorem subperm_places (h : Derives good .empty ss d) :
    ((Stmt.nodes ss ++ d.statements).flatMap Stmt.places).Subperm d.definitions := by
  refine List.subperm_ext_iff.mpr fun p _ => ?_
  have hle := h.count_places_le p
  have hstatements : Collected.empty.statements = [] := rfl
  rw [hstatements] at hle
  simp only [List.flatMap_nil, List.count_nil] at hle
  omega

/-- Neither does a block stand in two tables, or twice in one. -/
theorem subperm_entries (h : Derives good .empty ss d) :
    ((Stmt.nodes ss ++ d.statements).flatMap Stmt.entries ++ d.entered).Subperm
      (List.range d.blocks.length) := by
  refine List.subperm_ext_iff.mpr fun id _ => ?_
  have hle := h.count_entries_le id
  have hstatements : Collected.empty.statements = [] := rfl
  have hentered : Collected.empty.entered = [] := rfl
  rw [hstatements, hentered] at hle
  simp only [List.flatMap_nil, List.append_nil, List.count_nil] at hle
  omega

end Derives

end Stencil
