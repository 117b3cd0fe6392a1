import Stencil.Proofs.Template.Definition
import Stencil.Template.Parser

/-!
How a template is built up.

Parsers do two things at once: they read tokens, and they collect definitions.  `Derives` says what
is collected, without tokens: which statements a body may consist of, what each of them adds to the
definitions, and in which order.  What holds of all templates that come about this way is an
induction over derivations.
-/

namespace Stencil

/-! ## §1. What is collected -/

/-- What has been collected up to some point of a source: definitions, and the template that is
extended. -/
structure Collected where
  parent : Option Extends
  blocks : List Block
  macros : List MacroDef
  macroTable : Table DefinitionId
  /-- The table that blocks are entered into now. -/
  blockTable : Table DefinitionId
  outerTables : List (Table DefinitionId)

/-- What has been collected in a state of parsing. -/
def ParseState.collected (s : ParseState) : Collected :=
  ⟨s.parent, s.blocks, s.macros, s.macroTable, s.blockTables.headD [], s.blockTables.tail⟩

namespace Collected

/-- Before anything is collected. -/
def empty : Collected := ⟨none, [], [], [], [], []⟩

/-- With a template that is extended. -/
def extend (d : Collected) (parent : Extends) : Collected :=
  { d with parent := some parent }

/-- With one more block, under the next number. -/
def addBlock (d : Collected) (block : Block) : Collected :=
  { d with
    blocks := d.blocks ++ [block]
    blockTable := d.blockTable.insert block.name d.blocks.length }

/-- With one more macro, under the next number. -/
def addMacro (d : Collected) (definition : MacroDef) : Collected :=
  { d with
    macros := d.macros ++ [definition]
    macroTable := d.macroTable.insert definition.name d.macros.length }

/-- With a table of its own for the blocks of an `embed`. -/
def openTable (d : Collected) : Collected :=
  { d with blockTable := [], outerTables := d.blockTable :: d.outerTables }

/-- With the table around an `embed` as the innermost one again. -/
def closeTable (d : Collected) : Collected :=
  match d.outerTables with
  | [] => d
  | table :: outer => { d with blockTable := table, outerTables := outer }

theorem blocks_closeTable (d : Collected) : d.closeTable.blocks = d.blocks := by
  unfold closeTable
  split <;> rfl

theorem macros_closeTable (d : Collected) : d.closeTable.macros = d.macros := by
  unfold closeTable
  split <;> rfl

/-- Some definitions were collected before others. -/
def Before (d d' : Collected) : Prop :=
  d.blocks <+: d'.blocks ∧ d.macros <+: d'.macros

theorem Before.refl (d : Collected) : d.Before d :=
  ⟨List.prefix_refl _, List.prefix_refl _⟩

theorem Before.trans {d d' d'' : Collected} (h : d.Before d') (h' : d'.Before d'') :
    d.Before d'' :=
  ⟨h.1.trans h'.1, h.2.trans h'.2⟩

theorem before_addBlock (d : Collected) (block : Block) : d.Before (d.addBlock block) :=
  ⟨List.prefix_append _ _, List.prefix_refl _⟩

theorem before_addMacro (d : Collected) (definition : MacroDef) :
    d.Before (d.addMacro definition) :=
  ⟨List.prefix_refl _, List.prefix_append _ _⟩

/-- The graph of the definitions collected so far. -/
def graph (d : Collected) : DefinitionGraph :=
  .of d.blocks d.macros

end Collected

/-! ## §2. Derivations -/

/-- The expressions that a statement holds itself, not in the statements inside it. -/
def Stmt.exprs : Stmt → List Expr
  | .print _ e | .perform _ e | .branch _ e _ _ | .loop _ _ _ e _ _ | .importAll _ e _
  | .importSome _ e _ => [e]
  | .includes i | .embeds i _ => i.template :: i.bindings.toList
  | .reuses r => [r.template]
  | .assign _ _ values => values
  | .filtered _ filters _ => filters.flatMap FilterCall.args
  | .text .. | .block .. | .capture .. | .defines .. => []

/-- A statement without statements inside and without definitions. -/
def Stmt.Plain : Stmt → Prop
  | .text .. | .print .. | .includes _ | .reuses _ | .perform .. | .importAll ..
  | .importSome .. => True
  | .assign _ targets values => values.length = targets.length
  | .block .. | .branch .. | .loop .. | .embeds .. | .capture .. | .filtered .. | .defines .. =>
    False

/-- What a list of statements makes of what was collected before it, if its expressions are of a
certain kind. -/
inductive Derives (good : Expr → Prop) : Collected → List Stmt → Collected → Prop
  | nil (d : Collected) : Derives good d [] d
  | append {d₀ d₁ d₂ : Collected} {ss more : List Stmt} :
    Derives good d₀ ss d₁ → Derives good d₁ more d₂ → Derives good d₀ (ss ++ more) d₂
  | plain (d : Collected) {s : Stmt} :
    s.Plain → (∀ e ∈ s.exprs, good e) → Derives good d [s] d
  /-- An `extends` leaves no statement. -/
  | extending {d : Collected} {parent : Extends} :
    d.parent = none → good parent.template → Derives good d [] (d.extend parent)
  | branch {d₀ d₁ d₂ : Collected} {body orElse : List Stmt} (pos : Position) {cond : Expr} :
    good cond → Derives good d₀ body d₁ → Derives good d₁ orElse d₂ →
    Derives good d₀ [.branch pos cond body orElse] d₂
  | loop {d₀ d₁ d₂ : Collected} {body orElse : List Stmt} (pos : Position)
    (key : Option String) (value : String) {iterable : Expr} :
    good iterable → Derives good d₀ body d₁ → Derives good d₁ orElse d₂ →
    Derives good d₀ [.loop pos key value iterable body orElse] d₂
  | capture {d₀ d₁ : Collected} {body : List Stmt} (pos : Position) (name : String) :
    Derives good d₀ body d₁ → Derives good d₀ [.capture pos name body] d₁
  | filtered {d₀ d₁ : Collected} {body : List Stmt} (pos : Position) {filters : List FilterCall} :
    (∀ f ∈ filters, ∀ e ∈ f.args, good e) → Derives good d₀ body d₁ →
    Derives good d₀ [.filtered pos filters body] d₁
  | block {d₀ d₁ : Collected} {body : List Stmt} (pos : Position) {name : String} :
    Derives good d₀ body d₁ → d₁.blockTable.has name = false →
    Derives good d₀ [.block pos d₁.blocks.length] (d₁.addBlock ⟨name, pos, body⟩)
  | defines {d₀ d₁ : Collected} {body : List Stmt} (pos : Position) {name : String}
    {params : List Param} :
    (∀ p ∈ params, ∀ e ∈ p.fallback, good e) → Derives good d₀ body d₁ →
    d₁.macroTable.has name = false →
    Derives good d₀ [.defines pos d₁.macros.length] (d₁.addMacro ⟨name, pos, params, body⟩)
  /-- Of the body of an `embed` only the definitions are kept. -/
  | embeds {d₀ d₁ : Collected} {dropped : List Stmt} {i : Inclusion} :
    (∀ e ∈ i.template :: i.bindings.toList, good e) → Derives good d₀.openTable dropped d₁ →
    Derives good d₀ [.embeds i d₁.blockTable] d₁.closeTable

/-! ## §3. Tables -/

namespace Derives

variable {good : Expr → Prop} {d d' : Collected} {ss : List Stmt}

/-- An `embed` closes the table that it opens. -/
theorem outerTables_eq (h : Derives good d ss d') : d'.outerTables = d.outerTables := by
  induction h with
  | nil | plain | extending => rfl
  | append _ _ ih₁ ih₂ => exact ih₂.trans ih₁
  | branch _ _ _ _ ih₁ ih₂ => exact ih₂.trans ih₁
  | loop _ _ _ _ _ _ ih₁ ih₂ => exact ih₂.trans ih₁
  | capture _ _ _ ih => exact ih
  | filtered _ _ _ ih => exact ih
  | block _ _ _ ih => exact ih
  | defines _ _ _ _ ih => exact ih
  | embeds _ _ ih =>
    rw [Collected.closeTable, ih]
    rfl

/-- Definitions keep their numbers when more are collected. -/
theorem before (h : Derives good d ss d') : d.Before d' := by
  induction h with
  | nil d | plain d => exact .refl d
  | extending => exact .refl _
  | append _ _ ih₁ ih₂ => exact ih₁.trans ih₂
  | branch _ _ _ _ ih₁ ih₂ => exact ih₁.trans ih₂
  | loop _ _ _ _ _ _ ih₁ ih₂ => exact ih₁.trans ih₂
  | capture _ _ _ ih => exact ih
  | filtered _ _ _ ih => exact ih
  | block _ _ _ ih => exact ih.trans (Collected.before_addBlock _ _)
  | defines _ _ _ _ ih => exact ih.trans (Collected.before_addMacro _ _)
  | @embeds _ d₁ _ _ _ _ ih =>
    unfold Collected.Before
    rw [d₁.blocks_closeTable, d₁.macros_closeTable]
    exact ih

/-- What was reached before is reached when more is collected. -/
theorem reaches {starts : List Definition} {p : Definition} (h : Derives good d ss d')
    (hp : d.graph.Reaches starts p) : d'.graph.Reaches starts p :=
  hp.subgraph (DefinitionGraph.next_of_prefix h.before.1 h.before.2)

/-- What was there before, or is reached from the first part of some statements or from the rest, is
reached from all of them. -/
theorem reaches_or {d₁ : Collected} {body orElse : List Stmt} {p : Definition}
    {earlier between : Prop} (h : Derives good d₁ orElse d')
    (hbody : between → earlier ∨ d₁.graph.Reaches (Stmt.mentionsAll body) p)
    (horElse : between ∨ d'.graph.Reaches (Stmt.mentionsAll orElse) p) :
    earlier ∨ d'.graph.Reaches (Stmt.mentionsAll body ++ Stmt.mentionsAll orElse) p := by
  rcases horElse with hbetween | hreach
  · -- There before the second part: by the first one, or earlier still.
    rcases hbody hbetween with hearlier | hreach
    · exact .inl hearlier
    · exact .inr ((h.reaches hreach).mono fun q hq => List.mem_append_left _ hq)
  · exact .inr (hreach.mono fun q hq => List.mem_append_right _ hq)

/-- The slot of a new block leads to the block. -/
theorem reaches_slot (d : Collected) (block : Block) (pos : Position) :
    (d.addBlock block).graph.Reaches (Stmt.mentionsAll [.block pos d.blocks.length])
      (.block d.blocks.length) :=
  .start (by simp [Stmt.mentions])

/-- The place of a new macro leads to the macro. -/
theorem reaches_place (d : Collected) (definition : MacroDef) (pos : Position) :
    (d.addMacro definition).graph.Reaches (Stmt.mentionsAll [.defines pos d.macros.length])
      (.macroDef d.macros.length) :=
  .start (by simp [Stmt.mentions])

/-- What the body of a new block leads to is reached from its slot. -/
theorem reaches_addBlock {body : List Stmt} {p : Definition} (pos : Position) (name : String)
    (h : d.graph.Reaches (Stmt.mentionsAll body) p) :
    (d.addBlock ⟨name, pos, body⟩).graph.Reaches (Stmt.mentionsAll [.block pos d.blocks.length])
      p := by
  have hblocks := List.prefix_append d.blocks [⟨name, pos, body⟩]
  have hadded := h.subgraph (DefinitionGraph.next_of_prefix hblocks (List.prefix_refl _))
  refine hadded.trans fun q hq => .next (reaches_slot d ⟨name, pos, body⟩ pos) ?_
  simpa [Collected.graph, Collected.addBlock, DefinitionGraph.of, DefinitionGraph.next] using hq

/-- What the body of a new macro leads to is reached from its place. -/
theorem reaches_addMacro {body : List Stmt} {p : Definition} (pos : Position) (name : String)
    (params : List Param) (h : d.graph.Reaches (Stmt.mentionsAll body) p) :
    (d.addMacro ⟨name, pos, params, body⟩).graph.Reaches
      (Stmt.mentionsAll [.defines pos d.macros.length]) p := by
  have hmacros := List.prefix_append d.macros [⟨name, pos, params, body⟩]
  have hadded := h.subgraph (DefinitionGraph.next_of_prefix (List.prefix_refl _) hmacros)
  refine hadded.trans fun q hq => .next (reaches_place d ⟨name, pos, params, body⟩ pos) ?_
  simpa [Collected.graph, Collected.addMacro, DefinitionGraph.of, DefinitionGraph.next] using hq

/-- The blocks that statements add to the table are mentioned in them, directly or by others. -/
theorem reaches_of_mem_blockTable (h : Derives good d ss d') {id : DefinitionId}
    (hid : id ∈ d'.blockTable.values) :
    id ∈ d.blockTable.values ∨ d'.graph.Reaches (Stmt.mentionsAll ss) (.block id) := by
  induction h generalizing id with
  | nil | plain | extending => exact .inl hid
  | append _ h₂ ih₁ ih₂ =>
    rw [Stmt.mentionsAll_append]
    exact h₂.reaches_or ih₁ (ih₂ hid)
  | branch _ _ _ h₂ ih₁ ih₂ =>
    rw [Stmt.mentionsAll_singleton]
    exact h₂.reaches_or ih₁ (ih₂ hid)
  | loop _ _ _ _ _ h₂ ih₁ ih₂ =>
    rw [Stmt.mentionsAll_singleton]
    exact h₂.reaches_or ih₁ (ih₂ hid)
  | capture _ _ _ ih =>
    rw [Stmt.mentionsAll_singleton]
    exact ih hid
  | filtered _ _ _ ih =>
    rw [Stmt.mentionsAll_singleton]
    exact ih hid
  | @block d₀ d₁ body pos name _ _ ih =>
    rcases Table.mem_values_insert hid with rfl | hid
    · -- The entry is the new block, which its slot mentions.
      exact .inr (reaches_slot d₁ _ pos)
    · -- An older entry is reached from the body, which is that of the new block.
      exact (ih hid).imp_right (reaches_addBlock pos name)
  | @defines d₀ d₁ body pos name params _ _ _ ih =>
    -- A block inside a macro is reached by way of the macro.
    exact (ih hid).imp_right (reaches_addMacro pos name params)
  | @embeds d₀ d₁ dropped i _ h₁ _ =>
    -- Whatever was entered went into the table of the `embed`.
    refine .inl ?_
    have houter : d₁.outerTables = d₀.blockTable :: d₀.outerTables := h₁.outerTables_eq
    rwa [Collected.closeTable, houter] at hid

end Derives

end Stencil
