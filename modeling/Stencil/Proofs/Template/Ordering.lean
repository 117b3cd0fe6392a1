import Stencil.Proofs.Template.Inventory

/-!
Definitions lead only to earlier ones.

A block is numbered where it ends.  What is written inside it has ended by then, so its body
mentions only definitions collected before it, and those again mention only each other.  Hence
whatever is reached from the body of a block, in the whole template, was collected before the block,
and a block never contains itself, not even by way of macros and embeds.  The same holds of macros.
-/

namespace Stencil

/-- The number of a definition among those of its kind. -/
def Definition.id : Definition → DefinitionId
  | .block id | .macroDef id => id

namespace Collected

variable {d d' : Collected} {p : Definition}

/-! ## §1. Closed collections -/

/-- How many definitions of the kind of a given one are collected. -/
def countLike (d : Collected) : Definition → Nat
  | .block _ => d.blocks.length
  | .macroDef _ => d.macros.length

/-- The definitions collected are those whose numbers are given out. -/
theorem mem_definitions : p ∈ d.definitions ↔ p.id < d.countLike p := by
  cases p <;> simp [definitions, countLike, Definition.id]

theorem Before.mem_definitions (h : d.Before d') (hp : p ∈ d.definitions) : p ∈ d'.definitions := by
  rw [Collected.mem_definitions] at hp ⊢
  cases p with
  | block id => exact Nat.lt_of_lt_of_le hp h.1.length_le
  | macroDef id => exact Nat.lt_of_lt_of_le hp h.2.length_le

/-- What a definition mentions does not change when more are collected. -/
theorem Before.next_eq (h : d.Before d') (hp : p ∈ d.definitions) :
    d'.graph.next p = d.graph.next p := by
  obtain ⟨⟨moreBlocks, hblocks⟩, moreMacros, hmacros⟩ := h
  rw [Collected.mem_definitions] at hp
  cases p with
  | block id =>
    have hlt : id < d.blocks.length := hp
    simp [graph, DefinitionGraph.of, DefinitionGraph.next, ← hblocks, List.getElem?_append_left,
      hlt]
  | macroDef id =>
    have hlt : id < d.macros.length := hp
    simp [graph, DefinitionGraph.of, DefinitionGraph.next, ← hmacros, List.getElem?_append_left,
      hlt]

/-- A number that is not given out leads nowhere. -/
theorem next_eq_nil (hp : p ∉ d.definitions) : d.graph.next p = [] := by
  rw [Collected.mem_definitions, Nat.not_lt] at hp
  cases p with
  | block id =>
    have hge : d.blocks.length ≤ id := hp
    simp [graph, DefinitionGraph.of, DefinitionGraph.next, hge]
  | macroDef id =>
    have hge : d.macros.length ≤ id := hp
    simp [graph, DefinitionGraph.of, DefinitionGraph.next, hge]

/-- Nothing but what was collected is mentioned in it. -/
def Closed (d : Collected) : Prop :=
  ∀ p ∈ d.definitions, ∀ q ∈ d.graph.next p, q ∈ d.definitions

/-- From a closed collection nothing leads to what was collected after it. -/
theorem Closed.mem_of_reaches (hclosed : d.Closed) (h : d.Before d') {starts : List Definition}
    (hstarts : ∀ q ∈ starts, q ∈ d.definitions) (hp : d'.graph.Reaches starts p) :
    p ∈ d.definitions := by
  induction hp with
  | start hp => exact hstarts _ hp
  | next _ hq ih =>
    rw [h.next_eq ih] at hq
    exact hclosed _ ih _ hq

/-! ## §2. The order of definitions -/

/-- What was collected before a definition: the definition mentions only that, and what is in it
mentions only each other. -/
structure Precedes (earlier d : Collected) (p : Definition) : Prop where
  number : earlier.countLike p = p.id
  before : earlier.Before d
  closed : earlier.Closed
  mentions : ∀ q ∈ d.graph.next p, q ∈ earlier.definitions

/-- Every definition comes after all that it leads to. -/
structure Ordered (d : Collected) : Prop where
  closed : d.Closed
  precedes : ∀ p ∈ d.definitions, ∃ earlier : Collected, earlier.Precedes d p

namespace Ordered

theorem empty : Collected.empty.Ordered where
  closed := by
    intro p hp
    cases hp
  precedes := by
    intro p hp
    cases hp

/-- Definitions keep their places in the order when more are collected. -/
theorem extend (h : d.Ordered) (hd : d.Before d') (hp : p ∈ d.definitions) :
    ∃ earlier : Collected, earlier.Precedes d' p := by
  obtain ⟨earlier, hprecedes⟩ := h.precedes p hp
  refine ⟨earlier, hprecedes.number, hprecedes.before.trans hd, hprecedes.closed, ?_⟩
  rw [hd.next_eq hp]
  exact hprecedes.mentions

/-- A new definition that mentions only what is collected comes last. -/
theorem add (h : d.Ordered) (hd : d.Before d') (hnew : d'.definitions.Perm (p :: d.definitions))
    (hnumber : d.countLike p = p.id) (hmentions : ∀ q ∈ d'.graph.next p, q ∈ d.definitions) :
    d'.Ordered := by
  refine ⟨fun r hr q hq => hd.mem_definitions ?_, fun r hr => ?_⟩
  -- The definitions that were there mention what they did, and the new one is last.
  · rcases List.mem_cons.mp (hnew.mem_iff.mp hr) with rfl | hr
    · exact hmentions q hq
    · rw [hd.next_eq hr] at hq
      exact h.closed r hr q hq
  · rcases List.mem_cons.mp (hnew.mem_iff.mp hr) with rfl | hr
    · exact ⟨d, hnumber, hd, h.closed, hmentions⟩
    · exact h.extend hd hr

theorem addBlock (h : d.Ordered) {block : Block}
    (hbody : ∀ q ∈ Stmt.mentionsAll block.body, q ∈ d.definitions) :
    (d.addBlock block).Ordered := by
  have hnext : (d.addBlock block).graph.next (.block d.blocks.length) =
      Stmt.mentionsAll block.body := by
    simp [graph, Collected.addBlock, DefinitionGraph.of, DefinitionGraph.next]
  exact h.add (d.before_addBlock block) (d.perm_definitions_addBlock block) rfl (by rwa [hnext])

theorem addMacro (h : d.Ordered) {definition : MacroDef}
    (hbody : ∀ q ∈ Stmt.mentionsAll definition.body, q ∈ d.definitions) :
    (d.addMacro definition).Ordered := by
  have hnext : (d.addMacro definition).graph.next (.macroDef d.macros.length) =
      Stmt.mentionsAll definition.body := by
    simp [graph, Collected.addMacro, DefinitionGraph.of, DefinitionGraph.next]
  exact h.add (d.before_addMacro definition) (d.perm_definitions_addMacro definition) rfl
    (by rwa [hnext])

/-- The order does not depend on the tables. -/
theorem of_eq (h : d.Ordered) (hblocks : d'.blocks = d.blocks) (hmacros : d'.macros = d.macros) :
    d'.Ordered := by
  have hgraph : d'.graph = d.graph := by rw [graph, graph, hblocks, hmacros]
  have hdefinitions : d'.definitions = d.definitions := by
    rw [definitions, definitions, hblocks, hmacros]
  refine ⟨?_, fun p hp => ?_⟩
  · unfold Closed
    rw [hgraph, hdefinitions]
    exact h.closed
  · rw [hdefinitions] at hp
    exact h.extend ⟨hblocks ▸ List.prefix_refl _, hmacros ▸ List.prefix_refl _⟩ hp

/-- What a definition leads to was collected before it. -/
theorem exists_precedes (h : d.Ordered) {q : Definition}
    (hreach : d.graph.Reaches (d.graph.next p) q) :
    ∃ earlier : Collected, earlier.countLike p = p.id ∧ q ∈ earlier.definitions := by
  by_cases hp : p ∈ d.definitions
  · obtain ⟨earlier, hprecedes⟩ := h.precedes p hp
    exact ⟨earlier, hprecedes.number,
      hprecedes.closed.mem_of_reaches hprecedes.before hprecedes.mentions hreach⟩
  · rw [next_eq_nil hp] at hreach
    exact absurd hreach DefinitionGraph.Reaches.nil

/-- A block leads only to blocks of smaller numbers. -/
theorem block_lt (h : d.Ordered) {i j : DefinitionId}
    (hreach : d.graph.Reaches (d.graph.next (.block i)) (.block j)) : j < i := by
  obtain ⟨earlier, hnumber, hmem⟩ := h.exists_precedes hreach
  have hlt : j < earlier.blocks.length := Collected.mem_definitions.mp hmem
  exact Nat.lt_of_lt_of_eq hlt hnumber

/-- A macro leads only to macros of smaller numbers. -/
theorem macro_lt (h : d.Ordered) {i j : DefinitionId}
    (hreach : d.graph.Reaches (d.graph.next (.macroDef i)) (.macroDef j)) : j < i := by
  obtain ⟨earlier, hnumber, hmem⟩ := h.exists_precedes hreach
  have hlt : j < earlier.macros.length := Collected.mem_definitions.mp hmem
  exact Nat.lt_of_lt_of_eq hlt hnumber

end Ordered

end Collected

end Stencil
