import Stencil.Proofs.Expr.RoundTrip
import Stencil.Proofs.Template.Clause

/-!
Reading tags and collecting what they define.

The parser of a tag does what one of an expression does, and it may number definitions besides.
`Gathers` adds to `Takes` what has been collected before and after, places left out.  Definitions
can only be collected under titles that are not taken, so what clauses define has to be fresh, and
stays so while other clauses are read.
-/

namespace Stencil

open Stencil.Text Stencil.Token

/-! ## §1. Titles -/

theorem Table.has_insert {α : Type} (t : Table α) (name other : String) (a : α) :
    (t.insert name a).has other = true ↔ other = name ∨ t.has other = true := by
  by_cases h : other = name
  · subst h
    simp [has_eq_isSome_find?]
  · simp [has_eq_isSome_find?, find?_insert_ne t a (Ne.symm h), h]

namespace Collected

/-- Whether a title is taken by a definition. -/
def Holds (d : Collected) : Title → Prop
  | .block name => d.blockTable.has name
  | .macroDef name => d.macroTable.has name

theorem holds_addBlock (d : Collected) (b : Block) (t : Title) :
    (d.addBlock b).Holds t ↔ d.Holds t ∨ t = .block b.name := by
  cases t with
  | block name => simp [Holds, addBlock, Table.has_insert, or_comm]
  | macroDef name => simp [Holds, addBlock]

theorem holds_addMacro (d : Collected) (m : MacroDef) (t : Title) :
    (d.addMacro m).Holds t ↔ d.Holds t ∨ t = .macroDef m.name := by
  cases t with
  | block name => simp [Holds, addMacro]
  | macroDef name => simp [Holds, addMacro, Table.has_insert, or_comm]

/-- Definitions under these titles can be collected. -/
structure Fresh (d : Collected) (titles : List Title) : Prop where
  distinct : titles.Nodup
  free : ∀ t ∈ titles, ¬ d.Holds t

namespace Fresh

variable {d d' : Collected} {titles titles' : List Title}

theorem left (h : d.Fresh (titles ++ titles')) : d.Fresh titles :=
  ⟨(List.nodup_append.mp h.distinct).1, fun t ht => h.free t (List.mem_append_left _ ht)⟩

/-- What was fresh is so still when others have been collected. -/
theorem right (h : d.Fresh (titles ++ titles'))
    (hadds : ∀ t, d'.Holds t ↔ d.Holds t ∨ t ∈ titles) : d'.Fresh titles' := by
  obtain ⟨-, hdistinct, hapart⟩ := List.nodup_append.mp h.distinct
  refine ⟨hdistinct, fun t ht hholds => ?_⟩
  rcases (hadds t).mp hholds with hold | hnew
  · exact h.free t (List.mem_append_right _ ht) hold
  · exact hapart t hnew t ht rfl

end Fresh

end Collected

mutual

/-- A clause takes the titles of the definitions in it, and no others. -/
theorem Clause.holds_build : (clause : Clause) → (d : Collected) → (t : Title) →
    ((clause.build d).2.Holds t ↔ d.Holds t ∨ t ∈ clause.titles)
  | .text _, d, t | .print _, d, t | .perform _, d, t | .includes .., d, t | .reuses .., d, t
  | .assign .., d, t | .importAll .., d, t | .importSome .., d, t => by
    simp [Clause.build, Clause.titles]
  | .branch _ body orElse, d, t | .loop _ _ _ body orElse, d, t => by
    have hbody := Clause.holds_buildAll body d t
    have horElse := Clause.holds_buildAll orElse (Clause.buildAll body d).2 t
    simp only [Clause.build, Clause.titles, List.mem_append, horElse, hbody, or_assoc]
  | .block name body, d, t => by
    have hbody := Clause.holds_buildAll body d t
    simp only [Clause.build, Clause.titles, List.mem_append, List.mem_singleton,
      Collected.holds_addBlock, hbody, or_assoc]
  | .defines name _ body, d, t => by
    have hbody := Clause.holds_buildAll body d t
    simp only [Clause.build, Clause.titles, List.mem_append, List.mem_singleton,
      Collected.holds_addMacro, hbody, or_assoc]
  | .capture _ body, d, t | .filtered _ _ body, d, t => Clause.holds_buildAll body d t

theorem Clause.holds_buildAll : (clauses : List Clause) → (d : Collected) → (t : Title) →
    ((Clause.buildAll clauses d).2.Holds t ↔ d.Holds t ∨ t ∈ Clause.allTitles clauses)
  | [], d, t => by simp [Clause.buildAll, Clause.allTitles]
  | clause :: clauses, d, t => by
    have hclause := clause.holds_build d t
    have hclauses := Clause.holds_buildAll clauses (clause.build d).2 t
    simp only [Clause.buildAll, Clause.allTitles, List.mem_append, hclauses, hclause, or_assoc]

end

/-! ## §2. Parsers that collect -/

namespace Parse

variable {α β γ : Type}

/-- A parser succeeds where the tokens to come are of one kind and certain definitions have been
collected, with a result as stated, and leaves tokens of another kind and what has been collected
then, places aside. -/
def Gathers (x : Parse α) (P : List (TokenKind × String) → Prop) (d : Collected) (Q : α → Prop)
    (P' : List (TokenKind × String) → Prop) (d' : Collected) : Prop :=
  ∀ s : ParseState, P s.cursor.shapes → s.collected.unplaced = d → s.blockTables ≠ [] →
    ∃ a s', x.run s = .ok (a, s') ∧ s'.cursor.final = s.cursor.final ∧ P' s'.cursor.shapes ∧
      s'.collected.unplaced = d' ∧ s'.blockTables ≠ [] ∧ Q a

namespace Gathers

variable {x : Parse α} {P P' P'' : List (TokenKind × String) → Prop} {d d' d'' : Collected}
  {Q : α → Prop} {R : β → Prop}

/-- A parser that changes nothing but how far the stream is read collects nothing. -/
theorem of_takes (hx : Takes x P Q P') (d : Collected) : Gathers x P d Q P' d := by
  intro s hs hd htables
  obtain ⟨a, c, hrun, hfinal, hc, ha⟩ := hx s hs
  exact ⟨a, { s with cursor := c }, hrun, hfinal, hc, hd, htables, ha⟩

theorem pure {a : α} (h : Q a) : Gathers (Pure.pure a) P d Q P d :=
  of_takes (Takes.pure h) d

theorem bind {f : α → Parse β} (hx : Gathers x P d Q P' d')
    (hf : ∀ a, Q a → Gathers (f a) P' d' R P'' d'') : Gathers (x >>= f) P d R P'' d'' := by
  intro s hs hd htables
  obtain ⟨a, s', hrun, hfinal, hs', hd', htables', ha⟩ := hx s hs hd htables
  obtain ⟨b, s'', hmore, hfinal', hs'', hd'', htables'', hb⟩ := hf a ha s' hs' hd' htables'
  refine ⟨b, s'', ?_, hfinal'.trans hfinal, hs'', hd'', htables'', hb⟩
  rw [run_bind_ok hrun]
  exact hmore

theorem mono {Q' : α → Prop} (hx : Gathers x P d Q P' d') (h : ∀ a, Q a → Q' a) :
    Gathers x P d Q' P' d' := by
  intro s hs hd htables
  obtain ⟨a, s', hrun, hfinal, hs', hd', htables', ha⟩ := hx s hs hd htables
  exact ⟨a, s', hrun, hfinal, hs', hd', htables', h a ha⟩

/-- A turn of a loop that is not the last one. -/
theorem more {turn : α → Parse (Turn α γ)} {I : α → Prop} {S : γ → Prop} {a : α} {n : Nat}
    (hturn : Gathers (turn a) P d (fun r => ∃ a', r = .more a' ∧ I a') P' d')
    (hrest : ∀ a', I a' → Gathers (iterate turn n a') P' d' S P'' d'') :
    Gathers (iterate turn (n + 1) a) P d S P'' d'' := by
  apply bind hturn
  rintro _ ⟨a', rfl, ha'⟩
  exact hrest a' ha'

/-- The last turn of a loop. -/
theorem done {turn : α → Parse (Turn α γ)} {S : γ → Prop} {a : α} {n : Nat}
    (hturn : Gathers (turn a) P d (fun r => ∃ b, r = .done b ∧ S b) P' d') :
    Gathers (iterate turn (n + 1) a) P d S P' d' := by
  apply bind hturn
  rintro _ ⟨b, rfl, hb⟩
  exact pure hb

end Gathers

/-- A parser that leaves what was collected alone, and one after it. -/
theorem Takes.gathers {x : Parse α} {f : α → Parse β} {P P' P'' : List (TokenKind × String) → Prop}
    {Q : α → Prop} {R : β → Prop} {d d' : Collected} (hx : Takes x P Q P')
    (hf : ∀ a, Q a → Gathers (f a) P' d R P'' d') : Gathers (x >>= f) P d R P'' d' :=
  (Gathers.of_takes hx d).bind hf

variable {P : List (TokenKind × String) → Prop} {d : Collected}

theorem gathers_addBlock {b : Block} (h : ¬ d.Holds (.block b.name)) :
    Gathers (addBlock b) P d (· = d.blocks.length) P (d.addBlock b.unplaced) := by
  rintro ⟨cursor, parent, blocks, macros, macroTable, blockTables⟩ hs rfl htables
  obtain ⟨table, outer, rfl⟩ := List.exists_cons_of_ne_nil htables
  have hfree : ¬ table.has b.name = true := h
  refine ⟨blocks.length, ⟨cursor, parent, blocks ++ [b], macros, macroTable,
    table.insert b.name blocks.length :: outer⟩, ?_, rfl, hs, ?_, List.cons_ne_nil _ _, ?_⟩
  · show (if table.has b.name = true then _ else _ : Parse DefinitionId).run _ = _
    rw [if_neg hfree]
    rfl
  · simp [ParseState.collected, Collected.unplaced, Collected.addBlock, Block.unplaced]
  · simp [ParseState.collected, Collected.unplaced]

theorem gathers_addMacro {m : MacroDef} (h : ¬ d.Holds (.macroDef m.name)) :
    Gathers (addMacro m) P d (· = d.macros.length) P (d.addMacro m.unplaced) := by
  rintro s hs rfl htables
  have hfree : ¬ s.macroTable.has m.name = true := h
  refine ⟨s.macros.length, { s with
    macros := s.macros ++ [m]
    macroTable := s.macroTable.insert m.name s.macros.length }, ?_, rfl, hs, ?_, htables, ?_⟩
  · show (if s.macroTable.has m.name = true then _ else _ : Parse DefinitionId).run s = _
    rw [if_neg hfree]
    rfl
  · simp [ParseState.collected, Collected.unplaced, Collected.addMacro, MacroDef.unplaced]
  · simp [ParseState.collected, Collected.unplaced]

end Parse

end Stencil
