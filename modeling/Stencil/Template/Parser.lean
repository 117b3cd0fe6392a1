import Stencil.Token.Cursor
import Stencil.Template.Basic
import Stencil.Template.Error

/-!
What parsing keeps, and the moves it is made of.

A parser is a step on a state: a cursor in the token stream and the definitions collected so far.
It may stop with a parse error.  Recursion and loops are counted down from a number that is large
enough for every source; running out of it is an outcome of its own, apart from all parse errors.

White space between tokens is skipped by most moves; `next` alone shows it, for the constructs that
must be written in one piece.
-/

namespace Stencil

/-! ## §1. State and outcomes -/

/-- The state of parsing. -/
structure ParseState where
  cursor : Cursor
  parent : Option Extends
  /-- Blocks that have ended, in order. -/
  blocks : List Block
  /-- Macros that have ended, in order. -/
  macros : List MacroDef
  macroTable : Table DefinitionId
  /-- The tables that blocks are entered into: that of the innermost `embed` that is open first,
  that of the template last. -/
  blockTables : List (Table DefinitionId)

/-- Why parsing stops. -/
inductive ParseFailure
  | error (e : ParseError)
  /-- The count of steps ran out. -/
  | exhausted
deriving DecidableEq, Repr

/-- A parser. -/
abbrev Parse (α : Type) := StateT ParseState (Except ParseFailure) α

namespace Parse

variable {α β : Type}

/-- The state before the first token. -/
def startState (source : TokenStream) : ParseState where
  cursor := .ofStream source
  parent := none
  blocks := []
  macros := []
  macroTable := []
  blockTables := [[]]

/-- Stops with a parse error. -/
def fail (position : Position) (kind : ParseErrorKind) : Parse α :=
  throw (.error ⟨position, kind⟩)

/-- Stops at a token where something else is expected. -/
def unexpected (token : Token) (expected : String) : Parse α :=
  throw (.error (.unexpected token expected))

/-- Whether a loop goes on. -/
inductive Turn (α β : Type)
  | more (a : α)
  | done (b : β)

/-- A loop of at most `n` turns. -/
def iterate (turn : α → Parse (Turn α β)) : Nat → α → Parse β
  | 0, _ => throw .exhausted
  | n + 1, a => do
    match ← turn a with
    | .more a => iterate turn n a
    | .done b => pure b

section Runs

variable {x : Parse α} {f : α → Parse β} {turn : α → Parse (Turn α β)} {s t u : ParseState}
  {n : Nat} {a : α} {b : β}

/-- Where its first part has a result, a parser goes on with it. -/
theorem run_bind_ok (h : x.run s = .ok (a, t)) : (x >>= f).run s = (f a).run t := by
  rw [StateT.run_bind, h]
  rfl

/-- A parser with a result had one from its first part. -/
theorem run_bind_eq_ok (h : (x >>= f).run s = .ok (b, u)) :
    ∃ a t, x.run s = .ok (a, t) ∧ (f a).run t = .ok (b, u) := by
  rw [StateT.run_bind] at h
  -- If the first part fails, so do both, and there is no result to speak of.
  cases hx : x.run s with
  | error e =>
    rw [hx] at h
    cases h
  | ok r =>
    rw [hx] at h
    exact ⟨r.1, r.2, rfl, h⟩

theorem run_iterate_more {a' : α} (h : (turn a).run s = .ok (.more a', t)) :
    (iterate turn (n + 1) a).run s = (iterate turn n a').run t :=
  run_bind_ok h

theorem run_iterate_done (h : (turn a).run s = .ok (.done b, t)) :
    (iterate turn (n + 1) a).run s = .ok (b, t) :=
  run_bind_ok h

end Runs

/-! ## §2. Moves on tokens -/

/-- Consumes a token by a move of the cursor.  A token that stands for a lexical error stops the
parse. -/
def consume (move : Cursor → Token × Cursor) : Parse Token := do
  let (token, cursor) := move (← get).cursor
  modify fun s => { s with cursor := cursor }
  if token.kind = .error then fail token.position (.lexical token.value)
  else pure token

/-- Consumes the next token, white space included. -/
def next : Parse Token :=
  consume Cursor.next

/-- Consumes the next token that is not white space. -/
def nextSolid : Parse Token :=
  consume Cursor.nextSolid

/-- Takes the last token back. -/
def backup : Parse Unit :=
  modify fun s => { s with cursor := s.cursor.backup }

/-- Skips white space and shows the token after it. -/
def peek : Parse Token := do
  let token ← nextSolid
  backup
  pure token

/-- Consumes the next solid token, which must be of one of the kinds. -/
def expect (kinds : List TokenKind) : Parse Token := do
  let token ← nextSolid
  if kinds.contains token.kind then pure token
  else unexpected token (" or ".intercalate (kinds.map TokenKind.describe))

/-- Consumes the next solid token, which must be this one. -/
def expectValue (kind : TokenKind) (value : String) : Parse Token := do
  let token ← nextSolid
  if token.is kind value then pure token
  else unexpected token ("\"" ++ value ++ "\"")

/-- Consumes the next solid token if it is this one, and says whether it was. -/
def accept (kind : TokenKind) (value : String) : Parse Bool := do
  let token ← nextSolid
  if token.is kind value then pure true
  else
    backup
    pure false

/-- Consumes the next solid token, which must be a name. -/
def name : Parse String := do
  pure (← expect [.name]).value

/-- Consumes the end of a tag. -/
def endTag : Parse Unit := do
  let _ ← expect [.tagClose]

/-- One or more items separated by commas. -/
def commaSeparated (n : Nat) (item : Parse α) : Parse (List α) :=
  iterate (fun items => do
    let items := (← item) :: items
    if ← accept .punctuation "," then pure (.more items) else pure (.done items.reverse)) n []

/-- One turn of a list: the closing token, or an item and what separates it from the next.  The
items before it are given from the last to the first. -/
def listTurn (close : TokenKind) (item : Parse α) (items : List α) :
    Parse (Turn (List α) (List α)) := do
  if (← peek).kind = close then
    let _ ← nextSolid
    pure (.done items.reverse)
  else
    let items := (← item) :: items
    let token ← nextSolid
    if token.kind = close then pure (.done items.reverse)
    else if token.is .punctuation "," then pure (.more items)
    else unexpected token ("\",\" or " ++ close.describe)

/-- Items separated by commas, through the closing token; a comma may stand before it. -/
def listUntil (n : Nat) (close : TokenKind) (item : Parse α) : Parse (List α) :=
  iterate (listTurn close item) n []

/-! ## §3. Definitions -/

/-- The complaint about a block where there is no table for it. -/
def homelessBlock : String := "block outside of any template"

/-- Numbers a block and enters it into the innermost table, which must not have its name yet. -/
def addBlock (block : Block) : Parse DefinitionId := do
  let s ← get
  match s.blockTables with
  | [] => fail block.position (.plain homelessBlock)
  | table :: outer =>
    if table.has block.name then fail block.position (.duplicateBlock block.name)
    else
      let id := s.blocks.length
      set { s with
        blocks := s.blocks ++ [block]
        blockTables := table.insert block.name id :: outer }
      pure id

/-- Numbers a macro and enters it into the table, which must not have its name yet. -/
def addMacro (definition : MacroDef) : Parse DefinitionId := do
  let s ← get
  if s.macroTable.has definition.name then
    fail definition.position (.duplicateMacro definition.name)
  else
    let id := s.macros.length
    set { s with
      macros := s.macros ++ [definition]
      macroTable := s.macroTable.insert definition.name id }
    pure id

/-- Opens a table of its own for the blocks of an `embed`. -/
def openTable : Parse Unit :=
  modify fun s => { s with blockTables := [] :: s.blockTables }

/-- Closes the innermost table and returns it. -/
def closeTable : Parse (Table DefinitionId) := do
  let s ← get
  match s.blockTables with
  | [] => pure []
  | table :: outer =>
    set { s with blockTables := outer }
    pure table

end Parse

end Stencil
