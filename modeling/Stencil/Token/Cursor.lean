import Stencil.Token

/-!
Reading a stream of tokens with backup.

A cursor goes through a stream token by token.  It remembers the last few tokens it gave out and can
take them back one at a time.  Past the end it gives out the token that ends the stream, again and
again.
-/

namespace Stencil

/-- A place in a stream of tokens. -/
structure Cursor where
  /-- Tokens given out that can be taken back, the last one first. -/
  past : List Token
  /-- Tokens still to come, those taken back included. -/
  upcoming : List Token
  /-- The token that ends the stream. -/
  final : Token
deriving Repr

namespace Cursor

/-- How many tokens can be taken back.  White space counts, so this is more than the three tokens
with a meaning that a parser has to undo at most. -/
def backupDepth : Nat := 8

/-- A cursor at the start of a stream. -/
def ofStream (s : TokenStream) : Cursor :=
  ⟨[], s.tokens, s.final⟩

/-- Remembers a token that was given out. -/
def remember (past : List Token) (token : Token) : List Token :=
  (token :: past).take backupDepth

/-- The next token, and the cursor after it. -/
def next (c : Cursor) : Token × Cursor :=
  match c.upcoming with
  | [] => (c.final, { c with past := remember c.past c.final })
  | token :: rest => (token, ⟨remember c.past token, rest, c.final⟩)

/-- The first token from `upcoming` on that is not white space, and the cursor after it. -/
def solidFrom (final : Token) : List Token → List Token → Token × Cursor
  | past, [] => (final, ⟨remember past final, [], final⟩)
  | past, token :: rest =>
    if token.kind = .whitespace then solidFrom final (remember past token) rest
    else (token, ⟨remember past token, rest, final⟩)

/-- The next token that is not white space, and the cursor after it. -/
def nextSolid (c : Cursor) : Token × Cursor :=
  solidFrom c.final c.past c.upcoming

/-- Takes the last token back, if it is still remembered. -/
def backup (c : Cursor) : Cursor :=
  match c.past with
  | [] => c
  | token :: earlier => ⟨earlier, token :: c.upcoming, c.final⟩

@[simp] theorem final_next (c : Cursor) : c.next.2.final = c.final := by
  unfold next; split <;> rfl

@[simp] theorem final_backup (c : Cursor) : c.backup.final = c.final := by
  unfold backup; split <;> rfl

/-- Skipping white space is reading on while white space comes. -/
theorem nextSolid_eq (c : Cursor) :
    c.nextSolid =
      if c.upcoming ≠ [] ∧ c.next.1.kind = .whitespace then c.next.2.nextSolid else c.next := by
  rcases c with ⟨past, _ | ⟨token, rest⟩, final⟩
  · simp [nextSolid, solidFrom, next]
  · by_cases h : token.kind = .whitespace <;> simp [nextSolid, solidFrom, next, h]

/-- Reading a token that was just taken back gives it again. -/
theorem next_backup {c : Cursor} {token : Token} {earlier : List Token}
    (h : c.past = token :: earlier) : c.backup.next.1 = token := by
  simp [backup, h, next]

end Cursor

end Stencil
