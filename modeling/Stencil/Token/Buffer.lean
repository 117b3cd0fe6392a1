import Stencil.Token.Reader
import Stencil.Token.Cursor
import Stencil.Template.Error

/-!
Reading with backup: requests to a tape.

A parser reads its tokens by a few requests.  All of them come down to two moves, to read the next
token and to take the last one back, and a `Tape` is anything that has these moves.  There are three
of them: the buffer in front of a reader, which keeps the last tokens, those taken back and the one
that ended the stream; the cursor in a list of tokens; and a plain index into the tokens of a
source, of which the last one is repeated forever.
-/

namespace Stencil

/-! ## §1. Requests -/

/-- What the parser gets to see of a token: one that stands for a lexical error is an error. -/
def Token.answer (token : Token) : Except ParseError Token :=
  if token.kind = .error then .error ⟨token.position, .lexical token.value⟩ else .ok token

/-- What can be read from, one token at a time, and taken back. -/
structure Tape (σ : Type) where
  next : σ → Except ParseError Token × σ
  backup : σ → σ

/-- What a parser asks for. -/
inductive Request
  | next
  /-- The next token that is not white space. -/
  | nextSolid
  /-- The same, but the token stays where it is. -/
  | peek
  | expect (kinds : List TokenKind)
  | expectValue (kind : TokenKind) (value : String)
  | accept (kind : TokenKind) (value : String)
  | backup

/-- What comes of a request: an error, a token, or nothing. -/
abbrev Reply := Except ParseError (Option Token)

namespace Tape

variable {σ : Type}

/-- Reads on until there is a token other than white space, or an error, with at most so many
tokens read. -/
def solidWithin (tape : Tape σ) : Nat → σ → Option (Except ParseError Token × σ)
  | 0, _ => none
  | n + 1, s =>
    match (tape.next s).1 with
    | .error e => some (.error e, (tape.next s).2)
    | .ok token =>
      if token.kind = .whitespace then tape.solidWithin n (tape.next s).2
      else some (.ok token, (tape.next s).2)

open Classical in
/-- Reads on until there is a token other than white space, or an error.  How many tokens that
takes is not known beforehand, and there is no outcome if it never comes to an end. -/
noncomputable def nextSolid (tape : Tape σ) (s : σ) : Option (Except ParseError Token × σ) :=
  if h : ∃ result n, tape.solidWithin n s = some result then some h.choose else none

/-- Reads a solid token and goes on with it; an error is the reply at once. -/
noncomputable def withSolid (tape : Tape σ) (s : σ) (f : Token → σ → Reply × σ) : Option (Reply × σ) :=
  (tape.nextSolid s).map fun (answer, s) =>
    match answer with
    | .error e => (.error e, s)
    | .ok token => f token s

/-- Meets a request.  There is no outcome if that never comes to an end. -/
noncomputable def meet (tape : Tape σ) (s : σ) : Request → Option (Reply × σ)
  | .next => some ((tape.next s).1.map some, (tape.next s).2)
  | .nextSolid => tape.withSolid s fun token s => (.ok (some token), s)
  | .peek => tape.withSolid s fun token s => (.ok (some token), tape.backup s)
  | .expect kinds =>
    tape.withSolid s fun token s =>
      if kinds.contains token.kind then (.ok (some token), s)
      else (.error (.unexpected token (" or ".intercalate (kinds.map TokenKind.describe))), s)
  | .expectValue kind value =>
    tape.withSolid s fun token s =>
      if token.is kind value then (.ok (some token), s)
      else (.error (.unexpected token ("\"" ++ value ++ "\"")), s)
  | .accept kind value =>
    tape.withSolid s fun token s =>
      if token.is kind value then (.ok (some token), s) else (.ok none, tape.backup s)
  | .backup => some (.ok none, tape.backup s)

/-- Meets requests one after the other.  Errors do not stop this. -/
noncomputable def run (tape : Tape σ) : List Request → σ → Option (List Reply × σ)
  | [], s => some ([], s)
  | request :: requests, s => do
    let (reply, s) ← tape.meet s request
    let (replies, s) ← tape.run requests s
    pure (reply :: replies, s)

/-- Whether a condition holds whenever one of the requests is to take a token back. -/
def Allows (tape : Tape σ) (may : σ → Prop) : List Request → σ → Prop
  | [], _ => True
  | request :: requests, s =>
    (request = .backup → may s) ∧
      ∀ reply t, tape.meet s request = some (reply, t) → tape.Allows may requests t

end Tape

/-! ## §2. The buffer of a reader -/

/-- A buffer in front of a reader. -/
structure Buffer where
  reader : Reader
  /-- Tokens given out, the last one first. -/
  history : List Token
  /-- Tokens taken back, the next one first. -/
  pending : List Token
  /-- The token that ended the stream. -/
  terminal : Option Token

namespace Buffer

/-- The buffer of a source. -/
def start (source : String) : Buffer :=
  ⟨.start source, [], [], none⟩

/-- What is given out if the reader has no token although none has ended the stream. -/
def fallback : Token :=
  ⟨.eof, "", ⟨0, 0⟩⟩

/-- The next token and the buffer without it. -/
def pull (b : Buffer) : Token × Buffer :=
  match b.pending, b.terminal with
  | token :: pending, _ => (token, { b with pending := pending })
  | [], some token => (token, b)
  | [], none =>
    match b.reader.next with
    | (some token, reader) =>
      (token, { b with reader := reader, terminal := if token.kind.isFinal then token else none })
    | (none, reader) => (fallback, { b with reader := reader })

/-- Adds a token to the history, which loses its oldest one when it is full. -/
def remember (history : List Token) (token : Token) : List Token :=
  token :: if history.length = Cursor.backupDepth then history.dropLast else history

/-- The next token, and the buffer after it. -/
def next (b : Buffer) : Except ParseError Token × Buffer :=
  let (token, b) := b.pull
  (token.answer, { b with history := remember b.history token })

/-- Takes the last token back, if it is still remembered. -/
def backup (b : Buffer) : Buffer :=
  match b.history with
  | [] => b
  | token :: history => { b with history := history, pending := token :: b.pending }

/-- A buffer as a tape. -/
def tape : Tape Buffer :=
  ⟨next, backup⟩

/-- Whether the fallback is given out next. -/
def starved (b : Buffer) : Bool :=
  b.pending.isEmpty && b.terminal.isNone && b.reader.next.1.isNone

/-- The buffer after some more tokens. -/
def forward (b : Buffer) : Nat → Buffer
  | 0 => b
  | n + 1 => b.next.2.forward n

end Buffer

/-! ## §3. The cursor in a list -/

/-- A cursor as a tape. -/
def Cursor.tape : Tape Cursor where
  next c := (c.next.1.answer, c.next.2)
  backup := backup

/-! ## §4. The plain index -/

/-- The tokens of a stream, with the one that ends it repeated forever. -/
def TokenStream.nth (s : TokenStream) (n : Nat) : Token :=
  s.tokens[n]?.getD s.final

/-- An index, and the highest one so far. -/
structure Index where
  index : Nat
  highest : Nat

namespace Index

/-- The index into a stream as a tape: reading adds one to it, and taking back subtracts one. -/
def tape (s : TokenStream) : Tape Index where
  next i := ((s.nth i.index).answer, ⟨i.index + 1, max i.highest (i.index + 1)⟩)
  backup i := { i with index := i.index - 1 }

/-- Whether the index may go down by one: it falls neither below zero nor by more than the depth of
a backup below its highest value. -/
def MayBackup (i : Index) : Prop :=
  0 < i.index ∧ i.highest ≤ i.index - 1 + Cursor.backupDepth

instance (i : Index) : Decidable i.MayBackup :=
  inferInstanceAs (Decidable (_ ∧ _))

end Index

end Stencil
