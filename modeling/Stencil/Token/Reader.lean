import Stencil.Text.Bytes
import Stencil.Token.Lexer

/-!
Tokens on demand.

A reader gives one token for each call and keeps its place as a number of bytes, the way a source is
stored.  It looks for the end of what it takes, cuts that off by its length in bytes, and moves on.
Where such a length is no place to cut at, the call has no token, although the stream has not ended;
that this never happens is not for the reader to know.

A call outside of all regions goes on until there is something to give: comments, and literal text
that is trimmed away, are turns without a token.
-/

namespace Stencil

open Stencil.Text Stencil.Token
open String (utf8Len)

namespace Token

/-! ## §1. Operators by bytes -/

/-- The number of bytes of a symbol, if it stands at the head of a text. -/
def symbolBytes? (symbol : String) (cs : List Char) : Option Nat :=
  if symbol.toList.isPrefixOf cs then some symbol.utf8ByteSize else none

/-- The number of bytes of a sequence of words at the head of a text, if it stands there, of which
`n` have been gone through: the words that are left, and whether blanks come before the next one. -/
def wordsBytes? (cs : List Char) : Bool → List String → Nat → Option Nat
  | _, [], n =>
    match (dropBytes? n cs).bind List.head? with
    | some c => if isNameChar c then none else some n
    | none => some n
  | gap, word :: more, n => do
    let n ←
      if gap then do
        let blanks := runBytes isBlank (← dropBytes? n cs)
        if blanks = 0 then none else some (n + blanks)
      else some n
    if word.toList.isPrefixOf (← dropBytes? n cs) then
      wordsBytes? cs true more (n + word.utf8ByteSize)
    else none

/-- The number of bytes of the longest operator at the head of a text. -/
def operatorBytes? (cs : List Char) : Option Nat :=
  (symbolOperators.filterMap (symbolBytes? · cs) ++
    wordOperators.filterMap (wordsBytes? cs false · 0)).max?

end Token

/-! ## §2. Extents by bytes -/

/-- The number of bytes before the next delimiter that ends literal text. -/
def openerAt? (cs : List Char) : Option Nat :=
  ([['{', '%'], ['{', '{'], ['{', '#']].filterMap (findBytes? · cs)).min?

/-- The number of bytes of the literal part at the head of a string, before the quote or, between
double quotes, before `#{`; the character after a backslash is passed over. -/
def stringEnd? (quote : Char) : Bool → List Char → Option Nat
  | _, [] => none
  | true, c :: cs => (stringEnd? quote false cs).map (c.utf8Size + ·)
  | false, c :: cs =>
    if c = '\\' then (stringEnd? quote true cs).map (c.utf8Size + ·)
    else if c == quote || (quote == '"' && ['#', '{'].isPrefixOf (c :: cs)) then some 0
    else (stringEnd? quote false cs).map (c.utf8Size + ·)

/-! ## §3. Readers -/

/-- Where a reader stands: the source, how many bytes of it are read, the line it is in and the byte
at which that line begins, the open regions, innermost first, whether the next literal text loses
the blanks at its start, and whether the stream has ended. -/
structure Reader where
  input : List Char
  offset : Nat
  line : Nat
  lineStart : Nat
  regions : List Region
  trimNext : Bool
  done : Bool

/-- The line and its beginning after a text that begins at a byte. -/
def countLines : List Char → Nat → Nat × Nat → Nat × Nat
  | [], _, place => place
  | c :: cs, n, place =>
    countLines cs (n + c.utf8Size) (if c = '\n' then (place.1 + 1, n + 1) else place)

namespace Reader

/-- What a call comes to: a token, if there is one, and the reader after it. -/
abbrev Answer := Option Token × Reader

/-- The reader before the first character. -/
def start (source : String) : Reader :=
  ⟨source.toList, 0, 1, 0, [], false, false⟩

/-- The present place. -/
def here (r : Reader) : Position :=
  ⟨r.line, r.offset - r.lineStart + 1⟩

/-- What is left of the source. -/
def rest (r : Reader) : List Char :=
  (dropBytes? r.offset r.input).getD []

/-- The source from one byte to another. -/
def between (r : Reader) (first last : Nat) : List Char :=
  ((dropBytes? first r.input).bind (takeBytes? (last - first))).getD []

/-- Moves to a byte. -/
def advanceTo (r : Reader) (offset : Nat) : Reader :=
  let place := countLines (r.between r.offset offset) r.offset (r.line, r.lineStart)
  { r with offset := offset, line := place.1, lineStart := place.2 }

/-- Moves on by a number of bytes. -/
def advance (r : Reader) (n : Nat) : Reader :=
  r.advanceTo (r.offset + n)

/-- Ends the stream. -/
def finish (r : Reader) (kind : TokenKind) (value : String) : Answer :=
  (some ⟨kind, value, r.here⟩, { r with done := true })

/-- Ends the stream with an error. -/
def fail (r : Reader) (message : String) : Answer :=
  r.finish .error message

/-- Cuts the next `n` bytes off as a token, and moves on behind them. -/
def slice (r : Reader) (n : Nat) (token : List Char → Token) : Answer :=
  match takeBytes? n r.rest with
  | none => (none, r)
  | some value => (some (token value), r.advance n)

/-- Moves on by `n` bytes, and cuts a token out of what they were. -/
def sliceBehind (r : Reader) (n : Nat) (token : List Char → Token) : Answer :=
  ((takeBytes? n r.rest).map token, r.advance n)

/-- The present place for a text as a token of a kind. -/
def token (r : Reader) (kind : TokenKind) (value : List Char) : Token :=
  ⟨kind, .ofList value, r.here⟩

/-- A turn outside of all regions: a call is answered, or there has to be another one. -/
inductive Turn
  | answer (a : Answer)
  | again (r : Reader)

/-- Whether a trim marker comes after the two bytes of a delimiter. -/
def marked (cs : Option (List Char)) : Bool :=
  ((cs.bind (dropBytes? 2)).bind List.head?) == some '-'

/-- The literal text up to a byte, without the blanks that markers trim away. -/
def trimmedText (r : Reader) (last : Nat) : List Char :=
  let text := r.between r.offset last
  let text := if r.trimNext then trimStart text else text
  if marked (dropBytes? last r.input) then trimEnd text else text

/-- Takes literal text up to a byte. -/
def turnText (r : Reader) (last : Nat) : Turn :=
  let text := r.trimmedText last
  let next := { r with trimNext := false }.advanceTo last
  if text.isEmpty then .again next else .answer (some (r.token .text text), next)

/-- Takes a comment, of which the opening delimiter is next. -/
def turnComment (r : Reader) : Turn :=
  match findBytes? ['#', '}'] r.rest with
  | none => .answer (r.fail "unclosed comment")
  | some n =>
    let body := (takeBytes? n r.rest).getD []
    .again ({ r with trimNext := 2 < utf8Len body && body.getLast? == some '-' }.advance (n + 2))

/-- Opens a tag or a print, with its trim marker. -/
def turnOpener (r : Reader) : Answer :=
  let (kind, region, delimiter) :=
    if ['{', '%'].isPrefixOf r.rest then (.tagOpen, .tag [], "\x7b%")
    else (.printOpen, .print [], "\x7b\x7b")
  let next := r.advance (if marked (some r.rest) then 3 else 2)
  (some ⟨kind, delimiter, r.here⟩, { next with regions := region :: r.regions })

/-- One turn outside of all regions. -/
def turn (r : Reader) : Turn :=
  if utf8Len r.input ≤ r.offset then .answer (r.finish .eof "")
  else
    let last := ((openerAt? r.rest).map (r.offset + ·)).getD (utf8Len r.input)
    if r.offset < last then r.turnText last
    else
      let r := { r with trimNext := false }
      if ['{', '#'].isPrefixOf r.rest then r.turnComment else .answer r.turnOpener

/-- Another turn begins further on in the same source, still outside of all regions. -/
theorem turn_again {r next : Reader} (h : r.turn = .again next) :
    next.input = r.input ∧ next.regions = r.regions ∧ r.offset < utf8Len r.input ∧
      r.offset < next.offset := by
  unfold turn at h
  split at h
  · cases h
  · next hend =>
    have hlt : r.offset < utf8Len r.input := Nat.lt_of_not_le hend
    dsimp only at h
    split at h
    · next hlast =>
      unfold turnText at h
      dsimp only at h
      split at h
      · cases h
        exact ⟨rfl, rfl, hlt, hlast⟩
      · cases h
    · split at h
      · unfold turnComment at h
        split at h
        · cases h
        · cases h
          exact ⟨rfl, rfl, hlt, by simp only [advance, advanceTo]; omega⟩
      · cases h

/-- A call outside of all regions. -/
def lexData (r : Reader) : Answer :=
  match _h : r.turn with
  | .answer a => a
  | .again next => next.lexData
termination_by utf8Len r.input - r.offset
decreasing_by
  obtain ⟨hinput, -, hlt, hmore⟩ := turn_again _h
  rw [hinput]
  omega

/-- The delimiter that closes a region here: its token, its bytes, and whether it trims. -/
def closing? (r : Reader) (region : Region) : Option (TokenKind × Nat × Bool) :=
  match region.delimiter?, region.brackets with
  | some (kind, delimiter), [] =>
    if delimiter.isPrefixOf r.rest then some (kind, utf8Len delimiter, false)
    else if r.rest.head? == some '-' && (dropBytes? 1 r.rest).any (delimiter.isPrefixOf ·) then
      some (kind, utf8Len delimiter + 1, true)
    else none
  | _, _ => none

/-- A call at a closing bracket. -/
def lexCloser (r : Reader) (c : Char) (bracket : Bracket) (region : Region)
    (outer : List Region) : Answer :=
  if region = .interpolation [] ∧ bracket = .hash then
    (some ⟨.interpolateClose, "\x7d", r.here⟩, { r with regions := outer }.advance 1)
  else
    match region.brackets with
    | [] => r.fail ("unexpected '" ++ String.singleton c ++ "'")
    | top :: brackets =>
      let r := { r with regions := region.withBrackets brackets :: outer }
      if top = bracket then r.slice 1 (r.token bracket.closeKind)
      else r.fail ("unexpected '" ++ String.singleton c ++ "'")

/-- A call inside a region of code at a character that begins no operator, delimiter or blank. -/
def lexPlain (r : Reader) (c : Char) (region : Region) (outer : List Region) : Answer :=
  match Bracket.opened? c, Bracket.closed? c with
  | some bracket, _ =>
    { r with regions := region.withBrackets (bracket :: region.brackets) :: outer }.sliceBehind 1
      (r.token bracket.openKind)
  | none, some bracket => r.lexCloser c bracket region outer
  | none, none =>
    if c == '\'' || c == '"' then
      { r with regions := .string c :: r.regions }.sliceBehind 1 (r.token .stringOpen)
    else if punctuation.contains c then r.sliceBehind 1 (r.token .punctuation)
    else if c.isDigit then r.sliceBehind (runBytes Char.isDigit r.rest) (r.token .number)
    else if isNameChar c then r.sliceBehind (runBytes isNameChar r.rest) (r.token .name)
    else r.fail ("unexpected character '" ++ String.singleton c ++ "'")

/-- A call inside a region of code at a character. -/
def lexCode (r : Reader) (c : Char) (region : Region) (outer : List Region) : Answer :=
  if isBlank c then r.sliceBehind (runBytes isBlank r.rest) (r.token .whitespace)
  else
    match r.closing? region with
    | some (kind, n, trims) =>
      { r with regions := outer, trimNext := trims }.slice n (r.token kind)
    | none =>
      match region.unbalanced? r.rest with
      | some bracket => r.fail bracket.unclosed
      | none =>
        match operatorBytes? r.rest with
        | some n => r.slice n fun raw => ⟨.operator, operatorValue raw, r.here⟩
        | none => r.lexPlain c region outer

/-- A call inside a tag, a print or an interpolation. -/
def lexExpression (r : Reader) (region : Region) (outer : List Region) : Answer :=
  match r.rest with
  | [] => r.fail region.unclosed
  | c :: _ => r.lexCode c region outer

/-- A call inside a string. -/
def lexString (r : Reader) (quote : Char) (outer : List Region) : Answer :=
  if r.rest.head? == some quote then
    { r with regions := outer }.sliceBehind 1 (r.token .stringClose)
  else if quote == '"' && ['#', '{'].isPrefixOf r.rest then
    { r with regions := .interpolation [] :: r.regions }.sliceBehind 2 (r.token .interpolateOpen)
  else
    match stringEnd? quote false r.rest with
    | some n => r.sliceBehind n (r.token .stringText)
    | none => r.fail "unclosed string"

/-- A call: the next token, or none once the stream has ended. -/
def next (r : Reader) : Answer :=
  if r.done then (none, r)
  else
    match r.regions with
    | [] => r.lexData
    | .string quote :: outer => r.lexString quote outer
    | region :: outer => r.lexExpression region outer

/-- The reader after a number of calls. -/
def after (r : Reader) : Nat → Reader
  | 0 => r
  | n + 1 => r.next.2.after n

/-- The answer to the call that comes after a number of calls. -/
def answer (r : Reader) (n : Nat) : Option Token :=
  (r.after n).next.1

end Reader

end Stencil
