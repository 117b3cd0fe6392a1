import Stencil.Token
import Stencil.Token.Spelling

/-!
From source text to tokens.

Lexing goes from left to right and keeps the regions that are open, innermost first; each region of
code keeps the brackets that are open in it.  One step takes a lexeme off the source: a run of
literal text, a comment, or the text of one token.  Comments and literal text that is trimmed away
leave no token behind, so a lexeme is a span of source with at most one token, and the spans of all
lexemes make up the source again.

## Trimming

A `-` after an opening delimiter removes the blanks at the end of the literal text before it, a `-`
before a closing delimiter those at the start of the text after it.  The latter is remembered until
the next lexeme outside of all regions.
-/

namespace Stencil

open Stencil.Text Stencil.Token

/-! ## §1. Regions and brackets -/

/-- A bracket open inside a region. -/
inductive Bracket
  | parens
  | array
  | hash
deriving DecidableEq, Repr

namespace Bracket

/-- The token a bracket opens with. -/
def openKind : Bracket → TokenKind
  | .parens => .parensOpen
  | .array => .arrayOpen
  | .hash => .hashOpen

/-- The token a bracket closes with. -/
def closeKind : Bracket → TokenKind
  | .parens => .parensClose
  | .array => .arrayClose
  | .hash => .hashClose

/-- The bracket a character opens. -/
def opened? : Char → Option Bracket
  | '(' => some .parens
  | '[' => some .array
  | '{' => some .hash
  | _ => none

/-- The bracket a character closes. -/
def closed? : Char → Option Bracket
  | ')' => some .parens
  | ']' => some .array
  | '}' => some .hash
  | _ => none

/-- The complaint about a bracket still open where its region closes. -/
def unclosed : Bracket → String
  | .parens => "unclosed parenthesis, expected \")\""
  | .array => "unclosed array, expected \"]\""
  | .hash => "unclosed hash, expected \"\x7d\""

end Bracket

/-- A part of the source that is not literal text. -/
inductive Region
  | tag (brackets : List Bracket)
  | print (brackets : List Bracket)
  | interpolation (brackets : List Bracket)
  | string (quote : Char)
deriving DecidableEq, Repr

namespace Region

/-- The brackets open in a region, innermost first. -/
def brackets : Region → List Bracket
  | .tag bs | .print bs | .interpolation bs => bs
  | .string _ => []

/-- The region with other brackets open in it. -/
def withBrackets : Region → List Bracket → Region
  | .tag _, bs => .tag bs
  | .print _, bs => .print bs
  | .interpolation _, bs => .interpolation bs
  | .string q, _ => .string q

/-- The complaint about a source that ends inside a region. -/
def unclosed : Region → String
  | .tag _ => "unclosed tag, expected \"%\x7d\""
  | .print _ => "unclosed print, expected \"\x7d\x7d\""
  | .interpolation _ => "unclosed interpolation, expected \"\x7d\""
  | .string _ => "unexpected end of input"

/-- What closes a tag or a print, and with which token. -/
def delimiter? : Region → Option (TokenKind × List Char)
  | .tag _ => some (.tagClose, ['%', '}'])
  | .print _ => some (.printClose, ['}', '}'])
  | .interpolation _ | .string _ => none

/-- The delimiter at the head of a text that closes a region without open brackets: the token, its
length, and whether it trims the text after it. -/
def closing? (r : Region) (cs : List Char) : Option (TokenKind × Nat × Bool) :=
  match r.delimiter?, r.brackets with
  | some (kind, delimiter), [] =>
    if delimiter.isPrefixOf cs then some (kind, delimiter.length, false)
    else if ('-' :: delimiter).isPrefixOf cs then some (kind, delimiter.length + 1, true)
    else none
  | _, _ => none

/-- The bracket that is still open although the region's delimiter stands at the head of a text.
Two braces may close hashes inside a print. -/
def unbalanced? (r : Region) (cs : List Char) : Option Bracket :=
  match r.delimiter?, r.brackets with
  | some (kind, delimiter), bracket :: _ =>
    if delimiter.isPrefixOf cs && !(bracket == .hash && kind == .printClose) then some bracket
    else none
  | _, _ => none

end Region

/-! ## §2. Extents of lexemes -/

/-- Whether a text begins with a delimiter that ends literal text. -/
def opensRegion : List Char → Bool
  | '{' :: c :: _ => c == '%' || c == '{' || c == '#'
  | _ => false

/-- The literal text at the head of a source, up to the next delimiter. -/
def literalRun : List Char → List Char
  | [] => []
  | c :: cs => if opensRegion (c :: cs) then [] else c :: literalRun cs

/-- The length of a text up to and including the first `#}`. -/
def commentLength : List Char → Option Nat
  | [] => none
  | '#' :: '}' :: _ => some 2
  | _ :: cs => (commentLength cs).map (· + 1)

/-- The length of the literal part at the head of a string: it ends before the quote or, between
double quotes, before `#{`, and a backslash protects the character after it. -/
def stringRunLength (quote : Char) : List Char → Option Nat
  | [] => none
  | '\\' :: [] => none
  | '\\' :: _ :: cs => (stringRunLength quote cs).map (· + 2)
  | c :: cs =>
    if c == quote || (quote == '"' && c == '#' && cs.head? == some '{') then some 0
    else (stringRunLength quote cs).map (· + 1)

/-! ## §3. One step -/

/-- A span of source and the token it stands for. -/
structure Lexeme where
  span : List Char
  token : Option Token
deriving DecidableEq, Repr

/-- Where lexing stands: the source that is left and its place, the open regions, innermost first,
and whether the next literal text loses the blanks at its start. -/
structure Scan where
  rest : List Char
  position : Position
  regions : List Region
  trimNext : Bool
deriving Repr

/-- What one step finds: a lexeme and the state after it, or the token that ends the stream. -/
inductive Scan.Step
  | lexeme (found : Lexeme) (next : Scan)
  | final (token : Token)

namespace Scan

/-- The state before the first character. -/
def start (source : String) : Scan :=
  ⟨source.toList, .start, [], false⟩

/-- The state `n` characters further on. -/
def move (s : Scan) (n : Nat) : Scan :=
  { s with rest := s.rest.drop n, position := s.position.past (s.rest.take n) }

/-- Ends the stream with an error at the present place. -/
def fail (s : Scan) (message : String) : Step :=
  .final ⟨.error, message, s.position⟩

/-- Takes the next `n` characters as one token of the given value. -/
def emit (s : Scan) (kind : TokenKind) (value : String) (n : Nat) (regions : List Region) : Step :=
  .lexeme ⟨s.rest.take n, some ⟨kind, value, s.position⟩⟩ { s.move n with regions := regions }

/-- Takes the next `n` characters as one token whose value they are. -/
def take (s : Scan) (kind : TokenKind) (n : Nat) (regions : List Region) : Step :=
  s.emit kind (.ofList (s.rest.take n)) n regions

/-- Takes a run of literal text. -/
def takeText (s : Scan) (run : List Char) : Step :=
  let text := if s.trimNext then trimStart run else run
  let text := if (s.rest.drop (run.length + 2)).head? == some '-' then trimEnd text else text
  let token := if text.isEmpty then none else some ⟨.text, .ofList text, s.position⟩
  .lexeme ⟨run, token⟩ { s.move run.length with trimNext := false }

/-- Takes a comment of `n` characters. -/
def takeComment (s : Scan) (n : Nat) : Step :=
  let body := s.rest.take (n - 2)
  .lexeme ⟨s.rest.take n, none⟩
    { s.move n with trimNext := 2 < body.length && body.getLast? == some '-' }

/-- Opens a tag or a print, with its trim marker. -/
def takeOpener (s : Scan) (kind : TokenKind) (region : Region) : Step :=
  let n := if (s.rest.drop 2).head? == some '-' then 3 else 2
  { s with trimNext := false }.emit kind (.ofList (s.rest.take 2)) n (region :: s.regions)

/-- A step outside of all regions. -/
def nextOutside (s : Scan) : Step :=
  match s.rest, literalRun s.rest with
  | [], _ => .final ⟨.eof, "", s.position⟩
  | '{' :: '#' :: _, [] =>
    match commentLength s.rest with
    | some n => s.takeComment n
    | none => s.fail "unclosed comment"
  | '{' :: '%' :: _, [] => s.takeOpener .tagOpen (.tag [])
  | _, [] => s.takeOpener .printOpen (.print [])
  | _, run => s.takeText run

/-- A step at a closing bracket. -/
def nextCloser (s : Scan) (c : Char) (bracket : Bracket) (region : Region) (outer : List Region) :
    Step :=
  match region, region.brackets with
  | .interpolation [], _ =>
    if bracket = .hash then s.take .interpolateClose 1 outer
    else s.fail ("unexpected '" ++ String.singleton c ++ "'")
  | _, top :: brackets =>
    if top = bracket then s.take bracket.closeKind 1 (region.withBrackets brackets :: outer)
    else s.fail ("unexpected '" ++ String.singleton c ++ "'")
  | _, [] => s.fail ("unexpected '" ++ String.singleton c ++ "'")

/-- A step inside a region of code at a character that begins no operator, delimiter or blank. -/
def nextPlain (s : Scan) (c : Char) (region : Region) (outer : List Region) : Step :=
  match Bracket.opened? c, Bracket.closed? c with
  | some bracket, _ =>
    s.take bracket.openKind 1 (region.withBrackets (bracket :: region.brackets) :: outer)
  | none, some bracket => s.nextCloser c bracket region outer
  | none, none =>
    if c == '\'' || c == '"' then s.take .stringOpen 1 (.string c :: region :: outer)
    else if punctuation.contains c then s.take .punctuation 1 s.regions
    else if c.isDigit then s.take .number (s.rest.takeWhile Char.isDigit).length s.regions
    else if isNameChar c then s.take .name (s.rest.takeWhile isNameChar).length s.regions
    else s.fail ("unexpected character '" ++ String.singleton c ++ "'")

/-- A step inside a tag, a print or an interpolation. -/
def nextInside (s : Scan) (region : Region) (outer : List Region) : Step :=
  match s.rest with
  | [] => s.fail region.unclosed
  | c :: _ =>
    if isBlank c then s.take .whitespace (s.rest.takeWhile isBlank).length s.regions
    else
      match region.closing? s.rest with
      | some (kind, n, trims) => { s with trimNext := trims }.take kind n outer
      | none =>
        match region.unbalanced? s.rest with
        | some bracket => s.fail bracket.unclosed
        | none =>
          match operatorLength s.rest with
          | some n => s.emit .operator (operatorValue (s.rest.take n)) n s.regions
          | none => s.nextPlain c region outer

/-- A step inside a string. -/
def nextInString (s : Scan) (quote : Char) (outer : List Region) : Step :=
  if s.rest.head? == some quote then s.take .stringClose 1 outer
  else if quote == '"' && ['#', '{'].isPrefixOf s.rest then
    s.take .interpolateOpen 2 (.interpolation [] :: s.regions)
  else
    match stringRunLength quote s.rest with
    | some n => s.take .stringText n s.regions
    | none => s.fail "unclosed string"

/-- One step. -/
def next (s : Scan) : Step :=
  match s.regions with
  | [] => s.nextOutside
  | .string quote :: outer => s.nextInString quote outer
  | region :: outer => s.nextInside region outer

/-! ## §4. The stream -/

/-- The lexemes of a source and the token that ends it, in at most `n` steps. -/
def lexemes : Nat → Scan → List Lexeme × Token
  | 0, s => ([], ⟨.eof, "", s.position⟩)
  | n + 1, s =>
    match s.next with
    | .final token => ([], token)
    | .lexeme found next =>
      let (more, final) := lexemes n next
      (found :: more, final)

end Scan

/-- The lexemes of a source and the token that ends it.  Each takes a character or more, so the
steps suffice. -/
def lexemes (source : String) : List Lexeme × Token :=
  (Scan.start source).lexemes (source.toList.length + 1)

/-- The tokens of a source. -/
def lex (source : String) : TokenStream :=
  let (found, final) := lexemes source
  ⟨found.filterMap Lexeme.token, final⟩

end Stencil
