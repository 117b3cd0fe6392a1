import Stencil.Position

/-!
Tokens of the template language.

Outside of any region a template is literal text.  Two delimiters open a region of code, a tag or a
print, and a double-quoted string may open a third, an interpolation.  Inside, the text falls into
names, numbers, operators, punctuation, brackets and strings.  White space is a token too: some
constructs must be written without any.
-/

namespace Stencil

/-- What a token is. -/
inductive TokenKind
  | text
  | name
  | number
  | stringOpen
  | stringText
  | stringClose
  | interpolateOpen
  | interpolateClose
  | tagOpen
  | tagClose
  | printOpen
  | printClose
  | parensOpen
  | parensClose
  | arrayOpen
  | arrayClose
  | hashOpen
  | hashClose
  | punctuation
  | operator
  | whitespace
  | error
  | eof
deriving DecidableEq, Repr

/-- How error messages call a kind of token. -/
def TokenKind.describe : TokenKind → String
  | .text => "text"
  | .name => "name"
  | .number => "number"
  | .stringOpen => "string"
  | .stringText => "string text"
  | .stringClose => "end of string"
  | .interpolateOpen => "\"#\x7b\""
  | .interpolateClose => "\"\x7d\" closing interpolation"
  | .tagOpen => "\"\x7b%\""
  | .tagClose => "\"%\x7d\""
  | .printOpen => "\"\x7b\x7b\""
  | .printClose => "\"\x7d\x7d\""
  | .parensOpen => "\"(\""
  | .parensClose => "\")\""
  | .arrayOpen => "\"[\""
  | .arrayClose => "\"]\""
  | .hashOpen => "\"\x7b\""
  | .hashClose => "\"\x7d\""
  | .punctuation => "punctuation"
  | .operator => "operator"
  | .whitespace => "whitespace"
  | .error => "error"
  | .eof => "end of input"

/-- The kinds that end a stream of tokens. -/
def TokenKind.isFinal : TokenKind → Bool
  | .error | .eof => true
  | _ => false

/-- A token.  Its value is its source text, but the words of an operator are joined by single
spaces, an opening delimiter is without its trim marker, and an error carries its message. -/
structure Token where
  kind : TokenKind
  value : String
  position : Position
deriving DecidableEq, Repr

namespace Token

/-- Whether the token has this kind and this value. -/
def is (t : Token) (kind : TokenKind) (value : String) : Bool :=
  t.kind == kind && t.value == value

/-- How error messages show a token. -/
def display (t : Token) : String :=
  match t.kind with
  | .eof | .whitespace => t.kind.describe
  | _ => t.kind.describe ++ " \"" ++ t.value ++ "\""

end Token

/-- All tokens of a source: those it consists of, and the one that ends the stream. -/
structure TokenStream where
  tokens : List Token
  final : Token
deriving DecidableEq, Repr

/-- The stream as one list. -/
def TokenStream.all (s : TokenStream) : List Token :=
  s.tokens ++ [s.final]

end Stencil
