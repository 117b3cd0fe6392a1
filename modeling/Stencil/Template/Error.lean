import Stencil.Token

/-!
Why a source is not a template.

A parse error is a cause and the place where it showed.  The tokens in a cause are given as error
messages show them.
-/

namespace Stencil

/-- The cause of a parse error. -/
inductive ParseErrorKind
  /-- The source does not fall into tokens. -/
  | lexical (message : String)
  | unexpectedToken (expected found : String)
  | unexpectedEof (expected : Option String)
  /-- The source ends before the tag that was opened at `start` is closed. -/
  | unclosedTag (tag : String) (start : Position)
  | unknownTag (name : String)
  | duplicateExtends
  | duplicateBlock (name : String)
  | duplicateMacro (name : String)
  | malformedTest (message : String)
  | plain (text : String)
deriving DecidableEq, Repr

/-- The wording of a cause. -/
def ParseErrorKind.text : ParseErrorKind → String
  | .lexical message => message
  | .unexpectedToken expected found => s!"expected {expected}, found {found}"
  | .unexpectedEof none => "unexpected end of input"
  | .unexpectedEof (some expected) => s!"unexpected end of input (expected {expected})"
  | .unclosedTag tag start =>
    s!"unclosed tag \"{tag}\" opened at line {start.line}, offset {start.offset}"
  | .unknownTag name => s!"unknown tag \"{name}\""
  | .duplicateExtends => "a template may only extend one parent"
  | .duplicateBlock name => s!"block \"{name}\" is defined more than once"
  | .duplicateMacro name => s!"macro \"{name}\" is defined more than once"
  | .malformedTest message => s!"malformed test: {message}"
  | .plain text => text

/-- A cause and its place. -/
structure ParseError where
  position : Position
  kind : ParseErrorKind
deriving DecidableEq, Repr

/-- The wording of a parse error. -/
def ParseError.text (e : ParseError) : String :=
  s!"parse error at line {e.position.line}, offset {e.position.offset}: {e.kind.text}"

/-- The complaint about a token where something else is expected. -/
def ParseError.unexpected (token : Token) (expected : String) : ParseError :=
  ⟨token.position,
    if token.kind = .eof then .unexpectedEof (some expected)
    else .unexpectedToken expected token.display⟩

end Stencil
