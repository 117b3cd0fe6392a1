import Stencil.Number.Numeral
import Stencil.Template.Parser

/-!
Parsing expressions.

Binary operators are parsed by precedence climbing: a call with a minimum takes an operand and then
every operator that binds at least so tightly, and the right operand of each with a minimum of its
own.  Prefix operators and the test `is` take part with their own precedences.  The conditional
`a ? b : c` binds loosest and groups to the right.

The functions of §2 to §4 are the rules of the grammar, each over the parser `rec` for the
expressions inside; §5 ties the knot.
-/

namespace Stencil

open Parse

namespace Expr

/-! ## §1. Literals -/

/-- Resolves the backslash escapes of a string literal.  A backslash before any other character
stands for itself. -/
def unescape : List Char → List Char
  | '\\' :: 'n' :: cs => '\n' :: unescape cs
  | '\\' :: 't' :: cs => '\t' :: unescape cs
  | '\\' :: 'r' :: cs => '\r' :: unescape cs
  | '\\' :: c :: cs =>
    if c == '\\' || c == '\'' || c == '"' || c == '#' then c :: unescape cs
    else '\\' :: c :: unescape cs
  | c :: cs => c :: unescape cs
  | [] => []

/-- How tightly an expression must hold together where it stands. -/
inductive Tightness
  /-- Anything, a conditional included. -/
  | any
  /-- Operators of at least this precedence. -/
  | atLeast (minimum : Nat)

/-- The complaint about a text that is no number: why it is not read. -/
def unreadable (text : String) : String :=
  "invalid number " ++ text ++ ": " ++
    if text.isEmpty then "cannot parse float from empty string" else "invalid float literal"

/-- The number that a text is. -/
def readNumber (pos : Position) (text : String) : Parse Expr :=
  match Number.readWhole? text.toList with
  | some value => pure (.number pos value)
  | none => fail pos (.plain (unreadable text))

/-- A number from its whole digits.  A fraction counts only if it is written without a gap. -/
def parseNumber (pos : Position) (whole : String) : Parse Expr := do
  let dot ← next
  if dot.is .punctuation "." then
    let fraction ← next
    if fraction.kind = .number then readNumber pos (whole ++ "." ++ fraction.value)
    else
      backup
      backup
      readNumber pos whole
  else
    backup
    readNumber pos whole

/-- The concatenation of the segments of a string, from left to right. -/
def joinSegments (pos : Position) : List Expr → Expr
  | [] => .string pos ""
  | first :: more => more.foldl (.binary pos .concat) first

/-- One more segment of a string, or its closing quote.  The segments before it are given from the
last to the first. -/
def parseSegment (rec : Tightness → Parse Expr) (pos : Position) (segments : List Expr) :
    Parse (Turn (List Expr) (List Expr)) := do
  let token ← next
  match token.kind with
  | .stringText =>
    let start := if segments.isEmpty then pos else token.position
    pure (.more (.string start (.ofList (unescape token.value.toList)) :: segments))
  | .interpolateOpen =>
    let segment ← rec .any
    let _ ← expect [.interpolateClose]
    pure (.more (segment :: segments))
  | .stringClose => pure (.done segments.reverse)
  | _ => unexpected token "end of string"

/-- A string after its opening quote. -/
def parseString (n : Nat) (rec : Tightness → Parse Expr) (pos : Position) : Parse Expr := do
  let segments ← iterate (parseSegment rec pos) n []
  pure (joinSegments pos segments)

/-! ## §2. Primary expressions -/

/-- The arguments of a call, after the opening parenthesis. -/
def parseArgs (n : Nat) (rec : Tightness → Parse Expr) : Parse (List Expr) :=
  listUntil n .parensClose (rec .any)

/-- The arguments of a call, if there are any. -/
def parseArgs? (n : Nat) (rec : Tightness → Parse Expr) : Parse (Option (List Expr)) := do
  if ← accept .parensOpen "(" then pure (some (← parseArgs n rec)) else pure none

/-- The literal or the name that a word is, with the arguments after it. -/
def parseWord (n : Nat) (rec : Tightness → Parse Expr) (pos : Position) (word : String) :
    Parse Expr := do
  match word.toLower with
  | "true" => pure (.bool pos true)
  | "false" => pure (.bool pos false)
  | "null" | "none" => pure (.null pos)
  | _ =>
    match ← parseArgs? n rec with
    | some args => pure (.call pos word args)
    | none => pure (.name pos word)

/-- The words an unexpected token is met with where an expression has to begin. -/
def expectedExpr : String := "an expression"

/-- An expression in quotes or in parentheses, after its first token. -/
def parseEnclosed (n : Nat) (rec : Tightness → Parse Expr) (token : Token) : Parse Expr := do
  match token.kind with
  | .stringOpen => parseString n rec token.position
  | .parensOpen =>
    let inner ← rec .any
    let _ ← expect [.parensClose]
    pure (.group token.position inner)
  | _ => unexpected token expectedExpr

/-- A key and its value in a hash.  A key is a word, a number, a string or an expression in
parentheses. -/
def parseEntry (n : Nat) (rec : Tightness → Parse Expr) : Parse (Entry Expr) := do
  let token ← nextSolid
  let key ←
    match token.kind with
    | .name => pure (.string token.position token.value)
    | .number => parseNumber token.position token.value
    | .stringOpen | .parensOpen => parseEnclosed n rec token
    | _ => unexpected token "a hash key"
  let _ ← expectValue .punctuation ":"
  pure ⟨token.position, key, ← rec .any⟩

/-- An expression without operators around it. -/
def parsePrimary (n : Nat) (rec : Tightness → Parse Expr) : Parse Expr := do
  let token ← nextSolid
  match token.kind with
  | .name => parseWord n rec token.position token.value
  | .number => parseNumber token.position token.value
  | .arrayOpen => pure (.array token.position (← listUntil n .arrayClose (rec .any)))
  | .hashOpen => pure (.hash token.position (← listUntil n .hashClose (parseEntry n rec)))
  | _ => parseEnclosed n rec token

/-! ## §3. Attributes, subscripts and filters -/

/-- An attribute after its dot. -/
def parseAttribute (n : Nat) (rec : Tightness → Parse Expr) (pos : Position) (object : Expr) :
    Parse Expr := do
  let key ← expect [.name, .number]
  match ← parseArgs? n rec with
  | some args => pure (.method pos object (.string key.position key.value) args)
  | none => pure (.attribute pos object (.string key.position key.value))

/-- One more attribute, subscript or filter, if one follows. -/
def parseLink (n : Nat) (rec : Tightness → Parse Expr) (subject : Expr) :
    Parse (Turn Expr Expr) := do
  let token ← peek
  if token.is .punctuation "." then
    let _ ← nextSolid
    pure (.more (← parseAttribute n rec token.position subject))
  else if token.kind = .arrayOpen then
    let _ ← nextSolid
    let key ← rec .any
    let _ ← expect [.arrayClose]
    pure (.more (.attribute token.position subject key))
  else if token.is .punctuation "|" then
    let _ ← nextSolid
    let filter ← expect [.name]
    let args ← parseArgs? n rec
    pure (.more (.filter filter.position filter.value (subject :: args.getD [])))
  else pure (.done subject)

/-- Everything that may follow an expression and binds tighter than any operator. -/
def parsePostfix (n : Nat) (rec : Tightness → Parse Expr) (subject : Expr) : Parse Expr :=
  iterate (parseLink n rec) n subject

/-! ## §4. Operators -/

/-- An operand: prefix operators, or a primary expression with what follows it. -/
def parseOperand (n : Nat) (rec : Tightness → Parse Expr) : Parse Expr := do
  let token ← peek
  match if token.kind = .operator then UnaryOp.ofSpelling? token.value else none with
  | some op =>
    let _ ← nextSolid
    pure (.unary token.position op (← rec (.atLeast op.precedence)))
  | none => parsePostfix n rec (← parsePrimary n rec)

/-- The right side of a test: a name of one or two words, and arguments. -/
def parseTest (n : Nat) (rec : Tightness → Parse Expr) (pos : Position) (negated : Bool)
    (subject : Expr) : Parse Expr := do
  let first ← nextSolid
  if first.kind ≠ .name then
    fail first.position (.malformedTest ("expected a test name, found " ++ first.display))
  let second ← peek
  let name ←
    if second.kind = .name then do
      let _ ← nextSolid
      pure (first.value ++ " " ++ second.value)
    else pure first.value
  let args ← parseArgs? n rec
  let test := .test pos name subject (args.getD [])
  pure (if negated then .unary pos .not test else test)

/-- Takes one more operator that binds at least as tightly as the minimum, if one follows. -/
def climb (n : Nat) (rec : Tightness → Parse Expr) (minimum : Nat) (left : Expr) :
    Parse (Turn Expr Expr) := do
  let token ← peek
  if token.kind ≠ .operator then pure (.done left)
  else if token.value == "is" || token.value == "is not" then
    if testPrecedence < minimum then pure (.done left)
    else
      let _ ← nextSolid
      pure (.more (← parseTest n rec token.position (token.value == "is not") left))
  else
    match BinaryOp.ofSpelling? token.value with
    | none => pure (.done left)
    | some op =>
      if op.precedence < minimum then pure (.done left)
      else
        let _ ← nextSolid
        let right ← rec (.atLeast op.rightMinimum)
        pure (.more (.binary token.position op left right))

/-- What may follow a condition.  Without a colon the second choice is null. -/
def parseConditional (rec : Tightness → Parse Expr) (cond : Expr) : Parse Expr := do
  if ← accept .punctuation "?" then
    let whenTrue ← rec .any
    let whenFalse ←
      if ← accept .punctuation ":" then rec .any else pure (.null whenTrue.pos)
    pure (.conditional cond.pos cond whenTrue whenFalse)
  else pure cond

/-! ## §5. The grammar -/

/-- An expression that holds together as tightly as asked, with recursion and loops of depth up to
`n`. -/
def parse : Nat → Tightness → Parse Expr
  | 0, _ => throw .exhausted
  | n + 1, .any => do parseConditional (parse n) (← parse n (.atLeast 0))
  | n + 1, .atLeast minimum => do
    let left ← parseOperand n (parse n)
    iterate (climb n (parse n) minimum) n left

end Expr

end Stencil
