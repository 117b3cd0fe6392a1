import Stencil.Token.Lexer
import Stencil.Template.Expr.Parser

/-!
Parsing statements and templates.

A body is a sequence of text, prints and tags.  It ends at the end of the source or at a tag with
one of the names that its construct waits for; that name is consumed, the rest of the tag is left to
the construct.  Definitions leave the body: a block or a macro is numbered where its end tag is, and
the body keeps a reference to it.
-/

namespace Stencil

open Parse

namespace Stmt

/-! ## §1. Bodies -/

/-- The construct a body belongs to: the name of its tag, and where that was opened. -/
structure Opening where
  tag : String
  start : Position

/-- A parsed body and the name of the tag that ended it. -/
structure Body where
  statements : List Stmt
  ended : Option String

/-- The parsers that the rules of the grammar build on: one for expressions, one for the body of a
construct up to a tag of one of the given names, and the number of turns a loop may take. -/
structure Rules where
  turns : Nat
  expr : Parse Expr
  body : List String → Option Opening → Parse Body

/-- The body of a construct opened at a place. -/
def Rules.bodyOf (rules : Rules) (tag : String) (start : Position) (stops : List String) :
    Parse Body :=
  rules.body stops (some ⟨tag, start⟩)

/-! ## §2. Names -/

/-- A name with further parts after dots, written without white space. -/
def parseDottedName (n : Nat) : Parse String := do
  iterate (fun dotted => do
    let dot ← next
    if dot.is .punctuation "." then
      let part ← next
      if part.kind = .name then pure (.more (dotted ++ "." ++ part.value))
      else
        backup
        backup
        pure (.done dotted)
    else
      backup
      pure (.done dotted)) n (← name)

/-- The rest of an end tag that may repeat the name of what it ends. -/
def parseNamedEnd (n : Nat) (opened : String) : Parse Unit := do
  let token ← peek
  if token.kind = .name then
    let found ← parseDottedName n
    if found ≠ opened then
      fail token.position (.plain s!"end tag names \"{found}\" but \"{opened}\" is open")
  endTag

/-- An alias after a keyword, if the keyword follows. -/
def parseAlias? (keyword : String) : Parse (Option String) := do
  if ← accept .name keyword then pure (some (← name)) else pure none

/-! ## §3. Branches and loops -/

/-- A chain of branches, given from the last to the first: each is the alternative of the one
before it. -/
def nestBranches (pos : Position) (branches : List (Expr × List Stmt)) (orElse : List Stmt) :
    List Stmt :=
  branches.foldl (fun orElse branch => [.branch pos branch.1 branch.2 orElse]) orElse

/-- `if`, with its further branches and its alternative. -/
def parseIf (rules : Rules) (pos : Position) : Parse (List Stmt) :=
  iterate (fun branches => do
    let cond ← rules.expr
    endTag
    let body ← rules.bodyOf "if" pos ["elseif", "else", "endif"]
    let branches := (cond, body.statements) :: branches
    match body.ended with
    | some "elseif" => pure (.more branches)
    | some "else" =>
      if ← accept .name "if" then pure (.more branches)
      else
        endTag
        let orElse ← rules.bodyOf "if" pos ["endif"]
        endTag
        pure (.done (nestBranches pos branches orElse.statements))
    | _ =>
      endTag
      pure (.done (nestBranches pos branches []))) rules.turns []

/-- `for`.  A condition of the loop is a branch around its body. -/
def parseFor (rules : Rules) (pos : Position) : Parse Stmt := do
  let first ← name
  let (key, value) ←
    if ← accept .punctuation "," then pure (some first, ← name) else pure (none, first)
  let _ ← expectValue .operator "in"
  let iterable ← rules.expr
  let cond ← if ← accept .name "if" then some <$> rules.expr else pure none
  endTag
  let body ← rules.bodyOf "for" pos ["else", "endfor"]
  endTag
  let orElse ←
    if body.ended = some "else" then do
      let orElse ← rules.bodyOf "for" pos ["endfor"]
      endTag
      pure orElse.statements
    else pure []
  let statements :=
    match cond with
    | some cond => [.branch pos cond body.statements []]
    | none => body.statements
  pure (.loop pos key value iterable statements orElse)

/-! ## §4. Blocks and macros -/

/-- `block`, with a body up to its end tag or with an expression to print. -/
def parseBlock (rules : Rules) (pos : Position) : Parse Stmt := do
  let name ← parseDottedName rules.turns
  let statements ←
    if (← peek).kind = .tagClose then do
      endTag
      let body ← rules.bodyOf "block" pos ["endblock"]
      parseNamedEnd rules.turns name
      pure body.statements
    else do
      let expr ← rules.expr
      endTag
      pure [.print pos expr]
  pure (.block pos (← addBlock ⟨name, pos, statements⟩))

/-- The parameters of a macro through the closing parenthesis. -/
def parseParams (rules : Rules) : Parse (List Param) :=
  iterate (fun params => do
    let token ← nextSolid
    match token.kind with
    | .parensClose => pure (.done params.reverse)
    | .name =>
      let fallback ← if ← accept .punctuation "=" then some <$> rules.expr else pure none
      let params := ⟨token.value, fallback⟩ :: params
      if ← accept .punctuation "," then pure (.more params)
      else
        let _ ← expect [.parensClose]
        pure (.done params.reverse)
    | _ => unexpected token "a parameter name or \")\"") rules.turns []

/-- A macro definition. -/
def parseMacro (rules : Rules) (pos : Position) : Parse Stmt := do
  let name ← name
  let _ ← expect [.parensOpen]
  let params ← parseParams rules
  endTag
  let body ← rules.bodyOf "macro" pos ["endmacro"]
  parseNamedEnd rules.turns name
  pure (.defines pos (← addMacro ⟨name, pos, params, body.statements⟩))

/-! ## §5. Other templates -/

/-- `extends`: at most one for a template, wherever it stands. -/
def parseExtends (rules : Rules) (pos : Position) : Parse Unit := do
  if (← get).parent.isSome then fail pos .duplicateExtends
  let template ← rules.expr
  endTag
  modify fun s => { s with parent := some ⟨pos, template⟩ }

/-- `use`, with aliases for single blocks. -/
def parseUse (rules : Rules) (pos : Position) : Parse Stmt := do
  let template ← rules.expr
  let aliases ←
    if ← accept .name "with" then
      commaSeparated rules.turns do
        let own ← name
        let _ ← expectValue .name "as"
        pure (own, ← name)
    else pure []
  endTag
  pure (.reuses ⟨pos, template, aliases⟩)

/-- What `include` and `embed` have in common, up to the end of the tag. -/
def parseInclusion (rules : Rules) (pos : Position) : Parse Inclusion := do
  let template ← rules.expr
  let ignoreMissing ←
    if ← accept .name "ignore" then do
      let _ ← expectValue .name "missing"
      pure true
    else pure false
  let bindings ← if ← accept .name "with" then some <$> rules.expr else pure none
  let only ← accept .name "only"
  pure ⟨pos, template, bindings, only, ignoreMissing⟩

/-- `embed`.  Of its body only the definitions count. -/
def parseEmbed (rules : Rules) (pos : Position) : Parse Stmt := do
  let inclusion ← parseInclusion rules pos
  endTag
  openTable
  let _ ← rules.bodyOf "embed" pos ["endembed"]
  let blocks ← closeTable
  endTag
  pure (.embeds inclusion blocks)

/-- `import`. -/
def parseImport (rules : Rules) (pos : Position) : Parse Stmt := do
  let template ← rules.expr
  let _ ← expectValue .name "as"
  let newName ← name
  endTag
  pure (.importAll pos template newName)

/-- `from`. -/
def parseFrom (rules : Rules) (pos : Position) : Parse Stmt := do
  let template ← rules.expr
  let _ ← expectValue .name "import"
  let names ← commaSeparated rules.turns do
    let own ← name
    pure (own, (← parseAlias? "as").getD own)
  endTag
  pure (.importSome pos template names)

/-! ## §6. Assignments and filters -/

/-- `set`, of values or of a rendered body. -/
def parseSet (rules : Rules) (pos : Position) : Parse Stmt := do
  let targets ← commaSeparated rules.turns name
  if ← accept .punctuation "=" then
    let values ← commaSeparated rules.turns rules.expr
    endTag
    if values.length ≠ targets.length then
      fail pos (.plain s!"set assigns {values.length} values to {targets.length} names")
    pure (.assign pos targets values)
  else
    match targets with
    | [target] =>
      endTag
      let body ← rules.bodyOf "set" pos ["endset"]
      endTag
      pure (.capture pos target body.statements)
    | _ => fail pos (.plain "a capturing set takes exactly one name")

/-- The filters of a `filter` tag, separated by bars. -/
def parseFilterCalls (rules : Rules) : Parse (List FilterCall) :=
  iterate (fun filters => do
    let filter ← expect [.name]
    let args ←
      if ← accept .parensOpen "(" then listUntil rules.turns .parensClose rules.expr else pure []
    let filters := ⟨filter.position, filter.value, args⟩ :: filters
    if ← accept .punctuation "|" then pure (.more filters) else pure (.done filters.reverse))
    rules.turns []

/-- `filter`. -/
def parseFiltered (rules : Rules) (pos : Position) : Parse Stmt := do
  let filters ← parseFilterCalls rules
  endTag
  let body ← rules.bodyOf "filter" pos ["endfilter"]
  endTag
  pure (.filtered pos filters body.statements)

/-! ## §7. The grammar -/

/-- A tag after its name; `pos` is where it was opened.  Tags that only declare something leave no
statement. -/
def parseTag (rules : Rules) (tag : String) (pos : Position) : Parse (List Stmt) := do
  match tag with
  | "if" => parseIf rules pos
  | "for" => pure [← parseFor rules pos]
  | "block" => pure [← parseBlock rules pos]
  | "extends" =>
    parseExtends rules pos
    pure []
  | "use" => pure [← parseUse rules pos]
  | "include" =>
    let inclusion ← parseInclusion rules pos
    endTag
    pure [.includes inclusion]
  | "embed" => pure [← parseEmbed rules pos]
  | "set" => pure [← parseSet rules pos]
  | "do" =>
    let expr ← rules.expr
    endTag
    pure [.perform pos expr]
  | "filter" => pure [← parseFiltered rules pos]
  | "macro" => pure [← parseMacro rules pos]
  | "import" => pure [← parseImport rules pos]
  | "from" => pure [← parseFrom rules pos]
  | _ => fail pos (.unknownTag tag)

/-- One piece of a body; the statements before it are given from the last to the first. -/
def parsePiece (rules : Rules) (stops : List String) (opening : Option Opening)
    (before : List Stmt) : Parse (Turn (List Stmt) Body) := do
  let token ← next
  match token.kind with
  | .eof =>
    match opening with
    | some ⟨tag, start⟩ => fail token.position (.unclosedTag tag start)
    | none => pure (.done ⟨before.reverse, none⟩)
  | .text => pure (.more (.text token.position token.value :: before))
  | .printOpen =>
    let expr ← rules.expr
    let _ ← expect [.printClose]
    pure (.more (.print token.position expr :: before))
  | .tagOpen =>
    let tag ← name
    if stops.contains tag then pure (.done ⟨before.reverse, some tag⟩)
    else pure (.more ((← parseTag rules tag token.position) ++ before))
  | _ => unexpected token "text, \"\x7b\x7b\" or \"\x7b%\""

/-- A body, with recursion and loops of depth up to `n`. -/
def parseBody : Nat → List String → Option Opening → Parse Body
  | 0, _, _ => throw .exhausted
  | n + 1, stops, opening =>
    iterate (parsePiece ⟨n, Expr.parse n .any, parseBody n⟩ stops opening) n []

end Stmt

/-! ## §8. Templates -/

namespace Template

/-- How deep recursion and loops may go for a source of so many tokens: every call of a rule and
every turn of a loop that does not consume a token is followed by one that does. -/
def parseDepth (tokens : Nat) : Nat :=
  4 * tokens + 16

/-- Parses a stream of tokens as a template of the given name, with recursion and loops of depth up
to `n`. -/
def parseWithin (n : Nat) (name : String) (source : TokenStream) :
    Except ParseFailure Template := do
  let (body, s) ← (Stmt.parseBody n [] none).run (Parse.startState source)
  pure ⟨name, s.parent, body.statements, s.blocks, s.blockTables.headD [], s.macros,
    s.macroTable⟩

/-- Parses a source as a template of the given name. -/
def parse (name source : String) : Except ParseFailure Template :=
  let tokens := lex source
  parseWithin (parseDepth tokens.tokens.length) name tokens

end Template

end Stencil
