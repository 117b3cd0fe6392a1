import Stencil.Proofs.Template.Advancing
import Stencil.Template.Statement.Parser

/-!
A parser that keeps a record.

What a parser does on its way does not show in its result.  So every rule of the grammar is written
once more here, over parsers that keep a record: of each token that is given out, of each that is
taken back and how many could have been, and of each call of a rule with what is done inside of it.
A loop is a rule that calls itself.

The record stands beside the parser and has no part in it: without it every rule is the one of the
grammar.  Nor can it tell anything else than what is done.  To go through a record again is to move
the cursor as the parser did, and the numbers in it are those of the cursor at that point.
-/

namespace Stencil

open Stencil.Text Stencil.Token

/-! ## §1. Records -/

/-- The rules of the grammar, its loops among them. -/
inductive Rule
  | number
  | string
  | segments
  | items
  | arguments
  | word
  | entry
  | primary
  | property
  | links
  | operand
  | test
  | climb
  | conditional
  | operators
  | expression
  | commas
  | dottedName
  | dots
  | namedEnd
  | newName
  | branches
  | params
  | filterCalls
  | inclusion
  /-- The construct of a tag. -/
  | construct (tag : String)
  | pieces
  | body
deriving DecidableEq, Repr

/-- What a parser does on its way. -/
inductive Event
  /-- A token is given out, where asked for the next one that is not blank. -/
  | read (solid : Bool)
  /-- A token is taken back while so many are remembered. -/
  | backup (remembered : Nat)
  /-- A rule is called where so many tokens are left, and does something itself. -/
  | call (rule : Rule) (left : Nat) (inside : List Event)

/-- What happens in a record, at any depth. -/
inductive Event.Happens (e : Event) : List Event → Prop
  | here {record : List Event} : e ∈ record → Happens e record
  | inside {record inner : List Event} {rule : Rule} {left : Nat} :
      .call rule left inner ∈ record → Happens e inner → Happens e record

mutual

/-- How much an event is, with all that happens inside of it. -/
def Event.size : Event → Nat
  | .read _ => 1
  | .backup _ => 1
  | .call _ _ inside => 1 + Event.total inside

/-- How much happens in a record. -/
def Event.total : List Event → Nat
  | [] => 0
  | e :: record => e.size + Event.total record

end

mutual

/-- The cursor after an event. -/
def Event.move : Event → Cursor → Cursor
  | .read solid, c => if solid then c.nextSolid.2 else c.next.2
  | .backup _, c => c.backup
  | .call _ _ inside, c => Event.replay inside c

/-- The cursor after all that happens in a record. -/
def Event.replay : List Event → Cursor → Cursor
  | [], c => c
  | e :: record, c => Event.replay record (e.move c)

end

mutual

/-- Whether an event has the numbers of the cursor. -/
def Event.Fitting : Event → Cursor → Prop
  | .read _, _ => True
  | .backup remembered, c => remembered = c.past.length
  | .call _ left inside, c => left = c.left ∧ Event.Faithful inside c

/-- Whether a record has the numbers of the cursor all the way. -/
def Event.Faithful : List Event → Cursor → Prop
  | [], _ => True
  | e :: record, c => e.Fitting c ∧ Event.Faithful record (e.move c)

end

namespace Event

theorem replay_append (record record' : List Event) (c : Cursor) :
    replay (record ++ record') c = replay record' (replay record c) := by
  induction record generalizing c with
  | nil => rfl
  | cons e record ih => exact ih _

theorem faithful_append {record record' : List Event} {c : Cursor} (h : Faithful record c)
    (h' : Faithful record' (replay record c)) : Faithful (record ++ record') c := by
  induction record generalizing c with
  | nil => exact h'
  | cons e record ih => exact ⟨h.1, ih h.2 h'⟩

end Event

/-- A parser and the record of its runs, of those that fail as well. -/
structure Recorded (α : Type) where
  parser : Parse α
  events : ParseState → List Event
  faithful : ∀ s, Event.Faithful (events s) s.cursor
  replays : ∀ s a t, parser.run s = .ok (a, t) → Event.replay (events s) s.cursor = t.cursor

namespace Recorded

variable {α β : Type}

/-- The record of two parsers one after the other. -/
def eventsBind (x : Recorded α) (f : α → Recorded β) (s : ParseState) : List Event :=
  x.events s ++
    match x.parser.run s with
    | .ok (a, t) => (f a).events t
    | .error _ => []

theorem eventsBind_of_error {x : Recorded α} {f : α → Recorded β} {s : ParseState}
    {e : ParseFailure} (h : x.parser.run s = .error e) : eventsBind x f s = x.events s := by
  rw [eventsBind, h]
  exact List.append_nil _

theorem eventsBind_of_ok {x : Recorded α} {f : α → Recorded β} {s t : ParseState} {a : α}
    (h : x.parser.run s = .ok (a, t)) : eventsBind x f s = x.events s ++ (f a).events t := by
  rw [eventsBind, h]

instance : Monad Recorded where
  pure a := ⟨pure a, fun _ => [], fun _ => trivial, fun s b t h => by cases h; rfl⟩
  bind x f :=
    { parser := x.parser >>= fun a => (f a).parser
      events := eventsBind x f
      faithful := fun s => by
        cases hr : x.parser.run s with
        | error e =>
          rw [eventsBind_of_error hr]
          exact x.faithful s
        | ok r =>
          rw [eventsBind_of_ok hr]
          exact Event.faithful_append (x.faithful s) (x.replays s _ _ hr ▸ (f r.1).faithful r.2)
      replays := fun s b u h => by
        obtain ⟨a, t, hr, hrest⟩ := Parse.run_bind_eq_ok h
        rw [eventsBind_of_ok hr, Event.replay_append, x.replays s a t hr]
        exact (f a).replays t b u hrest }

theorem events_bind (x : Recorded α) (f : α → Recorded β) (s : ParseState) :
    (x >>= f).events s = eventsBind x f s := rfl

/-- A parser that does nothing that is recorded. -/
def silently (x : Parse α) (h : ∀ s a t, x.run s = .ok (a, t) → t.cursor = s.cursor) :
    Recorded α :=
  ⟨x, fun _ => [], fun _ => trivial, fun s a t hr => (h s a t hr).symm⟩

/-- A call of a rule. -/
def call (rule : Rule) (x : Recorded α) : Recorded α :=
  ⟨x.parser, fun s => [.call rule (Parse.left s) (x.events s)],
    fun s => ⟨⟨rfl, x.faithful s⟩, trivial⟩, x.replays⟩

/-! ## §2. Moves -/

def exhausted : Recorded α :=
  silently (throw .exhausted) fun s a t h => by cases h

def fail (position : Position) (kind : ParseErrorKind) : Recorded α :=
  silently (Parse.fail position kind) fun s a t h => by cases h

def unexpected (token : Token) (expected : String) : Recorded α :=
  silently (Parse.unexpected token expected) fun s a t h => by cases h

/-- A parser that leaves the cursor alone. -/
def still (x : Parse α) (h : Parse.Still x) : Recorded α :=
  silently x fun s a t hr => by
    have := h s
    unfold Parse.Halts at this
    rwa [hr] at this

def state : Recorded ParseState :=
  still get fun _ => rfl

def setParent (parent : Extends) : Recorded Unit :=
  still (modify fun s => { s with parent := some parent }) fun _ => by exact rfl

/-- A loop is a rule that calls itself. -/
def iterate (rule : Rule) (turn : α → Recorded (Parse.Turn α β)) : Nat → α → Recorded β
  | 0, _ => exhausted
  | n + 1, a => call rule do
    match ← turn a with
    | .more a => iterate rule turn n a
    | .done b => pure b

def next : Recorded Token :=
  ⟨Parse.next, fun _ => [.read false], fun _ => ⟨trivial, trivial⟩, fun s a t h => by
    obtain ⟨-, -, rfl⟩ := Parse.consume_of_run h
    rfl⟩

def nextSolid : Recorded Token :=
  ⟨Parse.nextSolid, fun _ => [.read true], fun _ => ⟨trivial, trivial⟩, fun s a t h => by
    obtain ⟨-, -, rfl⟩ := Parse.consume_of_run h
    rfl⟩

def backup : Recorded Unit :=
  ⟨Parse.backup, fun s => [.backup s.cursor.past.length], fun _ => ⟨rfl, trivial⟩,
    fun s a t h => by cases h; rfl⟩

def peek : Recorded Token := do
  let token ← nextSolid
  backup
  pure token

def expect (kinds : List TokenKind) : Recorded Token := do
  let token ← nextSolid
  if kinds.contains token.kind then pure token
  else unexpected token (" or ".intercalate (kinds.map TokenKind.describe))

def expectValue (kind : TokenKind) (value : String) : Recorded Token := do
  let token ← nextSolid
  if token.is kind value then pure token
  else unexpected token ("\"" ++ value ++ "\"")

def accept (kind : TokenKind) (value : String) : Recorded Bool := do
  let token ← nextSolid
  if token.is kind value then pure true
  else
    backup
    pure false

def name : Recorded String := do
  pure (← expect [.name]).value

def endTag : Recorded Unit := do
  let _ ← expect [.tagClose]

/-- What is written right after a point, if it is of some kind. -/
def afterPoint (kind : TokenKind) : Recorded (Option Token) := do
  let point ← next
  if point.is .punctuation "." then
    let token ← next
    if token.kind = kind then pure (some token)
    else
      backup
      backup
      pure none
  else
    backup
    pure none

def commaSeparated (n : Nat) (item : Recorded α) : Recorded (List α) :=
  iterate .commas (fun items => do
    let items := (← item) :: items
    if ← accept .punctuation "," then pure (.more items) else pure (.done items.reverse)) n []

def listTurn (close : TokenKind) (item : Recorded α) (items : List α) :
    Recorded (Parse.Turn (List α) (List α)) := do
  if (← peek).kind = close then
    let _ ← nextSolid
    pure (.done items.reverse)
  else
    let items := (← item) :: items
    let token ← nextSolid
    if token.kind = close then pure (.done items.reverse)
    else if token.is .punctuation "," then pure (.more items)
    else unexpected token ("\",\" or " ++ close.describe)

def listUntil (n : Nat) (close : TokenKind) (item : Recorded α) : Recorded (List α) :=
  iterate .items (listTurn close item) n []

/-! ## §3. Expressions -/

open Stencil.Expr (Tightness)

def readNumber (pos : Position) (text : String) : Recorded Expr :=
  match Number.readWhole? text.toList with
  | some value => pure (.number pos value)
  | none => fail pos (.plain (Expr.unreadable text))

def parseNumber (pos : Position) (whole : String) : Recorded Expr := call .number do
  match ← afterPoint .number with
  | some fraction => readNumber pos (whole ++ "." ++ fraction.value)
  | none => readNumber pos whole

section Expressions

variable (n : Nat) (rec : Tightness → Recorded Expr)

def parseSegment (pos : Position) (segments : List Expr) :
    Recorded (Parse.Turn (List Expr) (List Expr)) := do
  let token ← next
  match token.kind with
  | .stringText =>
    let start := if segments.isEmpty then pos else token.position
    pure (.more (.string start (.ofList (Expr.unescape token.value.toList)) :: segments))
  | .interpolateOpen =>
    let segment ← rec .any
    let _ ← expect [.interpolateClose]
    pure (.more (segment :: segments))
  | .stringClose => pure (.done segments.reverse)
  | _ => unexpected token "end of string"

def parseString (pos : Position) : Recorded Expr := call .string do
  let segments ← iterate .segments (parseSegment rec pos) n []
  pure (Expr.joinSegments pos segments)

def parseArgs? : Recorded (Option (List Expr)) := call .arguments do
  if ← accept .parensOpen "(" then pure (some (← listUntil n .parensClose (rec .any)))
  else pure none

def parseWord (pos : Position) (word : String) : Recorded Expr := call .word do
  match word.toLower with
  | "true" => pure (.bool pos true)
  | "false" => pure (.bool pos false)
  | "null" | "none" => pure (.null pos)
  | _ =>
    match ← parseArgs? n rec with
    | some args => pure (.call pos word args)
    | none => pure (.name pos word)

def parseEnclosed (token : Token) : Recorded Expr := do
  match token.kind with
  | .stringOpen => parseString n rec token.position
  | .parensOpen =>
    let inner ← rec .any
    let _ ← expect [.parensClose]
    pure (.group token.position inner)
  | _ => unexpected token Expr.expectedExpr

def parseEntry : Recorded (Entry Expr) := call .entry do
  let token ← nextSolid
  let key ←
    match token.kind with
    | .name => pure (.string token.position token.value)
    | .number => parseNumber token.position token.value
    | .stringOpen | .parensOpen => parseEnclosed n rec token
    | _ => unexpected token "a hash key"
  let _ ← expectValue .punctuation ":"
  pure ⟨token.position, key, ← rec .any⟩

def parsePrimary : Recorded Expr := call .primary do
  let token ← nextSolid
  match token.kind with
  | .name => parseWord n rec token.position token.value
  | .number => parseNumber token.position token.value
  | .arrayOpen => pure (.array token.position (← listUntil n .arrayClose (rec .any)))
  | .hashOpen => pure (.hash token.position (← listUntil n .hashClose (parseEntry n rec)))
  | _ => parseEnclosed n rec token

def parseAttribute (pos : Position) (object : Expr) : Recorded Expr := call .property do
  let key ← expect [.name, .number]
  match ← parseArgs? n rec with
  | some args => pure (.method pos object (.string key.position key.value) args)
  | none => pure (.attribute pos object (.string key.position key.value))

def parseLink (subject : Expr) : Recorded (Parse.Turn Expr Expr) := do
  let token ← peek
  if token.is .punctuation "." then
    let _ ← nextSolid
    pure (.more (← parseAttribute n rec token.position subject))
  else if token.kind = .arrayOpen then
    let _ ← nextSolid
    let key ← rec .any
    let _ ← expect [.arrayClose]
    pure (.more (.attribute token.position subject key))
  else if token.is .punctuation "|" then
    let _ ← nextSolid
    let filter ← expect [.name]
    let args ← parseArgs? n rec
    pure (.more (.filter filter.position filter.value (subject :: args.getD [])))
  else pure (.done subject)

def parsePostfix (subject : Expr) : Recorded Expr :=
  iterate .links (parseLink n rec) n subject

def parseOperand : Recorded Expr := call .operand do
  let token ← peek
  match if token.kind = .operator then UnaryOp.ofSpelling? token.value else none with
  | some op =>
    let _ ← nextSolid
    pure (.unary token.position op (← rec (.atLeast op.precedence)))
  | none => parsePostfix n rec (← parsePrimary n rec)

def parseTest (pos : Position) (negated : Bool) (subject : Expr) : Recorded Expr := call .test do
  let first ← nextSolid
  if first.kind ≠ .name then
    fail first.position (.malformedTest ("expected a test name, found " ++ first.display))
  let second ← peek
  let name ←
    if second.kind = .name then do
      let _ ← nextSolid
      pure (first.value ++ " " ++ second.value)
    else pure first.value
  let args ← parseArgs? n rec
  let test := .test pos name subject (args.getD [])
  pure (if negated then .unary pos .not test else test)

def climb (minimum : Nat) (left : Expr) : Recorded (Parse.Turn Expr Expr) := do
  let token ← peek
  if token.kind ≠ .operator then pure (.done left)
  else if token.value == "is" || token.value == "is not" then
    if testPrecedence < minimum then pure (.done left)
    else
      let _ ← nextSolid
      pure (.more (← parseTest n rec token.position (token.value == "is not") left))
  else
    match BinaryOp.ofSpelling? token.value with
    | none => pure (.done left)
    | some op =>
      if op.precedence < minimum then pure (.done left)
      else
        let _ ← nextSolid
        let right ← rec (.atLeast op.rightMinimum)
        pure (.more (.binary token.position op left right))

def parseConditional (cond : Expr) : Recorded Expr := call .conditional do
  if ← accept .punctuation "?" then
    let whenTrue ← rec .any
    let whenFalse ←
      if ← accept .punctuation ":" then rec .any else pure (.null whenTrue.pos)
    pure (.conditional cond.pos cond whenTrue whenFalse)
  else pure cond

end Expressions

def parseExpr : Nat → Tightness → Recorded Expr
  | 0, _ => exhausted
  | n + 1, .any => call .expression do parseConditional (parseExpr n) (← parseExpr n (.atLeast 0))
  | n + 1, .atLeast minimum => call .operators do
    let left ← parseOperand n (parseExpr n)
    iterate .climb (climb n (parseExpr n) minimum) n left

/-! ## §4. Statements -/

open Stmt (Opening Body nestBranches)

/-- The recorded parsers that the rules for statements build on. -/
structure Rules where
  turns : Nat
  expr : Recorded Expr
  body : List String → Option Opening → Recorded Body

/-- The parsers that are recorded. -/
def Rules.parsers (rules : Rules) : Stmt.Rules :=
  ⟨rules.turns, rules.expr.parser, fun stops opening => (rules.body stops opening).parser⟩

def parseDottedName (n : Nat) : Recorded String := call .dottedName do
  iterate .dots (fun dotted => do
    match ← afterPoint .name with
    | some part => pure (.more (dotted ++ "." ++ part.value))
    | none => pure (.done dotted)) n (← name)

def parseNamedEnd (n : Nat) (opened : String) : Recorded Unit := call .namedEnd do
  let token ← peek
  if token.kind = .name then
    let found ← parseDottedName n
    if found ≠ opened then
      fail token.position (.plain s!"end tag names \"{found}\" but \"{opened}\" is open")
  endTag

def parseAlias? (keyword : String) : Recorded (Option String) := call .newName do
  if ← accept .name keyword then pure (some (← name)) else pure none

section Tags

variable (rules : Rules) (pos : Position)

def Rules.bodyOf (tag : String) (start : Position) (stops : List String) : Recorded Body :=
  rules.body stops (some ⟨tag, start⟩)

def parseIf : Recorded (List Stmt) :=
  iterate .branches (fun branches => do
    let cond ← rules.expr
    endTag
    let body ← rules.bodyOf "if" pos ["elseif", "else", "endif"]
    let branches := (cond, body.statements) :: branches
    match body.ended with
    | some "elseif" => pure (.more branches)
    | some "else" =>
      if ← accept .name "if" then pure (.more branches)
      else
        endTag
        let orElse ← rules.bodyOf "if" pos ["endif"]
        endTag
        pure (.done (nestBranches pos branches orElse.statements))
    | _ =>
      endTag
      pure (.done (nestBranches pos branches []))) rules.turns []

def parseFor : Recorded Stmt := do
  let first ← name
  let (key, value) ←
    if ← accept .punctuation "," then pure (some first, ← name) else pure (none, first)
  let _ ← expectValue .operator "in"
  let iterable ← rules.expr
  let cond ← if ← accept .name "if" then some <$> rules.expr else pure none
  endTag
  let body ← rules.bodyOf "for" pos ["else", "endfor"]
  endTag
  let orElse ←
    if body.ended = some "else" then do
      let orElse ← rules.bodyOf "for" pos ["endfor"]
      endTag
      pure orElse.statements
    else pure []
  let statements :=
    match cond with
    | some cond => [.branch pos cond body.statements []]
    | none => body.statements
  pure (.loop pos key value iterable statements orElse)

def parseBlock : Recorded Stmt := do
  let name ← parseDottedName rules.turns
  let statements ←
    if (← peek).kind = .tagClose then do
      endTag
      let body ← rules.bodyOf "block" pos ["endblock"]
      parseNamedEnd rules.turns name
      pure body.statements
    else do
      let expr ← rules.expr
      endTag
      pure [.print pos expr]
  pure (.block pos (← still (Parse.addBlock ⟨name, pos, statements⟩) (Parse.still_addBlock _)))

def parseParams : Recorded (List Param) :=
  iterate .params (fun params => do
    let token ← nextSolid
    match token.kind with
    | .parensClose => pure (.done params.reverse)
    | .name =>
      let fallback ← if ← accept .punctuation "=" then some <$> rules.expr else pure none
      let params := ⟨token.value, fallback⟩ :: params
      if ← accept .punctuation "," then pure (.more params)
      else
        let _ ← expect [.parensClose]
        pure (.done params.reverse)
    | _ => unexpected token "a parameter name or \")\"") rules.turns []

def parseMacro : Recorded Stmt := do
  let name ← name
  let _ ← expect [.parensOpen]
  let params ← parseParams rules
  endTag
  let body ← rules.bodyOf "macro" pos ["endmacro"]
  parseNamedEnd rules.turns name
  let id ← still (Parse.addMacro ⟨name, pos, params, body.statements⟩) (Parse.still_addMacro _)
  pure (.defines pos id)

def parseExtends : Recorded Unit := do
  if (← state).parent.isSome then fail pos .duplicateExtends
  let template ← rules.expr
  endTag
  setParent ⟨pos, template⟩

def parseUse : Recorded Stmt := do
  let template ← rules.expr
  let aliases ←
    if ← accept .name "with" then
      commaSeparated rules.turns do
        let own ← name
        let _ ← expectValue .name "as"
        pure (own, ← name)
    else pure []
  endTag
  pure (.reuses ⟨pos, template, aliases⟩)

def parseInclusion : Recorded Inclusion := call .inclusion do
  let template ← rules.expr
  let ignoreMissing ←
    if ← accept .name "ignore" then do
      let _ ← expectValue .name "missing"
      pure true
    else pure false
  let bindings ← if ← accept .name "with" then some <$> rules.expr else pure none
  let only ← accept .name "only"
  pure ⟨pos, template, bindings, only, ignoreMissing⟩

def parseEmbed : Recorded Stmt := do
  let inclusion ← parseInclusion rules pos
  endTag
  still Parse.openTable Parse.still_openTable
  let _ ← rules.bodyOf "embed" pos ["endembed"]
  let blocks ← still Parse.closeTable Parse.still_closeTable
  endTag
  pure (.embeds inclusion blocks)

def parseImport : Recorded Stmt := do
  let template ← rules.expr
  let _ ← expectValue .name "as"
  let newName ← name
  endTag
  pure (.importAll pos template newName)

def parseFrom : Recorded Stmt := do
  let template ← rules.expr
  let _ ← expectValue .name "import"
  let names ← commaSeparated rules.turns do
    let own ← name
    pure (own, (← parseAlias? "as").getD own)
  endTag
  pure (.importSome pos template names)

def parseSet : Recorded Stmt := do
  let targets ← commaSeparated rules.turns name
  if ← accept .punctuation "=" then
    let values ← commaSeparated rules.turns rules.expr
    endTag
    if values.length ≠ targets.length then
      fail pos (.plain s!"set assigns {values.length} values to {targets.length} names")
    pure (.assign pos targets values)
  else
    match targets with
    | [target] =>
      endTag
      let body ← rules.bodyOf "set" pos ["endset"]
      endTag
      pure (.capture pos target body.statements)
    | _ => fail pos (.plain "a capturing set takes exactly one name")

def parseFilterCalls : Recorded (List FilterCall) :=
  iterate .filterCalls (fun filters => do
    let filter ← expect [.name]
    let args ←
      if ← accept .parensOpen "(" then listUntil rules.turns .parensClose rules.expr else pure []
    let filters := ⟨filter.position, filter.value, args⟩ :: filters
    if ← accept .punctuation "|" then pure (.more filters) else pure (.done filters.reverse))
    rules.turns []

def parseFiltered : Recorded Stmt := do
  let filters ← parseFilterCalls rules
  endTag
  let body ← rules.bodyOf "filter" pos ["endfilter"]
  endTag
  pure (.filtered pos filters body.statements)

def parseTag (tag : String) : Recorded (List Stmt) := call (.construct tag) do
  match tag with
  | "if" => parseIf rules pos
  | "for" => pure [← parseFor rules pos]
  | "block" => pure [← parseBlock rules pos]
  | "extends" =>
    parseExtends rules pos
    pure []
  | "use" => pure [← parseUse rules pos]
  | "include" =>
    let inclusion ← parseInclusion rules pos
    endTag
    pure [.includes inclusion]
  | "embed" => pure [← parseEmbed rules pos]
  | "set" => pure [← parseSet rules pos]
  | "do" =>
    let expr ← rules.expr
    endTag
    pure [.perform pos expr]
  | "filter" => pure [← parseFiltered rules pos]
  | "macro" => pure [← parseMacro rules pos]
  | "import" => pure [← parseImport rules pos]
  | "from" => pure [← parseFrom rules pos]
  | _ => fail pos (.unknownTag tag)

end Tags

def parsePiece (rules : Rules) (stops : List String) (opening : Option Opening)
    (before : List Stmt) : Recorded (Parse.Turn (List Stmt) Body) := do
  let token ← next
  match token.kind with
  | .eof =>
    match opening with
    | some ⟨tag, start⟩ => fail token.position (.unclosedTag tag start)
    | none => pure (.done ⟨before.reverse, none⟩)
  | .text => pure (.more (.text token.position token.value :: before))
  | .printOpen =>
    let expr ← rules.expr
    let _ ← expect [.printClose]
    pure (.more (.print token.position expr :: before))
  | .tagOpen =>
    let tag ← name
    if stops.contains tag then pure (.done ⟨before.reverse, some tag⟩)
    else pure (.more ((← parseTag rules token.position tag) ++ before))
  | _ => unexpected token "text, \"\x7b\x7b\" or \"\x7b%\""

def parseBody : Nat → List String → Option Opening → Recorded Body
  | 0, _, _ => exhausted
  | n + 1, stops, opening => call .body do
    iterate .pieces (parsePiece ⟨n, parseExpr n .any, parseBody n⟩ stops opening) n []

/-! ## §5. Without the record -/

section Parsers

variable (x y : Recorded α) (f : α → Recorded β)

@[simp] theorem parser_pure (a : α) : (pure a : Recorded α).parser = pure a := rfl

@[simp] theorem parser_bind : (x >>= f).parser = x.parser >>= fun a => (f a).parser := rfl

@[simp] theorem parser_map (g : α → β) : (g <$> x).parser = g <$> x.parser := rfl

@[simp] theorem parser_ite (p : Prop) [Decidable p] :
    (if p then x else y).parser = if p then x.parser else y.parser :=
  apply_ite parser p x y

@[simp] theorem parser_exhausted : (exhausted : Recorded α).parser = throw .exhausted := rfl

@[simp] theorem parser_still (x : Parse α) (h : Parse.Still x) : (still x h).parser = x := rfl

@[simp] theorem parser_state : state.parser = get := rfl

@[simp] theorem parser_setParent (parent : Extends) : (setParent parent).parser =
    modify fun s => { s with parent := some parent } := rfl

@[simp] theorem parser_fail (position : Position) (kind : ParseErrorKind) :
    (fail position kind : Recorded α).parser = Parse.fail position kind := rfl

@[simp] theorem parser_unexpected (token : Token) (expected : String) :
    (unexpected token expected : Recorded α).parser = Parse.unexpected token expected := rfl

@[simp] theorem parser_call (rule : Rule) : (call rule x).parser = x.parser := rfl

@[simp] theorem parser_iterate (rule : Rule) (turn : α → Recorded (Parse.Turn α β)) (n : Nat)
    (a : α) : (iterate rule turn n a).parser = Parse.iterate (fun a => (turn a).parser) n a := by
  induction n generalizing a with
  | zero => rfl
  | succ n ih =>
    rw [iterate, parser_call, parser_bind, Parse.iterate]
    refine bind_congr fun r => ?_
    cases r with
    | more a => exact ih a
    | done b => rfl

@[simp] theorem parser_next : next.parser = Parse.next := rfl

@[simp] theorem parser_nextSolid : nextSolid.parser = Parse.nextSolid := rfl

@[simp] theorem parser_backup : backup.parser = Parse.backup := rfl

@[simp] theorem parser_peek : peek.parser = Parse.peek := rfl

@[simp] theorem parser_expect (kinds : List TokenKind) :
    (expect kinds).parser = Parse.expect kinds := by
  simp [expect, Parse.expect]

@[simp] theorem parser_expectValue (kind : TokenKind) (value : String) :
    (expectValue kind value).parser = Parse.expectValue kind value := by
  simp [expectValue, Parse.expectValue]

@[simp] theorem parser_accept (kind : TokenKind) (value : String) :
    (accept kind value).parser = Parse.accept kind value := by
  simp [accept, Parse.accept]

@[simp] theorem parser_name : name.parser = Parse.name := by
  simp [name, Parse.name]

@[simp] theorem parser_endTag : endTag.parser = Parse.endTag := by
  simp [endTag, Parse.endTag]

/-- What goes on behind a point or without one. -/
theorem parser_afterPoint_bind (kind : TokenKind) (f : Option Token → Recorded α) :
    (afterPoint kind >>= f).parser = (do
      let point ← Parse.next
      if point.is .punctuation "." then
        let token ← Parse.next
        if token.kind = kind then (f (some token)).parser
        else
          Parse.backup
          Parse.backup
          (f none).parser
      else
        Parse.backup
        (f none).parser) := by
  simp only [afterPoint, parser_bind, bind_assoc]
  refine bind_congr fun point => ?_
  split
  · simp only [parser_bind, bind_assoc]
    refine bind_congr fun token => ?_
    split <;> simp
  · simp

@[simp] theorem parser_commaSeparated (n : Nat) (item : Recorded α) :
    (commaSeparated n item).parser = Parse.commaSeparated n item.parser := by
  simp [commaSeparated, Parse.commaSeparated]

@[simp] theorem parser_listUntil (n : Nat) (close : TokenKind) (item : Recorded α) :
    (listUntil n close item).parser = Parse.listUntil n close item.parser := by
  have hturn : ∀ items, (listTurn close item items).parser =
      Parse.listTurn close item.parser items := by
    intro items
    simp [listTurn, Parse.listTurn]
  simp [listUntil, Parse.listUntil, hturn]

end Parsers

@[simp] theorem parser_readNumber (pos : Position) (text : String) :
    (readNumber pos text).parser = Expr.readNumber pos text := by
  unfold readNumber Expr.readNumber
  cases Number.readWhole? text.toList <;> simp

@[simp] theorem parser_parseNumber (pos : Position) (whole : String) :
    (parseNumber pos whole).parser = Expr.parseNumber pos whole := by
  simp only [parseNumber, parser_call, parser_afterPoint_bind, parser_readNumber]
  rfl

section Expressions

variable (n : Nat) (rec : Tightness → Recorded Expr)

@[simp] theorem parser_parseSegment (pos : Position) (segments : List Expr) :
    (parseSegment rec pos segments).parser =
      Expr.parseSegment (fun t => (rec t).parser) pos segments := by
  rw [parseSegment, parser_bind]
  refine bind_congr fun token => ?_
  cases token.kind <;> simp

@[simp] theorem parser_parseString (pos : Position) :
    (parseString n rec pos).parser = Expr.parseString n (fun t => (rec t).parser) pos := by
  simp [parseString, Expr.parseString]

@[simp] theorem parser_parseArgs? :
    (parseArgs? n rec).parser = Expr.parseArgs? n fun t => (rec t).parser := by
  simp [parseArgs?, Expr.parseArgs?, Expr.parseArgs]

@[simp] theorem parser_parseWord (pos : Position) (word : String) :
    (parseWord n rec pos word).parser =
      Expr.parseWord n (fun t => (rec t).parser) pos word := by
  rw [parseWord, Expr.parseWord, parser_call]
  split
  · simp [*]
  · simp [*]
  · simp [*]
  · simp [*]
  · simp only [parser_bind, parser_parseArgs?, *]
    refine bind_congr fun args => ?_
    cases args <;> rfl

@[simp] theorem parser_parseEnclosed (token : Token) :
    (parseEnclosed n rec token).parser =
      Expr.parseEnclosed n (fun t => (rec t).parser) token := by
  unfold parseEnclosed Expr.parseEnclosed
  cases token.kind <;> simp

@[simp] theorem parser_parseEntry :
    (parseEntry n rec).parser = Expr.parseEntry n fun t => (rec t).parser := by
  rw [parseEntry, Expr.parseEntry, parser_call, parser_bind]
  refine bind_congr fun token => ?_
  cases token.kind <;> simp

@[simp] theorem parser_parsePrimary :
    (parsePrimary n rec).parser = Expr.parsePrimary n fun t => (rec t).parser := by
  rw [parsePrimary, Expr.parsePrimary, parser_call, parser_bind]
  refine bind_congr fun token => ?_
  cases token.kind <;> simp

@[simp] theorem parser_parseAttribute (pos : Position) (object : Expr) :
    (parseAttribute n rec pos object).parser =
      Expr.parseAttribute n (fun t => (rec t).parser) pos object := by
  rw [parseAttribute, Expr.parseAttribute, parser_call, parser_bind, parser_expect]
  refine bind_congr fun key => ?_
  rw [parser_bind, parser_parseArgs?]
  refine bind_congr fun args => ?_
  cases args <;> rfl

@[simp] theorem parser_parsePostfix (subject : Expr) :
    (parsePostfix n rec subject).parser =
      Expr.parsePostfix n (fun t => (rec t).parser) subject := by
  have hlink : ∀ subject, (parseLink n rec subject).parser =
      Expr.parseLink n (fun t => (rec t).parser) subject := by
    intro subject
    simp [parseLink, Expr.parseLink]
  simp [parsePostfix, Expr.parsePostfix, hlink]

@[simp] theorem parser_parseOperand :
    (parseOperand n rec).parser = Expr.parseOperand n fun t => (rec t).parser := by
  rw [parseOperand, Expr.parseOperand, parser_call, parser_bind]
  refine bind_congr fun token => ?_
  cases (if token.kind = .operator then UnaryOp.ofSpelling? token.value else none) <;> simp

@[simp] theorem parser_parseTest (pos : Position) (negated : Bool) (subject : Expr) :
    (parseTest n rec pos negated subject).parser =
      Expr.parseTest n (fun t => (rec t).parser) pos negated subject := by
  simp [parseTest, Expr.parseTest]

@[simp] theorem parser_climb (minimum : Nat) (left : Expr) :
    (climb n rec minimum left).parser =
      Expr.climb n (fun t => (rec t).parser) minimum left := by
  rw [climb, Expr.climb, parser_bind]
  refine bind_congr fun token => ?_
  cases BinaryOp.ofSpelling? token.value <;> simp

@[simp] theorem parser_parseConditional (cond : Expr) :
    (parseConditional rec cond).parser =
      Expr.parseConditional (fun t => (rec t).parser) cond := by
  simp [parseConditional, Expr.parseConditional]

end Expressions

@[simp] theorem parser_parseExpr (n : Nat) (tightness : Tightness) :
    (parseExpr n tightness).parser = Expr.parse n tightness := by
  induction n generalizing tightness with
  | zero => rfl
  | succ n ih => cases tightness <;> simp [parseExpr, Expr.parse, ih]

/-! ### Statements -/

@[simp] theorem parser_parseDottedName (n : Nat) :
    (parseDottedName n).parser = Stmt.parseDottedName n := by
  rw [parseDottedName, parser_call, parser_bind, parser_name]
  simp only [parser_iterate, parser_afterPoint_bind]
  rfl

@[simp] theorem parser_parseNamedEnd (n : Nat) (opened : String) :
    (parseNamedEnd n opened).parser = Stmt.parseNamedEnd n opened := by
  simp [parseNamedEnd, Stmt.parseNamedEnd]

@[simp] theorem parser_parseAlias? (keyword : String) :
    (parseAlias? keyword).parser = Stmt.parseAlias? keyword := by
  simp [parseAlias?, Stmt.parseAlias?]

section Tags

variable (rules : Rules) (pos : Position)

@[simp] theorem turns_parsers : rules.parsers.turns = rules.turns := rfl

@[simp] theorem expr_parsers : rules.parsers.expr = rules.expr.parser := rfl

@[simp] theorem parser_bodyOf (tag : String) (start : Position) (stops : List String) :
    (rules.bodyOf tag start stops).parser = rules.parsers.bodyOf tag start stops := rfl

@[simp] theorem parser_parseIf : (parseIf rules pos).parser = Stmt.parseIf rules.parsers pos := by
  rw [parseIf, Stmt.parseIf, parser_iterate]
  congr 1
  funext branches
  simp only [parser_bind, parser_endTag, parser_bodyOf]
  refine bind_congr fun cond => bind_congr fun _ => bind_congr fun body => ?_
  split
  · next h => simp [h]
  · next h => simp [h]
  · simp

@[simp] theorem parser_parseFor :
    (parseFor rules pos).parser = Stmt.parseFor rules.parsers pos := by
  simp [parseFor, Stmt.parseFor]

@[simp] theorem parser_parseBlock :
    (parseBlock rules pos).parser = Stmt.parseBlock rules.parsers pos := by
  simp [parseBlock, Stmt.parseBlock]

@[simp] theorem parser_parseParams :
    (parseParams rules).parser = Stmt.parseParams rules.parsers := by
  rw [parseParams, Stmt.parseParams, parser_iterate]
  congr 1
  funext params
  rw [parser_bind]
  refine bind_congr fun token => ?_
  cases token.kind <;> simp

@[simp] theorem parser_parseMacro :
    (parseMacro rules pos).parser = Stmt.parseMacro rules.parsers pos := by
  simp [parseMacro, Stmt.parseMacro]

@[simp] theorem parser_parseExtends :
    (parseExtends rules pos).parser = Stmt.parseExtends rules.parsers pos := by
  simp [parseExtends, Stmt.parseExtends]

@[simp] theorem parser_parseUse :
    (parseUse rules pos).parser = Stmt.parseUse rules.parsers pos := by
  simp [parseUse, Stmt.parseUse]

@[simp] theorem parser_parseInclusion :
    (parseInclusion rules pos).parser = Stmt.parseInclusion rules.parsers pos := by
  simp [parseInclusion, Stmt.parseInclusion]

@[simp] theorem parser_parseEmbed :
    (parseEmbed rules pos).parser = Stmt.parseEmbed rules.parsers pos := by
  simp [parseEmbed, Stmt.parseEmbed]

@[simp] theorem parser_parseImport :
    (parseImport rules pos).parser = Stmt.parseImport rules.parsers pos := by
  simp [parseImport, Stmt.parseImport]

@[simp] theorem parser_parseFrom :
    (parseFrom rules pos).parser = Stmt.parseFrom rules.parsers pos := by
  simp [parseFrom, Stmt.parseFrom]

@[simp] theorem parser_parseSet :
    (parseSet rules pos).parser = Stmt.parseSet rules.parsers pos := by
  rw [parseSet, Stmt.parseSet, parser_bind]
  simp only [parser_commaSeparated, parser_name]
  refine bind_congr fun targets => ?_
  rcases targets with _ | ⟨target, _ | ⟨second, targets⟩⟩ <;> simp

@[simp] theorem parser_parseFilterCalls :
    (parseFilterCalls rules).parser = Stmt.parseFilterCalls rules.parsers := by
  simp [parseFilterCalls, Stmt.parseFilterCalls]

@[simp] theorem parser_parseFiltered :
    (parseFiltered rules pos).parser = Stmt.parseFiltered rules.parsers pos := by
  simp [parseFiltered, Stmt.parseFiltered]

@[simp] theorem parser_parseTag (tag : String) :
    (parseTag rules pos tag).parser = Stmt.parseTag rules.parsers tag pos := by
  unfold parseTag Stmt.parseTag
  rw [parser_call]
  split <;> simp

end Tags

@[simp] theorem parser_parsePiece (rules : Rules) (stops : List String)
    (opening : Option Opening) (before : List Stmt) :
    (parsePiece rules stops opening before).parser =
      Stmt.parsePiece rules.parsers stops opening before := by
  rw [parsePiece, Stmt.parsePiece, parser_bind]
  refine bind_congr fun token => ?_
  cases token.kind <;> cases opening <;> simp

@[simp] theorem parser_parseBody (n : Nat) (stops : List String) (opening : Option Opening) :
    (parseBody n stops opening).parser = Stmt.parseBody n stops opening := by
  induction n generalizing stops opening with
  | zero => rfl
  | succ n ih =>
    have hrules : Rules.parsers ⟨n, parseExpr n .any, parseBody n⟩ =
        ⟨n, Expr.parse n .any, Stmt.parseBody n⟩ := by
      simp [Rules.parsers, ih]
    simp [parseBody, Stmt.parseBody, hrules]

end Recorded

/-- Parses a source as a template of the given name and keeps the record of it. -/
def Template.recorded (name source : String) : Except ParseFailure Template × List Event :=
  let tokens := lex source
  let s := Parse.startState tokens
  let body := Recorded.parseBody (parseDepth tokens.tokens.length) [] none
  (do
    let (body, s) ← body.parser.run s
    pure ⟨name, s.parent, body.statements, s.blocks, s.blockTables.headD [], s.macros,
      s.macroTable⟩,
  body.events s)

theorem Template.recorded_fst (name source : String) :
    (Template.recorded name source).1 = Template.parse name source := by
  rw [Template.recorded, Template.parse, Template.parseWithin, Recorded.parser_parseBody]

end Stencil
