import Stencil.Render.Block

/-!
Evaluating expressions.

Operands are evaluated from left to right, and only where their values are needed: `and` and `or`
may not need the second one, a conditional needs one of its choices, and an unknown filter, function
or test is reported before its arguments are evaluated.  An attribute or a variable that is not
defined is left to the policy of the environment, except under the filter `default` and inside the
test `defined`.
-/

namespace Stencil.Render

variable {ω : Type} [HostObject ω]

/-! ## §1. Attributes and methods -/

/-- The attribute of a value.  What an object hands out is met here. -/
def attributeOf (env : Environment ω) (pos : Position) (object key : Value ω) :
    Render ω (Value ω) := do
  match object.attribute? key with
  | some v =>
    match object with
    | .object .. => meet v
    | _ => pure v
  | none => undefined env pos key.output

/-- Calls a method: a macro that is an attribute of the value, or a method of an object. -/
def callMethod (inner : Option (Runner ω)) (pos : Position) (object key : Value ω)
    (args : List (Value ω)) : Render ω (Value ω) := do
  match object.attribute? key, object with
  | some (.callable m), _ => callMacro inner pos m args
  | _, .object _ host =>
    meet (← ofCall pos key.output (HostObject.call host key.output args))
  | _, _ => failAt pos (.unknownFunction key.output)

/-! ## §2. Filters, functions and tests -/

/-- Applies a filter; its arguments are evaluated once it is known. -/
def applyFilter (env : Environment ω) (pos : Position) (name : String) (subject : Value ω)
    (args : Render ω (List (Value ω))) : Render ω (Value ω) := do
  match env.filters.find? name with
  | none => failAt pos (.unknownFilter name)
  | some filter =>
    let args ← args
    let state := env.callState (← frame).template.name
    meet (← ofCall pos name (filter state subject args))

/-- Calls a function by its name: a block function, a macro or a function of the catalog. -/
def callFunction (env : Environment ω) (inner : Option (Runner ω)) (pos : Position)
    (name : String) (first : Render ω (Option (Value ω))) (args : Render ω (List (Value ω))) :
    Render ω (Value ω) := do
  if name = "parent" then parentBlock inner pos
  else if name = "block" then namedBlock inner pos (((← first).map Value.output).getD "")
  else
    match macroNamed? (← frame) name with
    | some m => callMacro inner pos m (← args)
    | none =>
      match env.functions.find? name with
      | none => failAt pos (.unknownFunction name)
      | some function =>
        let args ← args
        let state := env.callState (← frame).template.name
        meet (← ofCall pos name (function state args))

/-- Applies a test; its operands are evaluated once it is known. -/
def applyTest (env : Environment ω) (pos : Position) (name : String)
    (subject : Render ω (Value ω)) (args : Render ω (List (Value ω))) : Render ω (Value ω) := do
  match env.tests.find? name with
  | none => failAt pos (.unknownTest name)
  | some test =>
    let subject ← subject
    let args ← args
    let state := env.callState (← frame).template.name
    pure (.bool (← ofCall pos name (test state subject args)))

/-! ## §3. Operators -/

/-- A binary operator; `and` and `or` stop at the first operand that decides them. -/
def applyBinary (pos : Position) (op : BinaryOp) (left right : Render ω (Value ω)) :
    Render ω (Value ω) := do
  let a ← left
  match op, a.truthy with
  | .and, false => pure (.bool false)
  | .or, true => pure (.bool true)
  | _, _ =>
    match Value.binary op a (← right) with
    | .ok v => pure v
    | .error e => failAt pos (.unsupported (.operation e))

/-! ## §4. Expressions -/

mutual

/-- The value of an expression; `inner` is what code one level deeper is run with. -/
def eval (env : Environment ω) (inner : Option (Runner ω)) : Expr → Render ω (Value ω)
  | .name pos name => lookup env pos name
  | .null _ => pure .null
  | .bool _ b => pure (.bool b)
  | .number _ x => pure (.number x)
  | .string _ s => pure (.string s)
  | .call pos name args =>
    callFunction env inner pos name (evalFirst env inner args) (evalAll env inner args)
  | .filter pos name args =>
    match args with
    | [] => failAt pos (.unsupported (.filterSubject name))
    | subject :: args => do
      let v ←
        if name = "default" then leniently (eval env inner subject) else eval env inner subject
      applyFilter env pos name v (evalAll env inner args)
  | .test pos name subject args =>
    if name = "defined" then do pure (.bool (← isDefined env inner subject))
    else applyTest env pos name (eval env inner subject) (evalAll env inner args)
  | .binary pos op left right => applyBinary pos op (eval env inner left) (eval env inner right)
  | .unary _ op operand => do pure ((← eval env inner operand).unary op)
  | .group _ e => eval env inner e
  | .attribute pos object key => do
    let object ← eval env inner object
    let key ← eval env inner key
    attributeOf env pos object key
  | .method pos object key args => do
    let object ← eval env inner object
    let key ← eval env inner key
    let args ← evalAll env inner args
    callMethod inner pos object key args
  | .conditional _ cond whenTrue whenFalse => do
    if (← eval env inner cond).truthy then eval env inner whenTrue else eval env inner whenFalse
  | .hash _ entries => do pure (.map (← evalEntries env inner entries []))
  | .array _ items => do pure (.array (← evalAll env inner items))

/-- The values of a list of expressions. -/
def evalAll (env : Environment ω) (inner : Option (Runner ω)) :
    List Expr → Render ω (List (Value ω))
  | [] => pure []
  | e :: es => do
    let v ← eval env inner e
    let vs ← evalAll env inner es
    pure (v :: vs)

/-- The value of the first of a list of expressions. -/
def evalFirst (env : Environment ω) (inner : Option (Runner ω)) :
    List Expr → Render ω (Option (Value ω))
  | [] => pure none
  | e :: _ => do pure (some (← eval env inner e))

/-- The map of a list of entries, over those evaluated before. -/
def evalEntries (env : Environment ω) (inner : Option (Runner ω)) :
    List (Entry Expr) → Table (Value ω) → Render ω (Table (Value ω))
  | [], table => pure table
  | ⟨_, key, value⟩ :: entries, table => do
    let key ← eval env inner key
    let value ← eval env inner value
    evalEntries env inner entries (table.insert key.output value)

/-- Whether an expression is defined: a name that means something, an attribute that is there, or
anything that is neither a name nor an attribute. -/
def isDefined (env : Environment ω) (inner : Option (Runner ω)) : Expr → Render ω Bool
  | .name _ name => do pure (find? env (← frame) name).isSome
  | .attribute _ object key => do
    let object ← leniently (eval env inner object)
    let key ← eval env inner key
    pure (object.attribute? key).isSome
  | .group _ e => isDefined env inner e
  | _ => pure true

end

end Stencil.Render
