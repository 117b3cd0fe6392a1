import Stencil.Escape
import Stencil.Text.Casing
import Stencil.Value.Operation

/-!
Filters, functions and tests.

They are what templates can call by name, and an environment holds a catalog of each.  A filter
takes a value and arguments, a function arguments alone, and a test answers with a truth.  Each of
them may fail with a message.  This module has their types and the ones that are always there.
-/

namespace Stencil

/-- What a variable or attribute is that nobody defined. -/
inductive UndefinedPolicy
  /-- It is null. -/
  | lenient
  /-- Using it is an error. -/
  | strict
deriving DecidableEq, Repr

/-- What callbacks may know about the render: the template whose code runs, and what the environment
does about undefined variables. -/
structure CallState where
  template : String
  undefined : UndefinedPolicy

/-- A filter: the state of the render, the value and the arguments. -/
abbrev Filter (ω : Type) := CallState → Value ω → List (Value ω) → Except String (Value ω)

/-- A function: the state of the render and the arguments. -/
abbrev Function (ω : Type) := CallState → List (Value ω) → Except String (Value ω)

/-- A test: the state of the render, the value and the arguments. -/
abbrev Test (ω : Type) := CallState → Value ω → List (Value ω) → Except String Bool

namespace Catalog

variable {ω : Type} [HostObject ω]

/-! ## §1. Filters -/

/-- Escapes for the kind of output in the first argument, by default for HTML. -/
def escape : Filter ω := fun _ v args =>
  .ok (Escape.value v ((args.head?.map Value.output).getD "html"))

/-- Marks the printed form as safe for all kinds of output. -/
def raw : Filter ω := fun _ v _ => .ok (.safe ⟨v.output, .all⟩)

/-- The printed form in upper case. -/
def upper : Filter ω := fun _ v _ => .ok (.string (Text.upper v.output))

/-- The printed form in lower case. -/
def lower : Filter ω := fun _ v _ => .ok (.string (Text.lower v.output))

/-- The length of a text or collection, and of the printed form of all else. -/
def length : Filter ω := fun _ v _ => .ok (.ofNat (v.length?.getD v.output.length))

/-- The first argument in place of an empty value. -/
def fallback : Filter ω := fun _ v args =>
  .ok (if v.isEmpty then args.head?.getD (.string "") else v)

/-- Joins texts, with another separator before the last one if there are several. -/
def joinTexts (separator : String) (lastSeparator : Option String) (parts : List String) : String :=
  match lastSeparator, parts.getLast? with
  | some lastSeparator, some last =>
    match parts.dropLast with
    | [] => last
    | rest => separator.intercalate rest ++ lastSeparator ++ last
  | _, _ => separator.intercalate parts

/-- The printed forms of the items, joined by the first argument and, before the last item, by the
second one. -/
def join : Filter ω := fun _ v args =>
  .ok (.string (joinTexts ((args.head?.map Value.output).getD "") (args[1]?.map Value.output)
    (v.items.map fun item => item.2.output)))

/-- The keys of the items. -/
def keys : Filter ω := fun _ v _ => .ok (.array (v.items.map Prod.fst))

/-- The filters that are always there, by name. -/
def filters : Table (Filter ω) :=
  .ofList [("escape", escape), ("e", escape), ("raw", raw), ("upper", upper), ("lower", lower),
    ("length", length), ("default", fallback), ("join", join), ("keys", keys)]

/-! ## §2. Tests -/

/-- A number cut off to a 64-bit integer. -/
def integer (v : Value ω) : Int := v.toNumber.toInt64.toInt

/-- Whether a number is a multiple of the first argument. -/
def divisibleBy : Test ω := fun _ v args =>
  match args with
  | [] => .error "\"divisible by\" needs a divisor"
  | divisor :: _ =>
    if divisor.toNumber == 0.0 then .error "division by zero"
    else .ok (Number.remainder v.toNumber divisor.toNumber == 0.0)

/-- The tests that are always there, by name. -/
def tests : Table (Test ω) :=
  .ofList [("null", fun _ v _ => .ok v.isNull), ("none", fun _ v _ => .ok v.isNull),
    ("empty", fun _ v _ => .ok v.isEmpty), ("even", fun _ v _ => .ok (integer v % 2 == 0)),
    ("odd", fun _ v _ => .ok (integer v % 2 != 0)), ("iterable", fun _ v _ => .ok v.isIterable),
    ("divisible by", divisibleBy), ("same as", fun _ v args => .ok (args.head?.any v.same))]

/-! ## §3. Functions -/

/-- The numbers between two bounds, in steps of the third argument. -/
def range : Function ω := fun _ args =>
  match args.map Value.toNumber with
  | start :: stop :: more =>
    (Value.range start stop (more.headD 1.0)).mapError OperationError.text
  | _ => .error "range(start, end[, step]) needs two bounds"

/-- The functions that are always there, by name. -/
def functions : Table (Function ω) :=
  .ofList [("range", range)]

end Catalog

end Stencil
