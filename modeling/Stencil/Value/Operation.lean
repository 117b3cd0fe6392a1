import Stencil.Value.Equality
import Stencil.Pattern.Parser

/-!
What the binary operators compute.

Operators take their operands as numbers, truths or texts as they need.  Some of them can fail, and
each way to fail is a cause of its own.  The operators `and` and `or` are here too, for operands
that have both been evaluated; the renderer evaluates the second one only if it matters.
-/

namespace Stencil

/-- Why an operator has no result. -/
inductive OperationError
  | divisionByZero
  | moduloByZero
  /-- The step of a range is zero, infinite or undefined. -/
  | rangeStep
  | rangeTooLarge (start stop : Float)
  | invalidPattern (source : String)
deriving Repr

/-- The wording of a cause. -/
def OperationError.text : OperationError → String
  | .divisionByZero => "division by zero"
  | .moduloByZero => "modulo by zero"
  | .rangeStep => "range step must be a non-zero number"
  | .rangeTooLarge start stop =>
    s!"range from {Number.plainText start} to {Number.plainText stop} is too large"
  | .invalidPattern source => "invalid pattern " ++ source

namespace Number

/-! ## §1. Ranges -/

/-- The greatest number of steps in a range. -/
def rangeLimit : Float := 100000.0

/-- The numbers from `x` on that the test lets pass, in steps, at most `n` of them, after those in
`before`, which come from the last one. -/
def progression (passes : Float → Bool) (step : Float) : Nat → Float → List Float → List Float
  | 0, _, before => before.reverse
  | n + 1, x, before =>
    if passes x then progression passes step n (x + step) (x :: before) else before.reverse

/-- More numbers than any range within the limit has, if its step changes the numbers at all. -/
def rangeBound : Nat := 200001

/-- The numbers from one bound to the other, both included, going down if the first is greater. -/
def range (start stop step : Float) : Except OperationError (List Float) :=
  let step := step.abs
  if step == 0.0 || !step.isFinite then .error .rangeStep
  else if rangeLimit < (stop - start).abs / step then .error (.rangeTooLarge start stop)
  else if start ≤ stop then .ok (progression (· ≤ stop) step rangeBound start [])
  else .ok (progression (stop ≤ ·) (-step) rangeBound start [])

/-- An operation on 64-bit integers, to which the numbers are cut off; numbers out of range become
the nearest bound. -/
def bitwise (f : Int64 → Int64 → Int64) (x y : Float) : Float :=
  (f x.toInt64 y.toInt64).toFloat

end Number

namespace Value

variable {ω : Type} [HostObject ω]

/-! ## §2. Operators -/

/-- A range as an array. -/
def range (start stop step : Float) : Except OperationError (Value ω) :=
  (Number.range start stop step).map fun xs => .array (xs.map .number)

/-- A quotient, if the divisor is not zero. -/
def divide (onZero : OperationError) (f : Float → Float → Float) (a b : Value ω) :
    Except OperationError (Value ω) :=
  if b.toNumber == 0.0 then .error onZero else .ok (.number (f a.toNumber b.toNumber))

/-- Whether a text holds a match of a pattern. -/
def matches? (a b : Value ω) : Except OperationError (Value ω) :=
  match Pattern.parseDelimited? b.output with
  | none => .error (.invalidPattern b.output)
  | some p => .ok (.bool (p.occursIn a.output.toList))

/-- The result of a binary operator. -/
def binary (op : BinaryOp) (a b : Value ω) : Except OperationError (Value ω) :=
  match op with
  | .or => .ok (.bool (a.truthy || b.truthy))
  | .and => .ok (.bool (a.truthy && b.truthy))
  | .bitOr => .ok (.number (Number.bitwise (· ||| ·) a.toNumber b.toNumber))
  | .bitXor => .ok (.number (Number.bitwise (· ^^^ ·) a.toNumber b.toNumber))
  | .bitAnd => .ok (.number (Number.bitwise (· &&& ·) a.toNumber b.toNumber))
  | .eq => .ok (.bool (a.looseEq b))
  | .ne => .ok (.bool (!a.looseEq b))
  | .lt => .ok (.bool (a.compare b == some .lt))
  | .gt => .ok (.bool (a.compare b == some .gt))
  | .le => .ok (.bool (a.compare b == some .lt || a.compare b == some .eq))
  | .ge => .ok (.bool (a.compare b == some .gt || a.compare b == some .eq))
  | .isIn => .ok (.bool (b.contains a))
  | .notIn => .ok (.bool (!b.contains a))
  | .matches => matches? a b
  | .startsWith => .ok (.bool (b.output.toList.isPrefixOf a.output.toList))
  | .endsWith => .ok (.bool (b.output.toList.isSuffixOf a.output.toList))
  | .range => range a.toNumber b.toNumber 1.0
  | .add => .ok (.number (a.toNumber + b.toNumber))
  | .sub => .ok (.number (a.toNumber - b.toNumber))
  | .concat => .ok (.string (a.output ++ b.output))
  | .mul => .ok (.number (a.toNumber * b.toNumber))
  | .div => divide .divisionByZero (· / ·) a b
  | .floorDiv => divide .divisionByZero (fun x y => (x / y).floor) a b
  | .mod => divide .moduloByZero Number.remainder a b
  | .pow => .ok (.number (a.toNumber ^ b.toNumber))

/-- The result of a prefix operator. -/
def unary (op : UnaryOp) (a : Value ω) : Value ω :=
  match op with
  | .not => .bool !a.truthy
  | .neg => .number (-a.toNumber)
  | .pos => .number a.toNumber

end Value

end Stencil
