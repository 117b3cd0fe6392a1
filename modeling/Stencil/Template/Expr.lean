import Stencil.Position
import Stencil.Template.Operator

/-!
Expressions.

Every node knows its place: that of its first token, of its operator where it is built by one, and
of the name where it is a filter.  A literal string with interpolations is no node of its own but a
chain of concatenations.
-/

namespace Stencil

/-- A key and its value in a hash literal. -/
structure Entry (ε : Type) where
  position : Position
  key : ε
  value : ε
deriving DecidableEq, Repr

/-- An expression. -/
inductive Expr
  | name (pos : Position) (name : String)
  | null (pos : Position)
  | bool (pos : Position) (value : Bool)
  | number (pos : Position) (value : Float)
  | string (pos : Position) (text : String)
  /-- A call of a function by its name. -/
  | call (pos : Position) (name : String) (args : List Expr)
  /-- A filter by its name; the first argument is what it is applied to. -/
  | filter (pos : Position) (name : String) (args : List Expr)
  | test (pos : Position) (name : String) (subject : Expr) (args : List Expr)
  | binary (pos : Position) (op : BinaryOp) (left right : Expr)
  | unary (pos : Position) (op : UnaryOp) (operand : Expr)
  /-- An expression in parentheses. -/
  | group (pos : Position) (inner : Expr)
  | attribute (pos : Position) (object key : Expr)
  | method (pos : Position) (object key : Expr) (args : List Expr)
  | conditional (pos : Position) (cond whenTrue whenFalse : Expr)
  | hash (pos : Position) (entries : List (Entry Expr))
  | array (pos : Position) (items : List Expr)
deriving Repr

namespace Expr

instance : Inhabited Expr := ⟨.null default⟩

/-- The place of an expression. -/
def pos : Expr → Position
  | .name pos .. | .null pos | .bool pos _ | .number pos _ | .string pos _ | .call pos ..
  | .filter pos .. | .test pos .. | .binary pos .. | .unary pos .. | .group pos _
  | .attribute pos .. | .method pos .. | .conditional pos .. | .hash pos _ | .array pos _ => pos

end Expr

/-- The sum of a measure over a list. -/
def total {α : Type} (measure : α → Nat) (items : List α) : Nat :=
  items.foldr (fun item n => measure item + n) 0

mutual

/-- The number of nodes of an expression. -/
def Expr.size : Expr → Nat
  | .name .. | .null _ | .bool .. | .number .. | .string .. => 1
  | .call _ _ args | .filter _ _ args | .array _ args => 1 + Expr.sizes args
  | .test _ _ subject args => 1 + subject.size + Expr.sizes args
  | .binary _ _ left right => 1 + left.size + right.size
  | .unary _ _ operand | .group _ operand => 1 + operand.size
  | .attribute _ object key => 1 + object.size + key.size
  | .method _ object key args => 1 + object.size + key.size + Expr.sizes args
  | .conditional _ cond whenTrue whenFalse => 1 + cond.size + whenTrue.size + whenFalse.size
  | .hash _ entries => 1 + Expr.entrySizes entries

/-- The number of nodes of a list of expressions. -/
def Expr.sizes : List Expr → Nat
  | [] => 0
  | e :: es => e.size + Expr.sizes es

/-- The number of nodes of the entries of a hash. -/
def Expr.entrySizes : List (Entry Expr) → Nat
  | [] => 0
  | ⟨_, key, value⟩ :: entries => key.size + value.size + Expr.entrySizes entries

end

end Stencil
