/-!
Operators of expressions.

Binary operators climb by precedence: the higher, the tighter an operator binds its operands.  All
but the power associate to the left.  The prefix operators have precedences of their own on the
same scale, and so has the test `is`, which takes a name on its right side.
-/

namespace Stencil

/-- Operators between two expressions. -/
inductive BinaryOp
  | or
  | and
  | bitOr
  | bitXor
  | bitAnd
  | eq
  | ne
  | lt
  | gt
  | le
  | ge
  | isIn
  | notIn
  | matches
  | startsWith
  | endsWith
  | range
  | add
  | sub
  | concat
  | mul
  | div
  | floorDiv
  | mod
  | pow
deriving DecidableEq, Repr

/-- Which way a chain of operators of one precedence is grouped. -/
inductive Associativity
  | left
  | right
deriving DecidableEq, Repr

namespace BinaryOp

/-- All binary operators. -/
def all : List BinaryOp :=
  [.or, .and, .bitOr, .bitXor, .bitAnd, .eq, .ne, .lt, .gt, .le, .ge, .isIn, .notIn, .matches,
    .startsWith, .endsWith, .range, .add, .sub, .concat, .mul, .div, .floorDiv, .mod, .pow]

/-- How an operator is written, its words separated by single spaces. -/
def spelling : BinaryOp → String
  | .or => "or"
  | .and => "and"
  | .bitOr => "b-or"
  | .bitXor => "b-xor"
  | .bitAnd => "b-and"
  | .eq => "=="
  | .ne => "!="
  | .lt => "<"
  | .gt => ">"
  | .le => "<="
  | .ge => ">="
  | .isIn => "in"
  | .notIn => "not in"
  | .matches => "matches"
  | .startsWith => "starts with"
  | .endsWith => "ends with"
  | .range => ".."
  | .add => "+"
  | .sub => "-"
  | .concat => "~"
  | .mul => "*"
  | .div => "/"
  | .floorDiv => "//"
  | .mod => "%"
  | .pow => "**"

/-- The operator written so. -/
def ofSpelling? (text : String) : Option BinaryOp :=
  all.find? fun op => op.spelling == text

/-- How tightly an operator binds. -/
def precedence : BinaryOp → Nat
  | .or => 10
  | .and => 15
  | .bitOr => 16
  | .bitXor => 17
  | .bitAnd => 18
  | .eq | .ne | .lt | .gt | .le | .ge | .isIn | .notIn | .matches | .startsWith | .endsWith => 20
  | .range => 25
  | .add | .sub => 30
  | .concat => 40
  | .mul | .div | .floorDiv | .mod => 60
  | .pow => 200

/-- Only the power groups to the right. -/
def associativity : BinaryOp → Associativity
  | .pow => .right
  | _ => .left

/-- The least precedence an operator on the right side may have to be part of the right operand. -/
def rightMinimum (op : BinaryOp) : Nat :=
  match op.associativity with
  | .left => op.precedence + 1
  | .right => op.precedence

end BinaryOp

/-- Operators in front of an expression. -/
inductive UnaryOp
  | not
  | neg
  | pos
deriving DecidableEq, Repr

namespace UnaryOp

/-- All prefix operators. -/
def all : List UnaryOp := [.not, .neg, .pos]

/-- How a prefix operator is written. -/
def spelling : UnaryOp → String
  | .not => "not"
  | .neg => "-"
  | .pos => "+"

/-- The prefix operator written so. -/
def ofSpelling? (text : String) : Option UnaryOp :=
  all.find? fun op => op.spelling == text

/-- The least precedence of the operators in its operand. -/
def precedence : UnaryOp → Nat
  | .not => 50
  | .neg | .pos => 500

end UnaryOp

/-- How tightly the test `is` binds. -/
def testPrecedence : Nat := 100

end Stencil
