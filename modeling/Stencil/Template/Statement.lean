import Stencil.Table
import Stencil.Template.Expr

/-!
Statements.

Text and prints write output, the other statements steer what is written or what names mean.  The
bodies of blocks and of macros are not held by the statement where they are written: they are kept
by the template, and the statement refers to them by number.
-/

namespace Stencil

/-- The number of a block or of a macro among those of its template. -/
abbrev DefinitionId := Nat

/-- What an `include` asks for: another template, the variables it sees, and whether it may be
missing. -/
structure Inclusion where
  position : Position
  template : Expr
  bindings : Option Expr
  only : Bool
  ignoreMissing : Bool
deriving Repr

/-- A filter applied to a rendered body. -/
structure FilterCall where
  position : Position
  name : String
  args : List Expr
deriving Repr

/-- Blocks taken over from another template: pairs of a block's own name and the name it gets
here.  Blocks without a pair keep their names. -/
structure Reuse where
  position : Position
  template : Expr
  aliases : List (String × String)
deriving Repr

/-- A statement. -/
inductive Stmt
  | text (pos : Position) (text : String)
  | print (pos : Position) (expr : Expr)
  /-- The slot of a block. -/
  | block (pos : Position) (id : DefinitionId)
  | branch (pos : Position) (cond : Expr) (body orElse : List Stmt)
  | loop (pos : Position) (key : Option String) (value : String) (iterable : Expr)
      (body orElse : List Stmt)
  | includes (inclusion : Inclusion)
  /-- An inclusion with blocks of its own put over those of the template. -/
  | embeds (inclusion : Inclusion) (blocks : Table DefinitionId)
  | reuses (reuse : Reuse)
  | assign (pos : Position) (targets : List String) (values : List Expr)
  /-- Gives a name to the text that a body renders to. -/
  | capture (pos : Position) (name : String) (body : List Stmt)
  /-- Evaluates an expression and drops its value. -/
  | perform (pos : Position) (expr : Expr)
  | filtered (pos : Position) (filters : List FilterCall) (body : List Stmt)
  /-- The place where a macro is written; it renders nothing. -/
  | defines (pos : Position) (id : DefinitionId)
  | importAll (pos : Position) (template : Expr) (newName : String)
  /-- Imports single macros: pairs of a macro's own name and the name it gets here. -/
  | importSome (pos : Position) (template : Expr) (names : List (String × String))
deriving Repr

/-- The place of a statement: where its text or its tag begins. -/
def Stmt.pos : Stmt → Position
  | .text pos _ | .print pos _ | .block pos _ | .branch pos .. | .loop pos .. | .assign pos ..
  | .capture pos .. | .perform pos _ | .filtered pos .. | .defines pos _ | .importAll pos ..
  | .importSome pos .. => pos
  | .includes inclusion | .embeds inclusion _ => inclusion.position
  | .reuses reuse => reuse.position

/-- The number of nodes in the expressions of an inclusion. -/
def Inclusion.size (i : Inclusion) : Nat :=
  i.template.size + (i.bindings.map Expr.size).getD 0

mutual

/-- The number of nodes of a statement. -/
def Stmt.size : Stmt → Nat
  | .text .. | .block .. | .defines .. => 1
  | .print _ e | .perform _ e | .importAll _ e _ | .importSome _ e _ => 1 + e.size
  | .branch _ cond body orElse => 1 + cond.size + Stmt.sizes body + Stmt.sizes orElse
  | .loop _ _ _ iterable body orElse => 1 + iterable.size + Stmt.sizes body + Stmt.sizes orElse
  | .includes i | .embeds i _ => 1 + i.size
  | .reuses r => 1 + r.template.size
  | .assign _ _ values => 1 + Expr.sizes values
  | .capture _ _ body => 1 + Stmt.sizes body
  | .filtered _ filters body =>
    1 + total (fun f => 1 + Expr.sizes f.args) filters + Stmt.sizes body

/-- The number of nodes of a list of statements. -/
def Stmt.sizes : List Stmt → Nat
  | [] => 0
  | s :: ss => s.size + Stmt.sizes ss

end

end Stencil
