import Stencil.Template.Statement

/-!
Templates as they are once parsed.

A template is its top-level statements together with the blocks and macros written anywhere in it.
Blocks are numbered in the order in which they end, and so are macros, hence a definition's number
is greater than those of the definitions inside it.  The tables say which block and which macro a
name means; the blocks written inside an `embed` are in the table of that statement instead.
-/

namespace Stencil

/-- A block: a named part of a template that others may override. -/
structure Block where
  name : String
  position : Position
  body : List Stmt
deriving Repr, Inhabited

/-- A parameter of a macro. -/
structure Param where
  name : String
  fallback : Option Expr
deriving Repr

/-- A macro: a named body with parameters, called like a function. -/
structure MacroDef where
  name : String
  position : Position
  params : List Param
  body : List Stmt
deriving Repr, Inhabited

/-- The template that a template extends. -/
structure Extends where
  position : Position
  template : Expr
deriving Repr

/-- A parsed template. -/
structure Template where
  name : String
  parent : Option Extends
  body : List Stmt
  blocks : List Block
  blockTable : Table DefinitionId
  macros : List MacroDef
  macroTable : Table DefinitionId
deriving Repr

namespace Template

/-- The block of a number. -/
def blockAt? (t : Template) (id : DefinitionId) : Option Block :=
  t.blocks[id]?

/-- The block of a name. -/
def blockNamed? (t : Template) (name : String) : Option Block :=
  (t.blockTable.find? name).bind t.blockAt?

/-- The macro of a number. -/
def macroAt? (t : Template) (id : DefinitionId) : Option MacroDef :=
  t.macros[id]?

/-- The macro of a name. -/
def macroNamed? (t : Template) (name : String) : Option MacroDef :=
  (t.macroTable.find? name).bind t.macroAt?

/-- The `use` statements at the top level, in order. -/
def reuses (t : Template) : List Reuse :=
  t.body.filterMap fun
    | .reuses reuse => some reuse
    | _ => none

end Template

end Stencil
