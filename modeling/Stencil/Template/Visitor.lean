import Stencil.Template.Traverse

/-!
Passes over a parsed template.

A visitor meets every node twice: when it is entered, before its parts, and when it is left, after
them.  Each time it may put another node in its place, and the walk goes on with that one.  The body
of a block is visited where the block is written and that of a macro where the macro is written; the
blocks of an `embed` come after its expressions, by name.

While a definition is visited its slot among the template's definitions is empty.  A visitor that
always grows the node it enters would never come to an end, so the walk goes down to a limited depth
and has no result beyond it.  The limit of a node is set by its size where it is met: a block that
is met more than once may have been grown by then.
-/

namespace Stencil

/-! ## §1. Visitors -/

/-- What to do when a node is entered and when it is left, with a state of type `σ`. -/
structure Visitor (σ : Type) where
  enterTemplate : Template → StateM σ Template := pure
  leaveTemplate : Template → StateM σ Template := pure
  enterBlock : Block → StateM σ Block := pure
  leaveBlock : Block → StateM σ Block := pure
  enterStmt : Stmt → StateM σ Stmt := pure
  leaveStmt : Stmt → StateM σ Stmt := pure
  enterExpr : Expr → StateM σ Expr := pure
  leaveExpr : Expr → StateM σ Expr := pure

/-- The state of a walk: that of the visitor, and the definitions of the template. -/
structure WalkState (σ : Type) where
  visitor : σ
  blocks : List Block
  macros : List MacroDef

/-- A part of a walk; it has no result if it goes too deep. -/
abbrev Walk (σ α : Type) := StateT (WalkState σ) Option α

namespace Visitor

variable {σ α : Type}

/-- A step of the visitor as a part of the walk. -/
def step (f : StateM σ α) : Walk σ α := fun s =>
  let (a, visitor) := f.run s.visitor
  some (a, { s with visitor := visitor })

/-! ## §2. Expressions and statements -/

/-- How deep the walk of a node of a given size goes.  This suffices for every visitor that puts at
most one level on top of each node. -/
def reach (size : Nat) : Nat :=
  2 * size + 16

/-- Walks an expression down to depth `n`. -/
def walkExpr (v : Visitor σ) : Nat → Expr → Walk σ Expr
  | 0, _ => failure
  | n + 1, e => do
    let e ← step (v.enterExpr e)
    let e ← e.traverse (walkExpr v n)
    step (v.leaveExpr e)

/-- Walks an expression. -/
def walkWhole (v : Visitor σ) (e : Expr) : Walk σ Expr :=
  v.walkExpr (reach e.size) e

/-- Walks a statement down to depth `n`; what is done about the definitions written there is
given. -/
def walkStmt (v : Visitor σ) (block definition : DefinitionId → Walk σ Unit) :
    Nat → Stmt → Walk σ Stmt
  | 0, _ => failure
  | n + 1, s => do
    let s ← step (v.enterStmt s)
    let s ← s.traverse {
      expr := v.walkWhole
      stmt := walkStmt v block definition n
      block := block
      definition := definition }
    step (v.leaveStmt s)

/-- Walks statements one after the other. -/
def walkBody (v : Visitor σ) (block definition : DefinitionId → Walk σ Unit)
    (body : List Stmt) : Walk σ (List Stmt) :=
  body.mapM fun s => v.walkStmt block definition (reach s.size) s

/-! ## §3. Definitions -/

/-- Walks the block of a number, if there is one. -/
def walkBlock (v : Visitor σ) (body : List Stmt → Walk σ (List Stmt)) (id : DefinitionId) :
    Walk σ Unit := do
  match (← get).blocks[id]? with
  | none => pure ()
  | some block =>
    modify fun s => { s with blocks := s.blocks.set id default }
    let block ← step (v.enterBlock block)
    let statements ← body block.body
    let block ← step (v.leaveBlock { block with body := statements })
    modify fun s => { s with blocks := s.blocks.set id block }

/-- Walks the macro of a number, if there is one: its default values, then its body. -/
def walkMacro (v : Visitor σ) (body : List Stmt → Walk σ (List Stmt)) (id : DefinitionId) :
    Walk σ Unit := do
  match (← get).macros[id]? with
  | none => pure ()
  | some definition =>
    modify fun s => { s with macros := s.macros.set id default }
    let params ← definition.params.mapM (Param.traverse v.walkWhole)
    let statements ← body definition.body
    modify fun s => { s with
      macros := s.macros.set id { definition with params := params, body := statements } }

/-- Walks statements with the definitions written in them, nested down to depth `d`. -/
def walkNested (v : Visitor σ) : Nat → List Stmt → Walk σ (List Stmt)
  | 0 => v.walkBody (fun _ => failure) (fun _ => failure)
  | d + 1 => v.walkBody (v.walkBlock (walkNested v d)) (v.walkMacro (walkNested v d))

/-- Walks a template, from a state of the visitor.  One definition more than there are cannot be
open at a time without being an emptied one. -/
def walk (v : Visitor σ) (t : Template) (s : σ) : Option (Template × σ) := do
  let (t, s) := (v.enterTemplate t).run s
  let depth := t.blocks.length + t.macros.length + 1
  let (body, s) ← (v.walkNested depth t.body).run ⟨s, t.blocks, t.macros⟩
  let t := { t with body := body, blocks := s.blocks, macros := s.macros }
  some ((v.leaveTemplate t).run s.visitor)

end Visitor

end Stencil
