import Stencil.Template.Visitor

/-!
The order in which a walk meets the nodes of a template.

The tracer is a visitor that changes nothing and keeps a record of its calls.
-/

namespace Stencil

/-- A node as a record shows it. -/
inductive NodeLabel
  | template (name : String)
  | block (name : String)
  | stmt (pos : Position)
  | expr (pos : Position)
deriving DecidableEq, Repr

/-- A call of a visitor. -/
inductive WalkEvent
  | enter (node : NodeLabel)
  | leave (node : NodeLabel)
deriving DecidableEq, Repr

namespace WalkEvent

/-- Puts a call on record; the last one comes first. -/
def record {α : Type} (event : WalkEvent) (a : α) : StateM (List WalkEvent) α := do
  modify (event :: ·)
  pure a

/-- The visitor that records all calls and changes nothing. -/
def tracer : Visitor (List WalkEvent) where
  enterTemplate t := record (.enter (.template t.name)) t
  leaveTemplate t := record (.leave (.template t.name)) t
  enterBlock b := record (.enter (.block b.name)) b
  leaveBlock b := record (.leave (.block b.name)) b
  enterStmt s := record (.enter (.stmt s.pos)) s
  leaveStmt s := record (.leave (.stmt s.pos)) s
  enterExpr e := record (.enter (.expr e.pos)) e
  leaveExpr e := record (.leave (.expr e.pos)) e

/-- The calls a walk over a template makes, in order. -/
def ofTemplate (t : Template) : Option (List WalkEvent) :=
  (tracer.walk t []).map fun result => result.2.reverse

end WalkEvent

end Stencil
