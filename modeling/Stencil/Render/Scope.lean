import Stencil.Value.Basic

/-!
Which variables are visible.

A scope is a stack of layers over the variables that the render was started with.  Assignments go
into the innermost layer, and an inner variable hides an outer one of the same name.  There is
always a layer: the one a scope is made with is never taken off.
-/

namespace Stencil

/-- The visible variables: layers over the root variables, if these are visible. -/
structure Scope (ω : Type) where
  root : Option (Table (Value ω))
  /-- The layer that assignments go into. -/
  innermost : Table (Value ω)
  /-- The layers below it, innermost first. -/
  below : List (Table (Value ω))

namespace Scope

variable {ω : Type}

/-- A scope with a single layer. -/
def ofLayer (root : Option (Table (Value ω))) (layer : Table (Value ω)) : Scope ω :=
  ⟨root, layer, []⟩

/-- All layers, innermost first. -/
def layers (s : Scope ω) : List (Table (Value ω)) :=
  s.innermost :: s.below

/-- The value of a variable. -/
def find? (s : Scope ω) (name : String) : Option (Value ω) :=
  (s.layers.findSome? (·.find? name)).or (s.root.bind (·.find? name))

/-- Assigns a variable in the innermost layer. -/
def assign (s : Scope ω) (name : String) (v : Value ω) : Scope ω :=
  { s with innermost := s.innermost.insert name v }

/-- Puts a layer on top. -/
def push (s : Scope ω) (layer : Table (Value ω)) : Scope ω :=
  ⟨s.root, layer, s.layers⟩

/-- Takes the innermost layer off, unless it is the only one. -/
def pop (s : Scope ω) : Scope ω :=
  match s.below with
  | [] => s
  | layer :: below => ⟨s.root, layer, below⟩

/-- All assigned variables in one layer, inner ones hiding outer ones; the root variables are left
out. -/
def flatten (s : Scope ω) : Table (Value ω) :=
  s.layers.foldr (fun layer merged => Table.insertAll merged layer) []

@[simp] theorem root_assign (s : Scope ω) (name : String) (v : Value ω) :
    (s.assign name v).root = s.root := rfl

/-- An assignment changes nothing below the innermost layer. -/
@[simp] theorem below_assign (s : Scope ω) (name : String) (v : Value ω) :
    (s.assign name v).below = s.below := rfl

@[simp] theorem root_push (s : Scope ω) (layer : Table (Value ω)) :
    (s.push layer).root = s.root := rfl

@[simp] theorem below_push (s : Scope ω) (layer : Table (Value ω)) :
    (s.push layer).below = s.layers := rfl

/-- A layer goes on and off without a trace, whatever was assigned in it meanwhile. -/
theorem pop_eq_of_below {s t : Scope ω} (root : t.root = s.root) (below : t.below = s.layers) :
    t.pop = s := by
  simp [pop, below, layers, root]

end Scope

end Stencil
