import Stencil.Render.Statement

/-!
Rendering templates.

A render starts with a template, either one requested by its name or one that is at hand, and with
the variables of its context.  Its report has the outcome, the texts written, and the names that
were requested, in order.
-/

namespace Stencil

/-- The variables that a render starts with. -/
abbrev Context (ω : Type) := Table (Value ω)

/-- What comes of a render. -/
structure RenderReport where
  outcome : Except Failure Unit
  /-- The texts written, in order. -/
  written : List String
  /-- The names requested, in order. -/
  requests : List String

/-- The written texts as one. -/
def RenderReport.text (r : RenderReport) : String :=
  String.join r.written

namespace Environment

variable {ω : Type} [HostObject ω]

/-- The state in which a render starts. -/
def startState (t : LiveTemplate) (context : Context ω) (room : Option Nat)
    (requests : List String) : RenderState ω where
  frame :=
    { template := t
      scope := .ofLayer (some context) []
      blocks := none
      current := none }
  depth := 0
  lenient := false
  loaded := []
  requests := requests
  output := ⟨[], room⟩
  met := 0

/-- Renders a template from a state. -/
def renderFrom (env : Environment ω) (t : LiveTemplate) (s : RenderState ω) : RenderReport :=
  let (outcome, s) :=
    (Render.renderTemplate env (Render.runner env Render.maxDepth) t s.frame.scope []).run s
  ⟨outcome, s.output.written.reverse, s.requests.reverse⟩

/-- Renders a template that is at hand.  The output takes at most `room` texts, if there is a
limit. -/
def renderTemplate (env : Environment ω) (t : Template) (context : Context ω)
    (room : Option Nat) : RenderReport :=
  let live : LiveTemplate := ⟨t, .entry⟩
  env.renderFrom live (startState live context room [])

/-- Requests a template by its name. -/
def template (env : Environment ω) (name : String) : Except Failure Template :=
  match env.source [] name with
  | .error e => .error (.error e)
  | .ok source => env.prepare name source

/-- Renders the template of a name.  The template itself is not kept for further requests of its
name in the same render. -/
def render (env : Environment ω) (name : String) (context : Context ω) (room : Option Nat) :
    RenderReport :=
  match env.template name with
  | .error failure => ⟨.error failure, [], [name]⟩
  | .ok t =>
    let live : LiveTemplate := ⟨t, .entry⟩
    env.renderFrom live (startState live context room [name])

end Environment

end Stencil
