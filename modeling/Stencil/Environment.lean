import Stencil.Catalog
import Stencil.Render.Error
import Stencil.Template.AutoEscape
import Stencil.Template.Statement.Parser

/-!
Environments: what templates are parsed and rendered with.

An environment knows where templates come from, the catalogs of filters, functions and tests, the
passes that every freshly parsed template goes through, the global variables, and what happens to
undefined ones.
-/

namespace Stencil

/-- Where templates come from.  The answer to a request may depend on the names that were requested
before it in the same render, the last one first. -/
abbrev TemplateSource := List String → String → Except Error String

/-- A pass over a parsed template.  It has no result if it does not come to an end. -/
abbrev Pass := Template → Option Template

/-- What templates are parsed and rendered with. -/
structure Environment (ω : Type) where
  source : TemplateSource
  filters : Table (Filter ω)
  functions : Table (Function ω)
  tests : Table (Test ω)
  passes : List Pass
  globals : Table (Value ω)
  undefined : UndefinedPolicy
  autoEscape : Bool
  /-- How many templates a chain of `extends` is followed through before the render is given up. -/
  patience : Nat

namespace Environment

variable {ω : Type}

/-- An environment with nothing in it and without automatic escaping. -/
def empty (source : TemplateSource) (patience : Nat) : Environment ω where
  source := source
  filters := []
  functions := []
  tests := []
  passes := []
  globals := []
  undefined := .lenient
  autoEscape := false
  patience := patience

/-- An environment with the catalogs that are always there and with automatic escaping. -/
def standard [HostObject ω] (source : TemplateSource) (patience : Nat) : Environment ω :=
  { empty source patience with
    filters := Catalog.filters
    functions := Catalog.functions
    tests := Catalog.tests
    autoEscape := true }

/-- The passes a template goes through: automatic escaping comes first. -/
def allPasses (env : Environment ω) : List Pass :=
  if env.autoEscape then AutoEscape.run :: env.passes else env.passes

/-- Parses a source as the template of a name and takes it through the passes. -/
def prepare (env : Environment ω) (name source : String) : Except Failure Template :=
  match Template.parse name source with
  | .error .exhausted => .error .exhausted
  | .error (.error e) => .error (.error (.parse name e))
  | .ok t =>
    match env.allPasses.foldlM (fun t pass => pass t) t with
    | none => .error .exhausted
    | some t => .ok t

/-- What callbacks may know while the code of a template runs. -/
def callState (env : Environment ω) (template : String) : CallState :=
  ⟨template, env.undefined⟩

end Environment

end Stencil
