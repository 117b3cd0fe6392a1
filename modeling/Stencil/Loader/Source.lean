import Stencil.Environment

/-!
Templates from memory.

The simplest places that templates come from: a table of sources by name, and the names themselves
taken for sources.  Neither depends on what was requested before.
-/

namespace Stencil.TemplateSource

/-- The templates of a table. -/
def ofTable (sources : Table String) : TemplateSource := fun _ name =>
  match sources.find? name with
  | some source => .ok source
  | none => .error (.notFound name .unknownName)

/-- Every name is the source of its template. -/
def ofName : TemplateSource := fun _ name => .ok name

end Stencil.TemplateSource
