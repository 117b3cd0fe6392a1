import Stencil.Template.Visitor

/-!
Escaping by default.

The pass makes every print pass its value through the filter `escape`, for the kind of output that
surrounds it.  The kind is read off the extension in a name, that of the innermost block around the
print which has one, else that of the template.  A suffix `.twig` of the name is ignored.
-/

namespace Stencil.AutoEscape

/-- The kind of output where no name says otherwise. -/
def defaultContext : String := "html"

/-- A suffix of names that says nothing about the output. -/
def ignoredSuffix : List Char := ['.', 't', 'w', 'i', 'g']

/-- Characters of an extension. -/
def isExtensionChar (c : Char) : Bool :=
  c.isAlphanum || c == '_'

/-- The kind of output that a name's extension says, in lower case. -/
def contextOfName? (name : String) : Option String :=
  let cs := name.toList
  let cs := if ignoredSuffix.isSuffixOf cs then cs.take (cs.length - ignoredSuffix.length) else cs
  let extension := (cs.reverse.takeWhile (· != '.')).reverse
  if cs.contains '.' && !extension.isEmpty && extension.all isExtensionChar then
    some (.ofList (extension.map Char.toLower))
  else none

/-- The kind of output in the innermost of the contexts. -/
def current (contexts : List String) : String :=
  contexts.headD defaultContext

/-- The contexts inside of something with a name. -/
def enter (name : String) (contexts : List String) : List String :=
  (contextOfName? name).getD (current contexts) :: contexts

/-- The escaped form of an expression that is printed at a place. -/
def escaped (pos : Position) (context : String) (e : Expr) : Expr :=
  .filter pos "escape" [e, .string pos context]

/-- The pass; its state is the contexts around the present node, innermost first. -/
def visitor : Visitor (List String) where
  enterTemplate t := do
    modify (enter t.name)
    pure t
  leaveTemplate t := do
    modify List.tail
    pure t
  enterBlock b := do
    modify (enter b.name)
    pure b
  leaveBlock b := do
    modify List.tail
    pure b
  enterStmt
    | .print pos e => do pure (.print pos (escaped pos (current (← get)) e))
    | s => pure s

/-- A template with all of its prints escaped. -/
def run (t : Template) : Option Template :=
  (visitor.walk t []).map Prod.fst

end Stencil.AutoEscape
