import Stencil.Template.Error
import Stencil.Value.Operation

/-!
Why a render fails.

A failure has a cause; those that a template's code runs into come with the name of that template
and the place in it.
-/

namespace Stencil

/-- Something that an expression or a statement cannot do with the values it got. -/
inductive Unsupported
  | operation (e : OperationError)
  /-- The variables for an included template are no map. -/
  | bindings (kind : String)
  /-- A filter stands without anything to apply it to. -/
  | filterSubject (name : String)
deriving Repr

/-- The wording. -/
def Unsupported.text : Unsupported → String
  | .operation e => e.text
  | .bindings kind => s!"include \"with\" expects a hash, got {kind}"
  | .filterSubject name => s!"filter \"{name}\" has no value"

/-- What a template's code ran into. -/
inductive RenderErrorKind
  | unknownFilter (name : String)
  | unknownFunction (name : String)
  | unknownTest (name : String)
  | undefinedVariable (name : String)
  | noParentBlock
  | unknownBlock (name : String)
  | unknownMacro (template name : String)
  /-- More constructs would be nested than the limit allows. -/
  | recursionLimit (limit : Nat)
  /-- A filter, function, test or method failed. -/
  | call (name message : String)
  | unsupported (what : Unsupported)
deriving Repr

/-- The wording. -/
def RenderErrorKind.text : RenderErrorKind → String
  | .unknownFilter name => s!"unknown filter \"{name}\""
  | .unknownFunction name => s!"unknown function \"{name}\""
  | .unknownTest name => s!"unknown test \"{name}\""
  | .undefinedVariable name => s!"undefined variable \"{name}\""
  | .noParentBlock => "parent() called outside of an overriding block"
  | .unknownBlock name => s!"block \"{name}\" does not exist"
  | .unknownMacro template name => s!"template \"{template}\" has no macro \"{name}\""
  | .recursionLimit limit =>
    s!"recursion limit of {limit} nested templates, blocks or macros exceeded"
  | .call name message => s!"{name}: {message}"
  | .unsupported what => what.text

/-- Why there is no template of a name. -/
inductive NotFound
  | unknownName
  /-- The name does not stay inside of the directory of templates. -/
  | outsideRoot
  | noFile
  /-- The file cannot be read, for a reason that the file system gives. -/
  | unreadable (reason : String)
deriving DecidableEq, Repr

/-- The wording. -/
def NotFound.text : NotFound → String
  | .unknownName => "no template with this name"
  | .outsideRoot => "template names must be relative paths inside the template root"
  | .noFile => "file does not exist"
  | .unreadable reason => reason

/-- Why a render fails. -/
inductive Error
  | parse (template : String) (e : ParseError)
  | notFound (template : String) (reason : NotFound)
  | extendsCycle (chain : List String)
  | render (template : String) (position : Position) (kind : RenderErrorKind)
  /-- The output took no more text. -/
  | outputClosed
deriving Repr

/-- The wording. -/
def Error.text : Error → String
  | .parse template e => s!"{template}: {e.text}"
  | .notFound template reason => s!"template not found: {template} ({reason.text})"
  | .extendsCycle chain => "circular extends: " ++ " -> ".intercalate chain
  | .render template position kind =>
    s!"{template}: render error at line {position.line}, offset {position.offset}: {kind.text}"
  | .outputClosed => "failed to write output: sink closed"

/-- Whether an error says that a template does not exist. -/
def Error.isNotFound : Error → Bool
  | .notFound .. => true
  | _ => false

/-- How a render ends without a result. -/
inductive Failure
  | error (e : Error)
  /-- A chain of templates went on for longer than the render was to follow it, or a pass over a
  template did not come to an end. -/
  | exhausted
deriving Repr

end Stencil
