import Stencil.Template.Basic

/-!
One level of a tree.

A pass over a template does something with a node and goes on with its parts.  The second half is
the same for all passes and is given here, for any monad: the parts of an expression, and those of a
statement, are visited in the order in which they are written, and the node is put together again
from the results.
-/

namespace Stencil

variable {m : Type → Type} [Monad m]

/-- Visits the key and the value of a hash entry. -/
def Entry.traverse (f : Expr → m Expr) (entry : Entry Expr) : m (Entry Expr) := do
  let key ← f entry.key
  let value ← f entry.value
  pure ⟨entry.position, key, value⟩

/-- Visits the parts of an expression. -/
def Expr.traverse (f : Expr → m Expr) : Expr → m Expr
  | .name pos word => pure (.name pos word)
  | .null pos => pure (.null pos)
  | .bool pos value => pure (.bool pos value)
  | .number pos value => pure (.number pos value)
  | .string pos text => pure (.string pos text)
  | .call pos word args => do pure (.call pos word (← args.mapM f))
  | .filter pos word args => do pure (.filter pos word (← args.mapM f))
  | .test pos word subject args => do
    let subject ← f subject
    pure (.test pos word subject (← args.mapM f))
  | .binary pos op left right => do
    let left ← f left
    pure (.binary pos op left (← f right))
  | .unary pos op operand => do pure (.unary pos op (← f operand))
  | .group pos inner => do pure (.group pos (← f inner))
  | .attribute pos object key => do
    let object ← f object
    pure (.attribute pos object (← f key))
  | .method pos object key args => do
    let object ← f object
    let key ← f key
    pure (.method pos object key (← args.mapM f))
  | .conditional pos cond whenTrue whenFalse => do
    let cond ← f cond
    let whenTrue ← f whenTrue
    pure (.conditional pos cond whenTrue (← f whenFalse))
  | .hash pos entries => do pure (.hash pos (← entries.mapM (Entry.traverse f)))
  | .array pos items => do pure (.array pos (← items.mapM f))

/-- Visits the expressions of an inclusion. -/
def Inclusion.traverse (f : Expr → m Expr) (i : Inclusion) : m Inclusion := do
  let template ← f i.template
  let bindings ←
    match i.bindings with
    | some bindings => some <$> f bindings
    | none => pure none
  pure { i with template := template, bindings := bindings }

/-- Visits the arguments of a filter. -/
def FilterCall.traverse (f : Expr → m Expr) (call : FilterCall) : m FilterCall := do
  pure { call with args := ← call.args.mapM f }

/-- What a pass does with the parts of a statement: its expressions, the statements inside it, and
the definitions that are written there. -/
structure Stmt.Parts (m : Type → Type) where
  expr : Expr → m Expr
  stmt : Stmt → m Stmt
  block : DefinitionId → m Unit
  definition : DefinitionId → m Unit

/-- Visits the parts of a statement. -/
def Stmt.traverse (on : Stmt.Parts m) : Stmt → m Stmt
  | .text pos literal => pure (.text pos literal)
  | .print pos expr => do pure (.print pos (← on.expr expr))
  | .block pos id => do
    on.block id
    pure (.block pos id)
  | .branch pos cond body orElse => do
    let cond ← on.expr cond
    let body ← body.mapM on.stmt
    pure (.branch pos cond body (← orElse.mapM on.stmt))
  | .loop pos key value iterable body orElse => do
    let iterable ← on.expr iterable
    let body ← body.mapM on.stmt
    pure (.loop pos key value iterable body (← orElse.mapM on.stmt))
  | .includes inclusion => do pure (.includes (← inclusion.traverse on.expr))
  | .embeds inclusion blocks => do
    let inclusion ← inclusion.traverse on.expr
    blocks.values.forM on.block
    pure (.embeds inclusion blocks)
  | .reuses reuse => do
    let template ← on.expr reuse.template
    pure (.reuses { reuse with template := template })
  | .assign pos targets values => do pure (.assign pos targets (← values.mapM on.expr))
  | .capture pos name body => do pure (.capture pos name (← body.mapM on.stmt))
  | .perform pos expr => do pure (.perform pos (← on.expr expr))
  | .filtered pos filters body => do
    let filters ← filters.mapM (FilterCall.traverse on.expr)
    pure (.filtered pos filters (← body.mapM on.stmt))
  | .defines pos id => do
    on.definition id
    pure (.defines pos id)
  | .importAll pos template newName => do pure (.importAll pos (← on.expr template) newName)
  | .importSome pos template names => do pure (.importSome pos (← on.expr template) names)

/-- Visits the default values of the parameters of a macro. -/
def Param.traverse (f : Expr → m Expr) (param : Param) : m Param := do
  match param.fallback with
  | some fallback => pure { param with fallback := some (← f fallback) }
  | none => pure param

end Stencil
