import Stencil.Render.Expr

/-!
Rendering a template with those it extends.

A template that extends another one is rendered from its root: the chain of templates is followed to
the one that extends nothing, the blocks of all of them are composed, and the body of the root is
rendered.  Of the other templates only assignments and imports at the top level take effect, when
the chain passes them.  A chain that comes back to a name it has met is an error.
-/

namespace Stencil.Render

variable {ω : Type} [HostObject ω]

/-! ## §1. References to templates -/

/-- Whether an expression is the name of the running template. -/
def isSelf : Expr → Bool
  | .name _ name => name == selfName
  | _ => false

/-- The template that an expression names. -/
def templateOf (env : Environment ω) (eval : Expr → Render ω (Value ω)) (e : Expr) :
    Render ω LiveTemplate := do
  if isSelf e then pure (← frame).template else load env (← eval e).output

/-- The templates that a template takes blocks from. -/
def usedTemplates (env : Environment ω) (eval : Expr → Render ω (Value ω)) :
    List Reuse → Render ω (List UsedTemplate)
  | [] => pure []
  | reuse :: reuses => do
    let template ← templateOf env eval reuse.template
    let more ← usedTemplates env eval reuses
    pure (⟨template, reuse.aliases⟩ :: more)

/-! ## §2. Chains -/

/-- The statements at the top level of an extending template that take effect. -/
def isPreamble : Stmt → Bool
  | .assign .. | .capture .. | .perform .. | .importAll .. | .importSome .. => true
  | _ => false

/-- Follows a chain from the running template on through at most `n` templates, and leaves its root
running.  The names met so far and the levels before are given from the last one. -/
def followChain (env : Environment ω) (runner : Runner ω) :
    Nat → List String → List Level → Render ω (List Level)
  | 0, _, _ => throw .exhausted
  | n + 1, names, levels => do
    let current := (← frame).template
    let uses ← usedTemplates env runner.eval current.template.reuses
    let levels := ⟨current, uses⟩ :: levels
    match current.template.parent with
    | none => pure levels.reverse
    | some extended =>
      runner.body (current.template.body.filter isPreamble)
      let parent ← templateOf env runner.eval extended.template
      let names' := parent.name :: names
      if names.contains parent.name then fail (.extendsCycle names'.reverse)
      else
        changeFrame fun f => { f with template := parent }
        followChain env runner n names' levels

/-- The frame in which a template is rendered. -/
def Frame.forTemplate (t : LiveTemplate) (scope : Scope ω) : Frame ω where
  template := t
  scope := scope
  blocks := none
  current := none

/-- Renders a template in a scope, under the blocks of an embedding statement. -/
def renderTemplate (env : Environment ω) (runner : Runner ω) (t : LiveTemplate) (scope : Scope ω)
    (overrides : List (String × BlockRef)) : Render ω Unit :=
  within (fun _ => Frame.forTemplate t scope) do
    let levels ← followChain env runner env.patience [t.name] []
    changeFrame fun f => { f with blocks := some (.ofLevels overrides levels) }
    runner.body (← frame).template.template.body

/-! ## §3. Inclusions -/

/-- The names that the target of an inclusion stands for, in the order in which they are tried. -/
def candidateNames : Value ω → List String
  | .array items => items.map Value.output
  | v => [v.output]

/-- The template an inclusion asks for, or none if it may be missing and is. -/
def inclusionTarget (env : Environment ω) (eval : Expr → Render ω (Value ω)) (i : Inclusion) :
    Render ω (Option LiveTemplate) := do
  if isSelf i.template then pure (some (← frame).template)
  else
    match ← loadFirst env none (candidateNames (← eval i.template)) with
    | .ok t => pure (some t)
    | .error none => pure none
    | .error (some e) => if i.ignoreMissing then pure none else fail e

/-- The variables that an inclusion passes. -/
def inclusionBindings (eval : Expr → Render ω (Value ω)) (i : Inclusion) :
    Render ω (Table (Value ω)) := do
  match i.bindings with
  | none => pure []
  | some e =>
    match ← eval e with
    | .map entries => pure entries
    | .null => pure []
    | v => failAt i.position (.unsupported (.bindings v.kind))

/-- The scope in which an included template starts. -/
def inclusionScope (only : Bool) (bindings : Table (Value ω)) (caller : Scope ω) : Scope ω :=
  if only then .ofLayer none bindings
  else (Scope.ofLayer caller.root caller.flatten).push bindings

/-- Renders the template an inclusion asks for, one level deeper. -/
def renderInclusion (env : Environment ω) (inner : Option (Runner ω))
    (eval : Expr → Render ω (Value ω)) (i : Inclusion) (overrides : List (String × BlockRef)) :
    Render ω Unit := do
  match ← inclusionTarget env eval i with
  | none => pure ()
  | some t =>
    let bindings ← inclusionBindings eval i
    let scope := inclusionScope i.only bindings (← frame).scope
    deeper inner i.position fun runner => renderTemplate env runner t scope overrides

end Stencil.Render
