import Stencil.Render.Monad

/-!
Rendering blocks and macros.

A block is rendered in a frame of the template that defines it, with a layer of its own on top of
the variables at its slot.  A macro is rendered in a fresh frame that sees its parameters and the
root variables alone.  Both go one level deeper, and so do `parent()` and `block()`.
-/

namespace Stencil.Render

variable {ω : Type}

/-! ## §1. Blocks -/

/-- A definition of a block of the present composition. -/
def candidate? (f : Frame ω) (name : String) (index : Nat) : Option BlockRef :=
  f.blocks.bind (·.candidate? name index)

/-- The frame in which a definition of a block is rendered. -/
def Frame.inBlock (f : Frame ω) (name : String) (index : Nat) (r : BlockRef) : Frame ω :=
  { f with
    template := r.owner
    scope := f.scope.push []
    current := some (name, index) }

/-- The frame after a block: its layer is off, and what ran before it runs again. -/
def Frame.afterBlock (before f : Frame ω) : Frame ω :=
  { f with
    template := before.template
    scope := f.scope.pop
    current := before.current }

/-- Renders a definition of a block. -/
def renderBlock (inner : Option (Runner ω)) (pos : Position) (name : String) (index : Nat)
    (r : BlockRef) : Render ω Unit :=
  deeper inner pos fun runner => do
    let before ← frame
    changeFrame fun f => Frame.inBlock f name index r
    let body :=
      match r.block? with
      | some block => runner.body block.body
      | none => pure ()
    ending body fun s => { s with frame := Frame.afterBlock before s.frame }

/-- Renders the slot of a block: the most specific definition of its name, or the block itself where
there is no composition yet. -/
def renderSlot (inner : Option (Runner ω)) (pos : Position) (id : DefinitionId) :
    Render ω Unit := do
  let f ← frame
  match f.template.template.blockAt? id with
  | none => pure ()
  | some block =>
    renderBlock inner pos block.name 0 ((candidate? f block.name 0).getD ⟨f.template, id⟩)

/-- The rendered definition of the running block that comes after the running one. -/
def parentBlock (inner : Option (Runner ω)) (pos : Position) : Render ω (Value ω) := do
  let f ← frame
  match f.current.bind fun (name, index) =>
      (candidate? f name (index + 1)).map fun r => (name, index + 1, r) with
  | none => failAt pos .noParentBlock
  | some (name, index, r) => rendered <$> capture (renderBlock inner pos name index r)

/-- The most specific definition of a block by its name, of the composition or else of the running
template. -/
def blockNamed? (f : Frame ω) (name : String) : Option BlockRef :=
  (candidate? f name 0).or
    ((f.template.template.blockTable.find? name).map fun id => ⟨f.template, id⟩)

/-- The rendered block of a name. -/
def namedBlock (inner : Option (Runner ω)) (pos : Position) (name : String) :
    Render ω (Value ω) := do
  match blockNamed? (← frame) name with
  | none => failAt pos (.unknownBlock name)
  | some r => rendered <$> capture (renderBlock inner pos name 0 r)

/-! ## §2. Macros -/

/-- The frame in which a macro runs. -/
def Frame.forMacro (f : Frame ω) (m : MacroRef) : Frame ω where
  template := m.owner
  scope := .ofLayer f.scope.root []
  blocks := none
  current := none

/-- Assigns arguments to parameters in order.  A parameter without an argument gets its default
value, evaluated when its turn comes, or null.  Gives back the arguments that are left over. -/
def bindParams (eval : Expr → Render ω (Value ω)) : List Param → List (Value ω) →
    Render ω (List (Value ω))
  | [], args => pure args
  | param :: params, arg :: args => do
    assign param.name arg
    bindParams eval params args
  | param :: params, [] => do
    let v ←
      match param.fallback with
      | some fallback => eval fallback
      | none => pure .null
    assign param.name v
    bindParams eval params []

/-- The variable that holds the arguments beyond the parameters. -/
def extraArgs : String := "varargs"

/-- Calls a macro; what it renders needs no escaping. -/
def callMacro (inner : Option (Runner ω)) (pos : Position) (m : MacroRef)
    (args : List (Value ω)) : Render ω (Value ω) := do
  match m.owner.template.macroAt? m.id with
  | none => failAt pos (.unknownFunction m.name)
  | some definition =>
    deeper inner pos fun runner =>
      within (fun f => Frame.forMacro f m) do
        let extra ← bindParams runner.eval definition.params args
        assign extraArgs (.array extra)
        rendered <$> capture (runner.body definition.body)

/-- The macro that a name means in a call: one bound to a variable, or one of the running
template. -/
def macroNamed? (f : Frame ω) (name : String) : Option MacroRef :=
  match f.scope.find? name with
  | some (.callable m) => some m
  | _ => (f.template.template.macroTable.find? name).map fun id => ⟨f.template, id⟩

end Stencil.Render
