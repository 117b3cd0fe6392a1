import Stencil.Proofs.Template.Ownership
import Stencil.Render

/-!
Renders that are watched.

A watch looks over the shoulder of a render.  It is asked before a statement or an expression is
run, with the template that is running, and before a number is looked up in a template, and it may
object, which ends the render at once.  It also ends the render where a lookup finds nothing, while
the renderer itself does nothing there.  A watched render is the render with these questions put in,
and is the same as long as nothing is objected to.
-/

namespace Stencil

/-- What a watch objects to. -/
structure Watch where
  /-- Its objection to running code, by the template that is running. -/
  code : Template → Code → Option Failure
  /-- Its objection to looking a number up in a template. -/
  lookup : Template → Definition → Option Failure
  /-- How a lookup ends that finds nothing. -/
  missing : Failure

namespace Watch

open Render

variable {ω α : Type} (w : Watch)

/-! ## §1. Questions -/

/-- Ends the render with an objection, if there is one. -/
def heed : Option Failure → Render ω Unit
  | none => pure ()
  | some e => throw e

/-- Runs a part of a render that is code. -/
def runs (c : Code) (x : Render ω α) : Render ω α := do
  heed (w.code (← frame).template.template c)
  x

/-- Looks a block up in the template of a reference. -/
def blockOf (r : BlockRef) : Render ω Block := do
  heed (w.lookup r.owner.template (.block r.id))
  match r.block? with
  | some block => pure block
  | none => throw w.missing

/-- Looks a macro up in the template of a reference. -/
def macroOf (m : MacroRef) : Render ω MacroDef := do
  heed (w.lookup m.owner.template (.macroDef m.id))
  match m.owner.template.macroAt? m.id with
  | some definition => pure definition
  | none => throw w.missing

/-! ## §2. Blocks and macros -/

/-- Renders a definition of a block. -/
def renderBlock (inner : Option (Runner ω)) (pos : Position) (name : String) (index : Nat)
    (r : BlockRef) : Render ω Unit :=
  deeper inner pos fun runner => do
    let before ← frame
    changeFrame fun f => Frame.inBlock f name index r
    let body := do
      let block ← w.blockOf r
      runner.body block.body
    ending body fun s => { s with frame := Frame.afterBlock before s.frame }

/-- Renders the slot of a block. -/
def renderSlot (inner : Option (Runner ω)) (pos : Position) (id : DefinitionId) :
    Render ω Unit := do
  let f ← frame
  let block ← w.blockOf ⟨f.template, id⟩
  w.renderBlock inner pos block.name 0 ((candidate? f block.name 0).getD ⟨f.template, id⟩)

/-- The rendered definition of the running block that comes after the running one. -/
def parentBlock (inner : Option (Runner ω)) (pos : Position) : Render ω (Value ω) := do
  let f ← frame
  match f.current.bind fun (name, index) =>
      (candidate? f name (index + 1)).map fun r => (name, index + 1, r) with
  | none => failAt pos .noParentBlock
  | some (name, index, r) => rendered <$> capture (w.renderBlock inner pos name index r)

/-- The rendered block of a name. -/
def namedBlock (inner : Option (Runner ω)) (pos : Position) (name : String) :
    Render ω (Value ω) := do
  match blockNamed? (← frame) name with
  | none => failAt pos (.unknownBlock name)
  | some r => rendered <$> capture (w.renderBlock inner pos name 0 r)

/-- Calls a macro. -/
def callMacro (inner : Option (Runner ω)) (pos : Position) (m : MacroRef)
    (args : List (Value ω)) : Render ω (Value ω) := do
  let definition ← w.macroOf m
  deeper inner pos fun runner =>
    within (fun f => Frame.forMacro f m) do
      let extra ← bindParams runner.eval definition.params args
      assign extraArgs (.array extra)
      rendered <$> capture (runner.body definition.body)

/-! ## §3. Expressions -/

variable [HostObject ω]

/-- Calls a method. -/
def callMethod (inner : Option (Runner ω)) (pos : Position) (object key : Value ω)
    (args : List (Value ω)) : Render ω (Value ω) := do
  match object.attribute? key, object with
  | some (.callable m), _ => w.callMacro inner pos m args
  | _, .object _ host =>
    meet (← ofCall pos key.output (HostObject.call host key.output args))
  | _, _ => failAt pos (.unknownFunction key.output)

/-- Calls a function by its name. -/
def callFunction (env : Environment ω) (inner : Option (Runner ω)) (pos : Position)
    (name : String) (first : Render ω (Option (Value ω))) (args : Render ω (List (Value ω))) :
    Render ω (Value ω) := do
  if name = "parent" then w.parentBlock inner pos
  else if name = "block" then w.namedBlock inner pos (((← first).map Value.output).getD "")
  else
    match macroNamed? (← frame) name with
    | some m => w.callMacro inner pos m (← args)
    | none =>
      match env.functions.find? name with
      | none => failAt pos (.unknownFunction name)
      | some function =>
        let args ← args
        let state := env.callState (← frame).template.name
        meet (← ofCall pos name (function state args))

mutual

/-- The value of an expression. -/
def eval (env : Environment ω) (inner : Option (Runner ω)) : Expr → Render ω (Value ω)
  | .name pos name => w.runs (.expr (.name pos name)) (Render.lookup env pos name)
  | .null pos => w.runs (.expr (.null pos)) (pure .null)
  | .bool pos b => w.runs (.expr (.bool pos b)) (pure (.bool b))
  | .number pos x => w.runs (.expr (.number pos x)) (pure (.number x))
  | .string pos s => w.runs (.expr (.string pos s)) (pure (.string s))
  | .call pos name args =>
    w.runs (.expr (.call pos name args))
      (w.callFunction env inner pos name (evalFirst env inner args) (evalAll env inner args))
  | .filter pos name args =>
    w.runs (.expr (.filter pos name args)) <|
      match args with
      | [] => failAt pos (.unsupported (.filterSubject name))
      | subject :: args => do
        let v ←
          if name = "default" then leniently (eval env inner subject) else eval env inner subject
        applyFilter env pos name v (evalAll env inner args)
  | .test pos name subject args =>
    w.runs (.expr (.test pos name subject args)) <|
      if name = "defined" then do pure (.bool (← isDefined env inner subject))
      else applyTest env pos name (eval env inner subject) (evalAll env inner args)
  | .binary pos op left right =>
    w.runs (.expr (.binary pos op left right))
      (applyBinary pos op (eval env inner left) (eval env inner right))
  | .unary pos op operand =>
    w.runs (.expr (.unary pos op operand)) do pure ((← eval env inner operand).unary op)
  | .group pos e => w.runs (.expr (.group pos e)) (eval env inner e)
  | .attribute pos object key =>
    w.runs (.expr (.attribute pos object key)) do
      let object ← eval env inner object
      let key ← eval env inner key
      attributeOf env pos object key
  | .method pos object key args =>
    w.runs (.expr (.method pos object key args)) do
      let object ← eval env inner object
      let key ← eval env inner key
      let args ← evalAll env inner args
      w.callMethod inner pos object key args
  | .conditional pos cond whenTrue whenFalse =>
    w.runs (.expr (.conditional pos cond whenTrue whenFalse)) do
      if (← eval env inner cond).truthy then eval env inner whenTrue else eval env inner whenFalse
  | .hash pos entries =>
    w.runs (.expr (.hash pos entries)) do pure (.map (← evalEntries env inner entries []))
  | .array pos items =>
    w.runs (.expr (.array pos items)) do pure (.array (← evalAll env inner items))

/-- The values of a list of expressions. -/
def evalAll (env : Environment ω) (inner : Option (Runner ω)) :
    List Expr → Render ω (List (Value ω))
  | [] => pure []
  | e :: es => do
    let v ← eval env inner e
    let vs ← evalAll env inner es
    pure (v :: vs)

/-- The value of the first of a list of expressions. -/
def evalFirst (env : Environment ω) (inner : Option (Runner ω)) :
    List Expr → Render ω (Option (Value ω))
  | [] => pure none
  | e :: _ => do pure (some (← eval env inner e))

/-- The map of a list of entries, over those evaluated before. -/
def evalEntries (env : Environment ω) (inner : Option (Runner ω)) :
    List (Entry Expr) → Table (Value ω) → Render ω (Table (Value ω))
  | [], table => pure table
  | ⟨_, key, value⟩ :: entries, table => do
    let key ← eval env inner key
    let value ← eval env inner value
    evalEntries env inner entries (table.insert key.output value)

/-- Whether an expression is defined. -/
def isDefined (env : Environment ω) (inner : Option (Runner ω)) : Expr → Render ω Bool
  | .name pos name =>
    w.runs (.expr (.name pos name)) do pure (find? env (← frame) name).isSome
  | .attribute pos object key =>
    w.runs (.expr (.attribute pos object key)) do
      let object ← leniently (eval env inner object)
      let key ← eval env inner key
      pure (object.attribute? key).isSome
  | .group pos e => w.runs (.expr (.group pos e)) (isDefined env inner e)
  | e => w.runs (.expr e) (pure true)

end

/-! ## §4. Statements -/

/-- Takes a value through filters, one after the other. -/
def applyFilters (env : Environment ω) (inner : Option (Runner ω)) :
    List FilterCall → Value ω → Render ω (Value ω)
  | [], v => pure v
  | call :: calls, v => do
    let v ← applyFilter env call.position call.name v (w.evalAll env inner call.args)
    applyFilters env inner calls v

mutual

/-- Runs a statement. -/
def runStmt (env : Environment ω) (inner : Option (Runner ω)) : Stmt → Render ω Unit
  | .text pos text => w.runs (.stmt (.text pos text)) (write text)
  | .print pos e => w.runs (.stmt (.print pos e)) do write (← w.eval env inner e).output
  | .block pos id => w.runs (.stmt (.block pos id)) (w.renderSlot inner pos id)
  | .branch pos cond body orElse =>
    w.runs (.stmt (.branch pos cond body orElse)) do
      if (← w.eval env inner cond).truthy then runBody env inner body
      else runBody env inner orElse
  | .loop pos key value iterable body orElse =>
    w.runs (.stmt (.loop pos key value iterable body orElse))
      (runLoop key value (w.eval env inner iterable) (runBody env inner body)
        (runBody env inner orElse))
  | .includes inclusion =>
    w.runs (.stmt (.includes inclusion))
      (renderInclusion env inner (w.eval env inner) inclusion [])
  | .embeds inclusion blocks =>
    w.runs (.stmt (.embeds inclusion blocks)) do
      renderInclusion env inner (w.eval env inner) inclusion
        ((← frame).template.blocks blocks)
  | .reuses reuse => w.runs (.stmt (.reuses reuse)) (pure ())
  | .assign pos targets values =>
    w.runs (.stmt (.assign pos targets values)) do
      assignAll targets (← w.evalAll env inner values)
  | .capture pos name body =>
    w.runs (.stmt (.capture pos name body)) do
      assign name (rendered (← capture (runBody env inner body)))
  | .perform pos e =>
    w.runs (.stmt (.perform pos e)) do
      let _ ← w.eval env inner e
  | .filtered pos filters body =>
    w.runs (.stmt (.filtered pos filters body)) do
      let text ← capture (runBody env inner body)
      write (← w.applyFilters env inner filters (rendered text)).output
  | .defines pos id => w.runs (.stmt (.defines pos id)) (pure ())
  | .importAll pos template newName =>
    w.runs (.stmt (.importAll pos template newName)) do
      assign newName (macrosOf (← templateOf env (w.eval env inner) template))
  | .importSome pos template names =>
    w.runs (.stmt (.importSome pos template names)) do
      importMacros pos (← templateOf env (w.eval env inner) template) names

/-- Runs statements one after the other. -/
def runBody (env : Environment ω) (inner : Option (Runner ω)) : List Stmt → Render ω Unit
  | [] => pure ()
  | s :: ss => do
    runStmt env inner s
    runBody env inner ss

end

/-! ## §5. Renders -/

/-- What code one level deeper is run with, where `n` more levels may be nested. -/
def innerRunner (env : Environment ω) : Nat → Option (Runner ω)
  | 0 => none
  | n + 1 => some ⟨w.eval env (innerRunner env n), w.runBody env (innerRunner env n)⟩

/-- What code is run with that may be nested `n` levels deeper. -/
def runner (env : Environment ω) (n : Nat) : Runner ω :=
  ⟨w.eval env (w.innerRunner env n), w.runBody env (w.innerRunner env n)⟩

/-- Renders a template from a state. -/
def renderFrom (env : Environment ω) (t : LiveTemplate) (s : RenderState ω) : RenderReport :=
  let (outcome, s) :=
    (Render.renderTemplate env (w.runner env maxDepth) t s.frame.scope []).run s
  ⟨outcome, s.output.written.reverse, s.requests.reverse⟩

/-- Renders a template that is at hand. -/
def renderTemplate (env : Environment ω) (t : Template) (context : Context ω)
    (room : Option Nat) : RenderReport :=
  let live : LiveTemplate := ⟨t, .entry⟩
  w.renderFrom env live (Environment.startState live context room [])

/-- Renders the template of a name. -/
def render (env : Environment ω) (name : String) (context : Context ω) (room : Option Nat) :
    RenderReport :=
  match env.template name with
  | .error failure => ⟨.error failure, [], [name]⟩
  | .ok t =>
    let live : LiveTemplate := ⟨t, .entry⟩
    w.renderFrom env live (Environment.startState live context room [name])

end Watch

end Stencil
