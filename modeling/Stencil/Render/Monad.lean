import Stencil.Environment
import Stencil.Render.Composition
import Stencil.Render.Scope

/-!
What a render keeps, and the moves it is made of.

A render works in a frame: the template whose code runs, the variables it sees, and the blocks of
its composition.  Beside it there is what lasts for the whole render: the templates loaded so far,
the names that were requested, the output, and the number of objects met.  A render that fails
leaves its state behind, so that the output up to the failure is known.

Some constructs change the state for as long as they run: a block has a layer of its own, a loop has
one for each round, an operand may be evaluated leniently, and all nesting is counted.  Each of them
undoes its own change by hand when its code has ended, however it ended; this is what `ending` is
for.  A template that is included and a macro that is called get a frame of their own, and the
caller's frame is taken up again where it was left.
-/

namespace Stencil

/-! ## §1. State -/

/-- What the running code works in. -/
structure Frame (ω : Type) where
  /-- The template whose code runs. -/
  template : LiveTemplate
  scope : Scope ω
  /-- The blocks of the composition, once there is one. -/
  blocks : Option Composition
  /-- The block that is being rendered, and which of its definitions. -/
  current : Option (String × Nat)

/-- Output that takes whole texts, up to a number of them if there is a limit. -/
structure Output where
  /-- The texts written, the last one first. -/
  written : List String
  /-- How many more texts are taken. -/
  room : Option Nat
deriving DecidableEq, Repr

/-- The output as one text. -/
def Output.text (o : Output) : String :=
  String.join o.written.reverse

/-- The state of a render. -/
structure RenderState (ω : Type) where
  frame : Frame ω
  /-- How many includes, blocks and macro calls are open. -/
  depth : Nat
  /-- Whether undefined variables are null now, whatever the environment says. -/
  lenient : Bool
  /-- Templates loaded in this render, by name. -/
  loaded : Table LiveTemplate
  /-- Names that were requested, the last one first. -/
  requests : List String
  output : Output
  /-- How many objects the host has handed out in this render. -/
  met : Nat

/-- A part of a render. -/
abbrev Render (ω α : Type) := ExceptT Failure (StateM (RenderState ω)) α

namespace Render

variable {ω α : Type}

/-! ## §2. Frames -/

/-- The present frame. -/
def frame : Render ω (Frame ω) := do pure (← get).frame

/-- Changes the present frame. -/
def changeFrame (f : Frame ω → Frame ω) : Render ω Unit :=
  modify fun s => { s with frame := f s.frame }

/-- Runs a part of a render in a frame of its own, made from the present one. -/
def within (f : Frame ω → Frame ω) (x : Render ω α) : Render ω α :=
  ExceptT.mk fun s =>
    let (result, t) := x.run { s with frame := f s.frame }
    (result, { t with frame := s.frame })

/-- Runs a part of a render and changes the state when it has ended, with a result or without. -/
def ending (x : Render ω α) (f : RenderState ω → RenderState ω) : Render ω α :=
  ExceptT.mk fun s =>
    let (result, t) := x.run s
    (result, f t)

/-- Evaluates with undefined variables being null. -/
def leniently (x : Render ω α) : Render ω α := do
  let previous := (← get).lenient
  modify fun s => { s with lenient := true }
  ending x fun s => { s with lenient := previous }

/-- Assigns a variable. -/
def assign (name : String) (v : Value ω) : Render ω Unit :=
  changeFrame fun f => { f with scope := f.scope.assign name v }

/-- Runs a part of a render with a layer of its own. -/
def inLayer (layer : Table (Value ω)) (x : Render ω α) : Render ω α := do
  changeFrame fun f => { f with scope := f.scope.push layer }
  ending x fun s => { s with frame := { s.frame with scope := s.frame.scope.pop } }

/-! ## §3. Failures -/

/-- Stops with an error. -/
def fail (e : Error) : Render ω α := throw (.error e)

/-- Stops with an error at a place in the running template. -/
def failAt (pos : Position) (kind : RenderErrorKind) : Render ω α := do
  fail (.render (← frame).template.name pos kind)

/-- The result of a callback, or its failure under the name it was called by. -/
def ofCall (pos : Position) (name : String) : Except String α → Render ω α
  | .ok a => pure a
  | .error message => failAt pos (.call name message)

/-! ## §4. Output -/

/-- Writes a text; an empty one is not written at all. -/
def write (text : String) : Render ω Unit := do
  let s ← get
  if text.isEmpty then pure ()
  else
    match s.output.room with
    | some 0 => fail .outputClosed
    | room =>
      set { s with output := ⟨text :: s.output.written, room.map (· - 1)⟩ }

/-- Runs a part of a render and gives back what it writes instead of writing it. -/
def capture (x : Render ω Unit) : Render ω String :=
  ExceptT.mk fun s =>
    let (result, t) := x.run { s with output := ⟨[], none⟩ }
    (result.map fun _ => t.output.text, { t with output := s.output })

/-- A rendered text as a value; it needs no more escaping. -/
def rendered (text : String) : Value ω := .safe ⟨text, .all⟩

/-! ## §5. Objects -/

/-- Gives identities to objects that the host has just handed out. -/
def meet (v : Value ω) : Render ω (Value ω) := do
  let s ← get
  let (v, met) := v.identify .met s.met
  set { s with met := met }
  pure v

/-! ## §6. Templates -/

/-- The template of a name.  It is requested once in a render and then kept. -/
def load (env : Environment ω) (name : String) : Render ω LiveTemplate := do
  let s ← get
  match s.loaded.find? name with
  | some t => pure t
  | none =>
    set { s with requests := name :: s.requests }
    match env.source s.requests name with
    | .error e => fail e
    | .ok source =>
      match env.prepare name source with
      | .error failure => throw failure
      | .ok t =>
        let live : LiveTemplate := ⟨t, .loaded⟩
        modify fun s => { s with loaded := s.loaded.insert name live }
        pure live

/-- The template of a name, or the error that there is none. -/
def loadIfThere (env : Environment ω) (name : String) : Render ω (Except Error LiveTemplate) :=
  ExceptT.mk fun s =>
    match (load env name).run s with
    | (.ok t, s) => (.ok (.ok t), s)
    | (.error (.error e), s) => if e.isNotFound then (.ok (.error e), s) else (.error (.error e), s)
    | (.error .exhausted, s) => (.error .exhausted, s)

/-- The first of several templates that exists; the errors about those before it are dropped.  If
there is none, the error about the last one. -/
def loadFirst (env : Environment ω) : Option Error → List String →
    Render ω (Except (Option Error) LiveTemplate)
  | missing, [] => pure (.error missing)
  | _, name :: names => do
    match ← loadIfThere env name with
    | .ok t => pure (.ok t)
    | .error e => loadFirst env (some e) names

/-! ## §7. Variables -/

/-- Null for something undefined, or an error where that is not allowed. -/
def undefined (env : Environment ω) (pos : Position) (name : String) : Render ω (Value ω) := do
  if !(← get).lenient && env.undefined = .strict then failAt pos (.undefinedVariable name)
  else pure .null

/-- The name that always means the running template. -/
def selfName : String := "_self"

/-- The value of a name: a variable, a global, or the name of the running template. -/
def find? (env : Environment ω) (f : Frame ω) (name : String) : Option (Value ω) :=
  (f.scope.find? name).or ((env.globals.find? name).or
    (if name = selfName then some (.string f.template.name) else none))

/-- The value of a name, or what is done about undefined ones. -/
def lookup (env : Environment ω) (pos : Position) (name : String) : Render ω (Value ω) := do
  match find? env (← frame) name with
  | some v => pure v
  | none => undefined env pos name

/-! ## §8. Nesting -/

/-- How deep templates, blocks and macros may be nested. -/
def maxDepth : Nat := 64

/-- The parts of the renderer that code one level deeper is run with. -/
structure Runner (ω : Type) where
  eval : Expr → Render ω (Value ω)
  body : List Stmt → Render ω Unit

/-- Counts one more construct as open, if the limit allows it. -/
def enter (pos : Position) : Render ω Unit := do
  if maxDepth ≤ (← get).depth then failAt pos (.recursionLimit maxDepth)
  else modify fun s => { s with depth := s.depth + 1 }

/-- Counts one construct less as open. -/
def leave (s : RenderState ω) : RenderState ω :=
  { s with depth := s.depth - 1 }

/-- Goes one level deeper, with what code there is run with.  Where the count allows another level
there is always something to run its code with. -/
def deeper (inner : Option (Runner ω)) (pos : Position) (k : Runner ω → Render ω α) :
    Render ω α := do
  enter pos
  let body :=
    match inner with
    | some runner => k runner
    | none => throw .exhausted
  ending body leave

end Render

end Stencil
