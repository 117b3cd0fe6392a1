import Stencil.Render.Chain

/-!
Running statements.

Text and prints are written where they stand.  A loop runs its body once for each item, in the frame
it found plus one layer, so that nothing assigned in one round is visible in the next.  Imports bind
macros as values.
-/

namespace Stencil.Render

variable {ω : Type} [HostObject ω]

/-! ## §1. Loops -/

/-- What a loop tells about a round. -/
def loopInfo (index length : Nat) (parent : Option (Value ω)) : Value ω :=
  .map (Table.insertAll (Table.ofList [("index", Value.ofNat (index + 1)),
    ("index0", Value.ofNat index), ("revindex", Value.ofNat (length - index)),
    ("revindex0", Value.ofNat (length - index - 1)), ("first", .bool (index == 0)),
    ("last", .bool (length - index == 1)), ("length", Value.ofNat length)])
    (parent.toList.map fun v => ("parent", v)))

/-- The variable that holds what a loop tells. -/
def loopName : String := "loop"

/-- The layer of a round of a loop. -/
def loopLayer (key : Option String) (value : String) (info : Value ω) (item : Value ω × Value ω) :
    Table (Value ω) :=
  Table.ofList ([(value, item.2)] ++ (key.toList.map fun name => (name, item.1)) ++
    [(loopName, info)])

/-- The rounds of a loop from the item of an index on, out of `length` items. -/
def runRounds (key : Option String) (value : String) (length : Nat) (parent : Option (Value ω))
    (body : Render ω Unit) : Nat → List (Value ω × Value ω) → Render ω Unit
  | _, [] => pure ()
  | index, item :: items => do
    let layer := loopLayer key value (loopInfo index length parent) item
    inLayer layer body
    runRounds key value length parent body (index + 1) items

/-- The items of a value; what an object hands out is met here. -/
def itemsOf (v : Value ω) : Render ω (List (Value ω × Value ω)) := do
  match v with
  | .object .. =>
    match ← meet (.array (v.items.map Prod.snd)) with
    | .array items => pure (Value.indexed items)
    | _ => pure []
  | v => pure v.items

/-- A loop. -/
def runLoop (key : Option String) (value : String) (iterable : Render ω (Value ω))
    (body orElse : Render ω Unit) : Render ω Unit := do
  match ← itemsOf (← iterable) with
  | [] => orElse
  | items =>
    let parent := (← frame).scope.find? loopName
    runRounds key value items.length parent body 0 items

/-! ## §2. Imports and assignments -/

/-- Assigns values to names in order. -/
def assignAll : List String → List (Value ω) → Render ω Unit
  | name :: names, v :: vs => do
    assign name v
    assignAll names vs
  | _, _ => pure ()

/-- The macros of a template as a map. -/
def macrosOf (t : LiveTemplate) : Value ω :=
  .map (t.template.macroTable.map fun (name, id) => (name, .callable ⟨t, id⟩))

/-- Binds single macros of a template to names. -/
def importMacros (pos : Position) (t : LiveTemplate) : List (String × String) → Render ω Unit
  | [] => pure ()
  | (name, newName) :: names => do
    match t.template.macroTable.find? name with
    | none => failAt pos (.unknownMacro t.name name)
    | some id =>
      assign newName (.callable ⟨t, id⟩)
      importMacros pos t names

/-! ## §3. Filters -/

/-- Takes a value through filters, one after the other. -/
def applyFilters (env : Environment ω) (inner : Option (Runner ω)) :
    List FilterCall → Value ω → Render ω (Value ω)
  | [], v => pure v
  | call :: calls, v => do
    let v ← applyFilter env call.position call.name v (evalAll env inner call.args)
    applyFilters env inner calls v

/-! ## §4. Statements -/

mutual

/-- Runs a statement; `inner` is what code one level deeper is run with. -/
def runStmt (env : Environment ω) (inner : Option (Runner ω)) : Stmt → Render ω Unit
  | .text _ text => write text
  | .print _ e => do write (← eval env inner e).output
  | .block pos id => renderSlot inner pos id
  | .branch _ cond body orElse => do
    if (← eval env inner cond).truthy then runBody env inner body else runBody env inner orElse
  | .loop _ key value iterable body orElse =>
    runLoop key value (eval env inner iterable) (runBody env inner body) (runBody env inner orElse)
  | .includes inclusion => renderInclusion env inner (eval env inner) inclusion []
  | .embeds inclusion blocks => do
    renderInclusion env inner (eval env inner) inclusion ((← frame).template.blocks blocks)
  | .reuses _ => pure ()
  | .assign _ targets values => do assignAll targets (← evalAll env inner values)
  | .capture _ name body => do assign name (rendered (← capture (runBody env inner body)))
  | .perform _ e => do
    let _ ← eval env inner e
  | .filtered _ filters body => do
    let text ← capture (runBody env inner body)
    write (← applyFilters env inner filters (rendered text)).output
  | .defines _ _ => pure ()
  | .importAll _ template newName => do
    assign newName (macrosOf (← templateOf env (eval env inner) template))
  | .importSome pos template names => do
    importMacros pos (← templateOf env (eval env inner) template) names

/-- Runs statements one after the other. -/
def runBody (env : Environment ω) (inner : Option (Runner ω)) : List Stmt → Render ω Unit
  | [] => pure ()
  | s :: ss => do
    runStmt env inner s
    runBody env inner ss

end

/-! ## §5. Levels -/

/-- What code one level deeper is run with, where `n` more levels may be nested. -/
def innerRunner (env : Environment ω) : Nat → Option (Runner ω)
  | 0 => none
  | n + 1 => some ⟨eval env (innerRunner env n), runBody env (innerRunner env n)⟩

/-- What code is run with that may be nested `n` levels deeper. -/
def runner (env : Environment ω) (n : Nat) : Runner ω :=
  ⟨eval env (innerRunner env n), runBody env (innerRunner env n)⟩

end Stencil.Render
