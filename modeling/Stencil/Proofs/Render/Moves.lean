import Stencil.Proofs.Render.Restoration

/-!
The moves that renders are made of.

Every part of the renderer is put together from a few moves in a few ways, and `Moves` says how: by
looking at the frame or changing it, by writing, by loading, by capturing what a part writes, by
running a part in another frame or one level deeper, and by running one part after another.  What
holds of all renders, because each move does its share, is an induction over `Moves`.

A derivation is data, so that what a render goes through on its way can be read off it.  It counts
the levels that code may still be nested; at the lowest one there is nothing that code one level
deeper could be run with.
-/

namespace Stencil.Render

variable {ω α β : Type}

/-! ## §1. Frames for a while -/

/-- Runs a part of a render in another frame.  The frame after it is made from the one before and
the one that the part leaves. -/
def inFrame (enter : Frame ω → Frame ω) (leave : Frame ω → Frame ω → Frame ω) (x : Render ω α) :
    Render ω α :=
  ExceptT.mk fun s =>
    let (result, t) := x.run { s with frame := enter s.frame }
    (result, { t with frame := leave s.frame t.frame })

/-- What a block does one level deeper. -/
def blockBody (runner : Runner ω) (name : String) (index : Nat) (r : BlockRef) : Render ω Unit :=
  inFrame (fun f => Frame.inBlock f name index r) Frame.afterBlock <|
    match r.block? with
    | some block => runner.body block.body
    | none => pure ()

/-- What a macro does once its frame is set up. -/
def macroBody (runner : Runner ω) (definition : MacroDef) (args : List (Value ω)) :
    Render ω (Value ω) := do
  let extra ← bindParams runner.eval definition.params args
  assign extraArgs (.array extra)
  rendered <$> capture (runner.body definition.body)

variable [HostObject ω]

/-! ## §2. Chains, turn by turn -/

/-- What an expression names as a template. -/
inductive Reference
  /-- The running template. -/
  | running
  | named (name : String)

/-- The template that an expression names, not loaded yet. -/
def reference (eval : Expr → Render ω (Value ω)) (e : Expr) : Render ω Reference := do
  if isSelf e then pure .running else pure (.named (← eval e).output)

/-- The template of a reference. -/
def resolve (env : Environment ω) : Reference → Render ω LiveTemplate
  | .running => do pure (← frame).template
  | .named name => load env name

theorem templateOf_eq (env : Environment ω) (eval : Expr → Render ω (Value ω)) (e : Expr) :
    templateOf env eval e = reference eval e >>= resolve env := by
  unfold templateOf reference
  split
  · rfl
  · simp [resolve]

/-- What the running template of a chain adds to the levels, and what it extends. -/
def followTurn (env : Environment ω) (runner : Runner ω) (levels : List Level) :
    Render ω (List Level × Option Reference) := do
  let current := (← frame).template
  let uses ← usedTemplates env runner.eval current.template.reuses
  let levels := ⟨current, uses⟩ :: levels
  match current.template.parent with
  | none => pure (levels, none)
  | some extended =>
    runner.body (current.template.body.filter isPreamble)
    pure (levels, some (← reference runner.eval extended.template))

/-- Goes on to a template that the running one extends, if its name has not been met, and gives
back the names met by then. -/
def stepChain (env : Environment ω) (names : List String) (r : Reference) :
    Render ω (List String) := do
  let parent ← resolve env r
  let names' := parent.name :: names
  if names.contains parent.name then fail (.extendsCycle names'.reverse)
  else
    changeFrame fun f => { f with template := parent }
    pure names'

/-- A turn of a chain that has met some names.  Unless it is the last one, it leaves the template
that the running one extends running, and the names met by then. -/
def chainTurn (env : Environment ω) (runner : Runner ω) (names : List String)
    (levels : List Level) : Render ω (List Level × Option (List String)) := do
  let (levels, r) ← followTurn env runner levels
  match r with
  | none => pure (levels, none)
  | some r => pure (levels, some (← stepChain env names r))

/-- A chain is followed in turns. -/
theorem followChain_succ (env : Environment ω) (runner : Runner ω) (n : Nat) (names : List String)
    (levels : List Level) :
    followChain env runner (n + 1) names levels = (do
      let (levels, more) ← chainTurn env runner names levels
      match more with
      | none => pure levels.reverse
      | some names => followChain env runner n names levels) := by
  simp only [followChain, followTurn, chainTurn, bind_assoc]
  congr 1
  funext f
  congr 1
  funext uses
  cases f.template.template.parent with
  | none => simp
  | some extended =>
    simp only [templateOf_eq, stepChain, bind_assoc, pure_bind]
    congr 1
    funext _
    congr 1
    funext r
    congr 1
    funext parent
    split <;> rfl

/-- The levels of the chain that starts with the running template. -/
def chain (env : Environment ω) (runner : Runner ω) : Render ω (List Level) := do
  let f ← frame
  followChain env runner env.patience [f.template.name] []

/-- The first of several templates that exists.  If there is none, this is an error unless it may be
missing, or nothing was asked for. -/
def seek (env : Environment ω) (optional : Bool) (names : List String) :
    Render ω (Option LiveTemplate) := do
  match ← loadFirst env none names with
  | .ok t => pure (some t)
  | .error none => pure none
  | .error (some e) => if optional then pure none else fail e

/-! ## §3. Moves -/

/-- What a render goes one level deeper for. -/
inductive Construct
  /-- An `include` or an `embed`. -/
  | inclusion
  | block
  | macroCall
deriving DecidableEq, Repr

/-- A construct with what it is opened for. -/
inductive Opening (ω : Type) : Type → Type
  | inclusion (t : LiveTemplate) (scope : Scope ω) (overrides : List (String × BlockRef)) :
    Opening ω Unit
  | block (name : String) (index : Nat) (r : BlockRef) : Opening ω Unit
  | macroCall (m : MacroRef) (definition : MacroDef) (args : List (Value ω)) :
    Opening ω (Value ω)

namespace Opening

def construct : Opening ω α → Construct
  | inclusion .. => .inclusion
  | block .. => .block
  | macroCall .. => .macroCall

/-- What is run while the construct is open. -/
def code (env : Environment ω) : Opening ω α → Runner ω → Render ω α
  | inclusion t scope overrides, runner => renderTemplate env runner t scope overrides
  | block name index r, runner => blockBody runner name index r
  | macroCall m definition args, runner =>
    within (fun f => Frame.forMacro f m) (macroBody runner definition args)

end Opening

/-- How a part of a render is made of moves, where code may be nested `n` levels deeper. -/
inductive Moves (env : Environment ω) : Nat → {α : Type} → Render ω α → Type 1
  | pure {n : Nat} {α : Type} (a : α) : Moves env n (Pure.pure a : Render ω α)
  | bind {n : Nat} {α β : Type} {x : Render ω α} {f : α → Render ω β} :
    Moves env n x → (∀ a, Moves env n (f a)) → Moves env n (x >>= f)
  | frame {n : Nat} : Moves env n Render.frame
  | changeFrame {n : Nat} (f : Frame ω → Frame ω) : Moves env n (Render.changeFrame f)
  /-- Code fails in many ways, but never on account of the limit. -/
  | failAt {n : Nat} {α : Type} (pos : Position) (kind : RenderErrorKind) :
    (∀ k, kind ≠ .recursionLimit k) → Moves env n (Render.failAt pos kind : Render ω α)
  | undefined {n : Nat} (pos : Position) (name : String) :
    Moves env n (Render.undefined env pos name)
  | write {n : Nat} (text : String) : Moves env n (Render.write text)
  | meet {n : Nat} (v : Value ω) : Moves env n (Render.meet v)
  | load {n : Nat} (name : String) : Moves env n (Render.load env name)
  | seek {n : Nat} (optional : Bool) (names : List String) :
    Moves env n (Render.seek env optional names)
  | capture {n : Nat} {x : Render ω Unit} : Moves env n x → Moves env n (Render.capture x)
  | leniently {n : Nat} {α : Type} {x : Render ω α} :
    Moves env n x → Moves env n (Render.leniently x)
  | inFrame {n : Nat} {α : Type} {x : Render ω α} (enter : Frame ω → Frame ω)
    (leave : Frame ω → Frame ω → Frame ω) :
    Moves env n x → Moves env n (Render.inFrame enter leave x)
  | chain {n : Nat} {runner : Runner ω} :
    runner.Restores → (∀ levels, Moves env n (followTurn env runner levels)) →
    Moves env n (Render.chain env runner)
  | deeper {n : Nat} {α : Type} {runner : Runner ω} (pos : Position) (o : Opening ω α) :
    Moves env n (o.code env runner) →
    Moves env (n + 1) (Render.deeper (some runner) pos (o.code env))
  | lowest {α : Type} (pos : Position) (o : Opening ω α) :
    Moves env 0 (Render.deeper none pos (o.code env))

/-- How all code that a runner runs is made of moves. -/
structure RunnerMoves (env : Environment ω) (n : Nat) (runner : Runner ω) where
  restores : runner.Restores
  eval : ∀ e, Moves env n (runner.eval e)
  body : ∀ ss, Moves env n (runner.body ss)

/-- The same for code one level deeper, if there is a level left. -/
inductive InnerMoves (env : Environment ω) : Nat → Option (Runner ω) → Type 1
  | none : InnerMoves env 0 none
  | some {n : Nat} {runner : Runner ω} :
    RunnerMoves env n runner → InnerMoves env (n + 1) (some runner)

variable {env : Environment ω} {n : Nat} {inner : Option (Runner ω)}

/-- Opening a construct, or not being allowed to. -/
def InnerMoves.opens (h : InnerMoves env n inner) (pos : Position) (o : Opening ω α)
    (ho : ∀ {m runner}, RunnerMoves env m runner → Moves env m (o.code env runner)) :
    Moves env n (deeper inner pos (o.code env)) :=
  match h with
  | .none => .lowest pos o
  | .some r => .deeper pos o (ho r)

namespace Moves

def map {x : Render ω α} (hx : Moves env n x) (f : α → β) : Moves env n (f <$> x) :=
  map_eq_pure_bind f x ▸ hx.bind fun a => .pure (f a)

def assign (name : String) (v : Value ω) : Moves env n (Render.assign name v) :=
  .changeFrame _

def ofCall (pos : Position) (name : String) :
    ∀ r : Except String α, Moves env n (Render.ofCall pos name r : Render ω α)
  | .ok a => .pure a
  | .error _ => .failAt pos _ nofun

def within {x : Render ω α} (f : Frame ω → Frame ω) (hx : Moves env n x) :
    Moves env n (Render.within f x) :=
  .inFrame f (fun before _ => before) hx

def inLayer {x : Render ω α} (layer : Table (Value ω)) (hx : Moves env n x) :
    Moves env n (Render.inLayer layer x) :=
  .inFrame (fun f => { f with scope := f.scope.push layer })
    (fun _ f => { f with scope := f.scope.pop }) hx

def lookup (pos : Position) (name : String) : Moves env n (Render.lookup env pos name) :=
  .bind .frame fun f =>
    match find? env f name with
    | some v => .pure v
    | none => .undefined pos name

end Moves

/-! ## §4. Blocks and macros -/

def RunnerMoves.blockBody {runner : Runner ω} (h : RunnerMoves env n runner) (name : String)
    (index : Nat) (r : BlockRef) : Moves env n (Render.blockBody runner name index r) :=
  .inFrame _ _ <|
    match r.block? with
    | some block => h.body block.body
    | none => .pure ()

def blockMoves (h : InnerMoves env n inner) (pos : Position) (name : String) (index : Nat)
    (r : BlockRef) : Moves env n (renderBlock inner pos name index r) :=
  h.opens pos (.block name index r) fun hrun => hrun.blockBody name index r

def slotMoves (h : InnerMoves env n inner) (pos : Position) (id : DefinitionId) :
    Moves env n (renderSlot inner pos id) :=
  .bind .frame fun f =>
    match f.template.template.blockAt? id with
    | none => .pure ()
    | some block => blockMoves h pos block.name 0 _

def parentMoves (h : InnerMoves env n inner) (pos : Position) :
    Moves env n (parentBlock inner pos) :=
  .bind .frame fun f =>
    match f.current.bind fun (name, index) =>
        (candidate? f name (index + 1)).map fun r => (name, index + 1, r) with
    | none => .failAt pos _ nofun
    | some (name, index, r) => (Moves.capture (blockMoves h pos name index r)).map _

def namedMoves (h : InnerMoves env n inner) (pos : Position) (name : String) :
    Moves env n (namedBlock inner pos name) :=
  .bind .frame fun f =>
    match blockNamed? f name with
    | none => .failAt pos _ nofun
    | some r => (Moves.capture (blockMoves h pos name 0 r)).map _

def paramsMoves {eval : Expr → Render ω (Value ω)} (heval : ∀ e, Moves env n (eval e)) :
    ∀ (params : List Param) (args : List (Value ω)), Moves env n (bindParams eval params args)
  | [], args => .pure args
  | param :: params, arg :: args =>
    .bind (.assign param.name arg) fun _ => paramsMoves heval params args
  | ⟨name, some fallback⟩ :: params, [] =>
    .bind (heval fallback) fun v => .bind (.assign name v) fun _ => paramsMoves heval params []
  | ⟨name, none⟩ :: params, [] =>
    .bind (.pure Value.null) fun v => .bind (.assign name v) fun _ => paramsMoves heval params []

def RunnerMoves.macroBody {runner : Runner ω} (h : RunnerMoves env n runner)
    (definition : MacroDef) (args : List (Value ω)) :
    Moves env n (Render.macroBody runner definition args) :=
  .bind (paramsMoves h.eval definition.params args) fun _ =>
    .bind (.assign _ _) fun _ => (Moves.capture (h.body definition.body)).map _

def macroMoves (h : InnerMoves env n inner) (pos : Position) (m : MacroRef)
    (args : List (Value ω)) : Moves env n (callMacro inner pos m args) := by
  unfold callMacro
  cases m.owner.template.macroAt? m.id with
  | none => exact .failAt pos _ nofun
  | some definition =>
    exact h.opens pos (.macroCall m definition args) fun hrun =>
      .within (fun f => Frame.forMacro f m) (hrun.macroBody definition args)

/-! ## §5. Expressions -/

def attributeMoves (pos : Position) (object key : Value ω) :
    Moves env n (attributeOf env pos object key) := by
  unfold attributeOf
  cases object.attribute? key with
  | none => exact .undefined pos _
  | some v =>
    cases object with
    | object => exact .meet v
    | _ => exact .pure v

def methodMoves (h : InnerMoves env n inner) (pos : Position) (object key : Value ω)
    (args : List (Value ω)) : Moves env n (callMethod inner pos object key args) := by
  unfold callMethod
  split
  · exact macroMoves h pos _ args
  · exact .bind (.ofCall pos _ _) fun v => .meet v
  · exact .failAt pos _ nofun

def filterMoves (pos : Position) (name : String) (subject : Value ω)
    {args : Render ω (List (Value ω))} (hargs : Moves env n args) :
    Moves env n (applyFilter env pos name subject args) := by
  unfold applyFilter
  cases env.filters.find? name with
  | none => exact .failAt pos _ nofun
  | some filter =>
    exact .bind hargs fun _ => .bind .frame fun _ => .bind (.ofCall pos name _) fun v => .meet v

def functionMoves (h : InnerMoves env n inner) (pos : Position) (name : String)
    {first : Render ω (Option (Value ω))} {args : Render ω (List (Value ω))}
    (hfirst : Moves env n first) (hargs : Moves env n args) :
    Moves env n (callFunction env inner pos name first args) := by
  unfold callFunction
  split
  · exact parentMoves h pos
  · split
    · exact .bind hfirst fun v => namedMoves h pos _
    · refine .bind .frame fun f => ?_
      cases macroNamed? f name with
      | some m => exact .bind hargs fun args => macroMoves h pos m args
      | none =>
        cases env.functions.find? name with
        | none => exact .failAt pos _ nofun
        | some function =>
          exact .bind hargs fun _ => .bind .frame fun _ =>
            .bind (.ofCall pos name _) fun v => .meet v

def testMoves (pos : Position) (name : String) {subject : Render ω (Value ω)}
    {args : Render ω (List (Value ω))} (hsubject : Moves env n subject)
    (hargs : Moves env n args) : Moves env n (applyTest env pos name subject args) := by
  unfold applyTest
  cases env.tests.find? name with
  | none => exact .failAt pos _ nofun
  | some test =>
    exact .bind hsubject fun _ => .bind hargs fun _ => .bind .frame fun _ =>
      .bind (.ofCall pos name _) fun b => .pure _

def binaryMoves (pos : Position) (op : BinaryOp) {left right : Render ω (Value ω)}
    (hleft : Moves env n left) (hright : Moves env n right) :
    Moves env n (applyBinary pos op left right) := by
  refine .bind hleft fun a => ?_
  -- `and` and `or` may leave the right operand alone; every other operator needs both.
  split
  · exact .pure _
  · exact .pure _
  · refine .bind hright fun b => ?_
    split
    · exact .pure _
    · exact .failAt pos _ nofun

section Eval

variable (h : InnerMoves env n inner)
include h

mutual

def evalMoves : ∀ e : Expr, Moves env n (eval env inner e)
  | .name pos name => .lookup pos name
  | .null _ | .bool .. | .number .. | .string .. => .pure _
  | .call pos name args => functionMoves h pos name (evalFirstMoves args) (evalAllMoves args)
  | .filter pos name [] => .failAt pos _ nofun
  | .filter pos name (subject :: args) => by
    rw [eval]
    split
    · exact .bind (.leniently (evalMoves subject)) fun v =>
        filterMoves pos name v (evalAllMoves args)
    · exact .bind (evalMoves subject) fun v => filterMoves pos name v (evalAllMoves args)
  | .test pos name subject args => by
    rw [eval]
    split
    · exact .bind (isDefinedMoves subject) fun b => .pure _
    · exact testMoves pos name (evalMoves subject) (evalAllMoves args)
  | .binary pos op left right => binaryMoves pos op (evalMoves left) (evalMoves right)
  | .unary _ op operand => .bind (evalMoves operand) fun v => .pure _
  | .group _ e => evalMoves e
  | .attribute pos object key =>
    .bind (evalMoves object) fun v => .bind (evalMoves key) fun k => attributeMoves pos v k
  | .method pos object key args =>
    .bind (evalMoves object) fun v => .bind (evalMoves key) fun k =>
      .bind (evalAllMoves args) fun args => methodMoves h pos v k args
  | .conditional _ cond whenTrue whenFalse => by
    refine .bind (evalMoves cond) fun v => ?_
    split
    · exact evalMoves whenTrue
    · exact evalMoves whenFalse
  | .hash _ entries => .bind (evalEntriesMoves entries []) fun table => .pure _
  | .array _ items => .bind (evalAllMoves items) fun vs => .pure _

def evalAllMoves : ∀ es : List Expr, Moves env n (evalAll env inner es)
  | [] => .pure _
  | e :: es => .bind (evalMoves e) fun _ => .bind (evalAllMoves es) fun _ => .pure _

def evalFirstMoves : ∀ es : List Expr, Moves env n (evalFirst env inner es)
  | [] => .pure _
  | e :: _ => .bind (evalMoves e) fun _ => .pure _

def evalEntriesMoves : ∀ (entries : List (Entry Expr)) (table : Table (Value ω)),
    Moves env n (evalEntries env inner entries table)
  | [], table => .pure table
  | ⟨_, key, value⟩ :: entries, _ =>
    .bind (evalMoves key) fun _ => .bind (evalMoves value) fun _ => evalEntriesMoves entries _

def isDefinedMoves : ∀ e : Expr, Moves env n (isDefined env inner e)
  | .name _ _ => .bind .frame fun _ => .pure _
  | .attribute _ object key =>
    .bind (.leniently (evalMoves object)) fun _ => .bind (evalMoves key) fun _ => .pure _
  | .group _ e => isDefinedMoves e
  -- Anything else counts as defined without a look at it.
  | .null _ | .bool .. | .number .. | .string .. | .call .. | .filter .. | .test .. | .binary ..
  | .unary .. | .method .. | .conditional .. | .hash .. | .array .. => .pure true

end

end Eval

/-! ## §6. Other templates -/

def templateMoves {eval : Expr → Render ω (Value ω)} (heval : ∀ e, Moves env n (eval e))
    (e : Expr) : Moves env n (templateOf env eval e) := by
  unfold templateOf
  split
  · exact .bind .frame fun f => .pure _
  · exact .bind (heval e) fun v => .load _

def usedMoves {eval : Expr → Render ω (Value ω)} (heval : ∀ e, Moves env n (eval e)) :
    ∀ reuses : List Reuse, Moves env n (usedTemplates env eval reuses)
  | [] => .pure _
  | reuse :: reuses =>
    .bind (templateMoves heval reuse.template) fun _ =>
      .bind (usedMoves heval reuses) fun _ => .pure _

def referenceMoves {eval : Expr → Render ω (Value ω)} (heval : ∀ e, Moves env n (eval e))
    (e : Expr) : Moves env n (reference eval e) := by
  unfold reference
  split
  · exact .pure _
  · exact .bind (heval e) fun v => .pure _

def RunnerMoves.followTurn {runner : Runner ω} (h : RunnerMoves env n runner)
    (levels : List Level) : Moves env n (Render.followTurn env runner levels) := by
  refine .bind .frame fun f => .bind (usedMoves h.eval _) fun uses => ?_
  split
  · exact .pure _
  · exact .bind (h.body _) fun _ => .bind (referenceMoves h.eval _) fun r => .pure _

def RunnerMoves.renderTemplate {runner : Runner ω} (h : RunnerMoves env n runner)
    (t : LiveTemplate) (scope : Scope ω) (overrides : List (String × BlockRef)) :
    Moves env n (Render.renderTemplate env runner t scope overrides) :=
  .inFrame (fun _ => Frame.forTemplate t scope) (fun before _ => before) <|
    .bind (.chain h.restores h.followTurn) fun _ =>
      .bind (.changeFrame _) fun _ => .bind .frame fun _ => h.body _

def targetMoves {eval : Expr → Render ω (Value ω)} (heval : ∀ e, Moves env n (eval e))
    (i : Inclusion) : Moves env n (inclusionTarget env eval i) := by
  unfold inclusionTarget
  split
  · exact .bind .frame fun f => .pure _
  · exact .bind (heval _) fun v => .seek i.ignoreMissing (candidateNames v)

def bindingsMoves {eval : Expr → Render ω (Value ω)} (heval : ∀ e, Moves env n (eval e))
    (i : Inclusion) : Moves env n (inclusionBindings eval i) := by
  unfold inclusionBindings
  cases i.bindings with
  | none => exact .pure _
  | some e =>
    refine .bind (heval e) fun v => ?_
    split
    · exact .pure _
    · exact .pure _
    · exact .failAt _ _ nofun

def inclusionMoves (h : InnerMoves env n inner) {eval : Expr → Render ω (Value ω)}
    (heval : ∀ e, Moves env n (eval e)) (i : Inclusion) (overrides : List (String × BlockRef)) :
    Moves env n (renderInclusion env inner eval i overrides) :=
  .bind (targetMoves heval i) fun target =>
    match target with
    | none => .pure _
    | some t =>
      .bind (bindingsMoves heval i) fun bindings => .bind .frame fun f =>
        h.opens i.position (.inclusion t (inclusionScope i.only bindings f.scope) overrides)
          fun hrun => hrun.renderTemplate t _ overrides

/-! ## §7. Statements -/

def roundsMoves (key : Option String) (value : String) (length : Nat) (parent : Option (Value ω))
    {body : Render ω Unit} (hbody : Moves env n body) :
    ∀ (index : Nat) (items : List (Value ω × Value ω)),
      Moves env n (runRounds key value length parent body index items)
  | _, [] => .pure _
  | index, _ :: items =>
    .bind (.inLayer _ hbody) fun _ =>
      roundsMoves key value length parent hbody (index + 1) items

def itemsMoves (v : Value ω) : Moves env n (itemsOf v) := by
  unfold itemsOf
  split
  · refine .bind (.meet _) fun w => ?_
    split <;> exact .pure _
  · exact .pure _

def loopMoves (key : Option String) (value : String) {iterable : Render ω (Value ω)}
    {body orElse : Render ω Unit} (hiterable : Moves env n iterable) (hbody : Moves env n body)
    (horElse : Moves env n orElse) : Moves env n (runLoop key value iterable body orElse) :=
  .bind hiterable fun v => .bind (itemsMoves v) fun items =>
    match items with
    | [] => horElse
    | _ :: _ => .bind .frame fun _ => roundsMoves key value _ _ hbody 0 _

def assignMoves : ∀ (names : List String) (vs : List (Value ω)), Moves env n (assignAll names vs)
  | [], _ => .pure _
  | _ :: _, [] => .pure _
  | name :: names, v :: vs => .bind (.assign name v) fun _ => assignMoves names vs

def importMoves (pos : Position) (t : LiveTemplate) :
    ∀ names : List (String × String), Moves env n (importMacros pos t names : Render ω Unit)
  | [] => .pure _
  | (name, newName) :: names => by
    unfold importMacros
    cases t.template.macroTable.find? name with
    | none => exact .failAt pos _ nofun
    | some id => exact .bind (.assign newName _) fun _ => importMoves pos t names

def filtersMoves (h : InnerMoves env n inner) :
    ∀ (calls : List FilterCall) (v : Value ω), Moves env n (applyFilters env inner calls v)
  | [], v => .pure v
  | call :: calls, v =>
    .bind (filterMoves call.position call.name v (evalAllMoves h call.args)) fun v =>
      filtersMoves h calls v

section Run

variable (h : InnerMoves env n inner)
include h

mutual

def stmtMoves : ∀ s : Stmt, Moves env n (runStmt env inner s)
  | .text _ text => .write text
  | .print _ e => .bind (evalMoves h e) fun v => .write _
  | .block pos id => slotMoves h pos id
  | .branch _ cond body orElse => by
    refine .bind (evalMoves h cond) fun v => ?_
    split
    · exact bodyMoves body
    · exact bodyMoves orElse
  | .loop _ key value iterable body orElse =>
    loopMoves key value (evalMoves h iterable) (bodyMoves body) (bodyMoves orElse)
  | .includes inclusion => inclusionMoves h (evalMoves h) inclusion []
  | .embeds inclusion blocks =>
    .bind .frame fun f => inclusionMoves h (evalMoves h) inclusion _
  | .reuses _ | .defines .. => .pure _
  | .assign _ targets values =>
    .bind (evalAllMoves h values) fun vs => assignMoves targets vs
  | .capture _ name body => .bind (.capture (bodyMoves body)) fun text => .assign name _
  | .perform _ e => .bind (evalMoves h e) fun v => .pure _
  | .filtered _ filters body =>
    .bind (.capture (bodyMoves body)) fun text =>
      .bind (filtersMoves h filters _) fun v => .write _
  | .importAll _ template newName =>
    .bind (templateMoves (evalMoves h) template) fun t => .assign newName _
  | .importSome pos template names =>
    .bind (templateMoves (evalMoves h) template) fun t => importMoves pos t names

def bodyMoves : ∀ ss : List Stmt, Moves env n (runBody env inner ss)
  | [] => .pure _
  | s :: ss => .bind (stmtMoves s) fun _ => bodyMoves ss

end

end Run

/-! ## §8. Levels -/

/-- The moves of all code with a number of levels left, from those of the code one level deeper. -/
def levelMoves (h : InnerMoves env n (innerRunner env n)) : RunnerMoves env n (runner env n) where
  restores :=
    ⟨keeps_eval env (innerRunner_restores env n), keeps_runBody env (innerRunner_restores env n)⟩
  eval := evalMoves h
  body := bodyMoves h

def innerRunnerMoves (env : Environment ω) : ∀ n : Nat, InnerMoves env n (innerRunner env n)
  | 0 => .none
  | n + 1 => .some (levelMoves (innerRunnerMoves env n))

def runnerMoves (env : Environment ω) (n : Nat) : RunnerMoves env n (runner env n) :=
  levelMoves (innerRunnerMoves env n)

/-- A render of a template is made of moves. -/
def renderMoves (env : Environment ω) (n : Nat) (t : LiveTemplate) (scope : Scope ω)
    (overrides : List (String × BlockRef)) :
    Moves env n (renderTemplate env (runner env n) t scope overrides) :=
  (runnerMoves env n).renderTemplate t scope overrides

end Stencil.Render
