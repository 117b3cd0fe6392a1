import Stencil.Proofs.Render.Keeps

/-!
Everything a render changes on its way is put back.

Blocks, rounds of loops, lenient operands and the count of open constructs change the state by hand
and undo the change by hand, on every way out.  Here each of these constructs is shown to undo
exactly its own change, given that the code inside keeps the surroundings; an induction over
expressions and statements, inside one over the levels that are left, closes the circle.

The result is `run_restores`: statements keep the surroundings, and evaluating an expression,
rendering a slot or an inclusion, and a loop that has rounds keep the whole standing.
-/

namespace Stencil.Render

open RenderState

variable {ω α : Type}

/-! ## §1. Moves -/

theorem keeps_write (text : String) : Keeps standing (write text : Render ω Unit) :=
  Keeps.write text fun _ _ => rfl

theorem keeps_meet (v : Value ω) : Keeps standing (meet v) := by
  apply Keeps.get_bind
  intro s
  rw [run_bind_ok (run_set _ _)]
  rfl

/-- Without passes a template is what is parsed. -/
theorem prepare_empty {source : TemplateSource} {n : Nat} {name text : String} {t : Template}
    (hparse : Template.parse name text = .ok t) :
    (Environment.empty source n : Environment ω).prepare name text = .ok t := by
  rw [Environment.prepare, hparse]
  rfl

theorem template_empty {source : TemplateSource} {n : Nat} {name text : String} {t : Template}
    (hsource : source [] name = .ok text) (hparse : Template.parse name text = .ok t) :
    (Environment.empty source n : Environment ω).template name = .ok t := by
  have htext : (Environment.empty source n : Environment ω).source [] name = .ok text := hsource
  rw [Environment.template, htext]
  exact prepare_empty hparse

/-- A template that is not loaded yet is asked for, which counts as a request, found or not. -/
theorem run_load (env : Environment ω) (name : String) (s : RenderState ω) :
    (load env name).run s =
      match s.loaded.find? name with
      | some t => (.ok t, s)
      | none =>
        match env.source s.requests name with
        | .error e => (.error (.error e), { s with requests := name :: s.requests })
        | .ok source =>
          match env.prepare name source with
          | .error failure => (.error failure, { s with requests := name :: s.requests })
          | .ok t =>
            (.ok ⟨t, .loaded⟩,
              { s with
                requests := name :: s.requests
                loaded := s.loaded.insert name ⟨t, .loaded⟩ }) := by
  rw [load, run_bind_ok (run_get s)]
  cases s.loaded.find? name with
  | some t => rfl
  | none =>
    simp only [run_bind_ok (run_set _ _)]
    cases env.source s.requests name with
    | error e => rfl
    | ok source =>
      simp only
      cases env.prepare name source <;> rfl

/-- Nothing but what is loaded and what was requested is looked at, so something else may as well be
changed afterwards. -/
theorem run_load_change (env : Environment ω) (name : String)
    (change : RenderState ω → RenderState ω)
    (hchange : ∀ (s : RenderState ω) loaded requests,
      change { s with loaded := loaded, requests := requests } =
        { change s with loaded := loaded, requests := requests }) (s : RenderState ω) :
    (load env name).run (change s) =
      (((load env name).run s).1, change ((load env name).run s).2) := by
  have hloaded : (change s).loaded = s.loaded :=
    congrArg (·.loaded) (hchange s s.loaded s.requests)
  have hrequests : (change s).requests = s.requests :=
    congrArg (·.requests) (hchange s s.loaded s.requests)
  rw [run_load, run_load, hloaded, hrequests]
  cases s.loaded.find? name with
  | some t => rfl
  | none =>
    dsimp only
    cases env.source s.requests name with
    | error e => exact congrArg (Prod.mk _) (hchange s _ _).symm
    | ok source =>
      dsimp only
      cases env.prepare name source with
      | error failure => exact congrArg (Prod.mk _) (hchange s _ _).symm
      | ok t => exact congrArg (Prod.mk _) (hchange s _ _).symm

theorem keeps_load (env : Environment ω) (name : String) : Keeps standing (load env name) := by
  intro s
  rw [run_load]
  cases s.loaded.find? name with
  | some t => rfl
  | none =>
    simp only
    cases env.source s.requests name with
    | error e => rfl
    | ok source =>
      simp only
      cases env.prepare name source <;> rfl

/-- What asking for a template that may be missing makes of the outcome of asking for it. -/
def orMissing (r : Except Failure LiveTemplate) : Except Failure (Except Error LiveTemplate) :=
  match r with
  | .ok t => .ok (.ok t)
  | .error (.error e) => if e.isNotFound then .ok (.error e) else .error (.error e)
  | .error .exhausted => .error .exhausted

theorem run_loadIfThere (env : Environment ω) (name : String) (s : RenderState ω) :
    (loadIfThere env name).run s =
      (orMissing ((load env name).run s).1, ((load env name).run s).2) := by
  simp only [loadIfThere, ExceptT.run, ExceptT.mk]
  rcases load env name s with ⟨(e | _) | t, u⟩
  · by_cases he : e.isNotFound <;> simp [orMissing, he]
  · rfl
  · rfl

theorem keeps_loadIfThere (env : Environment ω) (name : String) :
    Keeps standing (loadIfThere env name) := by
  intro s
  rw [run_loadIfThere]
  exact keeps_load env name s

theorem keeps_loadFirst (env : Environment ω) (missing : Option Error) (names : List String) :
    Keeps standing (loadFirst env missing names) := by
  induction names generalizing missing with
  | nil => exact Keeps.pure _
  | cons name names ih =>
    -- A missing template hands over to the next name, any other way out ends the search.
    apply Keeps.bind (keeps_loadIfThere env name)
    intro r
    cases r with
    | error e => exact ih (some e)
    | ok t => exact Keeps.pure _

theorem keeps_undefined {σ : Type} {view : RenderState ω → σ} (env : Environment ω)
    (pos : Position) (name : String) : Keeps view (undefined env pos name) := by
  apply Keeps.bind Keeps.get
  intro s
  split
  · exact Keeps.failAt pos _
  · exact Keeps.pure _

theorem keeps_lookup (env : Environment ω) (pos : Position) (name : String) :
    Keeps standing (lookup env pos name) := by
  apply Keeps.bind Keeps.frame
  intro f
  split
  · exact Keeps.pure _
  · exact keeps_undefined env pos name

theorem keeps_assign (name : String) (v : Value ω) : Keeps surroundings (assign name v) :=
  fun _ => rfl

/-! ## §2. Constructs that undo a change -/

/-- The flag is as it was after a lenient operand. -/
theorem keeps_leniently {x : Render ω α} (hx : Keeps standing x) :
    Keeps standing (leniently x) := by
  intro s
  have h := standing_eq_iff.mp (hx { s with lenient := true })
  show standing { (x.run { s with lenient := true }).2 with lenient := s.lenient } = standing s
  exact standing_eq_iff.mpr ⟨h.1, h.2.1, rfl⟩

/-- A layer goes off again after the code that it was put on for. -/
theorem keeps_inLayer (layer : Table (Value ω)) {x : Render ω α} (hx : Keeps surroundings x) :
    Keeps standing (inLayer layer x) := by
  intro s
  let pushed : RenderState ω :=
    { s with frame := { s.frame with scope := s.frame.scope.push layer } }
  -- The code knows the scope with the layer on top, so it hands back the layers below that one:
  -- those are the layers of `s`.
  obtain ⟨template, root, below, blocks, current, depth, lenient⟩ :=
    surroundings_eq_iff.mp (hx pushed)
  show standing { (x.run pushed).2 with frame :=
    { (x.run pushed).2.frame with scope := (x.run pushed).2.frame.scope.pop } } = standing s
  have scope : (x.run pushed).2.frame.scope.pop = s.frame.scope :=
    Scope.pop_eq_of_below root below
  refine standing_eq_iff.mpr ⟨?_, depth, lenient⟩
  simp only [scope, template, blocks, current, pushed]

/-- A frame of its own leaves the present one alone. -/
theorem keeps_within (f : Frame ω → Frame ω) {x : Render ω α}
    (hx : Keeps (Standing.counts ∘ standing) x) : Keeps standing (within f x) := by
  intro s
  have h := hx { s with frame := f s.frame }
  simp only [Function.comp_apply, Standing.counts, standing, Prod.mk.injEq] at h
  exact standing_eq_iff.mpr ⟨rfl, h.1, h.2⟩

/-- The count is as it was after a construct, and after one that the limit does not allow. -/
theorem keeps_deeper {inner : Option (Runner ω)} (pos : Position) {k : Runner ω → Render ω α}
    (hk : ∀ runner, inner = some runner → Keeps standing (k runner)) :
    Keeps standing (deeper inner pos k) := by
  intro s
  rcases Nat.lt_or_ge s.depth maxDepth with h | h
  · rw [run_deeper_of_lt inner pos k h, run_ending]
    -- The count comes back to what it was by subtraction, so it must not have changed inside.
    cases inner with
    | none => exact standing_eq_iff.mpr ⟨rfl, Nat.add_sub_cancel .., rfl⟩
    | some runner =>
      have hr := standing_eq_iff.mp (hk runner rfl { s with depth := s.depth + 1 })
      refine standing_eq_iff.mpr ⟨hr.1, ?_, hr.2.2⟩
      rw [leave, hr.2.1]
      exact Nat.add_sub_cancel ..
  · rw [run_deeper_of_limit inner pos k h]

/-! ## §3. Blocks and macros -/

/-- Code run by this runner puts back what it changes. -/
structure Runner.Restores (runner : Runner ω) : Prop where
  eval : ∀ e, Keeps standing (runner.eval e)
  body : ∀ stmts, Keeps surroundings (runner.body stmts)

/-- So does code one level deeper, if there is a level left. -/
def InnerRestores (inner : Option (Runner ω)) : Prop :=
  ∀ runner, inner = some runner → runner.Restores

variable {inner : Option (Runner ω)}

/-- The frame is put together again after a block: the layer goes off, and the template and the
block that were running come back. -/
theorem keeps_renderBlock (hinner : InnerRestores inner) (pos : Position) (name : String)
    (index : Nat) (r : BlockRef) : Keeps standing (renderBlock inner pos name index r) := by
  apply keeps_deeper pos
  intro runner hr s
  let entered : RenderState ω := { s with frame := Frame.inBlock s.frame name index r }
  -- Written for any body, as a block that its module has lost runs nothing.
  have hbody : ∀ body : Render ω Unit, Keeps surroundings body →
      standing { (body.run entered).2 with
        frame := Frame.afterBlock s.frame (body.run entered).2.frame } = standing s := by
    intro body hb
    -- Template and running block are set back from `s` itself, so what they are inside is of no
    -- matter; scope and table of blocks are not.
    obtain ⟨-, root, below, blocks, -, depth, lenient⟩ := surroundings_eq_iff.mp (hb entered)
    have scope : (body.run entered).2.frame.scope.pop = s.frame.scope :=
      Scope.pop_eq_of_below root below
    refine standing_eq_iff.mpr ⟨?_, depth, lenient⟩
    show Frame.afterBlock s.frame (body.run entered).2.frame = s.frame
    rw [Frame.afterBlock, scope, blocks]
    rfl
  rw [run_bind_ok (run_frame s), run_bind_ok (run_changeFrame _ s), run_ending]
  cases r.block? with
  | none => exact hbody (pure ()) (Keeps.pure ())
  | some block => exact hbody (runner.body block.body) ((hinner runner hr).body block.body)

theorem keeps_renderSlot (hinner : InnerRestores inner) (pos : Position) (id : DefinitionId) :
    Keeps standing (renderSlot inner pos id) := by
  apply Keeps.bind Keeps.frame
  intro f
  cases f.template.template.blockAt? id with
  | none => exact Keeps.pure _
  | some block => exact keeps_renderBlock hinner pos block.name 0 _

theorem keeps_parentBlock (hinner : InnerRestores inner) (pos : Position) :
    Keeps standing (parentBlock inner pos) := by
  apply Keeps.bind Keeps.frame
  intro f
  split
  · exact Keeps.failAt pos _
  · exact (Keeps.capture (keeps_renderBlock hinner pos _ _ _) fun _ _ => rfl).map _

theorem keeps_namedBlock (hinner : InnerRestores inner) (pos : Position) (name : String) :
    Keeps standing (namedBlock inner pos name) := by
  apply Keeps.bind Keeps.frame
  intro f
  cases blockNamed? f name with
  | none => exact Keeps.failAt pos _
  | some r => exact (Keeps.capture (keeps_renderBlock hinner pos name 0 r) fun _ _ => rfl).map _

theorem keeps_bindParams {eval : Expr → Render ω (Value ω)} (heval : ∀ e, Keeps standing (eval e))
    (params : List Param) (args : List (Value ω)) :
    Keeps surroundings (bindParams eval params args) := by
  induction params generalizing args with
  | nil => exact Keeps.pure _
  | cons param params ih =>
    cases args with
    | cons arg args => exact Keeps.bind (keeps_assign _ _) fun _ => ih args
    | nil =>
      -- Too few arguments: the fallback or null stands in for each parameter left.
      have hassign : ∀ v, Keeps surroundings (do
          assign param.name v
          bindParams eval params []) :=
        fun v => Keeps.bind (keeps_assign _ _) fun _ => ih []
      unfold bindParams
      cases param.fallback with
      | none => exact Keeps.bind (Keeps.pure _) hassign
      | some fallback => exact Keeps.bind (heval fallback).toSurroundings hassign

/-- A macro runs in a frame of its own, of which only the counts come back to the caller. -/
theorem keeps_callMacro (hinner : InnerRestores inner) (pos : Position) (m : MacroRef)
    (args : List (Value ω)) : Keeps standing (callMacro inner pos m args) := by
  unfold callMacro
  cases m.owner.template.macroAt? m.id with
  | none => exact Keeps.failAt pos _
  | some definition =>
    refine keeps_deeper pos fun runner hr => keeps_within _ ?_
    have hrun := hinner runner hr
    -- Binding assigns into the innermost layer of the new frame, so the surroundings are all that
    -- is kept in there, and more than the caller needs.
    have h : Keeps surroundings (do
        let extra ← bindParams runner.eval definition.params args
        assign extraArgs (.array extra)
        (rendered <$> capture (runner.body definition.body) : Render ω (Value ω))) := by
      apply Keeps.bind (keeps_bindParams hrun.eval definition.params args)
      intro extra
      apply Keeps.bind (keeps_assign _ _)
      intro _
      exact (Keeps.capture (hrun.body definition.body) fun _ _ => rfl).map _
    exact h.mono Standing.counts

/-! ## §4. Expressions -/

variable (env : Environment ω)

theorem keeps_attributeOf [HostObject ω] (pos : Position) (object key : Value ω) :
    Keeps standing (attributeOf env pos object key) := by
  unfold attributeOf
  cases object.attribute? key with
  | none => exact keeps_undefined env pos _
  | some v =>
    cases object with
    | object identity host => exact keeps_meet v
    | _ => exact Keeps.pure v

theorem keeps_callMethod [HostObject ω] (hinner : InnerRestores inner) (pos : Position)
    (object key : Value ω) (args : List (Value ω)) :
    Keeps standing (callMethod inner pos object key args) := by
  unfold callMethod
  split
  · exact keeps_callMacro hinner pos _ args
  · exact Keeps.bind (Keeps.ofCall pos _ _) fun v => keeps_meet v
  · exact Keeps.failAt pos _

theorem keeps_applyFilter (pos : Position) (name : String) (subject : Value ω)
    {args : Render ω (List (Value ω))} (hargs : Keeps standing args) :
    Keeps standing (applyFilter env pos name subject args) := by
  unfold applyFilter
  cases env.filters.find? name with
  | none => exact Keeps.failAt pos _
  | some filter =>
    refine Keeps.bind hargs fun args => Keeps.bind Keeps.frame fun f => ?_
    exact Keeps.bind (Keeps.ofCall pos name _) fun v => keeps_meet v

theorem keeps_callFunction [HostObject ω] (hinner : InnerRestores inner) (pos : Position)
    (name : String) {first : Render ω (Option (Value ω))} {args : Render ω (List (Value ω))}
    (hfirst : Keeps standing first) (hargs : Keeps standing args) :
    Keeps standing (callFunction env inner pos name first args) := by
  unfold callFunction
  -- `parent` and `block` come before macros, and macros before the functions of the host.
  split
  · exact keeps_parentBlock hinner pos
  · split
    · exact Keeps.bind hfirst fun v => keeps_namedBlock hinner pos _
    · apply Keeps.bind Keeps.frame
      intro f
      cases macroNamed? f name with
      | some m => exact Keeps.bind hargs fun args => keeps_callMacro hinner pos m args
      | none =>
        cases env.functions.find? name with
        | none => exact Keeps.failAt pos _
        | some function =>
          refine Keeps.bind hargs fun args => Keeps.bind Keeps.frame fun f => ?_
          exact Keeps.bind (Keeps.ofCall pos name _) fun v => keeps_meet v

theorem keeps_applyTest (pos : Position) (name : String) {subject : Render ω (Value ω)}
    {args : Render ω (List (Value ω))} (hsubject : Keeps standing subject)
    (hargs : Keeps standing args) : Keeps standing (applyTest env pos name subject args) := by
  unfold applyTest
  cases env.tests.find? name with
  | none => exact Keeps.failAt pos _
  | some test =>
    refine Keeps.bind hsubject fun v => Keeps.bind hargs fun args => ?_
    apply Keeps.bind Keeps.frame
    intro f
    exact Keeps.bind (Keeps.ofCall pos name _) fun b => Keeps.pure _

theorem keeps_applyBinary [HostObject ω] (pos : Position) (op : BinaryOp)
    {left right : Render ω (Value ω)} (hleft : Keeps standing left)
    (hright : Keeps standing right) : Keeps standing (applyBinary pos op left right) := by
  apply Keeps.bind hleft
  intro a
  -- `and` and `or` may leave the right operand alone; every other operator needs both.
  split
  · exact Keeps.pure _
  · exact Keeps.pure _
  · refine Keeps.bind hright fun b => ?_
    split
    · exact Keeps.pure _
    · exact Keeps.failAt pos _

section Eval

variable [HostObject ω] (hinner : InnerRestores inner)
include hinner

set_option linter.unusedSectionVars false in
mutual

/-- Evaluating an expression keeps the standing. -/
theorem keeps_eval : ∀ e : Expr, Keeps standing (eval env inner e)
  | .name pos name => by
    rw [eval]
    exact keeps_lookup env pos name
  | .null _ | .bool .. | .number .. | .string .. => by
    rw [eval]
    exact Keeps.pure _
  | .call pos name args => by
    rw [eval]
    exact keeps_callFunction env hinner pos name (keeps_evalFirst args) (keeps_evalAll args)
  | .filter pos name [] => by
    rw [eval]
    exact Keeps.failAt pos _
  | .filter pos name (subject :: args) => by
    -- `default` has its subject evaluated leniently, the other filters do not.
    have hfilter : ∀ v, Keeps standing (applyFilter env pos name v (evalAll env inner args)) :=
      fun v => keeps_applyFilter env pos name v (keeps_evalAll args)
    rw [eval]
    split
    · exact Keeps.bind (keeps_leniently (keeps_eval subject)) hfilter
    · exact Keeps.bind (keeps_eval subject) hfilter
  | .test pos name subject args => by
    rw [eval]
    split
    · exact Keeps.bind (keeps_isDefined subject) fun b => Keeps.pure _
    · exact keeps_applyTest env pos name (keeps_eval subject) (keeps_evalAll args)
  | .binary pos op left right => by
    rw [eval]
    exact keeps_applyBinary pos op (keeps_eval left) (keeps_eval right)
  | .unary _ op operand => by
    rw [eval]
    exact Keeps.bind (keeps_eval operand) fun v => Keeps.pure _
  | .group _ e => by
    rw [eval]
    exact keeps_eval e
  | .attribute pos object key => by
    rw [eval]
    refine Keeps.bind (keeps_eval object) fun v => Keeps.bind (keeps_eval key) fun k => ?_
    exact keeps_attributeOf env pos v k
  | .method pos object key args => by
    rw [eval]
    refine Keeps.bind (keeps_eval object) fun v => Keeps.bind (keeps_eval key) fun k => ?_
    exact Keeps.bind (keeps_evalAll args) fun args => keeps_callMethod hinner pos v k args
  | .conditional _ cond whenTrue whenFalse => by
    rw [eval]
    apply Keeps.bind (keeps_eval cond)
    intro v
    split
    · exact keeps_eval whenTrue
    · exact keeps_eval whenFalse
  | .hash _ entries => by
    rw [eval]
    exact Keeps.bind (keeps_evalEntries entries []) fun table => Keeps.pure _
  | .array _ items => by
    rw [eval]
    exact Keeps.bind (keeps_evalAll items) fun vs => Keeps.pure _

theorem keeps_evalAll : ∀ es : List Expr, Keeps standing (evalAll env inner es)
  | [] => by
    rw [evalAll]
    exact Keeps.pure _
  | e :: es => by
    rw [evalAll]
    exact Keeps.bind (keeps_eval e) fun v => Keeps.bind (keeps_evalAll es) fun vs => Keeps.pure _

theorem keeps_evalFirst : ∀ es : List Expr, Keeps standing (evalFirst env inner es)
  | [] => by
    rw [evalFirst]
    exact Keeps.pure _
  | e :: es => by
    rw [evalFirst]
    exact Keeps.bind (keeps_eval e) fun v => Keeps.pure _

theorem keeps_evalEntries : ∀ (entries : List (Entry Expr)) (table : Table (Value ω)),
    Keeps standing (evalEntries env inner entries table)
  | [], table => by
    rw [evalEntries]
    exact Keeps.pure _
  | ⟨_, key, value⟩ :: entries, table => by
    rw [evalEntries]
    refine Keeps.bind (keeps_eval key) fun k => Keeps.bind (keeps_eval value) fun v => ?_
    exact keeps_evalEntries entries _

theorem keeps_isDefined : ∀ e : Expr, Keeps standing (isDefined env inner e)
  | .name _ name => by
    rw [isDefined]
    exact Keeps.bind Keeps.frame fun f => Keeps.pure _
  | .attribute _ object key => by
    rw [isDefined]
    apply Keeps.bind (keeps_leniently (keeps_eval object))
    intro v
    exact Keeps.bind (keeps_eval key) fun k => Keeps.pure _
  | .group _ e => by
    rw [isDefined]
    exact keeps_isDefined e
  -- Anything else counts as defined without a look at it.
  | .null _ | .bool .. | .number .. | .string .. | .call .. | .filter .. | .test .. | .binary ..
  | .unary .. | .method .. | .conditional .. | .hash .. | .array .. => by
    simpa only [isDefined] using Keeps.pure true

end

end Eval

/-! ## §5. Other templates -/

theorem keeps_templateOf [HostObject ω] {eval : Expr → Render ω (Value ω)}
    (heval : ∀ e, Keeps standing (eval e)) (e : Expr) : Keeps standing (templateOf env eval e) := by
  unfold templateOf
  split
  · exact Keeps.bind Keeps.frame fun f => Keeps.pure _
  · exact Keeps.bind (heval e) fun v => keeps_load env _

theorem keeps_usedTemplates [HostObject ω] {eval : Expr → Render ω (Value ω)}
    (heval : ∀ e, Keeps standing (eval e)) (reuses : List Reuse) :
    Keeps standing (usedTemplates env eval reuses) := by
  induction reuses with
  | nil => exact Keeps.pure _
  | cons reuse reuses ih =>
    apply Keeps.bind (keeps_templateOf env heval reuse.template)
    intro t
    exact Keeps.bind ih fun more => Keeps.pure _

/-- Following a chain changes which template runs, but not the counts. -/
theorem keeps_followChain [HostObject ω] {runner : Runner ω} (hrun : runner.Restores) (n : Nat)
    (names : List String) (levels : List Level) :
    Keeps (Standing.counts ∘ standing) (followChain env runner n names levels) := by
  -- The induction is on the length that a chain may have: the parent takes the place of the
  -- template in the frame, which is why only the counts are kept here.
  induction n generalizing names levels with
  | zero => exact Keeps.throw _
  | succ n ih =>
    have hrest : ∀ (parent : LiveTemplate) (names : List String) (levels : List Level),
        Keeps (Standing.counts ∘ standing) (do
          changeFrame fun f => { f with template := parent }
          followChain env runner n names levels : Render ω (List Level)) :=
      fun parent names levels => Keeps.bind (fun _ => rfl) fun _ => ih names levels
    apply Keeps.bind Keeps.frame
    intro f
    apply Keeps.bind ((keeps_usedTemplates env hrun.eval _).mono _)
    intro uses
    split
    · exact Keeps.pure _
    · refine Keeps.bind ((hrun.body _).mono Standing.counts) fun _ => ?_
      refine Keeps.bind ((keeps_templateOf env hrun.eval _).mono _) fun parent => ?_
      split
      · exact Keeps.fail _
      · exact hrest parent _ _

/-- A chain is followed to a template that extends nothing. -/
theorem parent_of_followChain [HostObject ω] {runner : Runner ω} (hrun : runner.Restores) {n : Nat}
    {names : List String} {levels levels' : List Level} {s t : RenderState ω}
    (h : (followChain env runner n names levels).run s = (.ok levels', t)) :
    t.frame.template.template.parent = none := by
  induction n generalizing names levels s with
  | zero => cases h
  | succ n ih =>
    rw [followChain, run_bind_ok (run_frame s)] at h
    obtain ⟨uses, u, huses, h⟩ := run_bind_eq_ok h
    -- Evaluating the names of the used templates leaves the frame as it was.
    have hframe : u.frame = s.frame := by
      have hkeeps := keeps_usedTemplates env hrun.eval s.frame.template.template.reuses s
      rw [huses] at hkeeps
      exact (RenderState.standing_eq_iff.mp hkeeps).1
    cases hparent : s.frame.template.template.parent with
    | none =>
      simp only [hparent] at h
      cases h
      rw [hframe, hparent]
    | some extended =>
      simp only [hparent] at h
      obtain ⟨_, _, _, h⟩ := run_bind_eq_ok h
      obtain ⟨parent, _, _, h⟩ := run_bind_eq_ok h
      by_cases hmet : names.contains parent.name
      · simp only [hmet, if_true] at h
        cases h
      · simp only [hmet] at h
        obtain ⟨_, _, _, h⟩ := run_bind_eq_ok h
        exact ih h

theorem keeps_renderTemplate [HostObject ω] {runner : Runner ω} (hrun : runner.Restores)
    (t : LiveTemplate) (scope : Scope ω) (overrides : List (String × BlockRef)) :
    Keeps standing (renderTemplate env runner t scope overrides) := by
  apply keeps_within _
  apply Keeps.bind (keeps_followChain env hrun _ _ _)
  intro levels
  refine Keeps.bind (fun _ => rfl) fun _ => Keeps.bind Keeps.frame fun f => ?_
  exact (hrun.body _).mono Standing.counts

theorem keeps_inclusionTarget [HostObject ω] {eval : Expr → Render ω (Value ω)}
    (heval : ∀ e, Keeps standing (eval e)) (i : Inclusion) :
    Keeps standing (inclusionTarget env eval i) := by
  unfold inclusionTarget
  split
  · exact Keeps.bind Keeps.frame fun f => Keeps.pure _
  · refine Keeps.bind (heval _) fun v => Keeps.bind (keeps_loadFirst env none _) fun r => ?_
    split
    · exact Keeps.pure _
    · exact Keeps.pure _
    · split
      · exact Keeps.pure _
      · exact Keeps.fail _

theorem keeps_inclusionBindings {eval : Expr → Render ω (Value ω)}
    (heval : ∀ e, Keeps standing (eval e)) (i : Inclusion) :
    Keeps standing (inclusionBindings eval i) := by
  unfold inclusionBindings
  cases i.bindings with
  | none => exact Keeps.pure _
  | some e =>
    apply Keeps.bind (heval e)
    intro v
    split
    · exact Keeps.pure _
    · exact Keeps.pure _
    · exact Keeps.failAt _ _

theorem keeps_renderInclusion [HostObject ω] (hinner : InnerRestores inner)
    {eval : Expr → Render ω (Value ω)} (heval : ∀ e, Keeps standing (eval e)) (i : Inclusion)
    (overrides : List (String × BlockRef)) :
    Keeps standing (renderInclusion env inner eval i overrides) := by
  apply Keeps.bind (keeps_inclusionTarget env heval i)
  intro target
  cases target with
  | none => exact Keeps.pure _
  | some t =>
    apply Keeps.bind (keeps_inclusionBindings heval i)
    intro bindings
    refine Keeps.bind Keeps.frame fun f => keeps_deeper _ fun runner hr => ?_
    exact keeps_renderTemplate env (hinner runner hr) t _ overrides

/-! ## §6. Statements -/

theorem keeps_runRounds (key : Option String) (value : String) (length : Nat)
    (parent : Option (Value ω)) {body : Render ω Unit} (hbody : Keeps surroundings body)
    (index : Nat) (items : List (Value ω × Value ω)) :
    Keeps standing (runRounds key value length parent body index items) := by
  induction items generalizing index with
  | nil => exact Keeps.pure _
  | cons item items ih => exact Keeps.bind (keeps_inLayer _ hbody) fun _ => ih (index + 1)

theorem keeps_itemsOf [HostObject ω] (v : Value ω) : Keeps standing (itemsOf v) := by
  cases v with
  | object identity host =>
    apply Keeps.bind (keeps_meet _)
    intro w
    split <;> exact Keeps.pure _
  | _ => exact Keeps.pure _

/-- A loop keeps the surroundings, whether it has rounds or not. -/
theorem keeps_runLoop [HostObject ω] (key : Option String) (value : String)
    {iterable : Render ω (Value ω)} {body orElse : Render ω Unit}
    (hiterable : Keeps standing iterable) (hbody : Keeps surroundings body)
    (horElse : Keeps surroundings orElse) :
    Keeps surroundings (runLoop key value iterable body orElse) := by
  apply Keeps.bind hiterable.toSurroundings
  intro v
  apply Keeps.bind (keeps_itemsOf v).toSurroundings
  intro items
  -- No round: `else` runs in the layer that the loop stands in.
  cases items with
  | nil => exact horElse
  | cons item items =>
    apply Keeps.bind Keeps.frame
    intro f
    exact (keeps_runRounds key value _ _ hbody 0 _).toSurroundings

theorem keeps_assignAll (names : List String) (vs : List (Value ω)) :
    Keeps surroundings (assignAll names vs) := by
  induction names generalizing vs with
  | nil => exact Keeps.pure _
  | cons name names ih =>
    cases vs with
    | nil => exact Keeps.pure _
    | cons v vs => exact Keeps.bind (keeps_assign name v) fun _ => ih vs

theorem keeps_importMacros (pos : Position) (t : LiveTemplate) (names : List (String × String)) :
    Keeps surroundings (importMacros pos t names : Render ω Unit) := by
  induction names with
  | nil => exact Keeps.pure _
  | cons pair names ih =>
    unfold importMacros
    cases t.template.macroTable.find? pair.1 with
    | none => exact Keeps.failAt pos _
    | some id => exact Keeps.bind (keeps_assign pair.2 _) fun _ => ih

theorem keeps_applyFilters [HostObject ω] (hinner : InnerRestores inner) (calls : List FilterCall)
    (v : Value ω) : Keeps standing (applyFilters env inner calls v) := by
  induction calls generalizing v with
  | nil => exact Keeps.pure _
  | cons call calls ih =>
    refine Keeps.bind ?_ fun w => ih w
    exact keeps_applyFilter env call.position call.name v (keeps_evalAll env hinner call.args)

section Run

variable [HostObject ω] (hinner : InnerRestores inner)
include hinner

set_option linter.unusedSectionVars false in
mutual

/-- Running a statement keeps the surroundings. -/
theorem keeps_runStmt : ∀ s : Stmt, Keeps surroundings (runStmt env inner s)
  | .text _ text => by
    rw [runStmt]
    exact (keeps_write text).toSurroundings
  | .print _ e => by
    rw [runStmt]
    exact Keeps.bind (keeps_eval env hinner e).toSurroundings fun v =>
      (keeps_write _).toSurroundings
  | .block pos id => by
    rw [runStmt]
    exact (keeps_renderSlot hinner pos id).toSurroundings
  | .branch _ cond body orElse => by
    rw [runStmt]
    apply Keeps.bind (keeps_eval env hinner cond).toSurroundings
    intro v
    split
    · exact keeps_runBody body
    · exact keeps_runBody orElse
  | .loop _ key value iterable body orElse => by
    rw [runStmt]
    exact keeps_runLoop key value (keeps_eval env hinner iterable) (keeps_runBody body)
      (keeps_runBody orElse)
  | .includes inclusion => by
    rw [runStmt]
    exact (keeps_renderInclusion env hinner (keeps_eval env hinner) inclusion []).toSurroundings
  | .embeds inclusion blocks => by
    rw [runStmt]
    apply Keeps.bind Keeps.frame
    intro f
    exact (keeps_renderInclusion env hinner (keeps_eval env hinner) inclusion _).toSurroundings
  | .reuses _ | .defines .. => by
    rw [runStmt]
    exact Keeps.pure _
  | .assign _ targets values => by
    rw [runStmt]
    exact Keeps.bind (keeps_evalAll env hinner values).toSurroundings fun vs =>
      keeps_assignAll targets vs
  | .capture _ name body => by
    rw [runStmt]
    apply Keeps.bind (Keeps.capture (keeps_runBody body) fun _ _ => rfl)
    intro text
    exact keeps_assign name _
  | .perform _ e => by
    rw [runStmt]
    exact Keeps.bind (keeps_eval env hinner e).toSurroundings fun v => Keeps.pure _
  | .filtered _ filters body => by
    rw [runStmt]
    apply Keeps.bind (Keeps.capture (keeps_runBody body) fun _ _ => rfl)
    intro text
    exact Keeps.bind (keeps_applyFilters env hinner filters _).toSurroundings fun v =>
      (keeps_write _).toSurroundings
  | .importAll _ template newName => by
    rw [runStmt]
    apply Keeps.bind (keeps_templateOf env (keeps_eval env hinner) template).toSurroundings
    exact fun t => keeps_assign newName _
  | .importSome pos template names => by
    rw [runStmt]
    apply Keeps.bind (keeps_templateOf env (keeps_eval env hinner) template).toSurroundings
    exact fun t => keeps_importMacros pos t names

theorem keeps_runBody : ∀ ss : List Stmt, Keeps surroundings (runBody env inner ss)
  | [] => by
    rw [runBody]
    exact Keeps.pure _
  | s :: ss => by
    rw [runBody]
    exact Keeps.bind (keeps_runStmt s) fun _ => keeps_runBody ss

end

end Run

/-! ## §7. Levels -/

/-- Whatever number of levels is left, code puts back what it changes. -/
theorem innerRunner_restores [HostObject ω] (n : Nat) : InnerRestores (innerRunner env n) := by
  -- Inside a level the runner is the one of the level below, with nothing to run on the lowest.
  induction n with
  | zero => intro runner h; cases h
  | succ n ih =>
    intro runner h
    obtain rfl := Option.some.inj h
    exact ⟨keeps_eval env ih, keeps_runBody env ih⟩

/-! ## §8. What comes back -/

/-- All of a state but its output, its loaded templates and the variables of the innermost layer is
as it was. -/
structure Restored (s t : RenderState ω) : Prop where
  layers : t.frame.scope.layers.length = s.frame.scope.layers.length
  below : t.frame.scope.below = s.frame.scope.below
  template : t.frame.template = s.frame.template
  current : t.frame.current = s.frame.current
  blocks : t.frame.blocks = s.frame.blocks
  depth : t.depth = s.depth
  lenient : t.lenient = s.lenient

/-- The variables of the innermost layer are as they were, too. -/
structure Untouched (s t : RenderState ω) : Prop extends Restored s t where
  innermost : t.frame.scope.innermost = s.frame.scope.innermost

theorem Restored.of_surroundings {s t : RenderState ω} (h : t.surroundings = s.surroundings) :
    Restored s t := by
  obtain ⟨template, -, below, blocks, current, depth, lenient⟩ := surroundings_eq_iff.mp h
  have layers : t.frame.scope.layers.length = s.frame.scope.layers.length := by
    simp [Scope.layers, below]
  exact ⟨layers, below, template, current, blocks, depth, lenient⟩

theorem Untouched.of_standing {s t : RenderState ω} (h : t.standing = s.standing) :
    Untouched s t := by
  obtain ⟨frame, depth, lenient⟩ := standing_eq_iff.mp h
  refine ⟨Restored.of_surroundings (congrArg Standing.outside h), ?_⟩
  rw [frame]

theorem length_identifyAll (name : Nat → Identity) (vs : List (Value ω)) (n : Nat) :
    (Value.identifyAll name vs n).1.length = vs.length := by
  induction vs generalizing n with
  | nil => simp [Value.identifyAll]
  | cons v vs ih => simp [Value.identifyAll, ih]

/-- A value with items has some to go over, objects of the host included. -/
theorem run_itemsOf [HostObject ω] {v : Value ω} (h : v.items ≠ []) (s : RenderState ω) :
    ∃ item items t, (itemsOf v).run s = (.ok (item :: items), t) := by
  -- Naming the objects among the items changes which items these are, not how many.
  have hcons : ∀ {items : List (Value ω × Value ω)} {t : RenderState ω}, items ≠ [] →
      ∃ item more u, ((Except.ok items, t) : Except Failure _ × RenderState ω) =
        (.ok (item :: more), u) := by
    intro items t hne
    obtain ⟨item, more, rfl⟩ := List.exists_cons_of_ne_nil hne
    exact ⟨item, more, t, rfl⟩
  cases v with
  | object identity host =>
    simp only [itemsOf, meet, run_bind, run_get, run_set, run_pure, Value.identify]
    refine hcons fun hnil => h ?_
    rw [← List.length_eq_zero_iff] at hnil ⊢
    simpa [Value.indexed, length_identifyAll] using hnil
  | _ => exact hcons h

theorem keeps_loop_of_items [HostObject ω] (n : Nat) (key : Option String) (value : String)
    {iterable : Expr} {body orElse : List Stmt} {s : RenderState ω} (pos : Position)
    (h : ∀ v t, (eval env (innerRunner env n) iterable).run s = (.ok v, t) → v.items ≠ []) :
    RenderState.standing
      ((runStmt env (innerRunner env n) (.loop pos key value iterable body orElse)).run s).2 =
        s.standing := by
  have hinner := innerRunner_restores env n
  have hs := keeps_eval env hinner iterable s
  rw [runStmt, runLoop]
  -- A failing iterable is an expression that has been evaluated; otherwise there is a first item
  -- and the loop is in its rounds.
  rcases hr : (eval env (innerRunner env n) iterable).run s with ⟨e | v, t⟩
  · rw [run_bind_error hr]
    rwa [hr] at hs
  · rw [hr] at hs
    obtain ⟨item, items, u, hi⟩ := run_itemsOf (h v t hr) t
    have hu := keeps_itemsOf v t
    rw [hi] at hu
    rw [run_bind_ok hr, run_bind_ok hi, run_bind_ok (run_frame u)]
    exact (keeps_runRounds key value _ _ (keeps_runBody env hinner body) 0 _ u).trans (hu.trans hs)

end Stencil.Render
