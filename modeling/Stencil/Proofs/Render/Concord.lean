import Stencil.Proofs.Environment.Discretion

/-!
All code agrees.

Two environments that get templates from the same source, and make alike templates of it, run the
same code in agreement: this holds for each part of the renderer, given that it holds for the parts
inside, and by an induction over expressions and statements, inside one over the levels that are
left, it holds for all code.
-/

namespace Stencil

/-! ## §1. Environments -/

namespace Environment

variable {ω : Type}

/-- The environment in which all templates go through a further pass at the end. -/
def withPass (env : Environment ω) (pass : Pass) : Environment ω :=
  { env with passes := env.passes ++ [pass] }

theorem prepare_withPass (env : Environment ω) (pass : Pass) (name source : String) :
    (env.withPass pass).prepare name source =
      (env.prepare name source).bind fun t => (pass t).elim (.error .exhausted) .ok := by
  have hpasses : (env.withPass pass).allPasses = env.allPasses ++ [pass] := by
    unfold allPasses withPass
    by_cases h : env.autoEscape <;> simp [h]
  have hfold : ∀ t, (env.allPasses ++ [pass]).foldlM (fun t (pass : Pass) => pass t) t =
      (env.allPasses.foldlM (fun t (pass : Pass) => pass t) t).bind pass := by
    intro t
    simp only [List.foldlM_append, List.foldlM_cons, List.foldlM_nil, bind_pure]
    rfl
  unfold prepare
  rw [hpasses]
  rcases Template.parse name source with (_ | _) | t
  · rfl
  · rfl
  · simp only [hfold]
    rcases env.allPasses.foldlM (fun t (pass : Pass) => pass t) t with _ | t
    · rfl
    · simp only [Option.bind_some, Except.bind]
      cases pass t <;> rfl

end Environment

namespace Likeness

variable {ω : Type} [HostObject ω]

/-- Environments that differ only in what they make of the sources of templates, and make alike
templates of them. -/
structure Kin (κ : Likeness) (env env' : Environment ω) : Prop where
  source : env'.source = env.source
  prepare : ∀ requests name source, env.source requests name = .ok source →
    Results κ.template (env.prepare name source) (env'.prepare name source)
  filters : env'.filters = env.filters
  functions : env'.functions = env.functions
  tests : env'.tests = env.tests
  globals : env'.globals = env.globals
  undefined : env'.undefined = env.undefined
  patience : env'.patience = env.patience
  discreet : κ.Discreet env

theorem Kin.callState {κ : Likeness} {env env' : Environment ω} (h : κ.Kin env env')
    (template : String) : env'.callState template = env.callState template := by
  unfold Environment.callState
  rw [h.undefined]

end Likeness

namespace Render

open Likeness

variable {ω α : Type} {κ : Likeness}

/-! ## §2. Moves -/

section Moves

variable [HostObject ω] {env env' : Environment ω} (kin : κ.Kin env env')
include kin

theorem agree_load (name : String) : κ.Agree κ.Live (load env name) (load env' name) := by
  intro s s' m
  rw [run_load, run_load, kin.source, m.requests]
  have hfind := Table.find?_rel m.loaded name
  generalize s.loaded.find? name = live?, s'.loaded.find? name = live?' at hfind
  cases hfind with
  | some h => exact ⟨.ok h, m⟩
  | none =>
    -- The templates made of the same source are alike, and they are kept under the same name.
    rcases hsource : env.source s.requests name with e | source
    · exact ⟨.error _, m.frame, m.depth, m.lenient, m.loaded, rfl, m.output, m.met⟩
    · have hprepare := kin.prepare s.requests name source hsource
      simp only
      generalize env.prepare name source = r, env'.prepare name source = r' at hprepare
      cases hprepare with
      | error e => exact ⟨.error e, m.frame, m.depth, m.lenient, m.loaded, rfl, m.output, m.met⟩
      | @ok t t' h =>
        have hlive : κ.Live ⟨t, .loaded⟩ ⟨t', .loaded⟩ := ⟨rfl, h⟩
        exact ⟨.ok hlive, m.frame, m.depth, m.lenient, Table.insert_rel m.loaded name hlive, rfl,
          m.output, m.met⟩

theorem agree_loadIfThere (name : String) :
    κ.Agree (Results κ.Live) (loadIfThere env name) (loadIfThere env' name) := by
  intro s s' m
  obtain ⟨results, states⟩ := agree_load kin name m
  rw [run_loadIfThere, run_loadIfThere]
  refine ⟨?_, states⟩
  generalize ((load env name).run s).1 = r, ((load env' name).run s').1 = r' at results
  cases results with
  | ok h => exact .ok (.ok h)
  | error failure =>
    rcases failure with e | _
    · by_cases he : e.isNotFound
      · simp only [orMissing, he, if_true]
        exact .ok (.error e)
      · simp only [orMissing, he]
        exact .error _
    · exact .error _

theorem agree_loadFirst (missing : Option Error) (names : List String) :
    κ.Agree (Results κ.Live) (loadFirst env missing names) (loadFirst env' missing names) := by
  induction names generalizing missing with
  | nil => exact .pure (.error _)
  | cons name names ih =>
    apply Agree.bind (agree_loadIfThere kin name)
    intro r r' hr
    cases hr with
    | error e => exact ih (some e)
    | ok h => exact .pure (.ok h)

theorem agree_undefined (pos : Position) (name : String) :
    κ.Agree κ.Values (undefined env pos name) (undefined env' pos name) := by
  apply Agree.get_bind
  intro s s' m
  rw [m.lenient, kin.undefined]
  split
  · exact Agree.failAt pos _ m
  · exact ⟨.ok (.same _), m⟩

theorem find?_agree {fr fr' : Frame ω} (h : κ.Frames fr fr') (name : String) :
    Option.Rel κ.Values (find? env fr name) (find? env' fr' name) := by
  unfold find?
  rw [kin.globals, h.name]
  exact optionRel_or (h.scope.find? name) (optionRel_of_refl .same _)

theorem agree_lookup (pos : Position) (name : String) :
    κ.Agree κ.Values (lookup env pos name) (lookup env' pos name) := by
  apply Agree.bind .frame
  intro fr fr' hfr
  have hfind := find?_agree kin hfr name
  generalize find? env fr name = v?, find? env' fr' name = v?' at hfind
  cases hfind with
  | some h => exact .pure h
  | none => exact agree_undefined kin pos name

end Moves

/-! ## §3. Blocks and macros -/

section Blocks

variable {inner inner' : Option (Runner ω)} (hinner : κ.Inner inner inner')
include hinner

theorem agree_renderBlock (pos : Position) (name : String) (index : Nat) {r r' : BlockRef}
    (h : κ.Refs r r') :
    κ.Agree Eq (renderBlock inner pos name index r) (renderBlock inner' pos name index r') := by
  apply Agree.deeper hinner
  intro runner runner' hrun
  apply Agree.bind .frame
  intro before before' hbefore
  have henter : κ.Agree Eq (changeFrame fun fr : Frame ω => Frame.inBlock fr name index r)
      (changeFrame fun fr => Frame.inBlock fr name index r') :=
    .changeFrame fun hfr => ⟨h.owner, hfr.scope.push .nil, hfr.blocks, rfl⟩
  apply Agree.bind henter
  intro _ _ _
  refine Agree.ending ?_
    fun m => ⟨?_, m.depth, m.lenient, m.loaded, m.requests, m.output, m.met⟩
  · have hblock := h.block?
    generalize r.block? = b, r'.block? = b' at hblock
    cases hblock with
    | some hblock => exact hrun.body hblock.2
    | none => exact .pure rfl
  -- After the block the frame is put together from the one before and the present one.
  · exact ⟨hbefore.template, m.frame.scope.pop, m.frame.blocks, hbefore.current⟩

theorem agree_renderSlot (pos : Position) (id : DefinitionId) :
    κ.Agree Eq (renderSlot inner pos id) (renderSlot inner' pos id) := by
  apply Agree.bind .frame
  intro fr fr' hfr
  have hblock := κ.block hfr.template.template id
  generalize fr.template.template.blockAt? id = b,
    fr'.template.template.blockAt? id = b' at hblock
  cases hblock with
  | none => exact .pure rfl
  | @some block block' h =>
    have hcandidate := hfr.candidate? block.name 0
    simp only [h.1]
    generalize candidate? fr block.name 0 = r, candidate? fr' block.name 0 = r' at hcandidate
    cases hcandidate with
    | none => exact agree_renderBlock hinner pos block.name 0 ⟨hfr.template, rfl⟩
    | some h => exact agree_renderBlock hinner pos block.name 0 h

theorem agree_blockValue (pos : Position) (name : String) (index : Nat) {r r' : BlockRef}
    (h : κ.Refs r r') :
    κ.Agree κ.Values
      (rendered <$> capture (renderBlock inner pos name index r) : Render ω (Value ω))
      (rendered <$> capture (renderBlock inner' pos name index r') : Render ω (Value ω)) := by
  refine (Agree.capture (agree_renderBlock hinner pos name index h)).map ?_
  intro text _ htext
  rw [htext]
  exact .same _

theorem agree_parentBlock (pos : Position) :
    κ.Agree κ.Values (parentBlock inner pos) (parentBlock inner' pos) := by
  apply Agree.bind .frame
  intro fr fr' hfr
  rw [hfr.current]
  cases fr.current with
  | none => exact .failAt pos _
  | some current =>
    obtain ⟨name, index⟩ := current
    have hcandidate := hfr.candidate? name (index + 1)
    simp only [Option.bind_some]
    generalize candidate? fr name (index + 1) = r, candidate? fr' name (index + 1) = r'
      at hcandidate
    cases hcandidate with
    | none => exact .failAt pos _
    | some h => exact agree_blockValue hinner pos name (index + 1) h

theorem agree_namedBlock (pos : Position) (name : String) :
    κ.Agree κ.Values (namedBlock inner pos name) (namedBlock inner' pos name) := by
  apply Agree.bind .frame
  intro fr fr' hfr
  have hblock := hfr.blockNamed? name
  generalize blockNamed? fr name = r, blockNamed? fr' name = r' at hblock
  cases hblock with
  | none => exact .failAt pos _
  | some h => exact agree_blockValue hinner pos name 0 h

omit hinner in
theorem agree_bindParams {eval eval' : Expr → Render ω (Value ω)}
    (heval : ∀ e, κ.Agree κ.Values (eval e) (eval' e)) (params : List Param)
    {args args' : List (Value ω)} (h : κ.Lists args args') :
    κ.Agree κ.Lists (bindParams eval params args) (bindParams eval' params args') := by
  induction params generalizing args args' with
  | nil => exact .pure h
  | cons param params ih =>
    cases h with
    | cons harg hargs => exact Agree.bind (.assign _ harg) fun _ _ _ => ih hargs
    | nil =>
      have hassign : ∀ v v', κ.Values v v' → κ.Agree κ.Lists
          (do
            assign param.name v
            bindParams eval params [])
          (do
            assign param.name v'
            bindParams eval' params []) :=
        fun v v' hv => Agree.bind (.assign _ hv) fun _ _ _ => ih .nil
      unfold bindParams
      cases param.fallback with
      | none => exact Agree.bind (.pure (.same Value.null)) hassign
      | some fallback => exact Agree.bind (heval fallback) hassign

omit hinner in
theorem agree_macroBody {runner runner' : Runner ω} (hrun : κ.Runners runner runner')
    (params : List Param) {body body' : List Stmt} (hbody : κ.code body body')
    {args args' : List (Value ω)} (h : κ.Lists args args') :
    κ.Agree κ.Values
      (do
        let extra ← bindParams runner.eval params args
        assign extraArgs (.array extra)
        rendered <$> capture (runner.body body) : Render ω (Value ω))
      (do
        let extra ← bindParams runner'.eval params args'
        assign extraArgs (.array extra)
        rendered <$> capture (runner'.body body') : Render ω (Value ω)) := by
  apply Agree.bind (agree_bindParams hrun.eval params h)
  intro extra extra' hextra
  apply Agree.bind (.assign _ (.array hextra))
  intro _ _ _
  refine (Agree.capture (hrun.body hbody)).map ?_
  intro text _ htext
  rw [htext]
  exact .same _

theorem agree_callMacro (pos : Position) {m m' : MacroRef} (hm : κ.Macros m m')
    {args args' : List (Value ω)} (h : κ.Lists args args') :
    κ.Agree κ.Values (callMacro inner pos m args) (callMacro inner' pos m' args') := by
  have hdefinition := κ.definition hm.owner.template m.id
  unfold callMacro
  rw [hm.id, hm.name]
  generalize m.owner.template.macroAt? m.id = d, m'.owner.template.macroAt? m.id = d'
    at hdefinition
  cases hdefinition with
  | none => exact .failAt pos _
  | @some definition definition' hd =>
    apply Agree.deeper hinner
    intro runner runner' hrun
    apply Agree.within
    · intro fr fr' hfr
      refine ⟨hm.owner, ?_, .none, rfl⟩
      show κ.Scopes (.ofLayer fr.scope.root []) (.ofLayer fr'.scope.root [])
      rw [hfr.scope.root]
      exact .ofLayer _ .nil
    · simp only [hd.2.1]
      exact agree_macroBody hrun definition.params hd.2.2 h

end Blocks

/-! ## §4. Expressions -/

section Expressions

variable [HostObject ω] {env env' : Environment ω} (kin : κ.Kin env env')
variable {inner inner' : Option (Runner ω)} (hinner : κ.Inner inner inner')
include kin

theorem agree_attributeOf (pos : Position) {object object' key key' : Value ω}
    (ho : κ.Values object object') (hk : κ.Values key key') :
    κ.Agree κ.Values (attributeOf env pos object key) (attributeOf env' pos object' key') := by
  have hattribute := ho.attribute? hk
  unfold attributeOf
  rw [hk.output]
  generalize object.attribute? key = v?, object'.attribute? key' = v?' at hattribute
  cases hattribute with
  | none => exact agree_undefined kin pos _
  | some hv =>
    -- Only what an object hands out is met.
    cases ho with
    | same =>
      cases object with
      | object identity host => exact .meet hv
      | _ => exact .pure hv
    | callable _ | array _ | entries _ _ => exact .pure hv

theorem agree_applyFilter (pos : Position) (name : String) {subject subject' : Value ω}
    (hsubject : κ.Values subject subject') {args args' : Render ω (List (Value ω))}
    (hargs : κ.Agree κ.Lists args args') :
    κ.Agree κ.Values (applyFilter env pos name subject args)
      (applyFilter env' pos name subject' args') := by
  unfold applyFilter
  rw [kin.filters]
  cases hfilter : env.filters.find? name with
  | none => exact .failAt pos _
  | some filter =>
    apply Agree.bind hargs
    intro vs vs' hvs
    apply Agree.bind .frame
    intro fr fr' hfr
    rw [hfr.name, kin.callState]
    have hanswer := kin.discreet.filters filter (Table.mem_values_of_find? hfilter)
    apply Agree.bind (.ofCall pos name (hanswer _ hsubject hvs))
    intro v v' hv
    exact .meet hv

theorem agree_applyTest (pos : Position) (name : String) {subject subject' : Render ω (Value ω)}
    (hsubject : κ.Agree κ.Values subject subject') {args args' : Render ω (List (Value ω))}
    (hargs : κ.Agree κ.Lists args args') :
    κ.Agree κ.Values (applyTest env pos name subject args)
      (applyTest env' pos name subject' args') := by
  unfold applyTest
  rw [kin.tests]
  cases htest : env.tests.find? name with
  | none => exact .failAt pos _
  | some test =>
    apply Agree.bind hsubject
    intro v v' hv
    apply Agree.bind hargs
    intro vs vs' hvs
    apply Agree.bind .frame
    intro fr fr' hfr
    rw [hfr.name, kin.callState]
    have hanswer := kin.discreet.tests test (Table.mem_values_of_find? htest)
    apply Agree.bind (.ofCall pos name (hanswer _ hv hvs))
    intro b b' hb
    rw [hb]
    exact .pure (.same _)

omit kin in
theorem agree_applyBinary (pos : Position) (op : BinaryOp)
    {left left' right right' : Render ω (Value ω)} (hleft : κ.Agree κ.Values left left')
    (hright : κ.Agree κ.Values right right') :
    κ.Agree κ.Values (applyBinary pos op left right) (applyBinary pos op left' right') := by
  apply Agree.bind hleft
  intro a a' ha
  rw [ha.truthy]
  split
  · exact .pure (.same _)
  · exact .pure (.same _)
  · rename_i op _ _ _ _
    apply Agree.bind hright
    intro b b' hb
    rw [Values.binary_eq ha hb]
    cases Value.binary op a b with
    | ok v => exact .pure (.same v)
    | error e => exact .failAt pos _

include hinner

omit kin hinner in
/-- Where there is no macro of a name, methods are those of objects. -/
theorem callMethod_of_ne (inner : Option (Runner ω)) (pos : Position) (object key : Value ω)
    (args : List (Value ω)) : (∀ m, object.attribute? key ≠ some (.callable m)) →
    callMethod inner pos object key args =
      match object with
      | .object _ host => do meet (← ofCall pos key.output (HostObject.call host key.output args))
      | _ => failAt pos (.unknownFunction key.output) := by
  intro h
  unfold callMethod
  split
  · exact absurd ‹_› (h _)
  · rfl
  · next hobject _ =>
    split
    · exact (hobject _ _ rfl).elim
    · rfl

theorem agree_callMethod (pos : Position) {object object' key key' : Value ω}
    (ho : κ.Values object object') (hk : κ.Values key key') {args args' : List (Value ω)}
    (hargs : κ.Lists args args') :
    κ.Agree κ.Values (callMethod inner pos object key args)
      (callMethod inner' pos object' key' args') := by
  -- A macro among the attributes is called, whatever it is an attribute of.
  rcases Values.callable_or (ho.attribute? hk) with ⟨m, m', hm, hm', hmacros⟩ | ⟨hno, hno'⟩
  · unfold callMethod
    rw [hm, hm']
    exact agree_callMacro hinner pos hmacros hargs
  · rw [callMethod_of_ne inner pos _ _ _ hno, callMethod_of_ne inner' pos _ _ _ hno', hk.output]
    cases ho with
    | same =>
      cases object with
      | object identity host =>
        exact Agree.bind (.ofCall pos _ (kin.discreet.call host _ hargs)) fun _ _ hv => .meet hv
      | _ => exact .failAt pos _
    | callable _ => exact .failAt pos _
    | array _ => exact .failAt pos _
    | entries _ _ => exact .failAt pos _

theorem agree_callFunction (pos : Position) (name : String)
    {first first' : Render ω (Option (Value ω))}
    (hfirst : κ.Agree (Option.Rel κ.Values) first first')
    {args args' : Render ω (List (Value ω))} (hargs : κ.Agree κ.Lists args args') :
    κ.Agree κ.Values (callFunction env inner pos name first args)
      (callFunction env' inner' pos name first' args') := by
  unfold callFunction
  by_cases hparent : name = "parent"
  · rw [if_pos hparent, if_pos hparent]
    exact agree_parentBlock hinner pos
  · rw [if_neg hparent, if_neg hparent]
    by_cases hblock : name = "block"
    · rw [if_pos hblock, if_pos hblock]
      apply Agree.bind hfirst
      intro v? v?' hv
      cases hv with
      | none => exact agree_namedBlock hinner pos _
      | @some v v' hv =>
        show κ.Agree _ _ (namedBlock inner' pos v'.output)
        rw [hv.output]
        exact agree_namedBlock hinner pos _
    · rw [if_neg hblock, if_neg hblock]
      apply Agree.bind .frame
      intro fr fr' hfr
      have hmacro := hfr.macroNamed? name
      generalize macroNamed? fr name = m?, macroNamed? fr' name = m?' at hmacro
      cases hmacro with
      | some hm => exact Agree.bind hargs fun _ _ hvs => agree_callMacro hinner pos hm hvs
      | none =>
        rw [kin.functions]
        cases hfunction : env.functions.find? name with
        | none => exact .failAt pos _
        | some function =>
          apply Agree.bind hargs
          intro vs vs' hvs
          apply Agree.bind .frame
          intro fr fr' hfr
          rw [hfr.name, kin.callState]
          have hanswer := kin.discreet.functions function (Table.mem_values_of_find? hfunction)
          apply Agree.bind (.ofCall pos name (hanswer _ hvs))
          intro v v' hv
          exact .meet hv

set_option linter.unusedSectionVars false in
mutual

/-- Evaluating an expression agrees. -/
theorem agree_eval : ∀ e : Expr, κ.Agree κ.Values (eval env inner e) (eval env' inner' e)
  | .name pos name => by
    rw [eval, eval]
    exact agree_lookup kin pos name
  | .null _ | .bool .. | .number .. | .string .. => by
    rw [eval, eval]
    exact .pure (.same _)
  | .call pos name args => by
    rw [eval, eval]
    exact agree_callFunction kin hinner pos name (agree_evalFirst args) (agree_evalAll args)
  | .filter pos name [] => by
    rw [eval, eval]
    exact .failAt pos _
  | .filter pos name (subject :: args) => by
    have hfilter : ∀ v v', κ.Values v v' → κ.Agree κ.Values
        (applyFilter env pos name v (evalAll env inner args))
        (applyFilter env' pos name v' (evalAll env' inner' args)) :=
      fun v v' hv => agree_applyFilter kin pos name hv (agree_evalAll args)
    rw [eval, eval]
    split
    · exact Agree.bind (agree_eval subject).leniently hfilter
    · exact Agree.bind (agree_eval subject) hfilter
  | .test pos name subject args => by
    rw [eval, eval]
    split
    · exact Agree.bind (agree_isDefined subject) fun b b' hb => .pure (hb ▸ .same _)
    · exact agree_applyTest kin pos name (agree_eval subject) (agree_evalAll args)
  | .binary pos op left right => by
    rw [eval, eval]
    exact agree_applyBinary pos op (agree_eval left) (agree_eval right)
  | .unary _ op operand => by
    rw [eval, eval]
    apply Agree.bind (agree_eval operand)
    intro v v' hv
    rw [Values.unary_eq hv]
    exact .pure (.same _)
  | .group _ e => by
    rw [eval, eval]
    exact agree_eval e
  | .attribute pos object key => by
    rw [eval, eval]
    apply Agree.bind (agree_eval object)
    intro o o' ho
    apply Agree.bind (agree_eval key)
    intro k k' hk
    exact agree_attributeOf kin pos ho hk
  | .method pos object key args => by
    rw [eval, eval]
    apply Agree.bind (agree_eval object)
    intro o o' ho
    apply Agree.bind (agree_eval key)
    intro k k' hk
    exact Agree.bind (agree_evalAll args) fun vs vs' hvs =>
      agree_callMethod kin hinner pos ho hk hvs
  | .conditional _ cond whenTrue whenFalse => by
    rw [eval, eval]
    apply Agree.bind (agree_eval cond)
    intro v v' hv
    rw [hv.truthy]
    split
    · exact agree_eval whenTrue
    · exact agree_eval whenFalse
  | .hash _ entries => by
    rw [eval, eval]
    exact Agree.bind (agree_evalEntries entries .nil) fun table table' h => .pure (.map h)
  | .array _ items => by
    rw [eval, eval]
    exact Agree.bind (agree_evalAll items) fun vs vs' h => .pure (.array h)

theorem agree_evalAll :
    ∀ es : List Expr, κ.Agree κ.Lists (evalAll env inner es) (evalAll env' inner' es)
  | [] => by
    rw [evalAll, evalAll]
    exact .pure .nil
  | e :: es => by
    rw [evalAll, evalAll]
    apply Agree.bind (agree_eval e)
    intro v v' hv
    exact Agree.bind (agree_evalAll es) fun vs vs' hvs => .pure (.cons hv hvs)

theorem agree_evalFirst : ∀ es : List Expr,
    κ.Agree (Option.Rel κ.Values) (evalFirst env inner es) (evalFirst env' inner' es)
  | [] => by
    rw [evalFirst, evalFirst]
    exact .pure .none
  | e :: _ => by
    rw [evalFirst, evalFirst]
    exact Agree.bind (agree_eval e) fun v v' hv => .pure (.some hv)

theorem agree_evalEntries : ∀ (entries : List (Entry Expr)) {table table' : Table (Value ω)},
    κ.Tables table table' →
    κ.Agree κ.Tables (evalEntries env inner entries table) (evalEntries env' inner' entries table')
  | [], _, _, h => by
    rw [evalEntries, evalEntries]
    exact .pure h
  | ⟨_, key, value⟩ :: entries, _, _, h => by
    rw [evalEntries, evalEntries]
    apply Agree.bind (agree_eval key)
    intro k k' hk
    apply Agree.bind (agree_eval value)
    intro v v' hv
    rw [hk.output]
    exact agree_evalEntries entries (Table.insert_rel h k.output hv)

theorem agree_isDefined :
    ∀ e : Expr, κ.Agree Eq (isDefined env inner e) (isDefined env' inner' e)
  | .name _ name => by
    rw [isDefined, isDefined]
    apply Agree.bind .frame
    intro fr fr' hfr
    exact .pure (isSome_of_optionRel (find?_agree kin hfr name)).symm
  | .attribute _ object key => by
    rw [isDefined, isDefined]
    apply Agree.bind (agree_eval object).leniently
    intro o o' ho
    apply Agree.bind (agree_eval key)
    intro k k' hk
    exact .pure (isSome_of_optionRel (ho.attribute? hk)).symm
  | .group _ e => by
    rw [isDefined, isDefined]
    exact agree_isDefined e
  | .null _ | .bool .. | .number .. | .string .. | .call .. | .filter .. | .test .. | .binary ..
  | .unary .. | .method .. | .conditional .. | .hash .. | .array .. => by
    simp only [isDefined]
    exact .pure rfl

end

end Expressions

/-! ## §5. Other templates -/

section Chains

variable [HostObject ω] {env env' : Environment ω} (kin : κ.Kin env env')

include kin

theorem agree_templateOf {eval eval' : Expr → Render ω (Value ω)}
    (heval : ∀ e, κ.Agree κ.Values (eval e) (eval' e)) (e : Expr) :
    κ.Agree κ.Live (templateOf env eval e) (templateOf env' eval' e) := by
  unfold templateOf
  split
  · exact Agree.bind .frame fun fr fr' hfr => .pure hfr.template
  · apply Agree.bind (heval e)
    intro v v' hv
    rw [hv.output]
    exact agree_load kin _

theorem agree_usedTemplates {eval eval' : Expr → Render ω (Value ω)}
    (heval : ∀ e, κ.Agree κ.Values (eval e) (eval' e)) (reuses : List Reuse) :
    κ.Agree (List.Forall₂ κ.Uses) (usedTemplates env eval reuses)
      (usedTemplates env' eval' reuses) := by
  induction reuses with
  | nil => exact .pure .nil
  | cons reuse reuses ih =>
    apply Agree.bind (agree_templateOf kin heval reuse.template)
    intro t t' ht
    exact Agree.bind ih fun more more' hmore => .pure (.cons ⟨ht, rfl⟩ hmore)

theorem agree_followChain {runner runner' : Runner ω} (hrun : κ.Runners runner runner')
    (n : Nat) (names : List String) {levels levels' : List Level}
    (h : List.Forall₂ κ.Levels levels levels') :
    κ.Agree (List.Forall₂ κ.Levels) (followChain env runner n names levels)
      (followChain env' runner' n names levels') := by
  induction n generalizing names levels levels' with
  | zero => exact .throw _
  | succ n ih =>
    unfold followChain
    apply Agree.bind .frame
    intro fr fr' hfr
    have ht := hfr.template.template
    dsimp only
    rw [κ.reuses ht, κ.parent ht]
    apply Agree.bind (agree_usedTemplates kin hrun.eval _)
    intro uses uses' huses
    have hlevels : List.Forall₂ κ.Levels (⟨fr.template, uses⟩ :: levels)
        (⟨fr'.template, uses'⟩ :: levels') := .cons ⟨hfr.template, huses⟩ h
    cases hparent : fr.template.template.parent with
    | none => exact .pure (List.rel_reverse hlevels)
    | some extended =>
      apply Agree.bind (hrun.body (κ.preamble ht (by simp [hparent])))
      intro _ _ _
      apply Agree.bind (agree_templateOf kin hrun.eval extended.template)
      intro parent parent' hp
      simp only [hp.name]
      split
      · exact .fail _
      · exact Agree.bind (.changeFrame fun hfr => hfr.withTemplate hp) fun _ _ _ =>
          ih _ hlevels

theorem agree_renderTemplate {runner runner' : Runner ω} (hrun : κ.Runners runner runner')
    {t t' : LiveTemplate} (ht : κ.Live t t') {scope scope' : Scope ω}
    (hscope : κ.Scopes scope scope') {overrides overrides' : List (String × BlockRef)}
    (ho : κ.Blocks overrides overrides') :
    κ.Agree Eq (renderTemplate env runner t scope overrides)
      (renderTemplate env' runner' t' scope' overrides') := by
  refine Agree.within (fun _ => ⟨ht, hscope, .none, rfl⟩) ?_
  rw [kin.patience, ht.name]
  apply Agree.bind_of (agree_followChain kin hrun env.patience [t.name] .nil)
    (parent_of_followChain env hrun.restores)
  intro levels levels' hlevels s s' m hroot
  have hframe : κ.Frames { s.frame with blocks := some (.ofLevels overrides levels) }
      { s'.frame with blocks := some (.ofLevels overrides' levels') } :=
    ⟨m.frame.template, m.frame.scope, .some (Levels.composition hlevels ho), m.frame.current⟩
  -- Both chains have ended at their roots, whose bodies are alike.
  exact hrun.body (κ.root m.frame.template.template hroot)
    ⟨hframe, m.depth, m.lenient, m.loaded, m.requests, m.output, m.met⟩

theorem agree_inclusionTarget {eval eval' : Expr → Render ω (Value ω)}
    (heval : ∀ e, κ.Agree κ.Values (eval e) (eval' e)) (i : Inclusion) :
    κ.Agree (Option.Rel κ.Live) (inclusionTarget env eval i) (inclusionTarget env' eval' i) := by
  unfold inclusionTarget
  split
  · exact Agree.bind .frame fun fr fr' hfr => .pure (.some hfr.template)
  · apply Agree.bind (heval i.template)
    intro v v' hv
    have hnames : candidateNames v' = candidateNames v := by
      cases hv with
      | same | callable _ | entries _ _ => rfl
      | array hitems =>
        unfold candidateNames
        induction hitems with
        | nil => rfl
        | cons hitem _ ih => exact congrArg₂ List.cons hitem.output ih
    rw [hnames]
    apply Agree.bind (agree_loadFirst kin none _)
    intro r r' hr
    cases hr with
    | ok h => exact .pure (.some h)
    | error missing =>
      cases missing with
      | none => exact .pure .none
      | some e =>
        simp only
        split
        · exact .pure .none
        · exact .fail e

omit [HostObject ω] kin in
theorem agree_inclusionBindings {eval eval' : Expr → Render ω (Value ω)}
    (heval : ∀ e, κ.Agree κ.Values (eval e) (eval' e)) (i : Inclusion) :
    κ.Agree κ.Tables (inclusionBindings eval i) (inclusionBindings eval' i) := by
  unfold inclusionBindings
  cases i.bindings with
  | none => exact .pure .nil
  | some e =>
    apply Agree.bind (heval e)
    intro v v' hv
    cases hv with
    | same =>
      cases v with
      | map entries => exact .pure (Values.tables_refl entries)
      | null => exact .pure .nil
      | _ => exact .failAt _ _
    | callable _ => exact .failAt _ _
    | array _ => exact .failAt _ _
    | entries hnames hvalues => exact .pure (Values.tables_of_entries hnames hvalues)

theorem agree_renderInclusion {inner inner' : Option (Runner ω)} (hinner : κ.Inner inner inner')
    {eval eval' : Expr → Render ω (Value ω)} (heval : ∀ e, κ.Agree κ.Values (eval e) (eval' e))
    (i : Inclusion) {overrides overrides' : List (String × BlockRef)}
    (ho : κ.Blocks overrides overrides') :
    κ.Agree Eq (renderInclusion env inner eval i overrides)
      (renderInclusion env' inner' eval' i overrides') := by
  apply Agree.bind (agree_inclusionTarget kin heval i)
  intro target target' htarget
  cases htarget with
  | none => exact .pure rfl
  | some ht =>
    apply Agree.bind (agree_inclusionBindings heval i)
    intro bindings bindings' hbindings
    apply Agree.bind .frame
    intro fr fr' hfr
    have hscope : κ.Scopes (inclusionScope i.only bindings fr.scope)
        (inclusionScope i.only bindings' fr'.scope) := by
      unfold inclusionScope
      split
      · exact .ofLayer none hbindings
      · rw [hfr.scope.root]
        exact (Scopes.ofLayer _ hfr.scope.flatten).push hbindings
    exact Agree.deeper hinner _ fun hrun => agree_renderTemplate kin hrun ht hscope ho

end Chains

/-! ## §6. Statements -/

theorem agree_runRounds (key : Option String) (value : String) (length : Nat)
    {parent parent' : Option (Value ω)} (hparent : Option.Rel κ.Values parent parent')
    {body body' : Render ω Unit} (hbody : κ.Agree Eq body body') (index : Nat)
    {items items' : List (Value ω × Value ω)} (h : Values.Items κ items items') :
    κ.Agree Eq (runRounds key value length parent body index items)
      (runRounds key value length parent' body' index items') := by
  have hinfo : ∀ index,
      κ.Values (loopInfo index length parent) (loopInfo index length parent') := by
    intro index
    refine .map (Table.insertAll_rel (Values.tables_refl _) ?_)
    cases hparent with
    | none => exact .nil
    | some hv => exact .cons ⟨rfl, hv⟩ .nil
  induction h generalizing index with
  | nil => exact .pure rfl
  | @cons item item' _ _ hitem _ ih =>
    have hlayer : κ.Tables (loopLayer key value (loopInfo index length parent) item)
        (loopLayer key value (loopInfo index length parent') item') := by
      refine Table.ofList_rel (List.rel_append (List.rel_append ?_ ?_) ?_)
      · exact .cons ⟨rfl, hitem.2⟩ .nil
      · rw [hitem.1]
        exact Values.tables_refl _
      · exact .cons ⟨rfl, hinfo index⟩ .nil
    exact Agree.bind (.inLayer hlayer hbody) fun _ _ _ => ih (index + 1)

theorem agree_itemsOf [HostObject ω] {v v' : Value ω} (h : κ.Values v v') :
    κ.Agree (Values.Items κ) (itemsOf v) (itemsOf v') := by
  have hitems := h.items
  cases h with
  | same =>
    cases v with
    | object identity host =>
      -- What an object hands out is the same in both renders.
      apply Agree.bind (.meet (.same _))
      intro w w' hw
      cases hw with
      | same =>
        cases w with
        | array items => exact .pure (Values.items_refl _)
        | _ => exact .pure .nil
      | callable _ | entries _ _ => exact .pure .nil
      | array h => exact .pure (Values.indexed h)
    | _ => exact .pure hitems
  | callable _ => exact .pure hitems
  | array _ => exact .pure hitems
  | entries _ _ => exact .pure hitems

theorem agree_runLoop [HostObject ω] (key : Option String) (value : String)
    {iterable iterable' : Render ω (Value ω)} {body body' orElse orElse' : Render ω Unit}
    (hiterable : κ.Agree κ.Values iterable iterable') (hbody : κ.Agree Eq body body')
    (horElse : κ.Agree Eq orElse orElse') :
    κ.Agree Eq (runLoop key value iterable body orElse)
      (runLoop key value iterable' body' orElse') := by
  apply Agree.bind hiterable
  intro v v' hv
  apply Agree.bind (agree_itemsOf hv)
  intro items items' hitems
  cases hitems with
  | nil => exact horElse
  | @cons item item' items items' hitem hitems =>
    apply Agree.bind .frame
    intro fr fr' hfr
    have hlength : (item' :: items').length = (item :: items).length :=
      congrArg (· + 1) hitems.length_eq.symm
    rw [hlength]
    exact agree_runRounds key value _ (hfr.scope.find? loopName) hbody 0 (.cons hitem hitems)

theorem agree_assignAll (names : List String) {vs vs' : List (Value ω)} (h : κ.Lists vs vs') :
    κ.Agree Eq (assignAll names vs) (assignAll names vs') := by
  induction names generalizing vs vs' with
  | nil => exact .pure rfl
  | cons name names ih =>
    cases h with
    | nil => exact .pure rfl
    | cons hv hvs => exact Agree.bind (.assign name hv) fun _ _ _ => ih hvs

theorem agree_importMacros (pos : Position) {t t' : LiveTemplate} (ht : κ.Live t t')
    (names : List (String × String)) :
    κ.Agree Eq (importMacros pos t names : Render ω Unit) (importMacros pos t' names) := by
  induction names with
  | nil => exact .pure rfl
  | cons pair names ih =>
    unfold importMacros
    rw [κ.macroTable ht.template, ht.name]
    cases t.template.macroTable.find? pair.1 with
    | none => exact .failAt pos _
    | some id =>
      exact Agree.bind (.assign pair.2 (.callable ⟨ht, rfl⟩)) fun _ _ _ => ih

theorem macrosOf_values {t t' : LiveTemplate} (ht : κ.Live t t') :
    κ.Values (macrosOf t : Value ω) (macrosOf t') := by
  unfold macrosOf
  rw [κ.macroTable ht.template]
  apply Values.map
  induction t.template.macroTable with
  | nil => exact .nil
  | cons entry table ih => exact .cons ⟨rfl, .callable ⟨ht, rfl⟩⟩ ih

section Statements

variable [HostObject ω] {env env' : Environment ω} (kin : κ.Kin env env')
variable {inner inner' : Option (Runner ω)} (hinner : κ.Inner inner inner')
include kin hinner

theorem agree_applyFilters (calls : List FilterCall) {v v' : Value ω} (h : κ.Values v v') :
    κ.Agree κ.Values (applyFilters env inner calls v) (applyFilters env' inner' calls v') := by
  induction calls generalizing v v' with
  | nil => exact .pure h
  | cons call calls ih =>
    apply Agree.bind
      (agree_applyFilter kin call.position call.name h (agree_evalAll kin hinner call.args))
    intro w w' hw
    exact ih hw

set_option linter.unusedSectionVars false in
mutual

/-- Running a statement agrees. -/
theorem agree_runStmt : ∀ s : Stmt, κ.Agree Eq (runStmt env inner s) (runStmt env' inner' s)
  | .text _ text => by
    rw [runStmt, runStmt]
    exact .write text
  | .print _ e => by
    rw [runStmt, runStmt]
    apply Agree.bind (agree_eval kin hinner e)
    intro v v' hv
    rw [hv.output]
    exact .write _
  | .block pos id => by
    rw [runStmt, runStmt]
    exact agree_renderSlot hinner pos id
  | .branch _ cond body orElse => by
    rw [runStmt, runStmt]
    apply Agree.bind (agree_eval kin hinner cond)
    intro v v' hv
    rw [hv.truthy]
    split
    · exact agree_runBody body
    · exact agree_runBody orElse
  | .loop _ key value iterable body orElse => by
    rw [runStmt, runStmt]
    exact agree_runLoop key value (agree_eval kin hinner iterable) (agree_runBody body)
      (agree_runBody orElse)
  | .includes inclusion => by
    rw [runStmt, runStmt]
    exact agree_renderInclusion kin hinner (agree_eval kin hinner) inclusion .nil
  | .embeds inclusion blocks => by
    rw [runStmt, runStmt]
    apply Agree.bind .frame
    intro fr fr' hfr
    exact agree_renderInclusion kin hinner (agree_eval kin hinner) inclusion
      (hfr.template.blocks blocks)
  | .reuses _ | .defines .. => by
    rw [runStmt, runStmt]
    exact .pure rfl
  | .assign _ targets values => by
    rw [runStmt, runStmt]
    exact Agree.bind (agree_evalAll kin hinner values) fun _ _ hvs => agree_assignAll targets hvs
  | .capture _ name body => by
    rw [runStmt, runStmt]
    apply Agree.bind (Agree.capture (agree_runBody body))
    intro text _ htext
    subst htext
    exact .assign name (.same _)
  | .perform _ e => by
    rw [runStmt, runStmt]
    exact Agree.bind (agree_eval kin hinner e) fun _ _ _ => .pure rfl
  | .filtered _ filters body => by
    rw [runStmt, runStmt]
    apply Agree.bind (Agree.capture (agree_runBody body))
    intro text _ htext
    subst htext
    apply Agree.bind (agree_applyFilters kin hinner filters (.same (rendered text)))
    intro v v' hv
    rw [hv.output]
    exact .write _
  | .importAll _ template newName => by
    rw [runStmt, runStmt]
    apply Agree.bind (agree_templateOf kin (agree_eval kin hinner) template)
    intro t t' ht
    exact .assign newName (macrosOf_values ht)
  | .importSome pos template names => by
    rw [runStmt, runStmt]
    apply Agree.bind (agree_templateOf kin (agree_eval kin hinner) template)
    intro t t' ht
    exact agree_importMacros pos ht names

theorem agree_runBody :
    ∀ ss : List Stmt, κ.Agree Eq (runBody env inner ss) (runBody env' inner' ss)
  | [] => by
    rw [runBody, runBody]
    exact .pure rfl
  | s :: ss => by
    rw [runBody, runBody]
    exact Agree.bind (agree_runStmt s) fun _ _ _ => agree_runBody ss

end

end Statements

/-! ## §7. Levels -/

section Levels

variable [HostObject ω] {env env' : Environment ω} (kin : κ.Kin env env')
variable (hcode : ∀ {ss ss'}, κ.code ss ss' →
  ∀ inner, runBody env' inner ss' = runBody env' inner ss)
include kin hcode

theorem agree_code {inner inner' : Option (Runner ω)} (hinner : κ.Inner inner inner')
    {ss ss' : List Stmt} (h : κ.code ss ss') :
    κ.Agree Eq (runBody env inner ss) (runBody env' inner' ss') := by
  rw [hcode h]
  exact agree_runBody kin hinner ss

/-- Where bodies that are alike do the same in one environment, all code agrees, whatever number of
levels is left. -/
theorem agree_innerRunner (n : Nat) : κ.Inner (innerRunner env n) (innerRunner env' n) := by
  -- Inside a level the runner is the one of the level below, with nothing to run on the lowest.
  induction n with
  | zero => exact .none
  | succ n ih =>
    exact .some ⟨innerRunner_restores env (n + 1) _ rfl, agree_eval kin ih, agree_code kin hcode ih⟩

theorem agree_runner (n : Nat) : κ.Runners (runner env n) (runner env' n) := by
  have hinner := agree_innerRunner kin hcode n
  exact ⟨innerRunner_restores env (n + 1) _ rfl, agree_eval kin hinner,
    agree_code kin hcode hinner⟩

/-! ## §8. Whole renders -/

/-- From states that are alike, templates that are alike are rendered with the same report, if
bodies that are alike do the same. -/
theorem renderFrom_eq_of_runBody {t t' : LiveTemplate} (ht : κ.Live t t') {s s' : RenderState ω}
    (m : κ.Matched s s') : env'.renderFrom t' s' = env.renderFrom t s := by
  have hends := agree_renderTemplate kin (agree_runner kin hcode maxDepth) ht m.frame.scope
    (.nil : κ.Blocks [] []) m
  unfold Environment.renderFrom
  generalize (renderTemplate env (runner env maxDepth) t s.frame.scope []).run s = p,
    (renderTemplate env' (runner env' maxDepth) t' s'.frame.scope []).run s' = q at hends
  obtain ⟨r, u⟩ := p
  obtain ⟨r', u'⟩ := q
  obtain ⟨results, states⟩ := hends
  have hresult : r' = r := by cases results <;> rfl
  have houtput : u'.output = u.output := states.output
  have hrequests : u'.requests = u.requests := states.requests
  simp only [hresult, houtput, hrequests]

end Levels

/-- So they are where bodies that are alike are the same. -/
theorem renderFrom_eq [HostObject ω] {env env' : Environment ω} (kin : κ.Kin env env')
    (hcode : ∀ {ss ss'}, κ.code ss ss' → ss' = ss) {t t' : LiveTemplate} (ht : κ.Live t t')
    {s s' : RenderState ω} (m : κ.Matched s s') : env'.renderFrom t' s' = env.renderFrom t s :=
  renderFrom_eq_of_runBody kin (fun h _ => by rw [hcode h]) ht m

/-- Renders of templates that are alike start in states that are alike. -/
theorem startState_matched {t t' : LiveTemplate} (ht : κ.Live t t') (context : Context ω)
    (room : Option Nat) (requests : List String) :
    κ.Matched (Environment.startState t context room requests)
      (Environment.startState t' context room requests) :=
  ⟨⟨ht, .refl _, .none, rfl⟩, rfl, rfl, .nil, rfl, rfl, rfl⟩

end Render

end Stencil
