import Stencil.Proofs.Render.Moves
import Stencil.Proofs.Render.Tandem

/-!
All code runs in tandem.

Two environments that answer alike, up to the numbers of objects and but for the policy for
undefined variables, run the same code in step: this holds for each part of the renderer, given that
it holds for the parts inside, and by an induction over expressions and statements, inside one over
the levels that are left, it holds for all code.

Where the policies differ the first environment is the strict one, and using an undefined variable
must then be among the errors at which the renders may part.
-/

namespace Stencil

/-! ## §1. Environments -/

/-- Environments in which two renders run in tandem. -/
structure Tandem.Twins {ω : Type} [HostObject ω] (τ : Tandem) (env env' : Environment ω) :
    Prop where
  source : ∀ {q r} name, τ.requests q r → env'.source r name = env.source q name
  prepare : ∀ name source, env'.prepare name source = env.prepare name source
  filters : ∀ name, Option.Rel (fun f g => ∀ template v args,
    g (env'.callState template) (rename τ.number v) (rename τ.number args) =
      rename τ.number (f (env.callState template) v args))
    (env.filters.find? name) (env'.filters.find? name)
  functions : ∀ name, Option.Rel (fun f g => ∀ template args,
    g (env'.callState template) (rename τ.number args) =
      rename τ.number (f (env.callState template) args))
    (env.functions.find? name) (env'.functions.find? name)
  tests : ∀ name, Option.Rel (fun f g => ∀ template v args,
    g (env'.callState template) (rename τ.number v) (rename τ.number args) =
      f (env.callState template) v args)
    (env.tests.find? name) (env'.tests.find? name)
  globals : env'.globals = rename τ.number env.globals
  patience : env'.patience = env.patience
  undefined : env'.undefined = env.undefined ∨
    env.undefined = .strict ∧ env'.undefined = .lenient ∧
      ∀ template pos name, τ.parts (.render template pos (.undefinedVariable name))
  host : HostObject.Opaque ω τ.number

namespace Render

open Tandem

variable {ω α : Type} {τ : Tandem} {out : Output → Output → Prop}

/-! ## §2. Moves -/

theorem inStep_meet (v : Value ω) : τ.InStep out (meet v) (meet (rename τ.number v)) := by
  apply InStep.get_bind
  · intro s t m
    obtain ⟨heq, hle⟩ := Value.identify_rename v m.met
    simp only [heq, run_bind_ok (run_set _ _), run_pure]
    refine .both rfl ⟨m.frame, m.depth, m.lenient, m.loaded, m.requests, m.output, ?_⟩
    -- As many objects were met in both renders, so the next numbers still correspond.
    intro i
    have := m.met ((v.identify .met s.met).2 - s.met + i)
    rwa [← Nat.add_assoc, Nat.add_sub_cancel' hle, ← Nat.add_assoc] at this
  · intro e _ t
    exact ⟨List.suffix_refl _, List.suffix_refl _⟩

section Moves

variable [HostObject ω] {env env' : Environment ω} (twins : τ.Twins env env')
include twins

theorem inStep_load (name : String) : τ.InStep out (load env name) (load env' name) := by
  apply InStep.get_bind
  · intro s t m
    have requested : τ.Matched out { s with requests := name :: s.requests }
        { t with requests := name :: t.requests } :=
      ⟨m.frame, m.depth, m.lenient, m.loaded, τ.requests_cons name m.requests, m.output, m.met⟩
    rcases hs : s.loaded.find? name with _ | live
    · have ht : t.loaded.find? name = none := by rw [m.loaded, hs]
      simp only [ht, run_bind_ok (run_set _ _), twins.source name m.requests]
      rcases env.source s.requests name with e | source
      · exact .both rfl requested
      · simp only [twins.prepare]
        rcases env.prepare name source with e | template
        · exact .both rfl requested
        · refine .both rfl ⟨m.frame, m.depth, m.lenient, ?_, requested.requests, m.output, m.met⟩
          exact congrArg (fun loaded => Table.insert loaded name _) m.loaded
    · have ht : t.loaded.find? name = some live := by rw [m.loaded, hs]
      simp only [ht]
      exact .both rfl m
  · intro e _ t
    rcases ht : t.loaded.find? name with _ | live
    · simp only [run_bind_ok (run_set _ _)]
      rcases env'.source t.requests name with e | source
      · exact ⟨List.suffix_refl _, List.suffix_cons _ _⟩
      · simp only
        rcases env'.prepare name source with e | template <;>
          exact ⟨List.suffix_refl _, List.suffix_cons _ _⟩
    · exact .refl t

theorem inStep_loadIfThere (name : String) :
    τ.InStep out (loadIfThere env name) (loadIfThere env' name) := by
  constructor
  · intro s t m
    have h := (inStep_load twins name).ends m
    rw [run_loadIfThere, run_loadIfThere]
    rcases hr : (load env name).run s with ⟨r, s'⟩
    rcases hr' : (load env' name).run t with ⟨r', t'⟩
    rw [hr, hr'] at h
    cases h with
    | both result states =>
      refine .both ?_ states
      subst result
      rcases r with (e | _) | live
      · by_cases he : e.isNotFound <;> simp [orMissing, he]
      · rfl
      · rfl
    | apart parts behind =>
      -- The error at which they part is not the one that is passed over.
      simp only [orMissing, τ.found_of_parts parts]
      exact .apart parts behind
  · intro e he t
    rw [run_loadIfThere]
    have hload : τ.InStep out _ _ := inStep_load twins name
    exact hload.grows he t

theorem inStep_loadFirst (missing : Option Error) (names : List String) :
    τ.InStep out (loadFirst env missing names) (loadFirst env' missing names) := by
  induction names generalizing missing with
  | nil => exact .pure _ rfl
  | cons name names ih =>
    apply InStep.bind (inStep_loadIfThere twins name)
    intro r
    cases r with
    | error e => exact ih (some e)
    | ok t => exact .pure _ rfl

/-- The one place where the policies for undefined variables matter. -/
theorem inStep_undefined (pos : Position) (name : String) :
    τ.InStep out (undefined env pos name) (undefined env' pos name) := by
  rcases twins.undefined with h | ⟨hstrict, hlenient, hparts⟩
  · apply InStep.get_bind_of
    intro s t hl
    rw [h, hl]
    split
    · exact .failAt pos _
    · exact .pure _ rfl
  · have hright : undefined env' pos name = (get >>= fun _ => pure .null) := by
      simp [undefined, hlenient]
    rw [hright]
    apply InStep.get_bind
    · intro s t m
      -- The strict render ends here, unless it is evaluating leniently itself.
      by_cases hl : s.lenient
      · simp only [hl, hstrict]
        exact .both rfl m
      · simp only [hl, hstrict]
        exact .apart (hparts _ pos name) m.behind
    · exact fun _ t => .refl t

theorem find?_rename (fr : Frame ω) (name : String) :
    find? env' (rename τ.number fr) name = rename τ.number (find? env fr name) := by
  show ((rename τ.number fr.scope).find? name).or _ = _
  rw [find?, Scope.find?_rename, twins.globals, Table.find?_rename]
  cases fr.scope.find? name with
  | some v => rfl
  | none =>
    cases env.globals.find? name with
    | some v => rfl
    | none =>
      show Option.or none (Option.or none (if name = selfName then _ else _)) = _
      by_cases hself : name = selfName
      · simp [hself, rename]
        rfl
      · simp [hself, rename]

theorem inStep_lookup (pos : Position) (name : String) :
    τ.InStep out (lookup env pos name) (lookup env' pos name) := by
  apply InStep.bind .frame
  intro fr
  rw [find?_rename twins]
  cases find? env fr name with
  | some v => exact .of_pure rfl
  | none => exact inStep_undefined twins pos name

end Moves

/-! ## §3. Blocks and macros -/

section Blocks

variable {inner inner' : Option (Runner ω)} (hinner : τ.Inner inner inner')
include hinner

theorem inStep_renderBlock (writable : τ.Writable ω out) (pos : Position) (name : String)
    (index : Nat) (r : BlockRef) :
    τ.InStep out (renderBlock inner pos name index r) (renderBlock inner' pos name index r) := by
  apply InStep.deeper hinner
  intro runner runner' hrun
  apply InStep.bind .frame
  intro before
  refine InStep.bind (InStep.changeFrame fun fr => rfl) fun _ => ?_
  -- After the block the frame is put together from the one before and the present one.
  have hafter : ∀ fr : Frame ω, Frame.afterBlock (rename τ.number before) (rename τ.number fr) =
      rename τ.number (Frame.afterBlock before fr) := fun fr =>
    congrArg (fun scope => Frame.mk before.template scope fr.blocks before.current)
      (Scope.rename_pop _ fr.scope).symm
  refine InStep.ending ?_ (fun m => ?_) (fun _ => ⟨rfl, rfl⟩) fun _ => ⟨rfl, rfl⟩
  · cases r.block? with
    | some block => exact hrun.body writable block.body
    | none => exact .pure () rfl
  · refine ⟨?_, m.depth, m.lenient, m.loaded, m.requests, m.output, m.met⟩
    simp only [m.frame, hafter]

theorem inStep_renderSlot (writable : τ.Writable ω out) (pos : Position) (id : DefinitionId) :
    τ.InStep out (renderSlot inner pos id) (renderSlot inner' pos id) := by
  apply InStep.bind .frame
  intro fr
  rw [show (rename τ.number fr).template = fr.template from rfl]
  cases fr.template.template.blockAt? id with
  | none => exact .pure () rfl
  | some block => exact inStep_renderBlock hinner writable pos block.name 0 _

/-- A block as a value writes to an output of its own, so nothing is asked of those outside. -/
theorem inStep_blockValue (pos : Position) (name : String) (index : Nat) (r : BlockRef) :
    τ.InStep out (rendered <$> capture (renderBlock inner pos name index r))
      (rendered <$> capture (renderBlock inner' pos name index r) : Render ω (Value ω)) :=
  (InStep.capture (inStep_renderBlock hinner writable_eq pos name index r)).map fun _ => rfl

theorem inStep_parentBlock (pos : Position) :
    τ.InStep out (parentBlock inner pos) (parentBlock inner' pos) := by
  apply InStep.bind .frame
  intro fr
  have hcandidate : ∀ name index, candidate? (rename τ.number fr) name index =
      candidate? fr name index := fun _ _ => rfl
  rw [show (rename τ.number fr).current = fr.current from rfl]
  cases fr.current with
  | none => exact .failAt pos _
  | some current =>
    obtain ⟨name, index⟩ := current
    simp only [Option.bind_some, hcandidate]
    cases candidate? fr name (index + 1) with
    | none => exact .failAt pos _
    | some r => exact inStep_blockValue hinner pos _ _ _

theorem inStep_namedBlock (pos : Position) (name : String) :
    τ.InStep out (namedBlock inner pos name) (namedBlock inner' pos name) := by
  apply InStep.bind .frame
  intro fr
  rw [show blockNamed? (rename τ.number fr) name = blockNamed? fr name from rfl]
  cases blockNamed? fr name with
  | none => exact .failAt pos _
  | some r => exact inStep_blockValue hinner pos name 0 r

omit hinner in
theorem inStep_bindParams {eval eval' : Expr → Render ω (Value ω)}
    (heval : ∀ e, τ.InStep out (eval e) (eval' e)) (params : List Param)
    (args : List (Value ω)) :
    τ.InStep out (bindParams eval params args)
      (bindParams eval' params (rename τ.number args)) := by
  induction params generalizing args with
  | nil => exact .of_pure rfl
  | cons param params ih =>
    cases args with
    | cons arg args => exact InStep.bind (.assign _ _) fun _ => ih args
    | nil =>
      have hassign : ∀ v, τ.InStep out
          (do
            assign param.name v
            bindParams eval params [])
          (do
            assign param.name (rename τ.number v)
            bindParams eval' params []) :=
        fun v => InStep.bind (.assign _ _) fun _ => ih []
      show τ.InStep out (bindParams eval (param :: params) [])
        (bindParams eval' (param :: params) [])
      unfold bindParams
      cases param.fallback with
      | none => exact InStep.bind (.pure Value.null rfl) hassign
      | some fallback => exact InStep.bind (heval fallback) hassign

omit hinner in
theorem inStep_macroBody {runner runner' : Runner ω} (hrun : τ.Runners runner runner')
    (definition : MacroDef) (args : List (Value ω)) :
    τ.InStep out (macroBody runner definition args)
      (macroBody runner' definition (rename τ.number args)) := by
  apply InStep.bind (inStep_bindParams hrun.eval definition.params args)
  intro extra
  rw [← Value.rename_array]
  apply InStep.bind (.assign _ _)
  intro _
  exact (InStep.capture (hrun.body writable_eq definition.body)).map fun _ => rfl

theorem inStep_callMacro (pos : Position) (m : MacroRef) (args : List (Value ω)) :
    τ.InStep out (callMacro inner pos m args)
      (callMacro inner' pos m (rename τ.number args)) := by
  unfold callMacro
  cases m.owner.template.macroAt? m.id with
  | none => exact .failAt pos _
  | some definition =>
    apply InStep.deeper hinner
    intro runner runner' hrun
    exact InStep.within (fun fr => rfl) (inStep_macroBody hrun definition args)

omit hinner in
theorem macroNamed?_rename (fr : Frame ω) (name : String) :
    macroNamed? (rename τ.number fr) name = macroNamed? fr name := by
  rw [macroNamed?, macroNamed?, show (rename τ.number fr).scope = rename τ.number fr.scope from rfl,
    show (rename τ.number fr).template = fr.template from rfl, Scope.find?_rename]
  cases fr.scope.find? name with
  | none => rfl
  | some v => cases v <;> simp

end Blocks

/-! ## §4. Expressions -/

section Expressions

variable [HostObject ω] {env env' : Environment ω} (twins : τ.Twins env env')
variable {inner inner' : Option (Runner ω)} (hinner : τ.Inner inner inner')
include twins

theorem inStep_attributeOf (pos : Position) (object key : Value ω) :
    τ.InStep out (attributeOf env pos object key)
      (attributeOf env' pos (rename τ.number object) (rename τ.number key)) := by
  unfold attributeOf
  rw [Value.attribute?_rename object twins.host]
  cases object.attribute? key with
  | none =>
    rw [Value.output_rename]
    exact inStep_undefined twins pos _
  | some v =>
    -- Only what an object hands out is met.
    cases object with
    | object identity host => exact inStep_meet v
    | array | map => exact .of_pure rfl
    | _ => exact .of_pure rfl

theorem inStep_applyFilter (pos : Position) (name : String) (subject : Value ω)
    {args args' : Render ω (List (Value ω))} (hargs : τ.InStep out args args') :
    τ.InStep out (applyFilter env pos name subject args)
      (applyFilter env' pos name (rename τ.number subject) args') := by
  unfold applyFilter
  have h := twins.filters name
  generalize env.filters.find? name = found, env'.filters.find? name = found' at h
  cases h with
  | none => exact .failAt pos _
  | some h =>
    refine InStep.bind hargs fun args => InStep.bind .frame fun fr => ?_
    exact InStep.bind (.ofCall pos name (h _ subject args)) fun v => inStep_meet v

theorem inStep_applyTest (pos : Position) (name : String) {subject subject' : Render ω (Value ω)}
    {args args' : Render ω (List (Value ω))} (hsubject : τ.InStep out subject subject')
    (hargs : τ.InStep out args args') :
    τ.InStep out (applyTest env pos name subject args)
      (applyTest env' pos name subject' args') := by
  unfold applyTest
  have h := twins.tests name
  generalize env.tests.find? name = found, env'.tests.find? name = found' at h
  cases h with
  | none => exact .failAt pos _
  | @some test test' h =>
    refine InStep.bind hsubject fun v => InStep.bind hargs fun args => ?_
    apply InStep.bind .frame
    intro fr
    refine InStep.bind (.ofCall pos name ?_) fun b => .pure _ rfl
    refine (h fr.template.name v args).trans ?_
    cases test (env.callState fr.template.name) v args <;> rfl

omit twins in
theorem inStep_applyBinary (host : HostObject.Opaque ω τ.number) (pos : Position) (op : BinaryOp)
    {left left' right right' : Render ω (Value ω)} (hleft : τ.InStep out left left')
    (hright : τ.InStep out right right') :
    τ.InStep out (applyBinary pos op left right) (applyBinary pos op left' right') := by
  apply InStep.bind hleft
  intro a
  rw [Value.truthy_rename]
  split
  · exact .pure _ rfl
  · exact .pure _ rfl
  · rename_i op _ _ _ _
    apply InStep.bind hright
    intro b
    rw [Value.binary_rename τ.number_injective host]
    cases Value.binary op a b with
    | ok v => exact .of_pure rfl
    | error e => exact .failAt pos _

include hinner

theorem inStep_callMethod (pos : Position) (object key : Value ω) (args : List (Value ω)) :
    τ.InStep out (callMethod inner pos object key args)
      (callMethod inner' pos (rename τ.number object) (rename τ.number key)
        (rename τ.number args)) := by
  have hfail : τ.InStep out (failAt pos (.unknownFunction key.output) : Render ω (Value ω))
      (failAt pos (.unknownFunction (rename τ.number key).output)) := by
    rw [Value.output_rename]
    exact .failAt pos _
  have hcall : ∀ host : ω, τ.InStep out
      (ofCall pos key.output (HostObject.call host key.output args) >>= meet)
      (ofCall pos (rename τ.number key).output
        (HostObject.call host (rename τ.number key).output (rename τ.number args)) >>= meet) := by
    intro host
    rw [Value.output_rename]
    exact InStep.bind (.ofCall pos _ (twins.host.call host _ args)) fun v => inStep_meet v
  unfold callMethod
  rw [Value.attribute?_rename object twins.host]
  -- A macro among the attributes is called, whatever it is an attribute of.
  rcases object.attribute? key with _ | v
  · cases object with
    | object identity host => exact hcall host
    | _ => exact hfail
  · cases v with
    | callable m => exact inStep_callMacro hinner pos m args
    | _ =>
      cases object with
      | object identity host => exact hcall host
      | _ => exact hfail

theorem inStep_callFunction (pos : Position) (name : String)
    {first first' : Render ω (Option (Value ω))} {args args' : Render ω (List (Value ω))}
    (hfirst : τ.InStep out first first') (hargs : τ.InStep out args args') :
    τ.InStep out (callFunction env inner pos name first args)
      (callFunction env' inner' pos name first' args') := by
  unfold callFunction
  split
  · exact inStep_parentBlock hinner pos
  · split
    · apply InStep.bind hfirst
      intro v
      cases v with
      | none => exact inStep_namedBlock hinner pos _
      | some v =>
        show τ.InStep out _ (namedBlock inner' pos (rename τ.number v).output)
        rw [Value.output_rename]
        exact inStep_namedBlock hinner pos _
    · apply InStep.bind .frame
      intro fr
      rw [macroNamed?_rename]
      cases macroNamed? fr name with
      | some m => exact InStep.bind hargs fun args => inStep_callMacro hinner pos m args
      | none =>
        have h := twins.functions name
        generalize env.functions.find? name = found, env'.functions.find? name = found' at h
        cases h with
        | none => exact .failAt pos _
        | some h =>
          refine InStep.bind hargs fun args => InStep.bind .frame fun fr => ?_
          exact InStep.bind (.ofCall pos name (h _ args)) fun v => inStep_meet v

set_option linter.unusedSectionVars false in
mutual

/-- Evaluating an expression runs in step, whatever has been written. -/
theorem inStep_eval : ∀ e : Expr, τ.InStep out (eval env inner e) (eval env' inner' e)
  | .name pos name => by
    rw [eval, eval]
    exact inStep_lookup twins pos name
  | .null _ | .bool .. | .number .. | .string .. => by
    rw [eval, eval]
    exact .of_pure rfl
  | .call pos name args => by
    rw [eval, eval]
    exact inStep_callFunction twins hinner pos name (inStep_evalFirst args) (inStep_evalAll args)
  | .filter pos name [] => by
    rw [eval, eval]
    exact .failAt pos _
  | .filter pos name (subject :: args) => by
    have hfilter : ∀ v, τ.InStep out (applyFilter env pos name v (evalAll env inner args))
        (applyFilter env' pos name (rename τ.number v) (evalAll env' inner' args)) :=
      fun v => inStep_applyFilter twins pos name v (inStep_evalAll args)
    rw [eval, eval]
    split
    · exact InStep.bind (inStep_eval subject).leniently hfilter
    · exact InStep.bind (inStep_eval subject) hfilter
  | .test pos name subject args => by
    rw [eval, eval]
    split
    · exact InStep.bind (inStep_isDefined subject) fun b => .pure _ rfl
    · exact inStep_applyTest twins pos name (inStep_eval subject) (inStep_evalAll args)
  | .binary pos op left right => by
    rw [eval, eval]
    exact inStep_applyBinary twins.host pos op (inStep_eval left) (inStep_eval right)
  | .unary _ op operand => by
    rw [eval, eval]
    exact InStep.bind (inStep_eval operand) fun v => .of_pure (Value.unary_rename op v)
  | .group _ e => by
    rw [eval, eval]
    exact inStep_eval e
  | .attribute pos object key => by
    rw [eval, eval]
    refine InStep.bind (inStep_eval object) fun o => InStep.bind (inStep_eval key) fun k => ?_
    exact inStep_attributeOf twins pos o k
  | .method pos object key args => by
    rw [eval, eval]
    refine InStep.bind (inStep_eval object) fun o => InStep.bind (inStep_eval key) fun k => ?_
    exact InStep.bind (inStep_evalAll args) fun vs => inStep_callMethod twins hinner pos o k vs
  | .conditional _ cond whenTrue whenFalse => by
    rw [eval, eval]
    apply InStep.bind (inStep_eval cond)
    intro v
    rw [Value.truthy_rename]
    split
    · exact inStep_eval whenTrue
    · exact inStep_eval whenFalse
  | .hash _ entries => by
    rw [eval, eval]
    exact InStep.bind (inStep_evalEntries entries []) fun table =>
      .of_pure (Value.rename_map _ table).symm
  | .array _ items => by
    rw [eval, eval]
    exact InStep.bind (inStep_evalAll items) fun vs => .of_pure (Value.rename_array _ vs).symm

theorem inStep_evalAll :
    ∀ es : List Expr, τ.InStep out (evalAll env inner es) (evalAll env' inner' es)
  | [] => by
    rw [evalAll, evalAll]
    exact .of_pure rfl
  | e :: es => by
    rw [evalAll, evalAll]
    refine InStep.bind (inStep_eval e) fun v => InStep.bind (inStep_evalAll es) fun vs => ?_
    exact .of_pure rfl

theorem inStep_evalFirst :
    ∀ es : List Expr, τ.InStep out (evalFirst env inner es) (evalFirst env' inner' es)
  | [] => by
    rw [evalFirst, evalFirst]
    exact .of_pure rfl
  | e :: _ => by
    rw [evalFirst, evalFirst]
    exact InStep.bind (inStep_eval e) fun v => .of_pure rfl

theorem inStep_evalEntries : ∀ (entries : List (Entry Expr)) (table : Table (Value ω)),
    τ.InStep out (evalEntries env inner entries table)
      (evalEntries env' inner' entries (rename τ.number table))
  | [], table => by
    rw [evalEntries, evalEntries]
    exact .of_pure rfl
  | ⟨_, key, value⟩ :: entries, table => by
    rw [evalEntries, evalEntries]
    refine InStep.bind (inStep_eval key) fun k => InStep.bind (inStep_eval value) fun v => ?_
    rw [Value.output_rename, Table.insert_rename]
    exact inStep_evalEntries entries (table.insert k.output v)

theorem inStep_isDefined :
    ∀ e : Expr, τ.InStep out (isDefined env inner e) (isDefined env' inner' e)
  | .name _ name => by
    rw [isDefined, isDefined]
    apply InStep.bind .frame
    intro fr
    refine .of_pure ?_
    rw [find?_rename twins]
    cases find? env fr name <;> rfl
  | .attribute _ object key => by
    rw [isDefined, isDefined]
    refine InStep.bind (inStep_eval object).leniently fun o => InStep.bind (inStep_eval key) ?_
    intro k
    refine .of_pure ?_
    rw [Value.attribute?_rename o twins.host]
    cases o.attribute? k <;> rfl
  | .group _ e => by
    rw [isDefined, isDefined]
    exact inStep_isDefined e
  | .null _ | .bool .. | .number .. | .string .. | .call .. | .filter .. | .test .. | .binary ..
  | .unary .. | .method .. | .conditional .. | .hash .. | .array .. => by
    simp only [isDefined]
    exact .pure true rfl

end

end Expressions

/-! ## §5. Other templates -/

instance : Rename Level := .trivial Level

instance : Rename UsedTemplate := .trivial UsedTemplate

theorem rename_usedTemplates (f : Nat → Nat) (uses : List UsedTemplate) : rename f uses = uses :=
  List.map_id' uses

theorem rename_levels (f : Nat → Nat) (levels : List Level) : rename f levels = levels :=
  List.map_id' levels

section Chains

variable [HostObject ω] {env env' : Environment ω} (twins : τ.Twins env env')
include twins

theorem inStep_templateOf {eval eval' : Expr → Render ω (Value ω)}
    (heval : ∀ e, τ.InStep out (eval e) (eval' e)) (e : Expr) :
    τ.InStep out (templateOf env eval e) (templateOf env' eval' e) := by
  unfold templateOf
  split
  · exact InStep.bind .frame fun fr => .pure _ rfl
  · apply InStep.bind (heval e)
    intro v
    rw [Value.output_rename]
    exact inStep_load twins _

theorem inStep_usedTemplates {eval eval' : Expr → Render ω (Value ω)}
    (heval : ∀ e, τ.InStep out (eval e) (eval' e)) (reuses : List Reuse) :
    τ.InStep out (usedTemplates env eval reuses) (usedTemplates env' eval' reuses) := by
  induction reuses with
  | nil => exact .of_pure rfl
  | cons reuse reuses ih =>
    apply InStep.bind (inStep_templateOf twins heval reuse.template)
    intro t
    exact InStep.bind ih fun more => .of_pure rfl

theorem inStep_followChain {runner runner' : Runner ω} (hrun : τ.Runners runner runner')
    (writable : τ.Writable ω out) (n : Nat) (names : List String) (levels : List Level) :
    τ.InStep out (followChain env runner n names levels)
      (followChain env' runner' n names levels) := by
  induction n generalizing names levels with
  | zero => exact .throw _
  | succ n ih =>
    apply InStep.bind .frame
    intro fr
    apply InStep.bind (inStep_usedTemplates twins hrun.eval _)
    intro uses
    rw [rename_usedTemplates]
    rw [show (rename τ.number fr).template = fr.template from rfl]
    rcases fr.template.template.parent with _ | extended
    · exact .pure _ (rename_levels _ _)
    · refine InStep.bind (hrun.body writable _) fun _ => ?_
      apply InStep.bind (inStep_templateOf twins hrun.eval extended.template)
      intro parent
      show τ.InStep out _ (if names.contains parent.name then _ else _)
      split
      · exact .fail _
      · exact InStep.bind (.changeFrame fun fr => rfl) fun _ => ih _ _

theorem inStep_renderTemplate {runner runner' : Runner ω} (hrun : τ.Runners runner runner')
    (writable : τ.Writable ω out) (t : LiveTemplate) (scope : Scope ω)
    (overrides : List (String × BlockRef)) :
    τ.InStep out (renderTemplate env runner t scope overrides)
      (renderTemplate env' runner' t (rename τ.number scope) overrides) := by
  refine InStep.within (fun fr => rfl) ?_
  rw [twins.patience]
  apply InStep.bind (inStep_followChain twins hrun writable _ _ _)
  intro levels
  rw [rename_levels]
  refine InStep.bind (.changeFrame fun fr => rfl) fun _ => InStep.bind .frame fun fr => ?_
  exact hrun.body writable _

theorem inStep_inclusionTarget {eval eval' : Expr → Render ω (Value ω)}
    (heval : ∀ e, τ.InStep out (eval e) (eval' e)) (i : Inclusion) :
    τ.InStep out (inclusionTarget env eval i) (inclusionTarget env' eval' i) := by
  unfold inclusionTarget
  split
  · exact InStep.bind .frame fun fr => .pure _ rfl
  · apply InStep.bind (heval i.template)
    intro v
    have hnames : candidateNames (rename τ.number v) = candidateNames v := by
      cases v with
      | array items => simp [candidateNames, Rename.map]
      | map entries => simp [candidateNames, Value.output]
      | object identity host => simp [candidateNames, Value.output]
      | _ => rfl
    rw [hnames]
    apply InStep.bind (inStep_loadFirst twins none _)
    intro r
    rcases r with (_ | e) | t
    · exact .pure _ rfl
    · by_cases hi : i.ignoreMissing
      · simp only [hi]
        exact .pure none rfl
      · simp only [hi]
        exact .fail e
    · exact .pure _ rfl

omit [HostObject ω] twins in
theorem inStep_inclusionBindings {eval eval' : Expr → Render ω (Value ω)}
    (heval : ∀ e, τ.InStep out (eval e) (eval' e)) (i : Inclusion) :
    τ.InStep out (inclusionBindings eval i) (inclusionBindings eval' i) := by
  unfold inclusionBindings
  cases i.bindings with
  | none => exact .of_pure rfl
  | some e =>
    apply InStep.bind (heval e)
    intro v
    cases v with
    | map entries =>
      rw [Value.rename_map]
      exact .of_pure rfl
    | array items =>
      rw [Value.rename_array]
      exact .failAt _ _
    | null => exact .of_pure rfl
    | _ => exact .failAt _ _

omit [HostObject ω] twins in
theorem inclusionScope_rename (only : Bool) (bindings : Table (Value ω)) (caller : Scope ω) :
    inclusionScope only (rename τ.number bindings) (rename τ.number caller) =
      rename τ.number (inclusionScope only bindings caller) := by
  cases only <;> simp [inclusionScope]

theorem inStep_renderInclusion {inner inner' : Option (Runner ω)} (hinner : τ.Inner inner inner')
    (writable : τ.Writable ω out) {eval eval' : Expr → Render ω (Value ω)}
    (heval : ∀ e, τ.InStep out (eval e) (eval' e)) (i : Inclusion)
    (overrides : List (String × BlockRef)) :
    τ.InStep out (renderInclusion env inner eval i overrides)
      (renderInclusion env' inner' eval' i overrides) := by
  apply InStep.bind (inStep_inclusionTarget twins heval i)
  intro target
  cases target with
  | none => exact .pure _ rfl
  | some t =>
    apply InStep.bind (inStep_inclusionBindings heval i)
    intro bindings
    apply InStep.bind .frame
    intro fr
    apply InStep.deeper hinner
    intro runner runner' hrun
    show τ.InStep out _
      (renderTemplate env' runner' t (inclusionScope i.only _ (rename τ.number fr.scope)) _)
    rw [inclusionScope_rename]
    exact inStep_renderTemplate twins hrun writable t _ overrides

end Chains

/-! ## §6. Statements -/

theorem loopLayer_rename (key : Option String) (value : String) (index length : Nat)
    (parent : Option (Value ω)) (item : Value ω × Value ω) :
    loopLayer key value (loopInfo index length (rename τ.number parent)) (rename τ.number item) =
      rename τ.number (loopLayer key value (loopInfo index length parent) item) := by
  have hinfo : loopInfo index length (rename τ.number parent) =
      rename τ.number (loopInfo index length parent) := by
    unfold loopInfo
    rw [Value.rename_map, ← Table.insertAll_rename, ← Table.ofList_rename]
    cases parent <;> rfl
  unfold loopLayer
  rw [hinfo, ← Table.ofList_rename]
  cases key <;> rfl

theorem inStep_runRounds (key : Option String) (value : String) (length : Nat)
    (parent : Option (Value ω)) {body body' : Render ω Unit} (hbody : τ.InStep out body body')
    (index : Nat) (items : List (Value ω × Value ω)) :
    τ.InStep out (runRounds key value length parent body index items)
      (runRounds key value length (rename τ.number parent) body' index
        (rename τ.number items)) := by
  induction items generalizing index with
  | nil => exact .pure () rfl
  | cons item items ih =>
    exact InStep.bind (.inLayer (loopLayer_rename key value index length parent item) hbody)
      fun _ => ih (index + 1)

theorem inStep_itemsOf [HostObject ω] (host : HostObject.Opaque ω τ.number) (v : Value ω) :
    τ.InStep out (itemsOf v) (itemsOf (rename τ.number v)) := by
  have hitems := Value.items_rename v host
  cases v with
  | object identity o =>
    -- The items of an object are handed out anew in both renders.
    have harray : Value.array ((rename τ.number (Value.object identity o)).items.map Prod.snd) =
        rename τ.number (.array ((Value.object identity o).items.map Prod.snd)) := by
      rw [hitems, Value.rename_array]
      simp [Rename.map]
    show τ.InStep out _ (meet (.array ((rename τ.number (Value.object identity o)).items.map
      Prod.snd)) >>= _)
    rw [harray]
    apply InStep.bind (inStep_meet _)
    intro w
    cases w with
    | array items =>
      rw [Value.rename_array]
      exact .of_pure (Value.indexed_rename _ items)
    | map entries =>
      rw [Value.rename_map]
      exact .of_pure rfl
    | _ => exact .of_pure rfl
  | array items =>
    rw [Value.rename_array] at hitems ⊢
    exact .of_pure hitems
  | map entries =>
    rw [Value.rename_map] at hitems ⊢
    exact .of_pure hitems
  | _ => exact .of_pure rfl

theorem inStep_runLoop [HostObject ω] (host : HostObject.Opaque ω τ.number)
    (key : Option String) (value : String) {iterable iterable' : Render ω (Value ω)}
    {body body' orElse orElse' : Render ω Unit}
    (hiterable : τ.InStep out iterable iterable') (hbody : τ.InStep out body body')
    (horElse : τ.InStep out orElse orElse') :
    τ.InStep out (runLoop key value iterable body orElse)
      (runLoop key value iterable' body' orElse') := by
  apply InStep.bind hiterable
  intro v
  apply InStep.bind (inStep_itemsOf host v)
  intro items
  cases items with
  | nil => exact horElse
  | cons item items =>
    apply InStep.bind .frame
    intro fr
    show τ.InStep out _ (runRounds key value (rename τ.number (item :: items)).length
      ((rename τ.number fr.scope).find? loopName) body' 0 (rename τ.number (item :: items)))
    rw [Rename.length, Scope.find?_rename]
    exact inStep_runRounds key value _ _ hbody 0 _

theorem inStep_assignAll (names : List String) (vs : List (Value ω)) :
    τ.InStep out (assignAll names vs) (assignAll names (rename τ.number vs)) := by
  induction names generalizing vs with
  | nil => exact .pure () rfl
  | cons name names ih =>
    cases vs with
    | nil => exact .pure () rfl
    | cons v vs => exact InStep.bind (.assign name v) fun _ => ih vs

theorem inStep_importMacros (pos : Position) (t : LiveTemplate) (names : List (String × String)) :
    τ.InStep out (importMacros pos t names : Render ω Unit) (importMacros pos t names) := by
  induction names with
  | nil => exact .pure () rfl
  | cons pair names ih =>
    unfold importMacros
    cases t.template.macroTable.find? pair.1 with
    | none => exact .failAt pos _
    | some id => exact InStep.bind (.assign pair.2 _) fun _ => ih

theorem macrosOf_rename (t : LiveTemplate) :
    rename τ.number (macrosOf t : Value ω) = macrosOf t := by
  rw [macrosOf, Value.rename_map]
  simp [Rename.map, Function.comp_def]

section Statements

variable [HostObject ω] {env env' : Environment ω} (twins : τ.Twins env env')
variable {inner inner' : Option (Runner ω)} (hinner : τ.Inner inner inner')
include twins hinner

theorem inStep_applyFilters (calls : List FilterCall) (v : Value ω) :
    τ.InStep out (applyFilters env inner calls v)
      (applyFilters env' inner' calls (rename τ.number v)) := by
  induction calls generalizing v with
  | nil => exact .of_pure rfl
  | cons call calls ih =>
    refine InStep.bind ?_ fun w => ih w
    exact inStep_applyFilter twins call.position call.name v (inStep_evalAll twins hinner call.args)

set_option linter.unusedSectionVars false in
mutual

/-- Running a statement runs in step, as long as the outputs stay related. -/
theorem inStep_runStmt {out : Output → Output → Prop} (writable : τ.Writable ω out) :
    ∀ s : Stmt, τ.InStep out (runStmt env inner s) (runStmt env' inner' s)
  | .text _ text => by
    rw [runStmt, runStmt]
    exact writable text
  | .print _ e => by
    rw [runStmt, runStmt]
    apply InStep.bind (inStep_eval twins hinner e)
    intro v
    rw [Value.output_rename]
    exact writable _
  | .block pos id => by
    rw [runStmt, runStmt]
    exact inStep_renderSlot hinner writable pos id
  | .branch _ cond body orElse => by
    rw [runStmt, runStmt]
    apply InStep.bind (inStep_eval twins hinner cond)
    intro v
    rw [Value.truthy_rename]
    split
    · exact inStep_runBody writable body
    · exact inStep_runBody writable orElse
  | .loop _ key value iterable body orElse => by
    rw [runStmt, runStmt]
    exact inStep_runLoop twins.host key value (inStep_eval twins hinner iterable)
      (inStep_runBody writable body) (inStep_runBody writable orElse)
  | .includes inclusion => by
    rw [runStmt, runStmt]
    exact inStep_renderInclusion twins hinner writable (inStep_eval twins hinner) inclusion []
  | .embeds inclusion blocks => by
    rw [runStmt, runStmt]
    apply InStep.bind .frame
    intro fr
    exact inStep_renderInclusion twins hinner writable (inStep_eval twins hinner) inclusion _
  | .reuses _ | .defines .. => by
    rw [runStmt, runStmt]
    exact .pure () rfl
  | .assign _ targets values => by
    rw [runStmt, runStmt]
    exact InStep.bind (inStep_evalAll twins hinner values) fun vs => inStep_assignAll targets vs
  | .capture _ name body => by
    rw [runStmt, runStmt]
    apply InStep.bind (InStep.capture (inStep_runBody writable_eq body))
    intro text
    exact .assign name _
  | .perform _ e => by
    rw [runStmt, runStmt]
    exact InStep.bind (inStep_eval twins hinner e) fun v => .pure () rfl
  | .filtered _ filters body => by
    rw [runStmt, runStmt]
    apply InStep.bind (InStep.capture (inStep_runBody writable_eq body))
    intro text
    apply InStep.bind (inStep_applyFilters twins hinner filters (rendered text))
    intro v
    rw [Value.output_rename]
    exact writable _
  | .importAll _ template newName => by
    rw [runStmt, runStmt]
    apply InStep.bind (inStep_templateOf twins (inStep_eval twins hinner) template)
    intro t
    have h : τ.InStep out _ _ := InStep.assign newName (macrosOf t : Value ω)
    rwa [macrosOf_rename] at h
  | .importSome pos template names => by
    rw [runStmt, runStmt]
    apply InStep.bind (inStep_templateOf twins (inStep_eval twins hinner) template)
    exact fun t => inStep_importMacros pos t names

theorem inStep_runBody {out : Output → Output → Prop} (writable : τ.Writable ω out) :
    ∀ ss : List Stmt, τ.InStep out (runBody env inner ss) (runBody env' inner' ss)
  | [] => by
    rw [runBody, runBody]
    exact .pure () rfl
  | s :: ss => by
    rw [runBody, runBody]
    exact InStep.bind (inStep_runStmt writable s) fun _ => inStep_runBody writable ss

end

end Statements

/-! ## §7. Levels -/

/-- Whatever number of levels is left, all code runs in step. -/
theorem inStep_innerRunner [HostObject ω] {env env' : Environment ω} (twins : τ.Twins env env')
    (n : Nat) :
    τ.Inner (innerRunner env n) (innerRunner env' n) := by
  -- Inside a level the runner is the one of the level below, with nothing to run on the lowest.
  induction n with
  | zero => exact .none
  | succ n ih =>
    exact .some ⟨inStep_eval twins ih, fun writable ss => inStep_runBody twins ih writable ss⟩

theorem inStep_runner [HostObject ω] {env env' : Environment ω} (twins : τ.Twins env env')
    (n : Nat) :
    τ.Runners (runner env n) (runner env' n) :=
  have hinner := inStep_innerRunner twins n
  ⟨inStep_eval twins hinner, fun writable ss => inStep_runBody twins hinner writable ss⟩

end Render

end Stencil
