import Stencil.Proofs.Render.InOrder
import Stencil.Proofs.Render.Lockstep

/-!
Code runs in its own template.

Code of several templates takes turns in one render: the body of the root, overriding blocks, blocks
taken over, the blocks of an embedding statement, macros.  At each crossing the running template is
exchanged by hand.  What runs belongs to the running template all the same: this is shown for each
part of the renderer, given that code of the running template is evaluated and run in order, and by
an induction over expressions and statements, inside one over the levels that are left, for all
code.
-/

namespace Stencil.Render

variable {ω α : Type} {own : Error → Prop} {t : LiveTemplate}

/-! ## §1. Moves -/

theorem inOrder_meet {v : Value ω} (hv : Genuine v) : InOrder own t (fun _ => meet v) (meet v) := by
  apply InOrderTo.get_bind
  intro s hs ht
  refine ⟨fun _ => .inl rfl, fun a ha => ?_, nofun⟩
  cases ha
  exact ⟨Value.genuine_identify .met v s.met hv, hs, ht⟩

theorem inOrder_write (text : String) :
    InOrder own t (fun _ => write text) (write text : Render ω Unit) := by
  apply InOrderTo.get_bind
  intro s hs ht
  split
  · exact InOrderTo.pure (α := Unit) True.intro s hs ht
  · split
    · exact (InOrderTo.fail (e := .outputClosed) id : InOrder own t _ _) s hs ht
    · exact ⟨fun _ => .inl rfl, fun _ _ => ⟨True.intro, hs, ht⟩, nofun⟩

theorem template_load (env : Environment ω) (name : String) {s : RenderState ω}
    (ht : s.frame.template = t) : ((load env name).run s).2.frame.template = t :=
  (congrArg (fun p => p.frame.template) (keeps_load env name s)).trans ht

section Moves

variable [HostObject ω] {env : Environment ω} (handsOn : env.HandsOn)
include handsOn

/-- A template that is loaded is grounded, and one that is not is no error of code. -/
theorem genuine_load (name : String) {s : RenderState ω} (hs : Genuine s) :
    Genuine ((load env name).run s).1 ∧ Genuine ((load env name).run s).2 := by
  rw [load, run_bind_ok (run_get s)]
  split
  · next live hfound => exact ⟨Table.genuine_find? hs.2 name live hfound, hs⟩
  · rw [run_bind_ok (run_set _ _)]
    split
    · next e he => exact ⟨handsOn.genuine_source he, hs⟩
    · next source _ =>
      have hprepared := handsOn.genuine_prepare name source
      split
      · next failure hfailure =>
        rw [hfailure] at hprepared
        exact ⟨hprepared, hs⟩
      · next template htemplate =>
        rw [htemplate] at hprepared
        exact ⟨hprepared, hs.1, Table.genuine_insert hs.2 hprepared⟩

theorem inOrder_load (name : String) :
    InOrder own t (fun _ => load env name) (load env name) := by
  intro s hs ht
  obtain ⟨hresult, hstate⟩ := genuine_load handsOn name hs
  generalize hr : ((load env name).run s).1 = r at hresult
  refine ⟨fun _ => .inl rfl, fun live h => ⟨?_, hstate, template_load env name ht⟩,
    fun e h hcode => absurd hcode ?_⟩
  · cases hr.symm.trans h
    exact hresult
  · cases hr.symm.trans h
    exact hresult

theorem inOrder_loadIfThere (name : String) :
    InOrder own t (fun _ => loadIfThere env name) (loadIfThere env name) := by
  intro s hs ht
  obtain ⟨hresult, hstate⟩ := genuine_load handsOn name hs
  have hmissing : Genuine (orMissing ((load env name).run s).1) := by
    generalize ((load env name).run s).1 = r at hresult
    rcases r with (e | _) | live
    · simp only [orMissing]
      split <;> exact hresult
    · exact hresult
    · exact hresult
  simp only [run_loadIfThere]
  generalize orMissing ((load env name).run s).1 = r at hmissing
  refine ⟨fun _ => .inl rfl, fun a h => ⟨?_, hstate, template_load env name ht⟩,
    fun e h hcode => absurd hcode ?_⟩
  · cases h
    exact hmissing
  · cases h
    exact hmissing

theorem inOrder_loadFirst {missing : Option Error} (hmissing : Genuine missing)
    (names : List String) :
    InOrder own t (fun _ => loadFirst env missing names) (loadFirst env missing names) := by
  induction names generalizing missing with
  | nil => exact InOrderTo.pure hmissing
  | cons name names ih =>
    apply InOrderTo.next (inOrder_loadIfThere handsOn name)
    intro r hr
    cases r with
    | error e => exact ih (Genuine.some.mpr hr)
    | ok live => exact InOrderTo.pure hr

omit [HostObject ω] handsOn in
theorem inOrder_undefined {pos : Position} {name : String}
    (h : own (.render t.name pos (.undefinedVariable name))) :
    InOrder own t (fun _ => undefined env pos name) (undefined env pos name) := by
  apply InOrderTo.get_bind
  intro s hs ht
  split
  · exact (InOrderTo.failAt h : InOrder own t _ _) s hs ht
  · exact InOrderTo.pure Value.genuine_null s hs ht

theorem genuine_find? {fr : Frame ω} (hfr : Genuine fr) (name : String) :
    Genuine (find? env fr name) := by
  refine Genuine.or (Scope.genuine_find? hfr.2.1 name) ?_
  refine Genuine.or (Table.genuine_find? handsOn.globals name) ?_
  split
  · exact Genuine.some.mpr (Value.genuine_string _)
  · exact Genuine.none

theorem inOrder_lookup {pos : Position} {name : String}
    (h : own (.render t.name pos (.undefinedVariable name))) :
    InOrder own t (fun _ => lookup env pos name) (lookup env pos name) := by
  apply InOrderTo.frame_bind
  intro fr hfr _
  have hfound := genuine_find? handsOn hfr name
  cases hv : find? env fr name with
  | some v => exact InOrderTo.pure (hfound v hv)
  | none => exact inOrder_undefined h

end Moves

/-! ## §2. Blocks and macros -/

/-- The blocks of a table that belongs to a template. -/
theorem genuine_blocks {table : Table DefinitionId} (ht : t.template.Grounded)
    (h : ∀ id ∈ table.values, t.template.Issues (.block id)) : Genuine (t.blocks table) := by
  intro entry hentry
  obtain ⟨pair, hpair, rfl⟩ := List.mem_map.mp hentry
  exact ⟨True.intro, ht, h pair.2 (List.mem_map_of_mem hpair)⟩

theorem genuine_candidate? {fr : Frame ω} (hfr : Genuine fr) (name : String) (index : Nat) :
    Genuine (candidate? fr name index) := by
  intro r hr
  obtain ⟨blocks, hblocks, hr⟩ := Option.bind_eq_some_iff.mp hr
  have hgenuine : Genuine blocks := hfr.2.2 blocks hblocks
  exact Genuine.getElem? (Genuine.map (Genuine.filter hgenuine) fun _ h => h.2) index r hr

theorem genuine_blockNamed? {fr : Frame ω} (hfr : Genuine fr) (name : String) :
    Genuine (blockNamed? fr name) := by
  refine Genuine.or (genuine_candidate? hfr name 0) fun r hr => ?_
  obtain ⟨id, hid, rfl⟩ := Option.map_eq_some_iff.mp hr
  exact ⟨hfr.1, Template.issues_of_mem_blockTable (Table.mem_values_of_find? hid)⟩

theorem genuine_macroNamed? {fr : Frame ω} (hfr : Genuine fr) (name : String) :
    Genuine (macroNamed? fr name) := by
  have hscope := Scope.genuine_find? hfr.2.1 name
  have htable : Genuine ((fr.template.template.macroTable.find? name).map fun id =>
      (⟨fr.template, id⟩ : MacroRef)) := by
    intro m hm
    obtain ⟨id, hid, rfl⟩ := Option.map_eq_some_iff.mp hm
    exact ⟨hfr.1, Template.issues_of_mem_macroTable (Table.mem_values_of_find? hid)⟩
  unfold macroNamed?
  split
  · next m hfound => exact Genuine.some.mpr (Value.genuine_callable.mp (hscope _ hfound))
  · exact htable

section Blocks

variable {inner' : Watch → Option (Runner ω)} {inner : Option (Runner ω)}
  (hinner : InnerInOrder inner' inner)
include hinner

/-- A block runs while the template is running that the block is looked up in. -/
theorem inOrder_renderBlock {pos : Position}
    (hlimit : own (.render t.name pos (.recursionLimit maxDepth))) (name : String) (index : Nat)
    {r : BlockRef} (hr : Genuine r) :
    InOrder own t (fun w => w.renderBlock (inner' w) pos name index r)
      (renderBlock inner pos name index r) := by
  apply InOrderTo.deeper hinner hlimit
  intro watched runner hrun
  apply InOrderTo.frame_bind
  intro before hbefore ht
  have hframe : InOrderTo (· = r.owner) own t
      (fun _ => changeFrame fun f => Frame.inBlock f name index r)
      (changeFrame fun f => Frame.inBlock f name index r : Render ω Unit) :=
    InOrderTo.changeFrame fun fr hfr _ =>
      ⟨⟨hr.1, Scope.genuine_push hfr.2.1 Genuine.nil, hfr.2.2⟩, rfl⟩
  refine hframe.bind fun _ _ t' ht' => ?_
  subst ht'
  -- After the block the template that ran before it runs again.
  refine InOrderTo.ending (?_ : InOrder own r.owner _ _) fun s hs _ =>
    ⟨⟨⟨hbefore.1, Scope.genuine_pop hs.1.2.1, hs.1.2.2⟩, hs.2⟩, ht⟩
  apply InOrderTo.blockOf hr
  intro block hblock hfound
  rw [hfound]
  exact (hrun.body fun s hs => .block hblock hs).clean

theorem inOrder_renderSlot {pos : Position}
    (hlimit : own (.render t.name pos (.recursionLimit maxDepth))) {id : DefinitionId}
    (hid : t.template.Issues (.block id)) :
    InOrder own t (fun w => w.renderSlot (inner' w) pos id) (renderSlot inner pos id) := by
  apply InOrderTo.frame_bind
  rintro fr hfr rfl
  have hslot : Genuine (⟨fr.template, id⟩ : BlockRef) := ⟨hfr.1, hid⟩
  apply InOrderTo.blockOf hslot
  intro block _ hfound
  have hfound : fr.template.template.blockAt? id = some block := hfound
  rw [hfound]
  exact inOrder_renderBlock hinner hlimit _ _
    (Genuine.getD (genuine_candidate? hfr block.name 0) hslot)

theorem inOrder_blockValue {pos : Position}
    (hlimit : own (.render t.name pos (.recursionLimit maxDepth))) (name : String) (index : Nat)
    {r : BlockRef} (hr : Genuine r) :
    InOrder own t (fun w => rendered <$> capture (w.renderBlock (inner' w) pos name index r))
      (rendered <$> capture (renderBlock inner pos name index r) : Render ω (Value ω)) :=
  (InOrderTo.capture (inOrder_renderBlock hinner hlimit name index hr)).map fun _ _ =>
    Value.genuine_safe _

theorem inOrder_parentBlock {pos : Position}
    (hlimit : own (.render t.name pos (.recursionLimit maxDepth)))
    (hnone : own (.render t.name pos .noParentBlock)) :
    InOrder own t (fun w => w.parentBlock (inner' w) pos) (parentBlock inner pos) := by
  apply InOrderTo.frame_bind
  intro fr hfr _
  cases fr.current with
  | none => exact InOrderTo.failAt hnone
  | some current =>
    obtain ⟨name, index⟩ := current
    simp only [Option.bind_some]
    cases hr : candidate? fr name (index + 1) with
    | none => exact InOrderTo.failAt hnone
    | some r => exact inOrder_blockValue hinner hlimit _ _ (genuine_candidate? hfr _ _ r hr)

theorem inOrder_namedBlock {pos : Position} {name : String}
    (hlimit : own (.render t.name pos (.recursionLimit maxDepth)))
    (hnone : own (.render t.name pos (.unknownBlock name))) :
    InOrder own t (fun w => w.namedBlock (inner' w) pos name) (namedBlock inner pos name) := by
  apply InOrderTo.frame_bind
  intro fr hfr _
  have hnamed := genuine_blockNamed? hfr name
  cases hr : blockNamed? fr name with
  | none => exact InOrderTo.failAt hnone
  | some r => exact inOrder_blockValue hinner hlimit name 0 (hnamed r hr)

omit hinner in
/-- Arguments are evaluated already, and defaults belong to the template of the macro. -/
theorem inOrder_bindParams {eval' : Watch → Expr → Render ω (Value ω)}
    {eval : Expr → Render ω (Value ω)}
    (heval : ∀ e, t.template.Owns (.expr e) →
      InOrder Error.noneOwn t (fun w => eval' w e) (eval e))
    {params : List Param} (hparams : ∀ param ∈ params, ∀ e, param.fallback = some e →
      t.template.Owns (.expr e))
    {args : List (Value ω)} (hargs : Genuine args) :
    InOrder own t (fun w => bindParams (eval' w) params args) (bindParams eval params args) := by
  induction params generalizing args with
  | nil => exact InOrderTo.pure hargs
  | cons param params ih =>
    obtain ⟨hparam, hparams⟩ := List.forall_mem_cons.mp hparams
    cases args with
    | cons arg args =>
      obtain ⟨harg, hargs⟩ := Genuine.cons.mp hargs
      exact InOrderTo.next (InOrderTo.assign _ harg) fun _ _ => ih hparams hargs
    | nil =>
      unfold bindParams
      have hrest : ∀ v : Value ω, Genuine v → InOrder own t
          (fun w => do
            assign param.name v
            bindParams (eval' w) params [])
          (do
            assign param.name v
            bindParams eval params []) :=
        fun v hv => InOrderTo.next (InOrderTo.assign _ hv) fun _ _ => ih hparams Genuine.nil
      cases hfallback : param.fallback with
      | none => exact InOrderTo.next (InOrderTo.pure Value.genuine_null) hrest
      | some fallback =>
        exact InOrderTo.next (heval fallback (hparam fallback hfallback)).clean hrest

/-- A macro runs while the template is running that the macro is looked up in. -/
theorem inOrder_callMacro {pos : Position}
    (hlimit : own (.render t.name pos (.recursionLimit maxDepth))) {m : MacroRef}
    (hm : Genuine m) {args : List (Value ω)} (hargs : Genuine args) :
    InOrder own t (fun w => w.callMacro (inner' w) pos m args) (callMacro inner pos m args) := by
  apply InOrderTo.macroOf hm
  intro definition hdefinition hfound
  unfold callMacro
  rw [hfound]
  apply InOrderTo.deeper hinner hlimit
  intro watched runner hrun
  have hframe : ∀ fr : Frame ω, Genuine fr → fr.template = t →
      Genuine (Frame.forMacro fr m) ∧ (Frame.forMacro fr m).template = m.owner :=
    fun fr hfr _ => ⟨⟨hm.1, Scope.genuine_ofLayer hfr.2.1.1 Genuine.nil, Genuine.none⟩, rfl⟩
  suffices hbody : InOrder own m.owner _ _ from InOrderTo.within hframe hbody
  have hparams : InOrder own m.owner _ _ := inOrder_bindParams (fun e he => hrun.eval he)
    (fun param hparam e he => .fallback hdefinition hparam he) hargs
  refine InOrderTo.next hparams fun extra hextra => ?_
  refine InOrderTo.next (InOrderTo.assign _ (Value.genuine_array.mpr hextra)) fun _ _ => ?_
  have hbody := hrun.body fun s hs => .definition hdefinition hs
  exact (InOrderTo.capture hbody.clean).map fun _ _ => Value.genuine_safe _

end Blocks

/-! ## §3. Expressions -/

section Expressions

variable [HostObject ω] {env : Environment ω} (handsOn : env.HandsOn)
variable {inner' : Watch → Option (Runner ω)} {inner : Option (Runner ω)}
  (hinner : InnerInOrder inner' inner)
include handsOn

theorem inOrder_attributeOf {pos : Position}
    (hundefined : ∀ name, own (.render t.name pos (.undefinedVariable name))) {object : Value ω}
    (hobject : Genuine object) (key : Value ω) :
    InOrder own t (fun _ => attributeOf env pos object key) (attributeOf env pos object key) := by
  have hattribute := Value.genuine_attribute? handsOn.host hobject key
  unfold attributeOf
  cases hv : object.attribute? key with
  | none => exact inOrder_undefined (hundefined _)
  | some v =>
    have hgenuine : Genuine v := hattribute v hv
    cases object with
    | object identity host => exact inOrder_meet hgenuine
    | _ => exact InOrderTo.pure hgenuine

theorem inOrder_applyFilter {pos : Position} {name : String}
    (hunknown : own (.render t.name pos (.unknownFilter name)))
    (hfailed : ∀ message, own (.render t.name pos (.call name message))) {subject : Value ω}
    (hsubject : Genuine subject) {args' : Watch → Render ω (List (Value ω))}
    {args : Render ω (List (Value ω))} (hargs : InOrder own t args' args) :
    InOrder own t (fun w => applyFilter env pos name subject (args' w))
      (applyFilter env pos name subject args) := by
  unfold applyFilter
  cases hfilter : env.filters.find? name with
  | none => exact InOrderTo.failAt hunknown
  | some filter =>
    apply InOrderTo.next hargs
    intro args hargs
    apply InOrderTo.frame_bind
    intro fr _ _
    have hresult := handsOn.filters filter (Table.mem_values_of_find? hfilter)
      (env.callState fr.template.name) subject args hsubject hargs
    exact InOrderTo.next (InOrderTo.ofCall hresult hfailed) fun v hv => inOrder_meet hv

omit [HostObject ω] handsOn in
theorem inOrder_applyTest {pos : Position} {name : String}
    (hunknown : own (.render t.name pos (.unknownTest name)))
    (hfailed : ∀ message, own (.render t.name pos (.call name message)))
    {subject' : Watch → Render ω (Value ω)} {subject : Render ω (Value ω)}
    (hsubject : InOrder own t subject' subject) {args' : Watch → Render ω (List (Value ω))}
    {args : Render ω (List (Value ω))} (hargs : InOrder own t args' args) :
    InOrder own t (fun w => applyTest env pos name (subject' w) (args' w))
      (applyTest env pos name subject args) := by
  unfold applyTest
  cases env.tests.find? name with
  | none => exact InOrderTo.failAt hunknown
  | some test =>
    refine InOrderTo.next hsubject fun v _ => InOrderTo.next hargs fun args _ => ?_
    apply InOrderTo.frame_bind
    intro fr _ _
    have hresult : ∀ r : Except String Bool, Genuine r := by rintro (_ | _) <;> exact True.intro
    refine InOrderTo.next (InOrderTo.ofCall (hresult _) hfailed) fun b _ => ?_
    exact InOrderTo.pure (Value.genuine_bool b)

omit handsOn in
theorem inOrder_applyBinary {pos : Position}
    (hfailed : ∀ e, own (.render t.name pos (.unsupported (.operation e)))) (op : BinaryOp)
    {left' right' : Watch → Render ω (Value ω)} {left right : Render ω (Value ω)}
    (hleft : InOrder own t left' left) (hright : InOrder own t right' right) :
    InOrder own t (fun w => applyBinary pos op (left' w) (right' w))
      (applyBinary pos op left right) := by
  apply InOrderTo.next hleft
  intro a _
  -- The second operand is evaluated unless the first one decides.
  split
  · exact InOrderTo.pure (Value.genuine_bool _)
  · exact InOrderTo.pure (Value.genuine_bool _)
  · rename_i op _ _ _ _
    apply InOrderTo.next hright
    intro b _
    have hvalue := Value.genuine_binary op a b
    cases hv : Value.binary op a b with
    | ok v =>
      rw [hv] at hvalue
      exact InOrderTo.pure hvalue
    | error e => exact InOrderTo.failAt (hfailed e)

include hinner

theorem inOrder_callMethod {pos : Position}
    (hlimit : own (.render t.name pos (.recursionLimit maxDepth)))
    (hunknown : ∀ name, own (.render t.name pos (.unknownFunction name)))
    (hfailed : ∀ name message, own (.render t.name pos (.call name message)))
    {object : Value ω} (hobject : Genuine object) (key : Value ω) {args : List (Value ω)}
    (hargs : Genuine args) :
    InOrder own t (fun w => w.callMethod (inner' w) pos object key args)
      (callMethod inner pos object key args) := by
  have hattribute := Value.genuine_attribute? handsOn.host hobject key
  have hcall : ∀ host : ω, InOrder own t
      (fun _ => ofCall pos key.output (HostObject.call host key.output args) >>= meet)
      (ofCall pos key.output (HostObject.call host key.output args) >>= meet) := fun host =>
    InOrderTo.next (InOrderTo.ofCall (handsOn.host.call host _ args hargs) (hfailed _)) fun v hv =>
      inOrder_meet hv
  unfold callMethod Watch.callMethod
  rcases hv : object.attribute? key with _ | v
  · cases object with
    | object identity host => exact hcall host
    | _ => exact InOrderTo.failAt (hunknown _)
  · have hgenuine : Genuine v := hattribute v hv
    cases v with
    | callable m =>
      exact inOrder_callMacro hinner hlimit (Value.genuine_callable.mp hgenuine) hargs
    | _ =>
      cases object with
      | object identity host => exact hcall host
      | _ => exact InOrderTo.failAt (hunknown _)

theorem inOrder_callFunction {pos : Position} {name : String}
    (hlimit : own (.render t.name pos (.recursionLimit maxDepth)))
    (hparent : name = "parent" → own (.render t.name pos .noParentBlock))
    (hblock : name = "block" → ∀ block, own (.render t.name pos (.unknownBlock block)))
    (hunknown : own (.render t.name pos (.unknownFunction name)))
    (hfailed : ∀ message, own (.render t.name pos (.call name message)))
    {first' : Watch → Render ω (Option (Value ω))} {first : Render ω (Option (Value ω))}
    (hfirst : InOrder own t first' first) {args' : Watch → Render ω (List (Value ω))}
    {args : Render ω (List (Value ω))} (hargs : InOrder own t args' args) :
    InOrder own t (fun w => w.callFunction env (inner' w) pos name (first' w) (args' w))
      (callFunction env inner pos name first args) := by
  unfold callFunction Watch.callFunction
  split
  · next h => exact inOrder_parentBlock hinner hlimit (hparent h)
  · split
    · next h =>
      exact InOrderTo.next hfirst fun v _ => inOrder_namedBlock hinner hlimit (hblock h _)
    · apply InOrderTo.frame_bind
      intro fr hfr _
      have hnamed := genuine_macroNamed? hfr name
      cases hm : macroNamed? fr name with
      | some m =>
        exact InOrderTo.next hargs fun args hargs =>
          inOrder_callMacro hinner hlimit (hnamed m hm) hargs
      | none =>
        cases hfunction : env.functions.find? name with
        | none => exact InOrderTo.failAt hunknown
        | some function =>
          refine InOrderTo.next hargs fun args hargs => InOrderTo.frame_bind fun fr _ _ => ?_
          have hresult := handsOn.functions function (Table.mem_values_of_find? hfunction)
            (env.callState fr.template.name) args hargs
          exact InOrderTo.next (InOrderTo.ofCall hresult hfailed) fun v hv => inOrder_meet hv

set_option linter.unusedSectionVars false in
mutual

/-- Expressions of the running template are evaluated in order. -/
theorem inOrder_eval : ∀ e : Expr, t.template.Owns (.expr e) →
    InOrder Error.noneOwn t (fun w => w.eval env (inner' w) e) (eval env inner e)
  | .name pos name, he => by
    simp only [eval, Watch.eval]
    exact InOrderTo.runs he (inOrder_lookup handsOn (Code.Raises.undefinedName pos name |>.error t))
  | .null _, he | .bool .., he | .number .., he | .string .., he => by
    simp only [eval, Watch.eval]
    exact InOrderTo.runs he (InOrderTo.pure (by simp))
  | .call pos name args, he => by
    have hargs : ∀ e ∈ args, t.template.Owns (.expr e) := fun e hmem => he.part hmem
    simp only [eval, Watch.eval]
    refine InOrderTo.runs he (inOrder_callFunction handsOn hinner ?_ ?_ ?_ ?_ ?_
      (inOrder_evalFirst args hargs).clean (inOrder_evalAll args hargs).clean)
    · exact (Code.Raises.callTooDeep pos name args).error t
    · rintro rfl
      exact (Code.Raises.noParentBlock pos args).error t
    · rintro rfl block
      exact (Code.Raises.unknownBlock pos args block).error t
    · exact (Code.Raises.unknownFunction pos name args).error t
    · exact fun message => (Code.Raises.failedFunction pos name args message).error t
  | .filter pos name [], he => by
    simp only [eval, Watch.eval]
    exact InOrderTo.runs he (InOrderTo.failAt ((Code.Raises.noSubject pos name).error t))
  | .filter pos name (subject :: args), he => by
    have hargs : ∀ e ∈ args, t.template.Owns (.expr e) :=
      fun e hmem => he.part (List.mem_cons_of_mem _ hmem)
    have hsubject := inOrder_eval subject (he.part List.mem_cons_self)
    have hfilter : ∀ v, Genuine v →
        InOrder ((Code.expr (.filter pos name (subject :: args))).errors t) t
        (fun w => applyFilter env pos name v (w.evalAll env (inner' w) args))
        (applyFilter env pos name v (evalAll env inner args)) := fun v hv =>
      inOrder_applyFilter handsOn ((Code.Raises.unknownFilter pos name _).error t)
        (fun message => (Code.Raises.failedFilter pos name _ message).error t) hv
        (inOrder_evalAll args hargs).clean
    simp only [eval, Watch.eval]
    refine InOrderTo.runs he ?_
    split
    · exact InOrderTo.next (InOrderTo.leniently hsubject.clean) hfilter
    · exact InOrderTo.next hsubject.clean hfilter
  | .test pos name subject args, he => by
    have hargs : ∀ e ∈ args, t.template.Owns (.expr e) :=
      fun e hmem => he.part (List.mem_cons_of_mem _ hmem)
    have hsubject : t.template.Owns (.expr subject) := he.part List.mem_cons_self
    simp only [eval, Watch.eval]
    refine InOrderTo.runs he ?_
    split
    · exact InOrderTo.next (inOrder_isDefined subject hsubject).clean fun b _ =>
        InOrderTo.pure (Value.genuine_bool b)
    · exact inOrder_applyTest ((Code.Raises.unknownTest pos name subject args).error t)
        (fun message => (Code.Raises.failedTest pos name subject args message).error t)
        (inOrder_eval subject hsubject).clean (inOrder_evalAll args hargs).clean
  | .binary pos op left right, he => by
    have hleft := inOrder_eval left (he.part (by simp [Expr.parts]))
    have hright := inOrder_eval right (he.part (by simp [Expr.parts]))
    simp only [eval, Watch.eval]
    exact InOrderTo.runs he (inOrder_applyBinary
      (fun e => (Code.Raises.failedOperation pos op left right e).error t) op hleft.clean
      hright.clean)
  | .unary _ op operand, he => by
    have hoperand := inOrder_eval operand (he.part (by simp [Expr.parts]))
    simp only [eval, Watch.eval]
    exact InOrderTo.runs he (InOrderTo.next hoperand.clean fun v _ =>
      InOrderTo.pure (Value.genuine_unary op v))
  | .group _ e, he => by
    have hinside := inOrder_eval e (he.part (by simp [Expr.parts]))
    simp only [eval, Watch.eval]
    exact InOrderTo.runs he hinside.clean
  | .attribute pos object key, he => by
    have hobject := inOrder_eval object (he.part (by simp [Expr.parts]))
    have hkey := inOrder_eval key (he.part (by simp [Expr.parts]))
    simp only [eval, Watch.eval]
    refine InOrderTo.runs he (InOrderTo.next hobject.clean fun o ho => ?_)
    refine InOrderTo.next hkey.clean fun k _ => inOrder_attributeOf handsOn (fun name => ?_) ho k
    exact (Code.Raises.undefinedAttribute pos object key name).error t
  | .method pos object key args, he => by
    have hobject := inOrder_eval object (he.part (by simp [Expr.parts]))
    have hkey := inOrder_eval key (he.part (by simp [Expr.parts]))
    have hargs := inOrder_evalAll args fun e hmem => he.part (by simp [Expr.parts, hmem])
    simp only [eval, Watch.eval]
    refine InOrderTo.runs he (InOrderTo.next hobject.clean fun o ho => ?_)
    refine InOrderTo.next hkey.clean fun k _ => InOrderTo.next hargs.clean fun vs hvs => ?_
    exact inOrder_callMethod handsOn hinner
      ((Code.Raises.methodTooDeep pos object key args).error t)
      (fun name => (Code.Raises.unknownMethod pos object key args name).error t)
      (fun name message => (Code.Raises.failedMethod pos object key args name message).error t)
      ho k hvs
  | .conditional _ cond whenTrue whenFalse, he => by
    have hcond := inOrder_eval cond (he.part (by simp [Expr.parts]))
    have htrue := inOrder_eval whenTrue (he.part (by simp [Expr.parts]))
    have hfalse := inOrder_eval whenFalse (he.part (by simp [Expr.parts]))
    simp only [eval, Watch.eval]
    refine InOrderTo.runs he (InOrderTo.next hcond.clean fun v _ => ?_)
    split
    · exact htrue.clean
    · exact hfalse.clean
  | .hash _ entries, he => by
    have hentries := inOrder_evalEntries entries [] Genuine.nil fun entry hentry =>
      ⟨he.part (List.mem_flatMap.mpr ⟨entry, hentry, by simp⟩),
        he.part (List.mem_flatMap.mpr ⟨entry, hentry, by simp⟩)⟩
    simp only [eval, Watch.eval]
    exact InOrderTo.runs he (InOrderTo.next hentries.clean fun table htable =>
      InOrderTo.pure (Value.genuine_map.mpr htable))
  | .array _ items, he => by
    have hitems := inOrder_evalAll items fun e hmem => he.part hmem
    simp only [eval, Watch.eval]
    exact InOrderTo.runs he (InOrderTo.next hitems.clean fun vs hvs =>
      InOrderTo.pure (Value.genuine_array.mpr hvs))

theorem inOrder_evalAll : ∀ es : List Expr, (∀ e ∈ es, t.template.Owns (.expr e)) →
    InOrder Error.noneOwn t (fun w => w.evalAll env (inner' w) es) (evalAll env inner es)
  | [], _ => by
    simp only [evalAll, Watch.evalAll]
    exact InOrderTo.pure Genuine.nil
  | e :: es, hes => by
    obtain ⟨he, hes⟩ := List.forall_mem_cons.mp hes
    simp only [evalAll, Watch.evalAll]
    refine InOrderTo.next (inOrder_eval e he) fun v hv => ?_
    refine InOrderTo.next (inOrder_evalAll es hes) fun vs hvs => ?_
    exact InOrderTo.pure (Genuine.cons.mpr ⟨hv, hvs⟩)

theorem inOrder_evalFirst : ∀ es : List Expr, (∀ e ∈ es, t.template.Owns (.expr e)) →
    InOrder Error.noneOwn t (fun w => w.evalFirst env (inner' w) es) (evalFirst env inner es)
  | [], _ => by
    simp only [evalFirst, Watch.evalFirst]
    exact InOrderTo.pure Genuine.none
  | e :: _, hes => by
    simp only [evalFirst, Watch.evalFirst]
    exact InOrderTo.next (inOrder_eval e (hes e List.mem_cons_self)) fun v hv =>
      InOrderTo.pure (Genuine.some.mpr hv)

theorem inOrder_evalEntries : ∀ (entries : List (Entry Expr)) (table : Table (Value ω)),
    Genuine table →
    (∀ entry ∈ entries, t.template.Owns (.expr entry.key) ∧ t.template.Owns (.expr entry.value)) →
    InOrder Error.noneOwn t (fun w => w.evalEntries env (inner' w) entries table)
      (evalEntries env inner entries table)
  | [], table, htable, _ => by
    simp only [evalEntries, Watch.evalEntries]
    exact InOrderTo.pure htable
  | ⟨_, key, value⟩ :: entries, table, htable, h => by
    obtain ⟨⟨hkey, hvalue⟩, hentries⟩ := List.forall_mem_cons.mp h
    simp only [evalEntries, Watch.evalEntries]
    refine InOrderTo.next (inOrder_eval key hkey) fun k _ => ?_
    refine InOrderTo.next (inOrder_eval value hvalue) fun v hv => ?_
    exact inOrder_evalEntries entries _ (Table.genuine_insert htable hv) hentries

theorem inOrder_isDefined : ∀ e : Expr, t.template.Owns (.expr e) →
    InOrder Error.noneOwn t (fun w => w.isDefined env (inner' w) e) (isDefined env inner e)
  | .name _ name, he => by
    simp only [isDefined, Watch.isDefined]
    exact InOrderTo.runs he (InOrderTo.frame_bind fun fr _ _ => InOrderTo.pure True.intro)
  | .attribute _ object key, he => by
    have hobject := inOrder_eval object (he.part (by simp [Expr.parts]))
    have hkey := inOrder_eval key (he.part (by simp [Expr.parts]))
    simp only [isDefined, Watch.isDefined]
    refine InOrderTo.runs he (InOrderTo.next (InOrderTo.leniently hobject.clean) fun o _ => ?_)
    exact InOrderTo.next hkey.clean fun k _ => InOrderTo.pure True.intro
  | .group _ e, he => by
    have hinside := inOrder_isDefined e (he.part (by simp [Expr.parts]))
    simp only [isDefined, Watch.isDefined]
    exact InOrderTo.runs he hinside.clean
  | .null _, he | .bool .., he | .number .., he | .string .., he | .call .., he | .filter .., he
  | .test .., he | .binary .., he | .unary .., he | .method .., he | .conditional .., he
  | .hash .., he | .array .., he => by
    simp only [isDefined, Watch.isDefined]
    exact InOrderTo.runs he (InOrderTo.pure True.intro)

end

end Expressions

/-! ## §4. Other templates -/

theorem genuine_levelBlocks {l : Level} (hl : Genuine l) : Genuine l.blocks := by
  have hown : ∀ t : LiveTemplate, Genuine t → Genuine (t.blocks t.template.blockTable) :=
    fun t ht => genuine_blocks ht fun id hid => Template.issues_of_mem_blockTable hid
  refine Genuine.append.mpr ⟨hown l.template hl.1, ?_⟩
  refine Genuine.flatMap (Genuine.reverse hl.2) fun u hu => ?_
  exact Genuine.map (hown u.template hu) fun entry hentry => ⟨True.intro, hentry.2⟩

theorem genuine_ofLevels {overrides : List (String × BlockRef)} {levels : List Level}
    (hoverrides : Genuine overrides) (hlevels : Genuine levels) :
    Genuine (Composition.ofLevels overrides levels) :=
  Genuine.append.mpr ⟨hoverrides, Genuine.flatMap hlevels fun _ hl => genuine_levelBlocks hl⟩

section Chains

variable [HostObject ω] {env : Environment ω} (handsOn : env.HandsOn)
include handsOn

theorem inOrder_templateOf {eval' : Watch → Expr → Render ω (Value ω)}
    {eval : Expr → Render ω (Value ω)}
    (heval : ∀ e, t.template.Owns (.expr e) →
      InOrder Error.noneOwn t (fun w => eval' w e) (eval e))
    {e : Expr} (he : t.template.Owns (.expr e)) :
    InOrder own t (fun w => templateOf env (eval' w) e) (templateOf env eval e) := by
  unfold templateOf
  split
  · exact InOrderTo.frame_bind fun fr hfr _ => InOrderTo.pure hfr.1
  · exact InOrderTo.next (heval e he).clean fun v _ => inOrder_load handsOn _

theorem inOrder_usedTemplates {eval' : Watch → Expr → Render ω (Value ω)}
    {eval : Expr → Render ω (Value ω)}
    (heval : ∀ e, t.template.Owns (.expr e) →
      InOrder Error.noneOwn t (fun w => eval' w e) (eval e))
    {reuses : List Reuse} (hreuses : ∀ r ∈ reuses, t.template.Owns (.expr r.template)) :
    InOrder own t (fun w => usedTemplates env (eval' w) reuses)
      (usedTemplates env eval reuses) := by
  induction reuses with
  | nil => exact InOrderTo.pure Genuine.nil
  | cons reuse reuses ih =>
    obtain ⟨hreuse, hreuses⟩ := List.forall_mem_cons.mp hreuses
    refine InOrderTo.next (inOrder_templateOf handsOn heval hreuse) fun live hlive => ?_
    refine InOrderTo.next (ih hreuses) fun more hmore => ?_
    exact InOrderTo.pure (Genuine.cons.mpr ⟨hlive, hmore⟩)

/-- Along a chain each template runs its own preamble and names its own parent. -/
theorem inOrder_followChain {watched : Watch → Runner ω} {runner : Runner ω}
    (hrun : RunnersInOrder watched runner) (n : Nat) (names : List String) {levels : List Level}
    (hlevels : Genuine levels) :
    InOrderTo (fun _ => True) own t (fun w => followChain env (watched w) n names levels)
      (followChain env runner n names levels) := by
  induction n generalizing t names levels with
  | zero => exact InOrderTo.exhausted
  | succ n ih =>
    apply InOrderTo.frame_bind
    rintro fr hfr rfl
    have hreuses : InOrder own fr.template _ _ :=
      inOrder_usedTemplates handsOn (fun e he => hrun.eval he) fun r hr => .reuse hr
    refine InOrderTo.next hreuses fun uses huses => ?_
    have hlevels' : Genuine (⟨fr.template, uses⟩ :: levels) :=
      Genuine.cons.mpr ⟨⟨hfr.1, huses⟩, hlevels⟩
    cases hparent : fr.template.template.parent with
    | none =>
      exact (InOrderTo.pure (Genuine.reverse hlevels')).ending (f := id) fun s hs _ =>
        ⟨hs, True.intro⟩
    | some extended =>
      refine InOrderTo.next (hrun.body fun s hs => .body (List.mem_filter.mp hs).1).clean
        fun _ _ => ?_
      have htemplate : InOrder own fr.template _ _ :=
        inOrder_templateOf handsOn (fun e he => hrun.eval he) (.parent hparent)
      refine InOrderTo.next htemplate fun parent hgrounded => ?_
      simp only
      split
      · exact InOrderTo.fail id
      · have hframe : InOrderTo (· = parent) own fr.template
            (fun _ => changeFrame fun f => { f with template := parent })
            (changeFrame fun f => { f with template := parent } : Render ω Unit) :=
          InOrderTo.changeFrame fun f hf _ => ⟨⟨hgrounded, hf.2⟩, rfl⟩
        exact hframe.bind fun _ _ t' ht' => ht' ▸ ih _ hlevels'

theorem inOrder_renderTemplate {watched : Watch → Runner ω} {runner : Runner ω}
    (hrun : RunnersInOrder watched runner) {live : LiveTemplate} (hlive : Genuine live)
    {scope : Scope ω} (hscope : Genuine scope) {overrides : List (String × BlockRef)}
    (hoverrides : Genuine overrides) :
    InOrder own t (fun w => renderTemplate env (watched w) live scope overrides)
      (renderTemplate env runner live scope overrides) := by
  have hframe : ∀ fr : Frame ω, Genuine fr → fr.template = t →
      Genuine (Frame.forTemplate live scope) ∧
        (Frame.forTemplate live scope).template = live :=
    fun _ _ _ => ⟨⟨hlive, hscope, Genuine.none⟩, rfl⟩
  suffices hchain : InOrderTo (fun _ => True) own live _ _ from InOrderTo.within hframe hchain
  refine (inOrder_followChain handsOn hrun env.patience [live.name] Genuine.nil).bind
    fun levels hlevels root _ => ?_
  have hblocks : InOrder own root
      (fun _ => changeFrame fun f => { f with blocks := some (.ofLevels overrides levels) })
      (changeFrame fun f => { f with blocks := some (.ofLevels overrides levels) } :
        Render ω Unit) :=
    InOrderTo.changeFrame fun f hf ht =>
      ⟨⟨hf.1, hf.2.1, Genuine.some.mpr (genuine_ofLevels hoverrides hlevels)⟩, ht⟩
  -- The root of the chain is running now, and its body is its own.
  refine InOrderTo.next hblocks fun _ _ => InOrderTo.frame_bind fun fr _ hroot => ?_
  subst hroot
  exact (hrun.body fun s hs => .body hs).clean.ending (f := id) fun s hs _ => ⟨hs, True.intro⟩

theorem inOrder_inclusionTarget {eval' : Watch → Expr → Render ω (Value ω)}
    {eval : Expr → Render ω (Value ω)}
    (heval : ∀ e, t.template.Owns (.expr e) →
      InOrder Error.noneOwn t (fun w => eval' w e) (eval e))
    {i : Inclusion} (hi : t.template.Owns (.expr i.template)) :
    InOrder own t (fun w => inclusionTarget env (eval' w) i) (inclusionTarget env eval i) := by
  unfold inclusionTarget
  split
  · exact InOrderTo.frame_bind fun fr hfr _ => InOrderTo.pure (Genuine.some.mpr hfr.1)
  · refine InOrderTo.next (heval _ hi).clean fun v _ => ?_
    refine InOrderTo.next (inOrder_loadFirst handsOn Genuine.none _) fun r hr => ?_
    rcases r with (_ | e) | live
    · exact InOrderTo.pure Genuine.none
    · have he : Genuine e := Genuine.some.mp hr
      by_cases hi : i.ignoreMissing
      · simp only [hi]
        exact InOrderTo.pure Genuine.none
      · simp only [hi]
        exact InOrderTo.fail he
    · exact InOrderTo.pure (Genuine.some.mpr hr)

omit [HostObject ω] handsOn in
theorem inOrder_inclusionBindings {eval' : Watch → Expr → Render ω (Value ω)}
    {eval : Expr → Render ω (Value ω)}
    (heval : ∀ e, t.template.Owns (.expr e) →
      InOrder Error.noneOwn t (fun w => eval' w e) (eval e))
    {i : Inclusion} (hi : ∀ e, i.bindings = some e → t.template.Owns (.expr e))
    (hbindings : ∀ kind, own (.render t.name i.position (.unsupported (.bindings kind)))) :
    InOrder own t (fun w => inclusionBindings (eval' w) i) (inclusionBindings eval i) := by
  unfold inclusionBindings
  cases he : i.bindings with
  | none => exact InOrderTo.pure Genuine.nil
  | some e =>
    refine InOrderTo.next (heval e (hi e he)).clean fun v hv => ?_
    cases v with
    | map entries => exact InOrderTo.pure (Value.genuine_map.mp hv)
    | null => exact InOrderTo.pure Genuine.nil
    | _ => exact InOrderTo.failAt (hbindings _)

omit [HostObject ω] handsOn in
theorem genuine_inclusionScope (only : Bool) {bindings : Table (Value ω)}
    (hbindings : Genuine bindings) {caller : Scope ω} (hcaller : Genuine caller) :
    Genuine (inclusionScope only bindings caller) := by
  unfold inclusionScope
  split
  · exact Scope.genuine_ofLayer Genuine.none hbindings
  · exact Scope.genuine_push
      (Scope.genuine_ofLayer hcaller.1 (Scope.genuine_flatten hcaller)) hbindings

theorem inOrder_renderInclusion {inner' : Watch → Option (Runner ω)} {inner : Option (Runner ω)}
    (hinner : InnerInOrder inner' inner) {eval' : Watch → Expr → Render ω (Value ω)}
    {eval : Expr → Render ω (Value ω)}
    (heval : ∀ e, t.template.Owns (.expr e) →
      InOrder Error.noneOwn t (fun w => eval' w e) (eval e))
    {i : Inclusion} (hi : ∀ e ∈ i.template :: i.bindings.toList, t.template.Owns (.expr e))
    (hlimit : own (.render t.name i.position (.recursionLimit maxDepth)))
    (hbindings : ∀ kind, own (.render t.name i.position (.unsupported (.bindings kind))))
    {overrides : List (String × BlockRef)} (hoverrides : Genuine overrides) :
    InOrder own t (fun w => renderInclusion env (inner' w) (eval' w) i overrides)
      (renderInclusion env inner eval i overrides) := by
  obtain ⟨htemplate, hrest⟩ := List.forall_mem_cons.mp hi
  refine InOrderTo.next (inOrder_inclusionTarget handsOn heval htemplate) fun target htarget => ?_
  cases target with
  | none => exact InOrderTo.pure True.intro
  | some live =>
    have hgiven : ∀ e, i.bindings = some e → t.template.Owns (.expr e) :=
      fun e he => hrest e (by simp [he])
    refine InOrderTo.next (inOrder_inclusionBindings heval hgiven hbindings) fun bindings hb => ?_
    refine InOrderTo.frame_bind fun fr hfr _ => InOrderTo.deeper hinner hlimit fun hrun => ?_
    exact inOrder_renderTemplate handsOn hrun (Genuine.some.mp htarget)
      (genuine_inclusionScope i.only hb hfr.2.1) hoverrides

end Chains

/-! ## §5. Statements -/

theorem genuine_loopLayer {key : Option String} {value : String} {index length : Nat}
    {parent : Option (Value ω)} (hparent : Genuine parent) {item : Value ω × Value ω}
    (hitem : Genuine item) : Genuine (loopLayer key value (loopInfo index length parent) item) := by
  have hinfo : Genuine (loopInfo index length parent) := by
    refine Value.genuine_map.mpr (Table.genuine_insertAll (Table.genuine_ofList ?_) ?_)
    · simp
    · cases parent with
      | none => exact Genuine.nil
      | some v =>
        exact Genuine.cons.mpr ⟨⟨True.intro, Genuine.some.mp hparent⟩, Genuine.nil⟩
  refine Table.genuine_ofList ?_
  cases key with
  | none => simp [hinfo, hitem.2]
  | some name => simp [hinfo, hitem.1, hitem.2]

theorem inOrder_runRounds {key : Option String} {value : String} {length : Nat}
    {parent : Option (Value ω)} (hparent : Genuine parent) {body' : Watch → Render ω Unit}
    {body : Render ω Unit} (hbody : InOrder own t body' body) (index : Nat)
    {items : List (Value ω × Value ω)} (hitems : Genuine items) :
    InOrder own t (fun w => runRounds key value length parent (body' w) index items)
      (runRounds key value length parent body index items) := by
  induction items generalizing index with
  | nil => exact InOrderTo.pure True.intro
  | cons item items ih =>
    obtain ⟨hitem, hitems⟩ := Genuine.cons.mp hitems
    exact InOrderTo.next (InOrderTo.inLayer (genuine_loopLayer hparent hitem) hbody)
      fun _ _ => ih (index + 1) hitems

theorem inOrder_itemsOf [HostObject ω] (host : HostObject.HandsOn ω) {v : Value ω}
    (hv : Genuine v) : InOrder own t (fun _ => itemsOf v) (itemsOf v) := by
  have hitems := Value.genuine_items host hv
  cases v with
  | object identity o =>
    have harray : Genuine (Value.array ((Value.object identity o).items.map Prod.snd)) :=
      Value.genuine_array.mpr (Genuine.map hitems fun _ h => h.2)
    refine InOrderTo.next (inOrder_meet harray) fun met hmet => ?_
    cases met with
    | array items => exact InOrderTo.pure (Value.genuine_indexed (Value.genuine_array.mp hmet))
    | _ => exact InOrderTo.pure Genuine.nil
  | _ => exact InOrderTo.pure hitems

theorem inOrder_runLoop [HostObject ω] (host : HostObject.HandsOn ω) {key : Option String}
    {value : String} {iterable' : Watch → Render ω (Value ω)} {iterable : Render ω (Value ω)}
    (hiterable : InOrder own t iterable' iterable) {body' orElse' : Watch → Render ω Unit}
    {body orElse : Render ω Unit} (hbody : InOrder own t body' body)
    (horElse : InOrder own t orElse' orElse) :
    InOrder own t (fun w => runLoop key value (iterable' w) (body' w) (orElse' w))
      (runLoop key value iterable body orElse) := by
  refine InOrderTo.next hiterable fun v hv => ?_
  refine InOrderTo.next (inOrder_itemsOf host hv) fun items hitems => ?_
  cases items with
  | nil => exact horElse
  | cons item items =>
    refine InOrderTo.frame_bind fun fr hfr _ => ?_
    exact inOrder_runRounds (Scope.genuine_find? hfr.2.1 loopName) hbody 0 hitems

theorem inOrder_assignAll (names : List String) {vs : List (Value ω)} (hvs : Genuine vs) :
    InOrder own t (fun _ => assignAll names vs) (assignAll names vs) := by
  induction names generalizing vs with
  | nil => exact InOrderTo.pure True.intro
  | cons name names ih =>
    cases vs with
    | nil => exact InOrderTo.pure True.intro
    | cons v vs =>
      obtain ⟨hv, hvs⟩ := Genuine.cons.mp hvs
      exact InOrderTo.next (InOrderTo.assign name hv) fun _ _ => ih hvs

theorem genuine_macrosOf {live : LiveTemplate} (hlive : Genuine live) :
    Genuine (macrosOf live : Value ω) := by
  refine Value.genuine_map.mpr fun entry hentry => ?_
  obtain ⟨pair, hpair, rfl⟩ := List.mem_map.mp hentry
  exact ⟨True.intro, Value.genuine_callable.mpr
    ⟨hlive, Template.issues_of_mem_macroTable (List.mem_map_of_mem hpair)⟩⟩

theorem inOrder_importMacros {pos : Position} {live : LiveTemplate} (hlive : Genuine live)
    (hunknown : ∀ name, own (.render t.name pos (.unknownMacro live.name name)))
    (names : List (String × String)) :
    InOrder own t (fun _ => importMacros pos live names)
      (importMacros pos live names : Render ω Unit) := by
  induction names with
  | nil => exact InOrderTo.pure True.intro
  | cons pair names ih =>
    unfold importMacros
    cases hid : live.template.macroTable.find? pair.1 with
    | none => exact InOrderTo.failAt (hunknown _)
    | some id =>
      refine InOrderTo.next (InOrderTo.assign pair.2 (Value.genuine_callable.mpr ?_)) fun _ _ => ih
      exact ⟨hlive, Template.issues_of_mem_macroTable (Table.mem_values_of_find? hid)⟩

section Statements

variable [HostObject ω] {env : Environment ω} (handsOn : env.HandsOn)
variable {inner' : Watch → Option (Runner ω)} {inner : Option (Runner ω)}
  (hinner : InnerInOrder inner' inner)
include handsOn hinner

theorem inOrder_applyFilters {calls : List FilterCall}
    (hargs : ∀ call ∈ calls, ∀ e ∈ call.args, t.template.Owns (.expr e))
    (hunknown : ∀ call ∈ calls, own (.render t.name call.position (.unknownFilter call.name)))
    (hfailed : ∀ call ∈ calls, ∀ message,
      own (.render t.name call.position (.call call.name message)))
    {v : Value ω} (hv : Genuine v) :
    InOrder own t (fun w => w.applyFilters env (inner' w) calls v)
      (applyFilters env inner calls v) := by
  induction calls generalizing v with
  | nil => exact InOrderTo.pure hv
  | cons call calls ih =>
    obtain ⟨hargs, hmoreArgs⟩ := List.forall_mem_cons.mp hargs
    obtain ⟨hunknown, hmoreUnknown⟩ := List.forall_mem_cons.mp hunknown
    obtain ⟨hfailed, hmoreFailed⟩ := List.forall_mem_cons.mp hfailed
    have hfilter := inOrder_applyFilter handsOn hunknown hfailed hv
      (inOrder_evalAll handsOn hinner call.args hargs).clean
    exact InOrderTo.next hfilter fun u hu => ih hmoreArgs hmoreUnknown hmoreFailed hu

set_option linter.unusedSectionVars false in
mutual

/-- Statements of the running template are run in order. -/
theorem inOrder_runStmt : ∀ s : Stmt, t.template.Owns (.stmt s) →
    InOrder Error.noneOwn t (fun w => w.runStmt env (inner' w) s) (runStmt env inner s)
  | .text _ text, hs => by
    simp only [runStmt, Watch.runStmt]
    exact InOrderTo.runs hs (inOrder_write text)
  | .print _ e, hs => by
    have he := inOrder_eval handsOn hinner e (hs.expr (by simp [Stmt.exprs]))
    simp only [runStmt, Watch.runStmt]
    exact InOrderTo.runs hs (InOrderTo.next he.clean fun v _ => inOrder_write _)
  | .block pos id, hs => by
    simp only [runStmt, Watch.runStmt]
    exact InOrderTo.runs hs (inOrder_renderSlot hinner
      ((Code.Raises.blockTooDeep pos id).error t) (hs.issues (by simp [Stmt.mentions])))
  | .branch _ cond body orElse, hs => by
    have hcond := inOrder_eval handsOn hinner cond (hs.expr (by simp [Stmt.exprs]))
    have hbody := inOrder_runBody body fun s hmem =>
      hs.inside (List.mem_append_left _ (Stmt.mem_nodes_of_mem hmem))
    have horElse := inOrder_runBody orElse fun s hmem =>
      hs.inside (List.mem_append_right _ (Stmt.mem_nodes_of_mem hmem))
    simp only [runStmt, Watch.runStmt]
    refine InOrderTo.runs hs (InOrderTo.next hcond.clean fun v _ => ?_)
    split
    · exact hbody.clean
    · exact horElse.clean
  | .loop _ key value iterable body orElse, hs => by
    have hiterable := inOrder_eval handsOn hinner iterable (hs.expr (by simp [Stmt.exprs]))
    have hbody := inOrder_runBody body fun s hmem =>
      hs.inside (List.mem_append_left _ (Stmt.mem_nodes_of_mem hmem))
    have horElse := inOrder_runBody orElse fun s hmem =>
      hs.inside (List.mem_append_right _ (Stmt.mem_nodes_of_mem hmem))
    simp only [runStmt, Watch.runStmt]
    exact InOrderTo.runs hs
      (inOrder_runLoop handsOn.host hiterable.clean hbody.clean horElse.clean)
  | .includes inclusion, hs => by
    simp only [runStmt, Watch.runStmt]
    exact InOrderTo.runs hs (inOrder_renderInclusion handsOn hinner
      (inOrder_eval handsOn hinner) (fun e he => hs.expr he)
      ((Code.Raises.includeTooDeep inclusion).error t)
      (fun kind => (Code.Raises.includeBindings inclusion kind).error t) Genuine.nil)
  | .embeds inclusion blocks, hs => by
    simp only [runStmt, Watch.runStmt]
    refine InOrderTo.runs hs (InOrderTo.frame_bind fun fr hfr ht => ?_)
    -- The blocks of the statement were issued by the template it belongs to.
    have hblocks : Genuine (fr.template.blocks blocks) := by
      subst ht
      exact genuine_blocks hfr.1 fun id hid => hs.issues (List.mem_map_of_mem hid)
    exact inOrder_renderInclusion handsOn hinner (inOrder_eval handsOn hinner)
      (fun e he => hs.expr he) ((Code.Raises.embedTooDeep inclusion blocks).error t)
      (fun kind => (Code.Raises.embedBindings inclusion blocks kind).error t) hblocks
  | .reuses _, hs | .defines .., hs => by
    simp only [runStmt, Watch.runStmt]
    exact InOrderTo.runs hs (InOrderTo.pure True.intro)
  | .assign _ targets values, hs => by
    have hvalues := inOrder_evalAll handsOn hinner values fun e he => hs.expr he
    simp only [runStmt, Watch.runStmt]
    exact InOrderTo.runs hs
      (InOrderTo.next hvalues.clean fun vs hvs => inOrder_assignAll targets hvs)
  | .capture _ name body, hs => by
    have hbody := inOrder_runBody body fun s hmem => hs.inside (Stmt.mem_nodes_of_mem hmem)
    simp only [runStmt, Watch.runStmt]
    exact InOrderTo.runs hs (InOrderTo.next (InOrderTo.capture hbody.clean) fun text _ =>
      InOrderTo.assign name (Value.genuine_safe _))
  | .perform _ e, hs => by
    have he := inOrder_eval handsOn hinner e (hs.expr (by simp [Stmt.exprs]))
    simp only [runStmt, Watch.runStmt]
    exact InOrderTo.runs hs (InOrderTo.next he.clean fun v _ => InOrderTo.pure True.intro)
  | .filtered pos filters body, hs => by
    have hbody := inOrder_runBody body fun s hmem => hs.inside (Stmt.mem_nodes_of_mem hmem)
    have hargs : ∀ call ∈ filters, ∀ e ∈ call.args, t.template.Owns (.expr e) :=
      fun call hcall e he => hs.expr (List.mem_flatMap.mpr ⟨call, hcall, he⟩)
    simp only [runStmt, Watch.runStmt]
    refine InOrderTo.runs hs (InOrderTo.next (InOrderTo.capture hbody.clean) fun text _ => ?_)
    have hfilters : InOrder ((Code.stmt (.filtered pos filters body)).errors t) t _ _ :=
      inOrder_applyFilters handsOn hinner hargs
        (fun call hcall => (Code.Raises.unknownBodyFilter pos body hcall).error t)
        (fun call hcall message => (Code.Raises.failedBodyFilter pos body message hcall).error t)
        (v := rendered text) (Value.genuine_safe _)
    exact InOrderTo.next hfilters fun v _ => inOrder_write _
  | .importAll _ template newName, hs => by
    have htemplate : t.template.Owns (.expr template) := hs.expr (by simp [Stmt.exprs])
    simp only [runStmt, Watch.runStmt]
    refine InOrderTo.runs hs (InOrderTo.next
      (inOrder_templateOf handsOn (inOrder_eval handsOn hinner) htemplate) fun live hlive => ?_)
    exact InOrderTo.assign newName (genuine_macrosOf hlive)
  | .importSome pos template names, hs => by
    have htemplate : t.template.Owns (.expr template) := hs.expr (by simp [Stmt.exprs])
    simp only [runStmt, Watch.runStmt]
    refine InOrderTo.runs hs (InOrderTo.next
      (inOrder_templateOf handsOn (inOrder_eval handsOn hinner) htemplate) fun live hlive => ?_)
    exact inOrder_importMacros hlive
      (fun name => (Code.Raises.unknownMacro pos template names live.name name).error t) names

theorem inOrder_runBody : ∀ ss : List Stmt, (∀ s ∈ ss, t.template.Owns (.stmt s)) →
    InOrder Error.noneOwn t (fun w => w.runBody env (inner' w) ss) (runBody env inner ss)
  | [], _ => by
    simp only [runBody, Watch.runBody]
    exact InOrderTo.pure True.intro
  | s :: ss, hss => by
    obtain ⟨hs, hss⟩ := List.forall_mem_cons.mp hss
    simp only [runBody, Watch.runBody]
    exact InOrderTo.next (inOrder_runStmt s hs) fun _ _ => inOrder_runBody ss hss

end

end Statements

/-! ## §6. Levels -/

/-- Whatever number of levels is left, all code of the running template is run in order. -/
theorem inOrder_innerRunner [HostObject ω] {env : Environment ω} (handsOn : env.HandsOn) (n : Nat) :
    InnerInOrder (fun w => w.innerRunner env n) (innerRunner env n) := by
  induction n with
  | zero => exact .none
  | succ n ih =>
    exact .some ⟨fun {t e} he => inOrder_eval handsOn ih e he,
      fun {t ss} hss => inOrder_runBody handsOn ih ss hss⟩

theorem inOrder_runner [HostObject ω] {env : Environment ω} (handsOn : env.HandsOn) (n : Nat) :
    RunnersInOrder (fun w => w.runner env n) (runner env n) :=
  have hinner := inOrder_innerRunner handsOn n
  ⟨fun {_ e} he => inOrder_eval handsOn hinner e he,
    fun {_ ss} hss => inOrder_runBody handsOn hinner ss hss⟩

end Stencil.Render
