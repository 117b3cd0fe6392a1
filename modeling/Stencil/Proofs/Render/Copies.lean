import Stencil.Proofs.Render.Alike

/-!
A copy does what the original does.

Where the blocks that are copied are portable, all code is alike: what is the same code does the
same in both renders, and so does a copy and what it is a copy of.  This is shown for each part of
the renderer, given that it holds for the parts inside, and from there by an induction over
expressions and statements, inside one over the levels that are left.
-/

namespace Stencil

variable {ω α : Type}

namespace Relocation

/-! ## §1. What is copied -/

/-- A relocation of blocks that are portable, into a template without macros that has them. -/
structure Sound (ρ : Relocation) (env : Environment ω) : Prop where
  block : ∀ id, ρ.copied id → ∃ b, ρ.source.template.blockAt? id = some b ∧
    ρ.target.template.blockAt? (ρ.number id) = some (b.relocate ρ.move ρ.number) ∧
    ∀ s ∈ Stmt.nodes b.body, s.Portable env ρ.source.template.macroTable ρ.copied
  macros : ρ.target.template.macroTable = []

section Allows

variable (ρ : Relocation) (env : Environment ω)

/-- Whether a node may be run: any one as it is, a copy if the original asks for no template. -/
def Allows : Pairing → Expr → Prop
  | .same, _ => True
  | .copy, e => e.Placeless env ρ.source.template.macroTable

/-- Whether an expression may be evaluated, with all that is inside. -/
def Permits (π : Pairing) (e : Expr) : Prop :=
  ∀ part, e.Inside part → ρ.Allows env π part

/-- Whether a statement may be run: any one as it is, a copy if the original is portable. -/
def AllowsStmt : Pairing → Stmt → Prop
  | .same, _ => True
  | .copy, s => s.Portable env ρ.source.template.macroTable ρ.copied

end Allows

variable {ρ : Relocation} {env : Environment ω} {π : Pairing} {out : Output → Output → Prop}

/-- Where a node may be run, it is not a copy or the original asks for no template. -/
theorem Allows.placeless {e : Expr} (h : ρ.Allows env π e) :
    π = .same ∨ e.Placeless env ρ.source.template.macroTable := by
  cases π with
  | same => exact .inl rfl
  | copy => exact .inr h

theorem AllowsStmt.portable {s : Stmt} (h : ρ.AllowsStmt env π s) :
    π = .same ∨ s.Portable env ρ.source.template.macroTable ρ.copied := by
  cases π with
  | same => exact .inl rfl
  | copy => exact .inr h

theorem Permits.same (e : Expr) : ρ.Permits env .same e := fun _ _ => trivial

theorem Permits.whole {e : Expr} (h : ρ.Permits env π e) : ρ.Allows env π e :=
  h e .whole

theorem Permits.part {e part : Expr} (h : ρ.Permits env π e) (hpart : part ∈ e.parts) :
    ρ.Permits env π part :=
  fun _ hinside => h _ ((Expr.Inside.part .whole hpart).trans hinside)

theorem AllowsStmt.permits {s : Stmt} (h : ρ.AllowsStmt env π s) {e : Expr} (he : e ∈ s.exprs) :
    ρ.Permits env π e := by
  cases π with
  | same => exact .same e
  | copy => exact h.exprs e he

/-! ## §2. What frames tell -/

theorem Compositions.refl (c : Composition) : ρ.Compositions c c :=
  List.forall₂_same.mpr fun _ _ => ⟨rfl, .same _⟩

/-- A table of blocks, and the table of their copies. -/
theorem Compositions.copies {blocks : Table DefinitionId}
    (h : ∀ id ∈ blocks.values, ρ.copied id) :
    ρ.Compositions (ρ.source.blocks blocks) (ρ.target.blocks (renumber ρ.number blocks)) := by
  unfold LiveTemplate.blocks renumber
  rw [List.map_map, Compositions, List.forall₂_map_left_iff, List.forall₂_map_right_iff,
    List.forall₂_same]
  exact fun entry hentry => ⟨rfl, .copy (h _ (List.mem_map_of_mem hentry))⟩

/-- The definitions of a block are the same ones or copies, in the same order. -/
theorem Compositions.candidate? {c c' : Composition} (h : ρ.Compositions c c') (name : String)
    (index : Nat) : Option.Rel ρ.Refs (c.candidate? name index) (c'.candidate? name index) := by
  unfold Composition.candidate? Composition.candidates
  induction h generalizing index with
  | nil => exact .none
  | @cons entry entry' c c' hentry _ ih =>
    obtain ⟨hname, hrefs⟩ := hentry
    rw [List.filter_cons, List.filter_cons, hname]
    split
    · cases index with
      | zero => exact .some hrefs
      | succ index => exact ih index
    · exact ih index

namespace Frames

variable {fr fr' : Frame ω} (h : ρ.Frames π fr fr')
include h

theorem candidate? (name : String) (index : Nat) :
    Option.Rel ρ.Refs (Render.candidate? fr name index) (Render.candidate? fr' name index) := by
  have hblocks := h.blocks
  unfold Render.candidate?
  generalize fr.blocks = c, fr'.blocks = c' at hblocks
  cases hblocks with
  | none => exact .none
  | some hcomposition => exact hcomposition.candidate? name index

theorem find? {pos : Position} {name : String} (hname : ρ.Allows env π (.name pos name)) :
    Render.find? env fr' name = Render.find? env fr name := by
  have htemplates := h.templates
  unfold Render.find?
  rw [h.scope]
  cases π with
  | same =>
    have htemplate : fr'.template = fr.template := htemplates
    rw [htemplate]
  | copy =>
    have hself : name ≠ Render.selfName := hname
    rw [if_neg hself, if_neg hself]

theorem macroNamed? (sound : ρ.Sound env) {pos : Position} {name : String} {args : List Expr}
    (hname : ρ.Allows env π (.call pos name args)) :
    Render.macroNamed? fr' name = Render.macroNamed? fr name := by
  have htemplates := h.templates
  unfold Render.macroNamed?
  rw [h.scope]
  cases π with
  | same =>
    have htemplate : fr'.template = fr.template := htemplates
    rw [htemplate]
  | copy =>
    obtain ⟨hsource, htarget⟩ := htemplates
    obtain ⟨-, hmacro, -⟩ := hname
    rw [hsource, htarget, sound.macros, hmacro]
    rfl

/-- The frames after blocks, which go back to the code around them. -/
theorem afterBlock {π' : Pairing} {gr gr' : Frame ω} (h' : ρ.Frames π' gr gr') :
    ρ.Frames π (Render.Frame.afterBlock fr gr) (Render.Frame.afterBlock fr' gr') :=
  ⟨h.templates, by rw [Render.Frame.afterBlock, h'.scope]; rfl, h'.blocks, h.current⟩

/-- A callback that does not look at the name of the template cannot tell the renders apart. -/
theorem callState {β : Type} {f : CallState → β} (hf : π = .same ∨ CallState.Blind f) :
    f (env.callState fr'.template.name) = f (env.callState fr.template.name) := by
  rcases hf with rfl | hblind
  · have htemplate : fr'.template = fr.template := h.templates
    rw [htemplate]
  · exact hblind _ _ _

end Frames

/-! ## §3. Blocks and macros -/

/-- A runner whose code is alike: expressions whatever has been written, as they write nothing but
what they capture, and bodies as long as the outputs are equal. -/
structure Runs (ρ : Relocation) (env : Environment ω) (r : Render.Runner ω) : Prop where
  eval : ∀ {π : Pairing} {out : Output → Output → Prop} (e : Expr), ρ.Permits env π e →
    ρ.Alike env π out (r.eval e) (r.eval (e.relocate (ρ.place π)))
  body : ∀ {π : Pairing} (ss : List Stmt), (∀ s ∈ Stmt.nodes ss, ρ.AllowsStmt env π s) →
    ρ.Alike env π Eq (r.body ss) (r.body (Stmt.relocateAll (ρ.place π) (ρ.numberOf π) ss))

namespace Runs

variable {r : Render.Runner ω} (h : ρ.Runs env r)
include h

theorem eval_same (e : Expr) : ρ.Alike env .same out (r.eval e) (r.eval e) := by
  have he : ρ.Alike env .same out _ _ := h.eval e (.same e)
  rwa [show ρ.place .same = id from rfl, Expr.relocate_id] at he

theorem body_same (ss : List Stmt) : ρ.Alike env .same Eq (r.body ss) (r.body ss) := by
  have hss : ρ.Alike env .same Eq _ _ := h.body ss fun _ _ => trivial
  rwa [show ρ.place .same = id from rfl, show ρ.numberOf .same = id from rfl,
    Stmt.relocateAll_id] at hss

end Runs

open Render

section Blocks

variable {inner : Option (Runner ω)} (sound : ρ.Sound env) (hinner : ∀ r ∈ inner, ρ.Runs env r)
include sound hinner

theorem alike_renderBlock {r r' : BlockRef} (h : ρ.Refs r r') (pos pos' : Position)
    (name : String) (index : Nat) :
    ρ.Alike env π Eq (renderBlock inner pos name index r)
      (renderBlock inner pos' name index r') := by
  apply Alike.deeper
  intro runner hrunner
  have hrun := hinner runner hrunner
  show ρ.Alike env π Eq (blockBody runner name index r) (blockBody runner name index r')
  -- Inside, the two templates are those that the definitions belong to.
  cases h with
  | same r =>
    refine Alike.inFrame .same
      (fun _ _ h => ⟨rfl, by rw [Frame.inBlock, h.scope]; rfl, h.blocks, rfl⟩)
      (fun _ _ _ _ h h' => h.afterBlock h') ?_
    cases r.block? with
    | some block => exact hrun.body_same block.body
    | none => exact .pure ()
  | @copy id hid =>
    obtain ⟨b, hsource, htarget, hportable⟩ := sound.block id hid
    refine Alike.inFrame .copy
      (fun _ _ h => ⟨⟨rfl, rfl⟩, by rw [Frame.inBlock, h.scope]; rfl, h.blocks, rfl⟩)
      (fun _ _ _ _ h h' => h.afterBlock h') ?_
    rw [show BlockRef.block? ⟨ρ.source, id⟩ = some b from hsource,
      show BlockRef.block? ⟨ρ.target, ρ.number id⟩ = some (b.relocate ρ.move ρ.number) from htarget]
    exact hrun.body b.body hportable

theorem alike_renderSlot {id : DefinitionId} {pos : Position} (pos' : Position)
    (h : ρ.AllowsStmt env π (.block pos id)) :
    ρ.Alike env π Eq (renderSlot inner pos id) (renderSlot inner pos' (ρ.numberOf π id)) := by
  apply Alike.frame_bind
  intro fr fr' hfr
  have hrefs : ∀ (name : String) {r r' : BlockRef}, ρ.Refs r r' →
      ρ.Refs ((candidate? fr name 0).getD r) ((candidate? fr' name 0).getD r') := by
    intro name r r' hdefault
    have hcandidate := hfr.candidate? name 0
    generalize candidate? fr name 0 = c, candidate? fr' name 0 = c' at hcandidate
    cases hcandidate with
    | none => exact hdefault
    | some hrefs => exact hrefs
  cases π with
  | same =>
    have htemplate : fr'.template = fr.template := hfr.templates
    rw [htemplate]
    rw [show ρ.numberOf .same id = id from rfl]
    cases fr.template.template.blockAt? id with
    | none => exact .pure ()
    | some block => exact alike_renderBlock sound hinner (hrefs _ (.same _)) pos pos' _ 0
  | copy =>
    obtain ⟨hsource, htarget⟩ := hfr.templates
    have hid : ρ.copied id := h.blocks id (by rw [Stmt.mentions]; exact .head _)
    obtain ⟨b, hb, hb', -⟩ := sound.block id hid
    rw [hsource, htarget, hb, show ρ.numberOf .copy id = ρ.number id from rfl, hb']
    exact alike_renderBlock sound hinner (hrefs _ (.copy hid)) pos pos' b.name 0

/-- A block as a value writes to outputs of their own, so nothing is asked of those outside. -/
theorem alike_blockValue {r r' : BlockRef} (h : ρ.Refs r r') (pos pos' : Position)
    (name : String) (index : Nat) :
    ρ.Alike env π out (rendered <$> capture (renderBlock inner pos name index r))
      (rendered <$> capture (renderBlock inner pos' name index r') : Render ω (Value ω)) :=
  (Alike.capture (alike_renderBlock sound hinner h pos pos' name index)).map rendered

theorem alike_parentBlock (pos pos' : Position) :
    ρ.Alike env π out (parentBlock inner pos) (parentBlock inner pos') := by
  apply Alike.frame_bind
  intro fr fr' hfr
  rw [hfr.current]
  cases fr.current with
  | none => exact .failAt _ _ _ _
  | some running =>
    obtain ⟨name, index⟩ := running
    have hcandidate := hfr.candidate? name (index + 1)
    simp only [Option.bind_some]
    generalize candidate? fr name (index + 1) = c, candidate? fr' name (index + 1) = c'
      at hcandidate
    cases hcandidate with
    | none => exact .failAt _ _ _ _
    | some hrefs => exact alike_blockValue sound hinner hrefs pos pos' name (index + 1)

/-- A block by its name, where both renders run the same template. -/
theorem alike_namedBlock (pos pos' : Position) (name : String) :
    ρ.Alike env .same out (namedBlock inner pos name) (namedBlock inner pos' name) := by
  apply Alike.frame_bind
  intro fr fr' hfr
  have htemplate : fr'.template = fr.template := hfr.templates
  have hcandidate := hfr.candidate? name 0
  unfold blockNamed?
  rw [htemplate]
  generalize candidate? fr name 0 = c, candidate? fr' name 0 = c' at hcandidate
  cases hcandidate with
  | some hrefs => exact alike_blockValue sound hinner hrefs pos pos' name 0
  | none =>
    rw [Option.none_or]
    generalize (fr.template.template.blockTable.find? name).map
      (fun id => (⟨fr.template, id⟩ : BlockRef)) = own
    cases own with
    | none => exact .failAt _ _ _ _
    | some r => exact alike_blockValue sound hinner (.same r) pos pos' name 0

omit sound hinner in
theorem alike_bindParams {eval : Expr → Render ω (Value ω)}
    (heval : ∀ e, ρ.Alike env π out (eval e) (eval e)) (params : List Param)
    (args : List (Value ω)) :
    ρ.Alike env π out (bindParams eval params args) (bindParams eval params args) := by
  induction params generalizing args with
  | nil => exact .pure _
  | cons param params ih =>
    cases args with
    | cons arg args => exact Alike.bind (.assign _ _) fun _ => ih args
    | nil =>
      have hassign : ∀ v, ρ.Alike env π out
          (do
            assign param.name v
            bindParams eval params [])
          (do
            assign param.name v
            bindParams eval params []) :=
        fun v => Alike.bind (.assign _ _) fun _ => ih []
      unfold bindParams
      cases param.fallback with
      | none => exact Alike.bind (.pure Value.null) hassign
      | some fallback => exact Alike.bind (heval fallback) hassign

omit sound in
theorem alike_callMacro (pos pos' : Position) (m : MacroRef) (args : List (Value ω)) :
    ρ.Alike env π out (callMacro inner pos m args) (callMacro inner pos' m args) := by
  unfold callMacro
  cases m.owner.template.macroAt? m.id with
  | none => exact .failAt _ _ _ _
  | some definition =>
    apply Alike.deeper
    intro runner hrunner
    have hrun := hinner runner hrunner
    -- In the frame of the macro both renders run the same template.
    refine Alike.within .same
      (fun _ _ h => ⟨rfl, by rw [Frame.forMacro, h.scope]; rfl, .none, rfl⟩) ?_
    refine Alike.bind (alike_bindParams hrun.eval_same definition.params args) fun extra => ?_
    exact Alike.bind (.assign _ _) fun _ => (Alike.capture (hrun.body_same _)).map rendered

end Blocks

/-! ## §4. Expressions -/

section Expressions

theorem alike_undefined (pos pos' : Position) (name : String) :
    ρ.Alike env π out (undefined env pos name) (undefined env pos' name) := by
  apply Alike.get_bind
  intro s t m
  rw [m.lenient]
  split
  · exact Alike.failAt pos pos' _ _ s t m
  · exact .both _ m

theorem alike_lookup {pos : Position} {name : String} (pos' : Position)
    (h : ρ.Allows env π (.name pos name)) :
    ρ.Alike env π out (lookup env pos name) (lookup env pos' name) := by
  apply Alike.frame_bind
  intro fr fr' hfr
  rw [hfr.find? h]
  cases find? env fr name with
  | some v => exact .pure v
  | none => exact alike_undefined pos pos' name

theorem alike_applyFilter (pos pos' : Position) (name : String) (subject : Value ω)
    {args args' : Render ω (List (Value ω))} (hargs : ρ.Alike env π out args args')
    (h : π = .same ∨ ∀ f ∈ env.filters.find? name, CallState.Blind f) :
    ρ.Alike env π out (applyFilter env pos name subject args)
      (applyFilter env pos' name subject args') := by
  unfold applyFilter
  cases hfilter : env.filters.find? name with
  | none => exact .failAt _ _ _ _
  | some filter =>
    have hblind : π = .same ∨ CallState.Blind filter := h.imp_right fun h => h filter hfilter
    refine Alike.bind hargs fun args => Alike.frame_bind fun fr fr' hfr => ?_
    dsimp only
    rw [hfr.callState hblind]
    exact Alike.bind (.ofCall _ _ _ _) fun v => .meet v

theorem alike_applyTest (pos pos' : Position) (name : String)
    {subject subject' : Render ω (Value ω)} {args args' : Render ω (List (Value ω))}
    (hsubject : ρ.Alike env π out subject subject') (hargs : ρ.Alike env π out args args')
    (h : π = .same ∨ ∀ f ∈ env.tests.find? name, CallState.Blind f) :
    ρ.Alike env π out (applyTest env pos name subject args)
      (applyTest env pos' name subject' args') := by
  unfold applyTest
  cases htest : env.tests.find? name with
  | none => exact .failAt _ _ _ _
  | some test =>
    have hblind : π = .same ∨ CallState.Blind test := h.imp_right fun h => h test htest
    refine Alike.bind hsubject fun v => Alike.bind hargs fun args =>
      Alike.frame_bind fun fr fr' hfr => ?_
    dsimp only
    rw [hfr.callState hblind]
    exact Alike.bind (.ofCall _ _ _ _) fun b => .pure _

variable [HostObject ω]

theorem alike_attributeOf (pos pos' : Position) (object key : Value ω) :
    ρ.Alike env π out (attributeOf env pos object key) (attributeOf env pos' object key) := by
  unfold attributeOf
  cases object.attribute? key with
  | none => exact alike_undefined pos pos' _
  | some v =>
    cases object with
    | object => exact .meet v
    | _ => exact .pure v

theorem alike_applyBinary (pos pos' : Position) (op : BinaryOp)
    {left left' right right' : Render ω (Value ω)} (hleft : ρ.Alike env π out left left')
    (hright : ρ.Alike env π out right right') :
    ρ.Alike env π out (applyBinary pos op left right) (applyBinary pos' op left' right') := by
  refine Alike.bind hleft fun a => ?_
  split
  · exact .pure _
  · exact .pure _
  · rename_i op _ _ _ _
    refine Alike.bind hright fun b => ?_
    cases Value.binary op a b with
    | ok v => exact .pure v
    | error e => exact .failAt _ _ _ _

variable {inner : Option (Runner ω)} (sound : ρ.Sound env) (hinner : ∀ r ∈ inner, ρ.Runs env r)
include sound hinner

omit sound in
theorem alike_callMethod (pos pos' : Position) (object key : Value ω) (args : List (Value ω)) :
    ρ.Alike env π out (callMethod inner pos object key args)
      (callMethod inner pos' object key args) := by
  unfold callMethod
  split
  · exact alike_callMacro hinner pos pos' _ args
  · exact Alike.bind (.ofCall _ _ _ _) fun v => .meet v
  · exact .failAt _ _ _ _

theorem alike_callFunction {pos : Position} (pos' : Position) {name : String} {es : List Expr}
    {first first' : Render ω (Option (Value ω))} {args args' : Render ω (List (Value ω))}
    (hfirst : ρ.Alike env π out first first') (hargs : ρ.Alike env π out args args')
    (h : ρ.Allows env π (.call pos name es)) :
    ρ.Alike env π out (callFunction env inner pos name first args)
      (callFunction env inner pos' name first' args') := by
  unfold callFunction
  split
  · exact alike_parentBlock sound hinner pos pos'
  · split
    · next hblock =>
      refine Alike.bind hfirst fun v => ?_
      cases π with
      | same => exact alike_namedBlock sound hinner pos pos' _
      | copy => exact absurd hblock h.1
    · refine Alike.frame_bind fun fr fr' hfr => ?_
      rw [hfr.macroNamed? sound h]
      cases macroNamed? fr name with
      | some m => exact Alike.bind hargs fun args => alike_callMacro hinner pos pos' m args
      | none =>
        cases hfunction : env.functions.find? name with
        | none => exact .failAt _ _ _ _
        | some function =>
          have hblind : π = .same ∨ CallState.Blind function :=
            h.placeless.imp_right fun h => h.2.2 function hfunction
          refine Alike.bind hargs fun args => Alike.frame_bind fun fr fr' hfr => ?_
          dsimp only
          rw [hfr.callState hblind]
          exact Alike.bind (.ofCall _ _ _ _) fun v => .meet v

set_option linter.unusedSectionVars false in
mutual

/-- Evaluating an expression and evaluating its copy are alike. -/
theorem alike_eval : ∀ e : Expr, ρ.Permits env π e →
    ρ.Alike env π out (eval env inner e) (eval env inner (e.relocate (ρ.place π)))
  | .name pos name, h => by
    rw [Expr.relocate, eval, eval]
    exact alike_lookup _ h.whole
  | .null _, _ | .bool .., _ | .number .., _ | .string .., _ => by
    rw [Expr.relocate, eval, eval]
    exact .pure _
  | .call pos name args, h => by
    have hargs : ∀ e ∈ args, ρ.Permits env π e := fun e he => h.part he
    rw [Expr.relocate, eval, eval]
    exact alike_callFunction sound hinner _ (alike_evalFirst args hargs)
      (alike_evalAll args hargs) h.whole
  | .filter pos name [], _ => by
    rw [Expr.relocate, Expr.relocateAll, eval, eval]
    exact .failAt _ _ _ _
  | .filter pos name (subject :: args), h => by
    have hargs : ∀ e ∈ args, ρ.Permits env π e := fun e he => h.part (.tail _ he)
    have hsubject : ρ.Permits env π subject := h.part (.head _)
    have hfilter (v : Value ω) :
        ρ.Alike env π out (applyFilter env pos name v (evalAll env inner args))
          (applyFilter env (ρ.place π pos) name v
            (evalAll env inner (Expr.relocateAll (ρ.place π) args))) := by
      exact alike_applyFilter _ _ name v (alike_evalAll args hargs) h.whole.placeless
    rw [Expr.relocate, Expr.relocateAll, eval, eval]
    split
    · exact Alike.bind (alike_eval subject hsubject).leniently hfilter
    · exact Alike.bind (alike_eval subject hsubject) hfilter
  | .test pos name subject args, h => by
    have hargs : ∀ e ∈ args, ρ.Permits env π e := fun e he => h.part (.tail _ he)
    have hsubject : ρ.Permits env π subject := h.part (.head _)
    rw [Expr.relocate, eval, eval]
    split
    · exact Alike.bind (alike_isDefined subject hsubject) fun b => .pure _
    · exact alike_applyTest _ _ name (alike_eval subject hsubject) (alike_evalAll args hargs)
        h.whole.placeless
  | .binary pos op left right, h => by
    rw [Expr.relocate, eval, eval]
    exact alike_applyBinary _ _ op (alike_eval left (h.part (.head _)))
      (alike_eval right (h.part (.tail _ (.head _))))
  | .unary _ op operand, h => by
    rw [Expr.relocate, eval, eval]
    exact Alike.bind (alike_eval operand (h.part (.head _))) fun v => .pure _
  | .group _ e, h => by
    rw [Expr.relocate, eval, eval]
    exact alike_eval e (h.part (.head _))
  | .attribute pos object key, h => by
    rw [Expr.relocate, eval, eval]
    refine Alike.bind (alike_eval object (h.part (.head _))) fun o =>
      Alike.bind (alike_eval key (h.part (.tail _ (.head _)))) fun k => ?_
    exact alike_attributeOf _ _ o k
  | .method pos object key args, h => by
    have hargs : ∀ e ∈ args, ρ.Permits env π e := fun e he => h.part (.tail _ (.tail _ he))
    rw [Expr.relocate, eval, eval]
    refine Alike.bind (alike_eval object (h.part (.head _))) fun o =>
      Alike.bind (alike_eval key (h.part (.tail _ (.head _)))) fun k =>
        Alike.bind (alike_evalAll args hargs) fun vs => ?_
    exact alike_callMethod hinner _ _ o k vs
  | .conditional _ cond whenTrue whenFalse, h => by
    rw [Expr.relocate, eval, eval]
    refine Alike.bind (alike_eval cond (h.part (.head _))) fun v => ?_
    split
    · exact alike_eval whenTrue (h.part (.tail _ (.head _)))
    · exact alike_eval whenFalse (h.part (.tail _ (.tail _ (.head _))))
  | .hash _ entries, h => by
    have hentries : ∀ entry ∈ entries, ρ.Permits env π entry.key ∧ ρ.Permits env π entry.value :=
      fun entry hentry =>
        ⟨h.part (List.mem_flatMap.mpr ⟨entry, hentry, .head _⟩),
          h.part (List.mem_flatMap.mpr ⟨entry, hentry, .tail _ (.head _)⟩)⟩
    rw [Expr.relocate, eval, eval]
    exact Alike.bind (alike_evalEntries entries hentries []) fun table => .pure _
  | .array _ items, h => by
    have hitems : ∀ e ∈ items, ρ.Permits env π e := fun e he => h.part he
    rw [Expr.relocate, eval, eval]
    exact Alike.bind (alike_evalAll items hitems) fun vs => .pure _

theorem alike_evalAll : ∀ es : List Expr, (∀ e ∈ es, ρ.Permits env π e) →
    ρ.Alike env π out (evalAll env inner es)
      (evalAll env inner (Expr.relocateAll (ρ.place π) es))
  | [], _ => by
    rw [Expr.relocateAll]
    exact .pure _
  | e :: es, h => by
    obtain ⟨he, hes⟩ := List.forall_mem_cons.mp h
    rw [Expr.relocateAll, evalAll, evalAll]
    exact Alike.bind (alike_eval e he) fun v => Alike.bind (alike_evalAll es hes) fun vs => .pure _

theorem alike_evalFirst : ∀ es : List Expr, (∀ e ∈ es, ρ.Permits env π e) →
    ρ.Alike env π out (evalFirst env inner es)
      (evalFirst env inner (Expr.relocateAll (ρ.place π) es))
  | [], _ => by
    rw [Expr.relocateAll]
    exact .pure _
  | e :: _, h => by
    rw [Expr.relocateAll, evalFirst, evalFirst]
    exact Alike.bind (alike_eval e (h e (.head _))) fun v => .pure _

theorem alike_evalEntries : ∀ entries : List (Entry Expr),
    (∀ entry ∈ entries, ρ.Permits env π entry.key ∧ ρ.Permits env π entry.value) →
    ∀ table : Table (Value ω), ρ.Alike env π out (evalEntries env inner entries table)
      (evalEntries env inner (Expr.relocateEntries (ρ.place π) entries) table)
  | [], _, table => by
    rw [Expr.relocateEntries]
    exact .pure _
  | ⟨_, key, value⟩ :: entries, h, table => by
    obtain ⟨⟨hkey, hvalue⟩, hentries⟩ := List.forall_mem_cons.mp h
    rw [Expr.relocateEntries, evalEntries, evalEntries]
    exact Alike.bind (alike_eval key hkey) fun k => Alike.bind (alike_eval value hvalue) fun v =>
      alike_evalEntries entries hentries _

theorem alike_isDefined : ∀ e : Expr, ρ.Permits env π e →
    ρ.Alike env π out (isDefined env inner e) (isDefined env inner (e.relocate (ρ.place π)))
  | .name pos name, h => by
    rw [Expr.relocate, isDefined, isDefined]
    refine Alike.frame_bind fun fr fr' hfr => ?_
    rw [hfr.find? h.whole]
    exact .pure _
  | .attribute _ object key, h => by
    rw [Expr.relocate, isDefined, isDefined]
    exact Alike.bind (alike_eval object (h.part (.head _))).leniently fun o =>
      Alike.bind (alike_eval key (h.part (.tail _ (.head _)))) fun k => .pure _
  | .group _ e, h => by
    rw [Expr.relocate, isDefined, isDefined]
    exact alike_isDefined e (h.part (.head _))
  | .null _, _ | .bool .., _ | .number .., _ | .string .., _ | .call .., _ | .filter .., _
  | .test .., _ | .binary .., _ | .unary .., _ | .method .., _ | .conditional .., _ | .hash .., _
  | .array .., _ => by
    rw [Expr.relocate]
    simp only [isDefined]
    exact .pure true

end

end Expressions

/-! ## §5. Other templates -/

/-- What is done at the root of a chain. -/
def renderRoot (runner : Runner ω) (c : Composition) : Render ω Unit := do
  changeFrame fun f => { f with blocks := some c }
  runner.body (← frame).template.template.body

/-- A copy does not ask for the running template. -/
theorem Permits.isSelf {e : Expr} (h : ρ.Permits env .copy e) : Render.isSelf e = false := by
  cases e with
  | name pos called =>
    have hself : called ≠ selfName := h.whole
    simpa [Render.isSelf] using hself
  | _ => rfl

section Templates

variable [HostObject ω] (steady : env.Steady)

omit [HostObject ω] in
/-- The running template is the same one where code may ask for it. -/
theorem alike_running {e : Expr} (h : ρ.Permits env π e) (hself : Render.isSelf e = true)
    (f : LiveTemplate → α) :
    ρ.Alike env π out (do pure (f (← frame).template)) (do pure (f (← frame).template)) := by
  cases π with
  | copy =>
    rw [h.isSelf] at hself
    cases hself
  | same =>
    refine Alike.frame_bind fun fr fr' hfr => ?_
    have htemplate : fr'.template = fr.template := hfr.templates
    rw [htemplate]
    exact .pure _

include steady

theorem alike_templateOf {eval : Expr → Render ω (Value ω)} {e : Expr}
    (h : ρ.Permits env π e)
    (heval : ρ.Alike env π out (eval e) (eval (e.relocate (ρ.place π)))) :
    ρ.Alike env π out (templateOf env eval e)
      (templateOf env eval (e.relocate (ρ.place π))) := by
  unfold templateOf
  rw [isSelf_relocate]
  split
  · next hself => exact alike_running h hself id
  · exact Alike.bind heval fun v => .load steady _

theorem alike_usedTemplates {eval : Expr → Render ω (Value ω)}
    (heval : ∀ e, ρ.Alike env .same out (eval e) (eval e)) (reuses : List Reuse) :
    ρ.Alike env .same out (usedTemplates env eval reuses) (usedTemplates env eval reuses) := by
  induction reuses with
  | nil => exact .pure _
  | cons reuse reuses ih =>
    have htemplate : ρ.Alike env .same out _ _ :=
      alike_templateOf (e := reuse.template) steady (.same _)
        (by rw [show ρ.place .same = id from rfl, Expr.relocate_id]; exact heval _)
    rw [show ρ.place .same = id from rfl, Expr.relocate_id] at htemplate
    exact Alike.bind htemplate fun t => Alike.bind ih fun more => .pure _

/-- A turn of a chain of templates, and what becomes of the state in it. -/
theorem alike_followTurn {runner : Runner ω} (hrun : ρ.Runs env runner) (levels : List Level) :
    ρ.Alike env .same Eq (followTurn env runner levels) (followTurn env runner levels) := by
  refine Alike.frame_bind fun fr fr' hfr => ?_
  have htemplate : fr'.template = fr.template := hfr.templates
  rw [htemplate]
  refine Alike.bind (alike_usedTemplates steady hrun.eval_same _) fun uses => ?_
  cases fr.template.template.parent with
  | none => exact .pure _
  | some extended =>
    refine Alike.bind (hrun.body_same _) fun _ => Alike.bind ?_ fun r => .pure _
    unfold reference
    split
    · exact .pure _
    · exact Alike.bind (hrun.eval_same _) fun v => .pure _

omit [HostObject ω] in
theorem alike_stepChain (names : List String) (r : Reference) :
    ρ.Alike env .same out (stepChain env names r) (stepChain env names r) := by
  have hresolve : ρ.Alike env .same out (resolve env r) (resolve env r) := by
    cases r with
    | named name => exact .load steady name
    | running =>
      refine Alike.frame_bind fun fr fr' hfr => ?_
      have htemplate : fr'.template = fr.template := hfr.templates
      rw [htemplate]
      exact .pure _
  refine Alike.bind hresolve fun parent => ?_
  dsimp only
  split
  · exact .fail _ _
  · exact Alike.bind (.changeFrame fun _ _ h => ⟨rfl, h.scope, h.blocks, h.current⟩)
      fun _ => .pure _

theorem alike_followChain {runner : Runner ω} (hrun : ρ.Runs env runner) (n : Nat)
    (names : List String) (levels : List Level) :
    ρ.Alike env .same Eq (followChain env runner n names levels)
      (followChain env runner n names levels) := by
  induction n generalizing names levels with
  | zero => exact .throw _ _
  | succ n ih =>
    rw [followChain_succ]
    refine Alike.bind ?_ fun (levels, more) => ?_
    · refine Alike.bind (alike_followTurn steady hrun levels) fun (levels, r) => ?_
      cases r with
      | none => exact .pure _
      | some r => exact Alike.bind (alike_stepChain steady names r) fun _ => .pure _
    · cases more with
      | none => exact .pure _
      | some names => exact ih names levels

omit [HostObject ω] steady in
/-- The root of a chain, under compositions of blocks and of their copies. -/
theorem alike_root {runner : Runner ω} (hrun : ρ.Runs env runner) {c c' : Composition}
    (h : ρ.Compositions c c') :
    ρ.Alike env .same Eq (renderRoot runner c) (renderRoot runner c') := by
  refine Alike.bind (.changeFrame fun fr fr' hfr => ?_) fun _ =>
    Alike.frame_bind fun fr fr' hfr => ?_
  · exact ⟨hfr.templates, hfr.scope, .some h, hfr.current⟩
  · have htemplate : fr'.template = fr.template := hfr.templates
    rw [htemplate]
    exact hrun.body_same _

/-- A template that is rendered under blocks and under their copies. -/
theorem alike_renderTemplate {runner : Runner ω} (hrun : ρ.Runs env runner) (t : LiveTemplate)
    (scope : Scope ω) {overrides overrides' : List (String × BlockRef)}
    (h : ρ.Compositions overrides overrides') :
    ρ.Alike env π Eq (renderTemplate env runner t scope overrides)
      (renderTemplate env runner t scope overrides') := by
  refine Alike.within .same (fun _ _ _ => ⟨rfl, rfl, .none, rfl⟩) ?_
  refine Alike.bind (alike_followChain steady hrun _ _ _) fun levels => ?_
  exact alike_root hrun (List.rel_append h (Compositions.refl _))

theorem alike_inclusionTarget {eval : Expr → Render ω (Value ω)} {i : Inclusion}
    (h : ρ.Permits env π i.template)
    (heval : ρ.Alike env π out (eval i.template) (eval (i.template.relocate (ρ.place π)))) :
    ρ.Alike env π out (inclusionTarget env eval i)
      (inclusionTarget env eval (i.relocate (ρ.place π))) := by
  have hself : Render.isSelf (i.relocate (ρ.place π)).template = Render.isSelf i.template :=
    isSelf_relocate _ _
  unfold inclusionTarget
  rw [hself]
  split
  · next hself => exact alike_running h hself some
  · refine Alike.bind heval fun v => Alike.bind (.loadFirst steady none _) fun r => ?_
    rcases r with (_ | e) | t
    · exact .pure _
    · show ρ.Alike env π out (if i.ignoreMissing then pure none else fail e)
        (if i.ignoreMissing then pure none else fail e)
      split
      · exact .pure _
      · exact .fail e e
    · exact .pure _

omit [HostObject ω] steady in
theorem alike_inclusionBindings {eval : Expr → Render ω (Value ω)} {i : Inclusion}
    (heval : ∀ e ∈ i.bindings, ρ.Alike env π out (eval e) (eval (e.relocate (ρ.place π)))) :
    ρ.Alike env π out (inclusionBindings eval i)
      (inclusionBindings eval (i.relocate (ρ.place π))) := by
  obtain ⟨pos, template, bindings, only, ignoreMissing⟩ := i
  cases bindings with
  | none => exact .pure _
  | some e =>
    refine Alike.bind (heval e rfl) fun v => ?_
    cases v with
    | map entries => exact .pure _
    | null => exact .pure _
    | _ => exact .failAt _ _ _ _

theorem alike_renderInclusion {inner : Option (Runner ω)} (hinner : ∀ r ∈ inner, ρ.Runs env r)
    {eval : Expr → Render ω (Value ω)} {i : Inclusion}
    (h : ∀ e ∈ i.template :: i.bindings.toList, ρ.Permits env π e)
    (heval : ∀ {out} e, ρ.Permits env π e →
      ρ.Alike env π out (eval e) (eval (e.relocate (ρ.place π))))
    {overrides overrides' : List (String × BlockRef)}
    (hoverrides : ρ.Compositions overrides overrides') :
    ρ.Alike env π Eq (renderInclusion env inner eval i overrides)
      (renderInclusion env inner eval (i.relocate (ρ.place π)) overrides') := by
  have htemplate : ρ.Permits env π i.template := h _ (.head _)
  have hbindings : ∀ e ∈ i.bindings, ρ.Permits env π e :=
    fun e he => h e (.tail _ (Option.mem_toList.mpr he))
  refine Alike.bind (alike_inclusionTarget steady htemplate (heval _ htemplate)) fun target => ?_
  cases target with
  | none => exact .pure _
  | some t =>
    refine Alike.bind (alike_inclusionBindings fun e he => heval e (hbindings e he)) fun bindings =>
      Alike.frame_bind fun fr fr' hfr => ?_
    rw [hfr.scope]
    exact Alike.deeper fun runner hrunner =>
      alike_renderTemplate steady (hinner runner hrunner) t _ hoverrides

end Templates

/-! ## §6. Statements -/

theorem alike_runRounds (key : Option String) (value : String) (length : Nat)
    (parent : Option (Value ω)) {body body' : Render ω Unit} (hbody : ρ.Alike env π out body body')
    (index : Nat) (items : List (Value ω × Value ω)) :
    ρ.Alike env π out (runRounds key value length parent body index items)
      (runRounds key value length parent body' index items) := by
  induction items generalizing index with
  | nil => exact .pure ()
  | cons item items ih => exact Alike.bind (.inLayer _ hbody) fun _ => ih (index + 1)

theorem alike_itemsOf [HostObject ω] (v : Value ω) :
    ρ.Alike env π out (itemsOf v) (itemsOf v) := by
  unfold itemsOf
  split
  · refine Alike.bind (.meet _) fun w => ?_
    split <;> exact .pure _
  · exact .pure _

theorem alike_runLoop [HostObject ω] (key : Option String) (value : String)
    {iterable iterable' : Render ω (Value ω)} {body body' orElse orElse' : Render ω Unit}
    (hiterable : ρ.Alike env π out iterable iterable') (hbody : ρ.Alike env π out body body')
    (horElse : ρ.Alike env π out orElse orElse') :
    ρ.Alike env π out (runLoop key value iterable body orElse)
      (runLoop key value iterable' body' orElse') := by
  refine Alike.bind hiterable fun v => Alike.bind (alike_itemsOf v) fun items => ?_
  cases items with
  | nil => exact horElse
  | cons item items =>
    refine Alike.frame_bind fun fr fr' hfr => ?_
    rw [hfr.scope]
    exact alike_runRounds key value _ _ hbody 0 _

theorem alike_assignAll (names : List String) (vs : List (Value ω)) :
    ρ.Alike env π out (assignAll names vs) (assignAll names vs) := by
  induction names generalizing vs with
  | nil => exact .pure ()
  | cons name names ih =>
    cases vs with
    | nil => exact .pure ()
    | cons v vs => exact Alike.bind (.assign name v) fun _ => ih vs

theorem alike_importMacros (pos pos' : Position) (t : LiveTemplate)
    (names : List (String × String)) :
    ρ.Alike env π out (importMacros pos t names : Render ω Unit) (importMacros pos' t names) := by
  induction names with
  | nil => exact .pure ()
  | cons pair names ih =>
    unfold importMacros
    cases t.template.macroTable.find? pair.1 with
    | none => exact .failAt _ _ _ _
    | some id => exact Alike.bind (.assign pair.2 _) fun _ => ih

/-- The blocks of an embedding statement and those of its copy. -/
theorem Frames.overrides {fr fr' : Frame ω} (hfr : ρ.Frames π fr fr') {i : Inclusion}
    {blocks : Table DefinitionId} (h : ρ.AllowsStmt env π (.embeds i blocks)) :
    ρ.Compositions (fr.template.blocks blocks)
      (fr'.template.blocks (renumber (ρ.numberOf π) blocks)) := by
  have htemplates := hfr.templates
  cases π with
  | same =>
    have htemplate : fr'.template = fr.template := htemplates
    rw [htemplate, show ρ.numberOf .same = id from rfl, renumber_id]
    exact .refl _
  | copy =>
    obtain ⟨hsource, htarget⟩ := htemplates
    rw [hsource, htarget]
    exact .copies fun id hid => h.blocks id (List.mem_map_of_mem hid)

section Statements

variable [HostObject ω] (steady : env.Steady) (sound : ρ.Sound env)
  {inner : Option (Runner ω)} (hinner : ∀ r ∈ inner, ρ.Runs env r)
include steady sound hinner

omit steady in
theorem alike_applyFilters (calls : List FilterCall)
    (hargs : ∀ call ∈ calls, ∀ e ∈ call.args, ρ.Permits env π e)
    (hblind : π = .same ∨ ∀ call ∈ calls, ∀ f ∈ env.filters.find? call.name, CallState.Blind f)
    (v : Value ω) :
    ρ.Alike env π out (applyFilters env inner calls v)
      (applyFilters env inner (calls.map (FilterCall.relocate (ρ.place π))) v) := by
  induction calls generalizing v with
  | nil => exact .pure _
  | cons call calls ih =>
    refine Alike.bind (alike_applyFilter _ _ call.name v
      (alike_evalAll sound hinner call.args (hargs call (.head _)))
      (hblind.imp_right fun h => h call (.head _))) fun w => ?_
    exact ih (fun call hcall => hargs call (.tail _ hcall))
      (hblind.imp_right fun h call hcall => h call (.tail _ hcall)) w

set_option linter.unusedSectionVars false in
mutual

/-- Running a statement and running its copy are alike. -/
theorem alike_runStmt : ∀ s : Stmt, (∀ s' ∈ s :: s.inside, ρ.AllowsStmt env π s') →
    ρ.Alike env π Eq (runStmt env inner s)
      (runStmt env inner (s.relocate (ρ.place π) (ρ.numberOf π)))
  | .text _ text, _ => by
    rw [Stmt.relocate, runStmt, runStmt]
    exact .write text
  | .print _ e, h => by
    have he : ρ.Permits env π e := (h _ (.head _)).permits (.head _)
    rw [Stmt.relocate, runStmt, runStmt]
    exact Alike.bind (alike_eval sound hinner e he) fun v => .write _
  | .block pos id, h => by
    rw [Stmt.relocate, runStmt, runStmt]
    exact alike_renderSlot sound hinner _ (h _ (.head _))
  | .branch _ cond body orElse, h => by
    have hcond : ρ.Permits env π cond := (h _ (.head _)).permits (.head _)
    obtain ⟨-, hinside⟩ := List.forall_mem_cons.mp h
    rw [Stmt.inside] at hinside
    obtain ⟨hbody, horElse⟩ := List.forall_mem_append.mp hinside
    rw [Stmt.relocate, runStmt, runStmt]
    refine Alike.bind (alike_eval sound hinner cond hcond) fun v => ?_
    split
    · exact alike_runBody body hbody
    · exact alike_runBody orElse horElse
  | .loop _ key value iterable body orElse, h => by
    have hiterable : ρ.Permits env π iterable := (h _ (.head _)).permits (.head _)
    obtain ⟨-, hinside⟩ := List.forall_mem_cons.mp h
    rw [Stmt.inside] at hinside
    obtain ⟨hbody, horElse⟩ := List.forall_mem_append.mp hinside
    rw [Stmt.relocate, runStmt, runStmt]
    exact alike_runLoop key value (alike_eval sound hinner iterable hiterable)
      (alike_runBody body hbody) (alike_runBody orElse horElse)
  | .includes inclusion, h => by
    rw [Stmt.relocate, runStmt, runStmt]
    exact alike_renderInclusion steady hinner (fun e he => (h _ (.head _)).permits he)
      (fun e he => alike_eval sound hinner e he) (.refl [])
  | .embeds inclusion blocks, h => by
    have hstmt := h _ (.head _)
    rw [Stmt.relocate, runStmt, runStmt]
    exact Alike.frame_bind fun fr fr' hfr =>
      alike_renderInclusion steady hinner (fun e he => hstmt.permits he)
        (fun e he => alike_eval sound hinner e he) (hfr.overrides hstmt)
  | .reuses _, _ | .defines .., _ => by
    rw [Stmt.relocate, runStmt, runStmt]
    exact .pure ()
  | .assign _ targets values, h => by
    have hvalues : ∀ e ∈ values, ρ.Permits env π e := fun e he => (h _ (.head _)).permits he
    rw [Stmt.relocate, runStmt, runStmt]
    exact Alike.bind (alike_evalAll sound hinner values hvalues) fun vs =>
      alike_assignAll targets vs
  | .capture _ name body, h => by
    obtain ⟨-, hinside⟩ := List.forall_mem_cons.mp h
    rw [Stmt.inside] at hinside
    rw [Stmt.relocate, runStmt, runStmt]
    exact Alike.bind (.capture (alike_runBody body hinside)) fun text => .assign name _
  | .perform _ e, h => by
    have he : ρ.Permits env π e := (h _ (.head _)).permits (.head _)
    rw [Stmt.relocate, runStmt, runStmt]
    exact Alike.bind (alike_eval sound hinner e he) fun v => .pure ()
  | .filtered pos filters body, h => by
    obtain ⟨hstmt, hinside⟩ := List.forall_mem_cons.mp h
    rw [Stmt.inside] at hinside
    have hargs : ∀ call ∈ filters, ∀ e ∈ call.args, ρ.Permits env π e := fun call hcall e he =>
      hstmt.permits (List.mem_flatMap.mpr ⟨call, hcall, he⟩)
    have hblind : π = .same ∨
        ∀ call ∈ filters, ∀ f ∈ env.filters.find? call.name, CallState.Blind f :=
      hstmt.portable.imp_right fun h => h.filters pos filters body rfl
    rw [Stmt.relocate, runStmt, runStmt]
    exact Alike.bind (.capture (alike_runBody body hinside)) fun text =>
      Alike.bind (alike_applyFilters sound hinner filters hargs hblind _) fun v => .write _
  | .importAll _ template newName, h => by
    have htemplate : ρ.Permits env π template := (h _ (.head _)).permits (.head _)
    rw [Stmt.relocate, runStmt, runStmt]
    exact Alike.bind
      (alike_templateOf steady htemplate (alike_eval sound hinner template htemplate))
      fun t => .assign newName _
  | .importSome _ template names, h => by
    have htemplate : ρ.Permits env π template := (h _ (.head _)).permits (.head _)
    rw [Stmt.relocate, runStmt, runStmt]
    exact Alike.bind
      (alike_templateOf steady htemplate (alike_eval sound hinner template htemplate))
      fun t => alike_importMacros _ _ t names

theorem alike_runBody : ∀ ss : List Stmt, (∀ s ∈ Stmt.nodes ss, ρ.AllowsStmt env π s) →
    ρ.Alike env π Eq (runBody env inner ss)
      (runBody env inner (Stmt.relocateAll (ρ.place π) (ρ.numberOf π) ss))
  | [], _ => by
    rw [Stmt.relocateAll]
    exact .pure ()
  | s :: ss, h => by
    rw [Stmt.nodes, ← List.cons_append] at h
    obtain ⟨hs, hss⟩ := List.forall_mem_append.mp h
    rw [Stmt.relocateAll, runBody, runBody]
    exact Alike.bind (alike_runStmt s hs) fun _ => alike_runBody ss hss

end

end Statements

/-! ## §7. Levels -/

/-- Whatever number of levels is left, all code is alike. -/
theorem runs_innerRunner [HostObject ω] (steady : env.Steady) (sound : ρ.Sound env) (n : Nat) :
    ∀ r ∈ innerRunner env n, ρ.Runs env r := by
  induction n with
  | zero => exact fun r hr => nomatch hr
  | succ n ih =>
    rintro r ⟨⟩
    exact ⟨alike_eval sound ih, alike_runBody steady sound ih⟩

end Relocation

end Stencil
