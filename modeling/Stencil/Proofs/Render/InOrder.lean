import Stencil.Proofs.Render.Genuine
import Stencil.Proofs.Render.Keeps
import Stencil.Proofs.Render.Watch

/-!
Parts of renders that are in order.

A part of a render is in order while a template runs if no watch has an objection to it that it
ought not to have, if what it gives and leaves behind refers to nothing but genuine blocks and
macros, and if each error of code that it ends with can be laid at some code's door: code that can
raise this error at this place, that is written in the template whose name the error bears, and that
was run while that template was the running one.

The judgement `InOrder` says this of a part of a render together with the watched one.  Errors that
the code at hand raises itself are listed apart; they become errors of that code where a watch is
asked about it.
-/

namespace Stencil

/-! ## §1. Errors of code -/

/-- The errors that code raises itself: where, and of which kind. -/
inductive Code.Raises : Code → Position → RenderErrorKind → Prop
  | undefinedName (pos : Position) (name : String) :
    Raises (.expr (.name pos name)) pos (.undefinedVariable name)
  | undefinedAttribute (pos : Position) (object key : Expr) (name : String) :
    Raises (.expr (.attribute pos object key)) pos (.undefinedVariable name)
  | noParentBlock (pos : Position) (args : List Expr) :
    Raises (.expr (.call pos "parent" args)) pos .noParentBlock
  | unknownBlock (pos : Position) (args : List Expr) (block : String) :
    Raises (.expr (.call pos "block" args)) pos (.unknownBlock block)
  | unknownFunction (pos : Position) (name : String) (args : List Expr) :
    Raises (.expr (.call pos name args)) pos (.unknownFunction name)
  | failedFunction (pos : Position) (name : String) (args : List Expr) (message : String) :
    Raises (.expr (.call pos name args)) pos (.call name message)
  | callTooDeep (pos : Position) (name : String) (args : List Expr) :
    Raises (.expr (.call pos name args)) pos (.recursionLimit Render.maxDepth)
  | unknownMethod (pos : Position) (object key : Expr) (args : List Expr) (name : String) :
    Raises (.expr (.method pos object key args)) pos (.unknownFunction name)
  | failedMethod (pos : Position) (object key : Expr) (args : List Expr) (name message : String) :
    Raises (.expr (.method pos object key args)) pos (.call name message)
  | methodTooDeep (pos : Position) (object key : Expr) (args : List Expr) :
    Raises (.expr (.method pos object key args)) pos (.recursionLimit Render.maxDepth)
  | noSubject (pos : Position) (name : String) :
    Raises (.expr (.filter pos name [])) pos (.unsupported (.filterSubject name))
  | unknownFilter (pos : Position) (name : String) (args : List Expr) :
    Raises (.expr (.filter pos name args)) pos (.unknownFilter name)
  | failedFilter (pos : Position) (name : String) (args : List Expr) (message : String) :
    Raises (.expr (.filter pos name args)) pos (.call name message)
  | unknownTest (pos : Position) (name : String) (subject : Expr) (args : List Expr) :
    Raises (.expr (.test pos name subject args)) pos (.unknownTest name)
  | failedTest (pos : Position) (name : String) (subject : Expr) (args : List Expr)
    (message : String) :
    Raises (.expr (.test pos name subject args)) pos (.call name message)
  | failedOperation (pos : Position) (op : BinaryOp) (left right : Expr) (e : OperationError) :
    Raises (.expr (.binary pos op left right)) pos (.unsupported (.operation e))
  | blockTooDeep (pos : Position) (id : DefinitionId) :
    Raises (.stmt (.block pos id)) pos (.recursionLimit Render.maxDepth)
  | includeTooDeep (i : Inclusion) :
    Raises (.stmt (.includes i)) i.position (.recursionLimit Render.maxDepth)
  | includeBindings (i : Inclusion) (kind : String) :
    Raises (.stmt (.includes i)) i.position (.unsupported (.bindings kind))
  | embedTooDeep (i : Inclusion) (blocks : Table DefinitionId) :
    Raises (.stmt (.embeds i blocks)) i.position (.recursionLimit Render.maxDepth)
  | embedBindings (i : Inclusion) (blocks : Table DefinitionId) (kind : String) :
    Raises (.stmt (.embeds i blocks)) i.position (.unsupported (.bindings kind))
  | unknownBodyFilter (pos : Position) {call : FilterCall} {filters : List FilterCall}
    (body : List Stmt) : call ∈ filters →
    Raises (.stmt (.filtered pos filters body)) call.position (.unknownFilter call.name)
  | failedBodyFilter (pos : Position) {call : FilterCall} {filters : List FilterCall}
    (body : List Stmt) (message : String) : call ∈ filters →
    Raises (.stmt (.filtered pos filters body)) call.position (.call call.name message)
  | unknownMacro (pos : Position) (e : Expr) (names : List (String × String))
    (template name : String) :
    Raises (.stmt (.importSome pos e names)) pos (.unknownMacro template name)

/-- The errors that code raises itself while a template runs. -/
def Code.errors (c : Code) (t : LiveTemplate) (e : Error) : Prop :=
  ∃ pos kind, e = .render t.name pos kind ∧ c.Raises pos kind

theorem Code.Raises.error {c : Code} {pos : Position} {kind : RenderErrorKind}
    (h : c.Raises pos kind) (t : LiveTemplate) : c.errors t (.render t.name pos kind) :=
  ⟨pos, kind, rfl, h⟩

/-- The watch has an objection to code that belongs to the running template, or to looking up a
number in the template that issued it. -/
def Watch.FindsFault (w : Watch) (e : Failure) : Prop :=
  (∃ t c, t.Owns c ∧ w.code t c = some e) ∨ ∃ t p, t.Issues p ∧ w.lookup t p = some e

/-- A watched part of a render ends with such an objection. -/
def Watch.Interrupts {α : Type} (w : Watch) (r : Except Failure α) : Prop :=
  ∃ e, r = .error e ∧ w.FindsFault e

/-- Code at whose door an error can be laid, given how the part of a render ends when watched. -/
structure Code.Culprit {α : Type} (watched : Watch → Except Failure α) (t : Template) (c : Code)
    (e : Error) : Prop where
  owned : t.Owns c
  raises : ∃ pos kind, e = .render t.name pos kind ∧ c.Raises pos kind
  /-- The code was run while the template was running: a watch that objects to this comes in. -/
  ran : ∀ w : Watch, (w.code t c).isSome → w.Interrupts (watched w)

theorem Code.Culprit.mono {α β : Type} {watched : Watch → Except Failure α}
    {watched' : Watch → Except Failure β} {t : Template} {c : Code} {e : Error}
    (h : c.Culprit watched t e)
    (hinterrupts : ∀ w : Watch, w.Interrupts (watched w) → w.Interrupts (watched' w)) :
    c.Culprit watched' t e :=
  ⟨h.owned, h.raises, fun w hw => hinterrupts w (h.ran w hw)⟩

/-! ## §2. States and results -/

variable {ω α β : Type}

instance : HasReferences (Frame ω) :=
  ⟨fun f => Genuine f.template ∧ Genuine f.scope ∧ Genuine f.blocks⟩

instance : HasReferences (RenderState ω) :=
  ⟨fun s => Genuine s.frame ∧ Genuine s.loaded⟩

/-- How a part of a render has ended that is in order. -/
structure Settled [HasReferences α] (own : Error → Prop) (stay : LiveTemplate → Prop)
    (watched : Watch → Except Failure α × RenderState ω) (r : Except Failure α × RenderState ω) :
    Prop where
  same : ∀ w, watched w = r ∨ w.Interrupts (watched w).1
  result : ∀ a, r.1 = .ok a → Genuine a ∧ Genuine r.2 ∧ stay r.2.frame.template
  blame : ∀ e, r.1 = .error (.error e) → e.isOfCode → own e ∨
    ∃ t c, Code.Culprit (fun w => (watched w).1) t c e

/-- Whether a part of a render is in order that is run while a template is running, and ends while
some such template is. -/
def InOrderTo [HasReferences α] (stay : LiveTemplate → Prop) (own : Error → Prop)
    (t : LiveTemplate) (watched : Watch → Render ω α) (x : Render ω α) : Prop :=
  ∀ s, Genuine s → s.frame.template = t →
    Settled own stay (fun w => (watched w).run s) (x.run s)

/-- Whether a part of a render is in order that leaves the running template as it is. -/
abbrev InOrder [HasReferences α] (own : Error → Prop) (t : LiveTemplate)
    (watched : Watch → Render ω α) (x : Render ω α) : Prop :=
  InOrderTo (· = t) own t watched x

/-- No errors. -/
def Error.noneOwn : Error → Prop := fun _ => False

namespace InOrderTo

variable [HasReferences α] [HasReferences β] {stay : LiveTemplate → Prop} {own : Error → Prop}
  {t : LiveTemplate} {watched : Watch → Render ω α} {x : Render ω α}

open Render (run_bind run_bind_ok run_bind_error run_pure run_throw run_get)

/-! ## §3. Rules -/

theorem mono {own' : Error → Prop} (h : InOrderTo stay own t watched x)
    (hown : ∀ e, own e → own' e) : InOrderTo stay own' t watched x := by
  intro s hs ht
  obtain ⟨same, result, blame⟩ := h s hs ht
  exact ⟨same, result, fun e he hcode => (blame e he hcode).imp_left (hown e)⟩

/-- What raises no errors itself is in order in any code. -/
theorem clean (h : InOrderTo stay Error.noneOwn t watched x) : InOrderTo stay own t watched x :=
  h.mono fun _ h => h.elim

theorem pure {a : α} (h : Genuine a) :
    InOrder own t (fun _ => Pure.pure a) (Pure.pure a : Render ω α) := by
  intro s hs ht
  refine ⟨fun _ => .inl rfl, fun b hb => ?_, nofun⟩
  cases hb
  exact ⟨h, hs, ht⟩

theorem exhausted : InOrderTo stay own t (fun _ => MonadExcept.throw .exhausted)
    (MonadExcept.throw .exhausted : Render ω α) :=
  fun _ _ _ => ⟨fun _ => .inl rfl, nofun, nofun⟩

/-- An error that is none of code. -/
theorem fail {e : Error} (h : ¬ e.isOfCode) :
    InOrderTo stay own t (fun _ => Render.fail e) (Render.fail e : Render ω α) := by
  refine fun _ _ _ => ⟨fun _ => .inl rfl, nofun, fun e' he' hcode => ?_⟩
  cases he'
  exact absurd hcode h

theorem bind {stay' : LiveTemplate → Prop} {f' : Watch → α → Render ω β} {f : α → Render ω β}
    (hx : InOrderTo stay own t watched x)
    (hf : ∀ a, Genuine a → ∀ t', stay t' → InOrderTo stay' own t' (fun w => f' w a) (f a)) :
    InOrderTo stay' own t (fun w => watched w >>= f' w) (x >>= f) := by
  intro s hs ht
  obtain ⟨hsame, hresult, hblame⟩ := hx s hs ht
  -- An objection to the first part ends both.
  have hinterrupt : ∀ w : Watch, w.Interrupts ((watched w).run s).1 →
      w.Interrupts ((watched w >>= f' w).run s).1 := by
    rintro w ⟨e, he, hfault⟩
    refine ⟨e, ?_, hfault⟩
    rw [run_bind_error (Prod.ext he rfl)]
  rcases hr : x.run s with ⟨e | a, u⟩
  · rw [run_bind_error hr]
    refine ⟨fun w => ?_, nofun, fun e' he' hcode => ?_⟩
    · rcases hsame w with h | h
      · exact .inl (run_bind_error (h.trans hr) _)
      · exact .inr (hinterrupt w h)
    · cases he'
      refine (hblame e' (by rw [hr]) hcode).imp_right ?_
      exact fun ⟨t', c, h⟩ => ⟨t', c, h.mono hinterrupt⟩
  · rw [run_bind_ok hr]
    obtain ⟨ha, hu, hstay⟩ := hresult a (by rw [hr])
    rw [hr] at hu hstay
    obtain ⟨hsame', hresult', hblame'⟩ := hf a ha _ hstay u hu rfl
    -- Without one, the second part starts where it does when nobody watches.
    have hsecond : ∀ w : Watch, (watched w).run s = x.run s →
        (watched w >>= f' w).run s = (f' w a).run u :=
      fun w h => run_bind_ok (h.trans hr) _
    refine ⟨fun w => ?_, hresult', fun e he hcode => ?_⟩
    · rcases hsame w with h | h
      · rw [hsecond w h]
        exact hsame' w
      · exact .inr (hinterrupt w h)
    · refine (hblame' e he hcode).imp_right ?_
      refine fun ⟨t', c, hculprit⟩ => ⟨t', c, hculprit.mono fun w hw => ?_⟩
      rcases hsame w with h | h
      · rwa [hsecond w h]
      · exact hinterrupt w h

/-- Two parts, of which the first one leaves the running template as it is. -/
theorem next {f' : Watch → α → Render ω β} {f : α → Render ω β} (hx : InOrder own t watched x)
    (hf : ∀ a, Genuine a → InOrderTo stay own t (fun w => f' w a) (f a)) :
    InOrderTo stay own t (fun w => watched w >>= f' w) (x >>= f) :=
  hx.bind fun a ha _ ht' => ht' ▸ hf a ha

theorem map {f : α → β} (hx : InOrder own t watched x) (hf : ∀ a, Genuine a → Genuine (f a)) :
    InOrder own t (fun w => f <$> watched w) (f <$> x) := by
  simp only [map_eq_pure_bind]
  exact hx.next fun a ha => pure (hf a ha)

/-- Reading the state first. -/
theorem get_bind {f' : Watch → RenderState ω → Render ω α} {f : RenderState ω → Render ω α}
    (h : ∀ s, Genuine s → s.frame.template = t →
      Settled own stay (fun w => (f' w s).run s) ((f s).run s)) :
    InOrderTo stay own t (fun w => MonadState.get >>= f' w) (MonadState.get >>= f) :=
  fun s hs ht => h s hs ht

/-- Reading the frame first. -/
theorem frame_bind {f' : Watch → Frame ω → Render ω α} {f : Frame ω → Render ω α}
    (h : ∀ fr, Genuine fr → fr.template = t → InOrderTo stay own t (fun w => f' w fr) (f fr)) :
    InOrderTo stay own t (fun w => Render.frame >>= f' w) (Render.frame >>= f) :=
  fun s hs ht => h s.frame hs.1 ht s hs ht

theorem changeFrame {f : Frame ω → Frame ω}
    (h : ∀ fr, Genuine fr → fr.template = t → Genuine (f fr) ∧ stay (f fr).template) :
    InOrderTo stay own t (fun _ => Render.changeFrame f) (Render.changeFrame f) := by
  refine fun s hs ht => ⟨fun _ => .inl rfl, fun _ _ => ⟨True.intro, ?_⟩, nofun⟩
  obtain ⟨hframe, hstay⟩ := h s.frame hs.1 ht
  exact ⟨⟨hframe, hs.2⟩, hstay⟩

theorem assign (name : String) {v : Value ω} (hv : Genuine v) :
    InOrder own t (fun _ => Render.assign name v) (Render.assign name v) :=
  changeFrame fun _ hfr ht => ⟨⟨hfr.1, Scope.genuine_assign hfr.2.1 hv name, hfr.2.2⟩, ht⟩

/-- An error of the code at hand. -/
theorem failAt {pos : Position} {kind : RenderErrorKind} (h : own (.render t.name pos kind)) :
    InOrderTo stay own t (fun _ => Render.failAt pos kind)
      (Render.failAt pos kind : Render ω α) := by
  refine fun s _ ht => ⟨fun _ => .inl rfl, nofun, fun e he _ => .inl ?_⟩
  rw [Render.run_failAt] at he
  cases he
  rwa [ht]

theorem ofCall {pos : Position} {name : String} {r : Except String α} (hr : Genuine r)
    (h : ∀ message, own (.render t.name pos (.call name message))) :
    InOrder own t (fun _ => Render.ofCall pos name r)
      (Render.ofCall pos name r : Render ω α) := by
  cases r with
  | ok a => exact pure hr
  | error message => exact failAt (h message)

/-! ## §4. Constructs that undo a change -/

theorem ending {stay' : LiveTemplate → Prop} {f : RenderState ω → RenderState ω}
    (hx : InOrderTo stay own t watched x)
    (hf : ∀ s, Genuine s → stay s.frame.template → Genuine (f s) ∧ stay' (f s).frame.template) :
    InOrderTo stay' own t (fun w => Render.ending (watched w) f) (Render.ending x f) := by
  intro s hs ht
  obtain ⟨hsame, hresult, hblame⟩ := hx s hs ht
  refine ⟨fun w => (hsame w).imp_left fun h => ?_, fun a ha => ?_, hblame⟩
  · simp only [Render.run_ending, h]
  · obtain ⟨hga, hgs, hstay⟩ := hresult a ha
    exact ⟨hga, hf _ hgs hstay⟩

/-- Code that runs in a frame of its own, with a template that belongs to it. -/
theorem within {stay' : LiveTemplate → Prop} {t' : LiveTemplate} {f : Frame ω → Frame ω}
    (hf : ∀ fr, Genuine fr → fr.template = t → Genuine (f fr) ∧ (f fr).template = t')
    (hx : InOrderTo stay' own t' watched x) :
    InOrder own t (fun w => Render.within f (watched w)) (Render.within f x) := by
  intro s hs ht
  obtain ⟨hframe, htemplate⟩ := hf s.frame hs.1 ht
  obtain ⟨hsame, hresult, hblame⟩ := hx { s with frame := f s.frame } ⟨hframe, hs.2⟩ htemplate
  refine ⟨fun w => (hsame w).imp_left fun h => ?_, fun a ha => ?_, hblame⟩
  · exact congrArg (fun r => (r.1, { r.2 with frame := s.frame })) h
  · obtain ⟨hga, hgs, -⟩ := hresult a ha
    exact ⟨hga, ⟨hs.1, hgs.2⟩, ht⟩

theorem capture {watched : Watch → Render ω Unit} {x : Render ω Unit}
    (hx : InOrder own t watched x) :
    InOrder own t (fun w => Render.capture (watched w)) (Render.capture x) := by
  intro s hs ht
  obtain ⟨hsame, hresult, hblame⟩ := hx { s with output := ⟨[], none⟩ } hs ht
  -- A failure goes through, and so does an objection.
  have hfailure : ∀ {y : Render ω Unit} {e : Failure},
      ((Render.capture y).run s).1 = .error e ↔
        (y.run { s with output := ⟨[], none⟩ }).1 = .error e := by
    intro y e
    rw [Render.run_capture]
    rcases (y.run { s with output := ⟨[], none⟩ }).1 with e' | a <;> simp [Except.map]
  have hinterrupts : ∀ w : Watch, w.Interrupts ((watched w).run { s with output := ⟨[], none⟩ }).1 →
      w.Interrupts ((Render.capture (watched w)).run s).1 :=
    fun w ⟨e, he, hfault⟩ => ⟨e, hfailure.mpr he, hfault⟩
  refine ⟨fun w => (hsame w).imp (fun h => ?_) (hinterrupts w), fun text htext => ?_,
    fun e he hcode => ?_⟩
  · simp only [Render.run_capture, h]
  · rw [Render.run_capture] at htext ⊢
    rcases hr : x.run { s with output := ⟨[], none⟩ } with ⟨e | a, u⟩
    · rw [hr] at htext
      cases htext
    · obtain ⟨-, hu, hstay⟩ := hresult a (by rw [hr])
      rw [hr] at hu hstay
      exact ⟨True.intro, hu, hstay⟩
  · refine (hblame e (hfailure.mp he) hcode).imp_right ?_
    exact fun ⟨t', c, h⟩ => ⟨t', c, h.mono hinterrupts⟩

theorem leniently (hx : InOrder own t watched x) :
    InOrder own t (fun w => Render.leniently (watched w)) (Render.leniently x) := by
  intro s hs ht
  exact (hx.ending (f := fun u => { u with lenient := s.lenient })
    fun _ hu hstay => ⟨hu, hstay⟩) { s with lenient := true } hs ht

theorem inLayer {layer : Table (Value ω)} (hlayer : Genuine layer)
    (hx : InOrder own t watched x) :
    InOrder own t (fun w => Render.inLayer layer (watched w)) (Render.inLayer layer x) := by
  refine next (changeFrame fun fr hfr ht => ⟨⟨hfr.1, ?_, hfr.2.2⟩, ht⟩) fun _ _ => ?_
  · exact Scope.genuine_push hfr.2.1 hlayer
  · refine ending hx fun s hs hstay => ⟨⟨⟨hs.1.1, ?_, hs.1.2.2⟩, hs.2⟩, hstay⟩
    exact Scope.genuine_pop hs.1.2.1

/-! ## §5. Questions -/

/-- A part that is preceded by a question to which no watch ought to object. -/
theorem heed {question : Watch → Option Failure}
    (hfault : ∀ w e, question w = some e → w.FindsFault e)
    (hx : InOrderTo stay own t watched x) :
    InOrderTo stay own t (fun w => Watch.heed (question w) >>= fun _ => watched w) x := by
  intro s hs ht
  obtain ⟨hsame, hresult, hblame⟩ := hx s hs ht
  have hasked : ∀ w, (Watch.heed (question w) >>= fun _ => watched w).run s = (watched w).run s ∨
      w.Interrupts ((Watch.heed (question w) >>= fun _ => watched w).run s).1 := by
    intro w
    cases hq : question w with
    | none => exact .inl rfl
    | some e => exact .inr ⟨e, rfl, hfault w e hq⟩
  have hinterrupts : ∀ w : Watch, w.Interrupts ((watched w).run s).1 →
      w.Interrupts ((Watch.heed (question w) >>= fun _ => watched w).run s).1 := by
    intro w hw
    rcases hasked w with h | h
    · rwa [h]
    · exact h
  refine ⟨fun w => ?_, hresult, fun e he hcode => ?_⟩
  · rcases hasked w with h | h
    · simp only [h]
      exact hsame w
    · exact .inr h
  · refine (hblame e he hcode).imp_right ?_
    exact fun ⟨t', c, h⟩ => ⟨t', c, h.mono hinterrupts⟩

/-- **Code that belongs to the running template is in order** if what it does is, but for errors
that it raises itself: these are then its own. -/
theorem runs {c : Code} (hc : t.template.Owns c) (hx : InOrder (c.errors t) t watched x) :
    InOrder Error.noneOwn t (fun w => w.runs c (watched w)) x := by
  intro s hs ht
  have hfault : ∀ w e, w.code t.template c = some e → Watch.FindsFault w e :=
    fun w e he => .inl ⟨t.template, c, hc, he⟩
  obtain ⟨hsame, hresult, hblame⟩ := heed hfault hx s hs ht
  have hrun : ∀ w : Watch, (w.runs c (watched w)).run s =
      (Watch.heed (w.code t.template c) >>= fun _ => watched w).run s := by
    intro w
    rw [← ht]
    rfl
  refine ⟨fun w => ?_, hresult, fun e he hcode => .inr ?_⟩
  · simp only [hrun]
    exact hsame w
  · simp only [hrun]
    rcases hblame e he hcode with ⟨pos, kind, rfl, hraises⟩ | hculprit
    · refine ⟨t.template, c, hc, ⟨pos, kind, rfl, hraises⟩, fun w hw => ?_⟩
      obtain ⟨e, he⟩ := Option.isSome_iff_exists.mp hw
      rw [he]
      exact ⟨e, rfl, .inl ⟨t.template, c, hc, he⟩⟩
    · exact hculprit

/-- A genuine block is found by whoever looks it up. -/
theorem blockOf {r : BlockRef} (hr : Genuine r) {f' : Watch → Block → Render ω α}
    (hx : ∀ block ∈ r.owner.template.blocks, r.block? = some block →
      InOrderTo stay own t (fun w => f' w block) x) :
    InOrderTo stay own t (fun w => w.blockOf r >>= f' w) x := by
  obtain ⟨block, hmem, hfound⟩ := hr.1.exists_block hr.2
  have hfound : r.block? = some block := hfound
  have hwatched : ∀ w : Watch, w.blockOf r >>= f' w =
      (Watch.heed (w.lookup r.owner.template (.block r.id)) >>= fun _ => f' w block) := by
    intro w
    unfold Watch.blockOf
    simp only [hfound, bind_assoc, pure_bind]
  simp only [hwatched]
  exact heed (fun w e he => .inr ⟨_, _, hr.2, he⟩) (hx block hmem hfound)

/-- A genuine macro is found by whoever looks it up. -/
theorem macroOf {m : MacroRef} (hm : Genuine m) {f' : Watch → MacroDef → Render ω α}
    (hx : ∀ definition ∈ m.owner.template.macros,
      m.owner.template.macroAt? m.id = some definition →
        InOrderTo stay own t (fun w => f' w definition) x) :
    InOrderTo stay own t (fun w => w.macroOf m >>= f' w) x := by
  obtain ⟨definition, hmem, hfound⟩ := hm.1.exists_macroDef hm.2
  have hwatched : ∀ w : Watch, w.macroOf m >>= f' w =
      (Watch.heed (w.lookup m.owner.template (.macroDef m.id)) >>= fun _ =>
        f' w definition) := by
    intro w
    unfold Watch.macroOf
    simp only [hfound, bind_assoc, pure_bind]
  simp only [hwatched]
  exact heed (fun w e he => .inr ⟨_, _, hm.2, he⟩) (hx definition hmem hfound)

end InOrderTo

/-! ## §6. Runners -/

/-- Runners that run all code of the running template in order. -/
structure RunnersInOrder (watched : Watch → Render.Runner ω) (r : Render.Runner ω) : Prop where
  eval : ∀ {t : LiveTemplate} {e : Expr}, t.template.Owns (.expr e) →
    InOrder Error.noneOwn t (fun w => (watched w).eval e) (r.eval e)
  body : ∀ {t : LiveTemplate} {ss : List Stmt}, (∀ s ∈ ss, t.template.Owns (.stmt s)) →
    InOrder Error.noneOwn t (fun w => (watched w).body ss) (r.body ss)

/-- The runners of one level deeper: there is none, or there are some that run all in order. -/
inductive InnerInOrder : (Watch → Option (Render.Runner ω)) → Option (Render.Runner ω) → Prop
  | none : InnerInOrder (fun _ => none) none
  | some {watched : Watch → Render.Runner ω} {r : Render.Runner ω} :
    RunnersInOrder watched r → InnerInOrder (fun w => some (watched w)) (some r)

namespace InOrderTo

variable [HasReferences α] {own : Error → Prop} {t : LiveTemplate}

/-- One level deeper, or the limit is met, which is an error of the code at hand. -/
theorem deeper {inner' : Watch → Option (Render.Runner ω)} {inner : Option (Render.Runner ω)}
    (hinner : InnerInOrder inner' inner) {pos : Position}
    (hlimit : own (.render t.name pos (.recursionLimit Render.maxDepth)))
    {k' : Watch → Render.Runner ω → Render ω α} {k : Render.Runner ω → Render ω α}
    (hk : ∀ {watched r}, RunnersInOrder watched r →
      InOrder own t (fun w => k' w (watched w)) (k r)) :
    InOrder own t (fun w => Render.deeper (inner' w) pos (k' w)) (Render.deeper inner pos k) := by
  have henter : InOrder own t (fun _ => Render.enter pos) (Render.enter pos : Render ω Unit) := by
    apply get_bind
    intro s hs ht
    split
    · exact (failAt hlimit : InOrder own t _ _) s hs ht
    · exact ⟨fun _ => .inl rfl, fun _ _ => ⟨True.intro, hs, ht⟩, by rintro _ ⟨⟩⟩
  refine next henter fun _ _ => ?_
  cases hinner with
  | none => exact ending (exhausted : InOrder own t _ _) fun s hs ht => ⟨hs, ht⟩
  | some hrun => exact ending (hk hrun) fun s hs ht => ⟨hs, ht⟩

end InOrderTo

end Stencil
