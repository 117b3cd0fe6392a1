import Stencil.Proofs.Template.Recording

/-!
What a parser spends.

A parser that goes on without taking tokens would never come to an end.  So everything it does has a
price: each event costs one, a token that is taken pays for `price` of them, and what a rule does
before it takes a token is paid from the credit of the rule.  A rule has less credit than the rules
that call it before they take a token; this is what keeps rules from going round.

`Spends` says of a recorded parser that it gets along with some credit, takes nothing back that is
not remembered, and for which results it has taken a token and has how much left over.
-/

namespace Stencil

open Parse (Sound left)

/-! ## §1. Records in order -/

/-- How many events a token pays for. -/
def price : Nat := 32

/-- How many events a rule may have before it takes a token. -/
def Rule.credit : Rule → Nat
  | .segments | .entry | .primary | .property | .dottedName | .params | .filterCalls | .pieces => 1
  | .string | .arguments | .conditional | .newName | .body => 2
  | .word | .links | .climb => 3
  | .number | .dots => 4
  | .namedEnd => 5
  | .test => 7
  | .operand => 8
  | .operators => 13
  | .expression => 17
  | .branches => 19
  | .commas => 20
  | .items => 21
  | .inclusion => 24
  | .construct _ => 26

/-- What a call of a rule costs before it takes a token. -/
abbrev Rule.cost (rule : Rule) : Nat :=
  rule.credit + 1

namespace Event

/-- An event that is in order where so many tokens are left and there is so much credit: what is
taken back is remembered, and a rule that is called has fewer tokens left or has less credit.
Inside of a call the events are in order for the rule that is called. -/
inductive Fits : Nat → Nat → Event → Prop
  | read {tokens credit : Nat} {solid : Bool} : Fits tokens credit (.read solid)
  | backup {tokens credit remembered : Nat} : 0 < remembered →
      Fits tokens credit (.backup remembered)
  | call {tokens credit tokens' : Nat} {rule : Rule} {inside : List Event} :
      tokens' < tokens ∨ tokens' = tokens ∧ rule.credit < credit →
      (∀ e ∈ inside, Fits tokens' rule.credit e) → Fits tokens credit (.call rule tokens' inside)

theorem Fits.weaken {tokens credit tokens' credit' : Nat} {e : Event} (h : Fits tokens credit e)
    (hle : tokens < tokens' ∨ tokens = tokens' ∧ credit ≤ credit') : Fits tokens' credit' e := by
  cases h with
  | read => exact .read
  | backup hpos => exact .backup hpos
  | call hcall hinside => exact .call (by omega) hinside

@[simp] theorem total_append (record record' : List Event) :
    total (record ++ record') = total record + total record' := by
  induction record with
  | nil => simp [total]
  | cons e record ih => simp [total, ih, Nat.add_assoc]

/-- Whatever happens in a record that is in order is in order. -/
theorem Happens.fits {e : Event} {record : List Event} (h : e.Happens record) {tokens credit : Nat}
    (hrecord : ∀ e ∈ record, Fits tokens credit e) : Fits tokens credit e := by
  induction h generalizing tokens credit with
  | here hmem => exact hrecord e hmem
  | inside hmem _ ih =>
    cases hrecord _ hmem with
    | call hcall hinside => exact (ih hinside).weaken (by omega)

end Event

/-! ## §2. Paying -/

namespace Recorded

variable {α β : Type}

/-- What holds after a run that spent so much. -/
structure Paid (credit gain : Nat) (good : Prop) (spent : Nat) (s t : ParseState) : Prop where
  sound : Sound t
  left_le : left t ≤ left s
  paid : spent + price * left t ≤ price * left s + credit
  gained : good → left t < left s ∧ spent + price * left t + gain ≤ price * left s + credit

namespace Paid

variable {c₁ c₂ c g g' spent spent' : Nat} {good good' : Prop} {s t u : ParseState}

/-- Two runs one after the other. -/
theorem andThen (h : Paid c₁ g good spent s t) (h' : Paid c₂ g' good' spent' t u)
    (hc : c₁ + c₂ ≤ c) : Paid c g' good' (spent + spent') s u := by
  obtain ⟨-, hle, hpaid, -⟩ := h
  obtain ⟨hsound, hle', hpaid', hgained⟩ := h'
  refine ⟨hsound, by omega, by omega, fun hgood => ?_⟩
  obtain ⟨hlt, hgained⟩ := hgained hgood
  exact ⟨by omega, by omega⟩

/-- After a run that has taken a token, what it has left over can be spent. -/
theorem past (h : Paid c₁ g good spent s t) (hgood : good)
    (h' : Paid c₂ 0 good' spent' t u) (hc : c₁ + c₂ + g' ≤ c + g) :
    Paid c g' True (spent + spent') s u := by
  obtain ⟨-, hle, hpaid, hgained⟩ := h
  obtain ⟨hlt, hgained⟩ := hgained hgood
  obtain ⟨hsound, hle', hpaid', -⟩ := h'
  exact ⟨hsound, by omega, by omega, fun _ => ⟨by omega, by omega⟩⟩

theorem mono (h : Paid c g good spent s t) (hgood : good' → good) : Paid c g good' spent s t :=
  ⟨h.sound, h.left_le, h.paid, fun hgood' => h.gained (hgood hgood')⟩

end Paid

/-- What a parser spends in a state. -/
def SpendsAt (credit gain : Nat) (x : Recorded α) (P : α → Prop) (s : ParseState) : Prop :=
  (∀ e ∈ x.events s, e.Fits (left s) credit) ∧
    match x.parser.run s with
    | .ok (a, t) => Paid credit gain (P a) (Event.total (x.events s)) s t
    | .error _ => Event.total (x.events s) ≤ price * left s + credit

/-- What a parser spends in every state. -/
def Spends (credit gain : Nat) (x : Recorded α) (P : α → Prop) : Prop :=
  ∀ s, Sound s → SpendsAt credit gain x P s

/-- A parser that gets along with some credit and need not take a token. -/
abbrev Costs (credit : Nat) (x : Recorded α) : Prop :=
  Spends credit 0 x fun _ => False

variable {c c₁ g g' : Nat} {x : Recorded α} {f : α → Recorded β} {P : α → Prop} {Q : β → Prop}
  {s : ParseState}

/-- A run in two parts.  Once the first has taken a token, what it has left over is there for the
second. -/
theorem SpendsAt.bind (hx : SpendsAt c₁ g x P s) (hc : c₁ ≤ c)
    (hg : ∀ a, P a → g' ≤ c - c₁ + g)
    (hf : ∀ a t, x.parser.run s = .ok (a, t) → Sound t → ¬P a →
      SpendsAt (c - c₁) g' (f a) Q t)
    (hf' : ∀ a t, x.parser.run s = .ok (a, t) → Sound t → P a →
      SpendsAt (c - c₁ + g - g') 0 (f a) (fun _ => False) t) :
    SpendsAt c g' (x >>= f) Q s := by
  obtain ⟨hfits, hrun⟩ := hx
  have hfits : ∀ e ∈ x.events s, e.Fits (left s) c := fun e he => (hfits e he).weaken (by omega)
  unfold SpendsAt
  rw [parser_bind, StateT.run_bind]
  cases hr : x.parser.run s with
  | error e =>
    rw [hr] at hrun
    rw [events_bind, eventsBind_of_error hr]
    exact ⟨hfits, Nat.le_trans hrun (by omega)⟩
  | ok r =>
    obtain ⟨a, t⟩ := r
    rw [hr] at hrun
    have hpaid : Paid c₁ g (P a) (Event.total (x.events s)) s t := hrun
    rw [events_bind, eventsBind_of_ok hr, Event.total_append]
    show _ ∧ match (f a).parser.run t with | .ok (b, u) => _ | .error _ => _
    by_cases ha : P a
    · have hg := hg a ha
      obtain ⟨hlt, hgained⟩ := hpaid.gained ha
      obtain ⟨hfits', hrun'⟩ := hf' a t hr hpaid.sound ha
      refine ⟨List.forall_mem_append.mpr ⟨hfits, fun e he => (hfits' e he).weaken (.inl hlt)⟩, ?_⟩
      split at hrun'
      · exact (hpaid.past ha hrun' (by omega)).mono fun _ => trivial
      · omega
    · obtain ⟨hfits', hrun'⟩ := hf a t hr hpaid.sound ha
      have hle := hpaid.left_le
      refine ⟨List.forall_mem_append.mpr ⟨hfits, fun e he => (hfits' e he).weaken (by omega)⟩, ?_⟩
      split at hrun'
      · exact hpaid.andThen hrun' (by omega)
      · have := hpaid.paid
        omega

/-! ## §3. Parts and calls -/

namespace Spends

theorem weaken (h : Spends c₁ g x P) (hc : c₁ ≤ c) : Spends c g x P := by
  intro s hs
  obtain ⟨hfits, hrun⟩ := h s hs
  refine ⟨fun e he => (hfits e he).weaken (by omega), ?_⟩
  split at hrun
  · obtain ⟨hsound, hle, hpaid, hgained⟩ := hrun
    refine ⟨hsound, hle, by omega, fun hgood => ?_⟩
    obtain ⟨hlt, hgained⟩ := hgained hgood
    exact ⟨hlt, by omega⟩
  · omega

theorem mono {P' : α → Prop} (h : Spends c g x P') (hP : ∀ a, P a → P' a) : Spends c g x P := by
  intro s hs
  obtain ⟨hfits, hrun⟩ := h s hs
  refine ⟨hfits, ?_⟩
  split at hrun
  · exact Paid.mono hrun (hP _)
  · exact hrun

/-- What is not asked for need not be taken. -/
theorem costs (h : Spends c g x P) : Costs c x := by
  intro s hs
  obtain ⟨hfits, hrun⟩ := h s hs
  refine ⟨hfits, ?_⟩
  split at hrun
  · exact ⟨hrun.sound, hrun.left_le, hrun.paid, False.elim⟩
  · exact hrun

theorem pure {a : α} (h : ¬P a) : Spends c g (Pure.pure a) P := by
  intro s hs
  refine ⟨nofun, hs, Nat.le_refl _, ?_, fun ha => absurd ha h⟩
  show 0 + price * left s ≤ _
  omega

/-- A parser that does nothing and has no result. -/
theorem of_rejects (hevents : ∀ s, x.events s = []) (h : ∀ s r, x.parser.run s ≠ .ok r) :
    Spends c g x P := by
  intro s hs
  rw [SpendsAt, hevents]
  refine ⟨nofun, ?_⟩
  split
  · next hr => exact absurd hr (h s _)
  · exact Nat.zero_le _

theorem exhausted : Spends c g Recorded.exhausted P :=
  of_rejects (fun _ => rfl) fun s r hr => by cases hr

theorem fail (position : Position) (kind : ParseErrorKind) :
    Spends c g (Recorded.fail position kind) P :=
  of_rejects (fun _ => rfl) fun s r hr => by cases hr

theorem unexpected (token : Token) (expected : String) :
    Spends c g (Recorded.unexpected token expected) P :=
  of_rejects (fun _ => rfl) fun s r hr => by cases hr

/-- Two parts, the second of which has what the first leaves. -/
theorem bind (hx : Spends c₁ g x P) (hc : c₁ ≤ c ∧ g' ≤ c - c₁ + g)
    (hf : ∀ a, ¬P a → Spends (c - c₁) g' (f a) Q)
    (hf' : ∀ a, P a → Costs (c - c₁ + g - g') (f a)) : Spends c g' (x >>= f) Q :=
  fun s hs => (hx s hs).bind hc.1 (fun _ _ => hc.2) (fun a t _ ht ha => hf a ha t ht)
    fun a t _ ht ha => hf' a ha t ht

/-- After a part that need not take a token. -/
theorem andThen (hx : Costs c₁ x) (hc : c₁ ≤ c) (hf : ∀ a, Spends (c - c₁) g' (f a) Q) :
    Spends c g' (x >>= f) Q :=
  fun s hs => (hx s hs).bind hc (fun _ => False.elim) (fun a t _ ht _ => hf a t ht)
    fun _ _ _ _ => False.elim

theorem map (hx : Costs c x) (h : α → β) : Costs c (h <$> x) :=
  hx.andThen (Nat.le_refl c) fun _ => .pure id

/-- After a part that takes a token. -/
theorem past (hx : Spends c₁ g x fun _ => True) (hc : c₁ ≤ c ∧ g' ≤ c - c₁ + g)
    (hf : ∀ a, Costs (c - c₁ + g - g') (f a)) : Spends c g' (x >>= f) Q :=
  bind hx hc (fun _ ha => absurd trivial ha) fun a _ => hf a

/-- What would come after a failure does not matter. -/
theorem of_rejects_bind (hevents : ∀ s, x.events s = []) (h : ∀ s r, x.parser.run s ≠ .ok r) :
    Spends c g' (x >>= f) Q := by
  intro s hs
  have hx : Costs 0 x := of_rejects hevents h
  refine (hx s hs).bind (Nat.zero_le _) (fun _ => False.elim) (fun a t hr => ?_)
    fun _ _ _ _ => False.elim
  exact absurd hr (h s _)

theorem fail_bind (position : Position) (kind : ParseErrorKind) (f : α → Recorded β) :
    Spends c g' (Recorded.fail position kind >>= f) Q :=
  of_rejects_bind (fun _ => rfl) fun s r hr => by cases hr

theorem unexpected_bind (token : Token) (expected : String) (f : α → Recorded β) :
    Spends c g' (Recorded.unexpected token expected >>= f) Q :=
  of_rejects_bind (fun _ => rfl) fun s r hr => by cases hr

theorem pure_bind {a : α} (h : Spends c g' (f a) Q) : Spends c g' (Pure.pure a >>= f) Q :=
  h

/-- A call of a rule is one event on top of what the rule spends. -/
theorem call {rule : Rule} (h : Spends rule.credit g x P) :
    Spends rule.cost g (Recorded.call rule x) P := by
  intro s hs
  obtain ⟨hfits, hrun⟩ := h s hs
  have hcost : rule.cost = rule.credit + 1 := rfl
  refine ⟨fun e he => ?_, ?_⟩
  · cases List.mem_singleton.mp he
    exact .call (.inr ⟨rfl, Nat.lt_succ_self _⟩) hfits
  · have htotal : Event.total ((Recorded.call rule x).events s) = Event.total (x.events s) + 1 := by
      show Event.size _ + 0 = _
      rw [Event.size, Nat.add_zero, Nat.add_comm]
    rw [htotal]
    show match x.parser.run s with | .ok (a, t) => _ | .error _ => _
    split at hrun
    · obtain ⟨hsound, hle, hpaid, hgained⟩ := hrun
      refine ⟨hsound, hle, by omega, fun hgood => ?_⟩
      obtain ⟨hlt, hgained⟩ := hgained hgood
      exact ⟨hlt, by omega⟩
    · omega

/-- A loop whose turns take tokens.  What a turn has left over pays for the next one. -/
theorem iterate {rule : Rule} {turn : α → Recorded (Parse.Turn α β)}
    (hturn : ∀ a, Spends c g (turn a) (Parse.Turn.Advances fun _ => False))
    (hc : c ≤ rule.credit ∧ rule.cost ≤ rule.credit - c + g) (n : Nat) (a : α) :
    Costs rule.cost (Recorded.iterate rule turn n a) := by
  induction n generalizing a with
  | zero => exact exhausted
  | succ n ih =>
    refine call (bind (hturn a) ⟨hc.1, Nat.zero_le _⟩ (fun r hr => ?_) fun r hr => ?_)
    · cases r with
      | more a => exact absurd trivial hr
      | done b => exact pure id
    · cases r with
      | more a => exact (ih a).weaken hc.2
      | done b => exact hr.elim

end Spends

/-! ## §4. Moves -/

/-- In a state a parser calls no rule, takes nothing back that is not remembered, and has at most so
many events. -/
def Brief (n : Nat) (x : Recorded α) (s : ParseState) : Prop :=
  (∀ e ∈ x.events s, ∀ tokens credit, e.Fits tokens credit) ∧ Event.total (x.events s) ≤ n

namespace Brief

variable {n k : Nat}

theorem pure (a : α) (s : ParseState) : Brief n (Pure.pure a) s :=
  ⟨nofun, Nat.zero_le n⟩

theorem unexpected (token : Token) (expected : String) (s : ParseState) :
    Brief n (Recorded.unexpected token expected : Recorded α) s :=
  ⟨nofun, Nat.zero_le n⟩

theorem bind (hx : Brief k x s) (hn : k ≤ n)
    (hf : ∀ a t, x.parser.run s = .ok (a, t) → Brief (n - k) (f a) t) : Brief n (x >>= f) s := by
  cases hr : x.parser.run s with
  | error e =>
    rw [Brief, events_bind, eventsBind_of_error hr]
    exact ⟨hx.1, Nat.le_trans hx.2 hn⟩
  | ok r =>
    obtain ⟨hfits, htotal⟩ := hf _ _ hr
    have hx' := hx.2
    rw [Brief, events_bind, eventsBind_of_ok hr, Event.total_append]
    exact ⟨List.forall_mem_append.mpr ⟨hx.1, hfits⟩, by omega⟩

theorem of_read {solid : Bool} (h : x.events s = [.read solid]) : Brief 1 x s := by
  rw [Brief, h]
  exact ⟨List.forall_mem_singleton.mpr fun _ _ => .read, Nat.le_refl 1⟩

theorem next (s : ParseState) : Brief 1 next s :=
  of_read rfl

theorem nextSolid (s : ParseState) : Brief 1 nextSolid s :=
  of_read rfl

theorem backup (h : 0 < s.cursor.past.length) : Brief 1 backup s := by
  refine ⟨fun e he _ _ => ?_, Nat.le_refl 1⟩
  cases List.mem_singleton.mp he
  exact .backup h

/-- The token before last is remembered as well. -/
theorem backup_bind (h : 0 < s.cursor.past.length) (hn : 1 ≤ n) {x : Recorded α}
    (hx : ∀ t : ParseState, t.cursor.past = s.cursor.past.tail → Brief (n - 1) x t) :
    Brief n (Recorded.backup >>= fun _ => x) s := by
  refine (backup h).bind hn fun _ t hr => hx t ?_
  cases hr
  show s.cursor.backup.past = _
  unfold Cursor.backup
  split
  · next heq => rw [heq]; rfl
  · next heq => rw [heq]; rfl

end Brief

/-- What was read last is remembered, in front of what was. -/
theorem past_of_next {token : Token} {t : ParseState}
    (h : Parse.next.run s = .ok (token, t)) :
    t.cursor.past = Cursor.remember s.cursor.past token := by
  obtain ⟨htoken, -, rfl⟩ := Parse.consume_of_run h
  rw [← htoken]
  show s.cursor.next.2.past = _
  unfold Cursor.next
  split <;> rfl

theorem past_of_nextSolid (hs : Sound s) {token : Token} {t : ParseState}
    (h : Parse.nextSolid.run s = .ok (token, t)) : 0 < t.cursor.past.length := by
  obtain ⟨-, -, rfl⟩ := Parse.consume_of_run h
  obtain ⟨more, hmore⟩ := (s.cursor.took_nextSolid hs).past
  simp [← hmore]

theorem brief_peek (hs : Sound s) : Brief 2 peek s := by
  refine (Brief.nextSolid s).bind (by decide) fun token t hr => ?_
  exact Brief.backup_bind (past_of_nextSolid hs hr) (by decide) fun _ _ => Brief.pure token _

theorem brief_accept (kind : TokenKind) (value : String) (hs : Sound s) :
    Brief 2 (accept kind value) s := by
  refine (Brief.nextSolid s).bind (by decide) fun token t hr => ?_
  split
  · exact Brief.pure true t
  · exact Brief.backup_bind (past_of_nextSolid hs hr) (by decide) fun _ _ => Brief.pure false _

theorem brief_expect (kinds : List TokenKind) (s : ParseState) : Brief 1 (expect kinds) s := by
  refine (Brief.nextSolid s).bind (by decide) fun token t _ => ?_
  split
  · exact Brief.pure token t
  · exact Brief.unexpected _ _ t

theorem brief_expectValue (kind : TokenKind) (value : String) (s : ParseState) :
    Brief 1 (expectValue kind value) s := by
  refine (Brief.nextSolid s).bind (by decide) fun token t _ => ?_
  split
  · exact Brief.pure token t
  · exact Brief.unexpected _ _ t

theorem brief_afterPoint (kind : TokenKind) (s : ParseState) : Brief 4 (afterPoint kind) s := by
  have hpos : ∀ past token, 0 < (Cursor.remember past token).length := fun _ _ => Nat.succ_pos _
  refine (Brief.next s).bind (by decide) fun point t hr => ?_
  have hpast := past_of_next hr
  split
  · refine (Brief.next t).bind (by decide) fun token u hr' => ?_
    have hpast' := past_of_next hr'
    split
    · exact Brief.pure _ u
    · -- Both tokens are remembered.
      refine Brief.backup_bind (hpast' ▸ hpos _ _) (by decide) fun v hv => ?_
      refine Brief.backup_bind ?_ (by decide) fun _ _ => Brief.pure none _
      rw [hv, hpast', hpast]
      simp [Cursor.remember, Cursor.backupDepth]
  · exact Brief.backup_bind (hpast ▸ hpos _ _) (by decide) fun _ _ => Brief.pure none _

/-- A parser that calls no rule pays with the tokens it is known to take. -/
theorem Spends.of_advances (hevents : ∀ s, Sound s → Brief c x s)
    (hx : ∀ m, Parse.Advances m x.parser P) : Spends c price x P := by
  intro s hs
  obtain ⟨hfits, htotal⟩ := hevents s hs
  refine ⟨fun e he => hfits e he _ _, ?_⟩
  have hrun := hx (left s) s hs (Nat.le_refl _)
  unfold Parse.Halts at hrun
  cases hr : x.parser.run s with
  | error e => exact Nat.le_trans htotal (Nat.le_add_left _ _)
  | ok r =>
    rw [hr] at hrun
    obtain ⟨hsound, hle, hlt⟩ := hrun
    have hmul := Nat.mul_le_mul_left price hle
    refine ⟨hsound, hle, by omega, fun hgood => ?_⟩
    have hmul := Nat.mul_le_mul_left price (hlt hgood)
    rw [Nat.mul_succ] at hmul
    exact ⟨hlt hgood, by omega⟩

/-- What leaves the cursor alone costs nothing. -/
theorem costs_still {x : Parse α} (h : Parse.Still x) : Costs 0 (still x h) :=
  (Spends.of_advances (fun _ _ => ⟨fun _ he => (List.not_mem_nil he).elim, Nat.le_refl 0⟩)
    fun _ => h.ends).costs

theorem spends_next : Spends 1 price next (·.kind ≠ .eof) :=
  .of_advances (fun s _ => Brief.next s) fun _ => Parse.advances_next

theorem spends_nextSolid : Spends 1 price nextSolid (·.kind ≠ .eof) :=
  .of_advances (fun s _ => Brief.nextSolid s) fun _ => Parse.advances_nextSolid

theorem costs_peek : Costs 2 peek :=
  (Spends.of_advances (fun _ => brief_peek) fun _ => Parse.ends_peek).costs

theorem spends_expect {kinds : List TokenKind} (hkinds : .eof ∉ kinds) :
    Spends 1 price (expect kinds) fun _ => True :=
  .of_advances (fun s _ => brief_expect kinds s) fun _ => by
    rw [parser_expect]
    exact Parse.steps_expect hkinds

theorem spends_expectValue {kind : TokenKind} (hkind : kind ≠ .eof) (value : String) :
    Spends 1 price (expectValue kind value) fun _ => True :=
  .of_advances (fun s _ => brief_expectValue kind value s) fun _ => by
    rw [parser_expectValue]
    exact Parse.steps_expectValue hkind value

theorem spends_accept {kind : TokenKind} (hkind : kind ≠ .eof) (value : String) :
    Spends 2 price (accept kind value) (· = true) :=
  .of_advances (fun _ => brief_accept kind value) fun _ => by
    rw [parser_accept]
    exact Parse.advances_accept hkind value

/-- A part that is there if it is announced. -/
theorem costs_optional {kind : TokenKind} (hkind : kind ≠ .eof) (value : String) {a : α}
    {f : α → Recorded β} (hx : Costs c₁ x) (hc : c₁ ≤ price ∧ 2 ≤ c)
    (hf : ∀ a, Costs (c - 2) (f a)) :
    Costs c (accept kind value >>= fun found => if found then x >>= f else pure a >>= f) := by
  refine (spends_accept hkind value).bind ⟨hc.2, Nat.zero_le _⟩ (fun found hfound => ?_)
    fun found hfound => ?_
  · rw [if_neg hfound]
    exact .pure_bind (hf a)
  · rw [if_pos hfound]
    exact hx.andThen (by omega) fun b => (hf b).weaken (by omega)

theorem spends_name : Spends 1 price name fun _ => True :=
  (spends_expect (by decide)).past (by decide) fun _ => .pure id

theorem spends_endTag : Spends 1 price endTag fun _ => True :=
  (spends_expect (by decide)).past (by decide) fun _ => .pure id

theorem spends_afterPoint (kind : TokenKind) :
    Spends 4 price (afterPoint kind) (·.isSome = true) :=
  .of_advances (fun s _ => brief_afterPoint kind s) fun _ => by
    have hparser := parser_afterPoint_bind kind Pure.pure
    rw [parser_bind] at hparser
    rw [← bind_pure (afterPoint kind).parser]
    exact hparser ▸ Parse.Advances.point (·.kind = kind) (fun _ _ => .pure id) (.pure nofun)

/-! ### Looking ahead -/

/-- What a parser spends that is only run where a peek has shown a token. -/
def SpendsFrom (token : Token) (credit gain : Nat) (x : Recorded α) (P : α → Prop) : Prop :=
  ∀ s, Sound s → s.cursor.nextSolid.1 = token → SpendsAt credit gain x P s

theorem Spends.afterPeek {token : Token} (h : Spends c g x P) : SpendsFrom token c g x P :=
  fun s hs _ => h s hs

theorem Spends.peek {f : Token → Recorded β} (hc : 2 ≤ c)
    (hf : ∀ token, SpendsFrom token (c - 2) g' (f token) Q) : Spends c g' (peek >>= f) Q := by
  intro s hs
  refine (costs_peek s hs).bind hc (fun _ => False.elim) (fun token t hr ht _ => hf token t ht ?_)
    fun _ _ _ _ => False.elim
  have hshown := Parse.halts_peek hs
  rw [parser_peek] at hr
  unfold Parse.Halts at hshown
  rw [hr] at hshown
  exact hshown.2.2

/-- The token that was shown is taken. -/
theorem SpendsFrom.take {token : Token} {f : Token → Recorded β} (hkind : token.kind ≠ .eof)
    (hc : 1 ≤ c ∧ g' ≤ c - 1 + price) (hf : ∀ token, Costs (c - 1 + price - g') (f token)) :
    SpendsFrom token c g' (nextSolid >>= f) Q := by
  intro s hs hshown
  refine (spends_nextSolid s hs).bind hc.1 (fun _ _ => hc.2) (fun token' t hr _ heof => ?_)
    fun token' t _ ht _ => hf token' t ht
  rw [parser_nextSolid] at hr
  obtain ⟨htoken, -⟩ := Parse.consume_of_run hr
  exact absurd (htoken.symm.trans hshown ▸ hkind) heof

/-! ### Lists -/

theorem costs_commaSeparated {item : Recorded α} (hitem : Costs c item) (hc : c ≤ 18) (n : Nat) :
    Costs Rule.commas.cost (commaSeparated n item) := by
  refine Spends.iterate (c := 20) (g := 21) (fun items => ?_) (by decide) n []
  refine (hitem.weaken hc).andThen (by decide) fun a => ?_
  refine (spends_accept (by decide) _).bind (by decide) (fun more hmore => ?_) fun more hmore => ?_
  · rw [if_neg hmore]
    exact .pure id
  · rw [if_pos hmore]
    exact .pure id

theorem costs_listUntil {item : Recorded α} (hitem : Costs c item) (hc : c ≤ 18) (n : Nat)
    {close : TokenKind} (hclose : close ≠ .eof) :
    Costs Rule.items.cost (listUntil n close item) := by
  refine Spends.iterate (c := 21) (g := 22) (fun items => ?_) (by decide) n []
  refine Spends.peek (by decide) fun token => ?_
  split
  · next hkind => exact SpendsFrom.take (hkind ▸ hclose) (by decide) fun _ => .pure id
  · apply Spends.afterPeek
    refine (hitem.weaken hc).andThen (by decide) fun a => ?_
    -- Only a list that goes on has to have taken a token.
    refine spends_nextSolid.bind (by decide) (fun token heof => ?_) fun token _ => ?_
    · split
      · exact .pure id
      · split
        · next hcomma => exact absurd (Token.kind_of_is hcomma ▸ nofun) heof
        · exact .unexpected _ _
    · split
      · exact .pure id
      · split
        · exact .pure id
        · exact .unexpected _ _

end Recorded

end Stencil
