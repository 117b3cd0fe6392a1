import Stencil.Proofs.Expr.Climbing
import Stencil.Proofs.Token.Choices
import Stencil.Template.Parser

/-!
Parsers that come to an end.

Rules call each other and loop, and what keeps them from going round forever is that tokens are used
up on the way.  Past the last token this is easily missed: the token that ends the stream is given
out again and again, and may be taken back more often than it was there.  So tokens are counted
without it.

`Advances` says of a parser that it comes to an end wherever so many tokens are left, that it gives
no token back that it has not taken itself, and for which results it has gone past a token.
-/

namespace Stencil

/-! ## §1. Tokens that are left -/

namespace Cursor

/-- How many tokens are still to come, without any that ends the stream. -/
def left (c : Cursor) : Nat :=
  c.upcoming.countP (!·.kind.isFinal)

/-- Some tokens were given out, the last one first, and can all be taken back. -/
structure Took (c : Cursor) (tokens : List Token) (c' : Cursor) : Prop where
  final : c'.final = c.final
  past : tokens <+: c'.past
  left : c'.left + tokens.countP (!·.kind.isFinal) ≤ c.left

variable {c c' : Cursor} {tokens : List Token}

theorem Took.refl (c : Cursor) : c.Took [] c :=
  ⟨rfl, List.nil_prefix, Nat.le_refl _⟩

theorem cons_prefix_remember {past : List Token} (token : Token) (h : tokens <+: past)
    (hlength : tokens.length < backupDepth) : token :: tokens <+: remember past token := by
  rw [remember, List.prefix_take_iff]
  exact ⟨List.cons_prefix_cons.mpr ⟨rfl, h⟩, hlength⟩

theorem Took.next (h : c.Took tokens c') (hfinal : c.final.kind.isFinal = true)
    (hlength : tokens.length < backupDepth) : c.Took (c'.next.1 :: tokens) c'.next.2 := by
  obtain ⟨past, upcoming, final⟩ := c'
  obtain rfl : final = c.final := h.final
  have hleft := h.left
  cases upcoming with
  | nil =>
    refine ⟨rfl, cons_prefix_remember _ h.past hlength, ?_⟩
    simpa [Cursor.next, Cursor.left, hfinal] using hleft
  | cons token rest =>
    refine ⟨rfl, cons_prefix_remember _ h.past hlength, ?_⟩
    simp only [Cursor.next, Cursor.left, List.countP_cons] at hleft ⊢
    omega

theorem Took.backup {token : Token} (h : c.Took (token :: tokens) c') :
    c.Took tokens c'.backup := by
  obtain ⟨past, upcoming, final⟩ := c'
  obtain ⟨more, rfl⟩ := h.past
  have hleft := h.left
  refine ⟨h.final, List.prefix_append _ _, ?_⟩
  simp only [Cursor.backup, Cursor.left, List.cons_append, List.countP_cons] at hleft ⊢
  omega

/-- Skipped white space may be forgotten, and is not given back. -/
theorem took_solidFrom {final : Token} (hfinal : final.kind.isFinal = true)
    (past upcoming : List Token) :
    Took ⟨past, upcoming, final⟩ [(solidFrom final past upcoming).1]
      (solidFrom final past upcoming).2 := by
  have hremember : ∀ (past : List Token) token, [token] <+: remember past token :=
    fun past token => cons_prefix_remember token List.nil_prefix (by decide)
  induction upcoming generalizing past with
  | nil =>
    refine ⟨rfl, hremember _ _, ?_⟩
    simp [solidFrom, left, hfinal]
  | cons token rest ih =>
    rw [solidFrom]
    split
    · obtain ⟨hlast, htoken, hleft⟩ := ih (remember past token)
      refine ⟨hlast, htoken, Nat.le_trans hleft ?_⟩
      simp [left, List.countP_cons]
    · refine ⟨rfl, hremember _ _, ?_⟩
      simp [left, List.countP_cons]

theorem took_nextSolid (c : Cursor) (hfinal : c.final.kind.isFinal = true) :
    c.Took [c.nextSolid.1] c.nextSolid.2 :=
  took_solidFrom hfinal c.past c.upcoming

theorem kind_solidFrom {final : Token} (hfinal : final.kind.isFinal = true)
    (past upcoming : List Token) : (solidFrom final past upcoming).1.kind ≠ .whitespace := by
  induction upcoming generalizing past with
  | nil =>
    intro h
    rw [solidFrom] at h
    rw [h] at hfinal
    cases hfinal
  | cons token rest ih =>
    rw [solidFrom]
    split
    · exact ih _
    · assumption

end Cursor

/-! ## §2. Coming to an end -/

namespace Parse

variable {α β : Type}

/-- Whether a parser comes to an end in a state, where a result of it is as stated. -/
def Halts (x : Parse α) (s : ParseState) (Q : α → ParseState → Prop) : Prop :=
  match x.run s with
  | .ok (a, t) => Q a t
  | .error e => e ≠ .exhausted

namespace Halts

variable {s : ParseState} {Q : α → ParseState → Prop} {R : β → ParseState → Prop}

theorem pure {a : α} (h : Q a s) : Halts (Pure.pure a) s Q := h

theorem fail (position : Position) (kind : ParseErrorKind) : Halts (Parse.fail position kind) s Q :=
  ParseFailure.noConfusion

theorem unexpected (token : Token) (expected : String) :
    Halts (Parse.unexpected token expected) s Q :=
  ParseFailure.noConfusion

theorem bind {x : Parse α} {f : α → Parse β} (hx : Halts x s Q)
    (hf : ∀ a t, Q a t → Halts (f a) t R) : Halts (x >>= f) s R := by
  unfold Halts at hx ⊢
  rw [StateT.run_bind]
  cases hr : x.run s with
  | error e =>
    rw [hr] at hx
    exact hx
  | ok r =>
    rw [hr] at hx
    exact hf r.1 r.2 hx

theorem get_bind {f : ParseState → Parse α} (h : Halts (f s) s Q) :
    Halts (MonadState.get >>= f) s Q := h

theorem mono {x : Parse α} {Q' : α → ParseState → Prop} (hx : Halts x s Q')
    (h : ∀ a t, Q' a t → Q a t) : Halts x s Q := by
  unfold Halts at hx ⊢
  split
  · next hr =>
    rw [hr] at hx
    exact h _ _ hx
  · next hr =>
    rw [hr] at hx
    exact hx

/-- A token that stands for a lexical error ends the parse. -/
theorem consume {move : Cursor → Token × Cursor} {Q : Token → ParseState → Prop}
    (h : (move s.cursor).1.kind ≠ .error →
      Q (move s.cursor).1 { s with cursor := (move s.cursor).2 }) :
    Halts (Parse.consume move) s Q := by
  have hrun : Halts (if (move s.cursor).1.kind = .error then
      Parse.fail (move s.cursor).1.position (.lexical (move s.cursor).1.value)
      else Pure.pure (move s.cursor).1) { s with cursor := (move s.cursor).2 } Q := by
    split
    · exact fail _ _
    · next hkind => exact pure (h hkind)
  exact hrun

end Halts

/-! ## §3. Going past tokens -/

/-- How many tokens are still to come. -/
abbrev left (s : ParseState) : Nat := s.cursor.left

/-- The stream ends with a token that ends streams. -/
abbrev Sound (s : ParseState) : Prop := s.cursor.final.kind.isFinal = true

/-- Whether a parser comes to an end where at most `m` tokens are left, and has gone past a token if
its result is one of some kind. -/
def Advances (m : Nat) (x : Parse α) (P : α → Prop) : Prop :=
  ∀ s, Sound s → left s ≤ m →
    Halts x s fun a t => Sound t ∧ left t ≤ left s ∧ (P a → left t < left s)

/-- A parser that comes to an end. -/
abbrev Ends (m : Nat) (x : Parse α) : Prop := Advances m x fun _ => False

/-- A parser that comes to an end past a token, if it has a result. -/
abbrev Steps (m : Nat) (x : Parse α) : Prop := Advances m x fun _ => True

namespace Advances

variable {m : Nat} {P P' : α → Prop} {Q : β → Prop} {x : Parse α}

theorem mono (h : Advances m x P') (hP : ∀ a, P a → P' a) : Advances m x P :=
  fun s hs hm => (h s hs hm).mono fun a _ ⟨ht, hle, hlt⟩ => ⟨ht, hle, fun ha => hlt (hP a ha)⟩

theorem ends (h : Advances m x P) : Ends m x :=
  h.mono fun _ => False.elim

theorem anti {m' : Nat} (h : Advances m x P) (hm' : m' ≤ m) : Advances m' x P :=
  fun s hs hm => h s hs (Nat.le_trans hm hm')

theorem pure {a : α} (h : ¬P a) : Advances m (Pure.pure a) P :=
  fun _ hs _ => ⟨hs, Nat.le_refl _, fun ha => absurd ha h⟩

theorem fail (position : Position) (kind : ParseErrorKind) :
    Advances m (Parse.fail position kind) P :=
  fun _ _ _ => .fail position kind

theorem unexpected (token : Token) (expected : String) :
    Advances m (Parse.unexpected token expected) P :=
  fun _ _ _ => .unexpected token expected

/-- What would come after a failure does not matter. -/
theorem fail_bind (position : Position) (kind : ParseErrorKind) (f : α → Parse β) :
    Advances m (Parse.fail position kind >>= f) Q :=
  fun _ _ _ => ParseFailure.noConfusion

/-- Past a token there are fewer left, and nothing more is asked for. -/
theorem bind {f : α → Parse β} (hx : Advances m x P) (hf : ∀ a, ¬P a → Advances m (f a) Q)
    (hf' : ∀ a, P a → 0 < m → Ends (m - 1) (f a)) : Advances m (x >>= f) Q := by
  intro s hs hm
  refine (hx s hs hm).bind fun a t ⟨ht, hle, hlt⟩ => ?_
  by_cases ha : P a
  · have hlt := hlt ha
    refine (hf' a ha (by omega) t ht (by omega)).mono fun b u ⟨hu, hle', _⟩ => ?_
    exact ⟨hu, by omega, fun _ => by omega⟩
  · refine (hf a ha t ht (by omega)).mono fun b u ⟨hu, hle', hlt'⟩ => ?_
    exact ⟨hu, by omega, fun hb => Nat.lt_of_lt_of_le (hlt' hb) hle⟩

/-- After a part that need not go past a token. -/
theorem andThen {f : α → Parse β} (hx : Ends m x) (hf : ∀ a, Advances m (f a) Q) :
    Advances m (x >>= f) Q :=
  hx.bind (fun a _ => hf a) fun _ ha => ha.elim

/-- After a part that goes past a token. -/
theorem past {f : α → Parse β} (hx : Steps m x) (hf : ∀ a, 0 < m → Ends (m - 1) (f a)) :
    Advances m (x >>= f) Q :=
  hx.bind (fun _ ha => absurd trivial ha) fun a _ => hf a

theorem map (hx : Advances m x P) (f : α → β) (hQ : ∀ a, Q (f a) → P a) :
    Advances m (f <$> x) Q := by
  rw [← bind_pure_comp]
  intro s hs hm
  refine (hx s hs hm).bind fun a t ⟨ht, hle, hlt⟩ => ?_
  exact ⟨ht, hle, fun ha => hlt (hQ a ha)⟩

end Advances

/-- The turns of a loop that go past a token: those after which it goes on, and the last one if it
has to. -/
def Turn.Advances (Q : β → Prop) : Turn α β → Prop
  | .more _ => True
  | .done b => Q b

/-- A loop whose turns go past tokens has an end. -/
theorem Advances.iterate {m n : Nat} {turn : α → Parse (Turn α β)} {Q : β → Prop} (hn : m < n)
    (hturn : ∀ a, Advances m (turn a) (Turn.Advances Q)) (a : α) :
    Advances m (Parse.iterate turn n a) Q := by
  induction n generalizing a m Q with
  | zero => omega
  | succ n ih =>
    apply (hturn a).bind
    · intro r hr
      cases r with
      | more a => exact absurd trivial hr
      | done b => exact pure hr
    · intro r _ hm
      cases r with
      | more a =>
        refine ih (by omega) (fun a => ?_) a
        exact ((hturn a).anti (Nat.sub_le m 1)).mono fun r hr => by
          cases r with
          | more a => trivial
          | done b => exact hr.elim
      | done b => exact pure id

/-! ## §4. Moves -/

variable {m : Nat}

theorem isFinal_eq_false {kind : TokenKind} (herror : kind ≠ .error) (heof : kind ≠ .eof) :
    kind.isFinal = false := by
  cases kind <;> first | rfl | contradiction

/-- What is known of the state after some tokens were taken. -/
theorem sound_of_took {s t : ParseState} {tokens : List Token} (hs : Sound s)
    (h : s.cursor.Took tokens t.cursor) :
    Sound t ∧ left t ≤ left s ∧
      ∀ token ∈ tokens, token.kind ≠ .error → token.kind ≠ .eof → left t < left s := by
  have hleft : left t + tokens.countP (!·.kind.isFinal) ≤ left s := h.left
  have hsound : Sound t := by
    rw [Sound, h.final]
    exact hs
  refine ⟨hsound, by omega, fun token hmem herror heof => ?_⟩
  have hpos : 0 < tokens.countP (!·.kind.isFinal) :=
    List.countP_pos_iff.mpr ⟨token, hmem, by simp [isFinal_eq_false herror heof]⟩
  omega

theorem halts_consume {s : ParseState} (move : Cursor → Token × Cursor) :
    Halts (consume move) s fun token t =>
      token.kind ≠ .error ∧ token = (move s.cursor).1 ∧ t.cursor = (move s.cursor).2 :=
  .consume fun herror => ⟨herror, rfl, rfl⟩

/-- Taking a token goes past it, unless it is the end of the source. -/
theorem advances_consume {move : Cursor → Token × Cursor}
    (hmove : ∀ c : Cursor, c.final.kind.isFinal = true → c.Took [(move c).1] (move c).2) :
    Advances m (consume move) fun token => token.kind ≠ .eof := by
  intro s hs _
  refine (halts_consume move).mono ?_
  rintro _ t ⟨herror, rfl, ht⟩
  have htook := hmove s.cursor hs
  rw [← ht] at htook
  obtain ⟨hsound, hle, hlt⟩ := sound_of_took hs htook
  exact ⟨hsound, hle, hlt _ (List.mem_singleton_self _) herror⟩

theorem advances_next : Advances m next fun token => token.kind ≠ .eof :=
  advances_consume fun c hc => (Cursor.Took.refl c).next hc (by decide)

theorem advances_nextSolid : Advances m nextSolid fun token => token.kind ≠ .eof :=
  advances_consume Cursor.took_nextSolid

/-- A peek shows what the next solid token is. -/
theorem halts_peek {s : ParseState} (hs : Sound s) :
    Halts peek s fun token t =>
      Sound t ∧ left t ≤ left s ∧ t.cursor.nextSolid.1 = token := by
  refine (halts_consume Cursor.nextSolid).bind ?_
  rintro _ t ⟨-, rfl, ht⟩
  let u : ParseState := { t with cursor := t.cursor.backup }
  have hu : u.cursor = s.cursor.nextSolid.2.backup := congrArg Cursor.backup ht
  have htook := (s.cursor.took_nextSolid hs).backup
  rw [← hu] at htook
  obtain ⟨hsound, hle, -⟩ := sound_of_took hs htook
  have hkind : s.cursor.nextSolid.1.kind ≠ .whitespace := Cursor.kind_solidFrom hs _ _
  show Sound u ∧ left u ≤ left s ∧ u.cursor.nextSolid.1 = _
  rw [hu, Cursor.nextSolid_backup hkind]
  exact ⟨hsound, hle, rfl⟩

theorem ends_peek : Ends m peek :=
  fun _ hs _ => (halts_peek hs).mono fun _ _ ⟨hsound, hle, _⟩ => ⟨hsound, hle, False.elim⟩

/-- The same of a parser that is only run where a peek has shown a token. -/
def AdvancesFrom (token : Token) (m : Nat) (x : Parse α) (P : α → Prop) : Prop :=
  ∀ s, Sound s → left s ≤ m → s.cursor.nextSolid.1 = token →
    Halts x s fun a t => Sound t ∧ left t ≤ left s ∧ (P a → left t < left s)

theorem Advances.afterPeek {token : Token} {x : Parse α} {P : α → Prop} (h : Advances m x P) :
    AdvancesFrom token m x P :=
  fun s hs hm _ => h s hs hm

/-- Taking the token that was shown goes past it. -/
theorem AdvancesFrom.take {token : Token} {f : Token → Parse α} {P : α → Prop}
    (hkind : token.kind ≠ .eof) (hf : ∀ token, 0 < m → Ends (m - 1) (f token)) :
    AdvancesFrom token m (nextSolid >>= f) P := by
  intro s hs hm hshown
  refine (halts_consume Cursor.nextSolid).bind ?_
  rintro _ t ⟨herror, rfl, ht⟩
  have htook := s.cursor.took_nextSolid hs
  rw [← ht] at htook
  obtain ⟨hsound, -, hlt⟩ := sound_of_took hs htook
  have hlt : left t < left s := by
    apply hlt _ (List.mem_singleton_self _) herror
    rw [hshown]
    exact hkind
  refine (hf _ (by omega) t hsound (by omega)).mono ?_
  rintro a u ⟨hu, hle, -⟩
  exact ⟨hu, by omega, fun _ => by omega⟩

theorem Advances.peek {f : Token → Parse α} {P : α → Prop}
    (hf : ∀ token, AdvancesFrom token m (f token) P) : Advances m (Parse.peek >>= f) P := by
  intro s hs hm
  refine (halts_peek hs).bind fun token t ⟨ht, hle, hshown⟩ => ?_
  refine (hf token t ht (by omega) hshown).mono ?_
  rintro a u ⟨hu, hle', hlt⟩
  exact ⟨hu, by omega, fun ha => Nat.lt_of_lt_of_le (hlt ha) hle⟩

theorem steps_expect {kinds : List TokenKind} (hkinds : .eof ∉ kinds) :
    Steps m (expect kinds) := by
  apply advances_nextSolid.bind
  · intro token heof
    split
    · next hmem =>
      -- The end of the source is not among what is expected.
      refine absurd (fun heq => hkinds ?_) heof
      rw [← heq]
      exact List.contains_iff_mem.mp hmem
    · exact .unexpected _ _
  · intro token _ _
    split
    · exact .pure id
    · exact .unexpected _ _

theorem steps_expectValue {kind : TokenKind} (hkind : kind ≠ .eof) (value : String) :
    Steps m (expectValue kind value) := by
  apply advances_nextSolid.bind
  · intro token heof
    split
    · next his => exact absurd (Token.kind_of_is his ▸ hkind) heof
    · exact .unexpected _ _
  · intro token _ _
    split
    · exact .pure id
    · exact .unexpected _ _

theorem steps_name : Steps m name :=
  (steps_expect (by decide)).map _ fun _ => id

theorem steps_endTag : Steps m endTag :=
  (steps_expect (by decide)).past fun _ _ => .pure id

/-- A token is accepted for good, or taken back. -/
theorem advances_accept {kind : TokenKind} (hkind : kind ≠ .eof) (value : String) :
    Advances m (accept kind value) (· = true) := by
  intro s hs hm
  refine (halts_consume Cursor.nextSolid).bind ?_
  rintro _ t ⟨herror, rfl, ht⟩
  have htook := s.cursor.took_nextSolid hs
  rw [← ht] at htook
  split
  · next his =>
    obtain ⟨hsound, hle, hlt⟩ := sound_of_took hs htook
    refine ⟨hsound, hle, fun _ => hlt _ (List.mem_singleton_self _) herror ?_⟩
    rw [Token.kind_of_is his]
    exact hkind
  · obtain ⟨hsound, hle, -⟩ :=
      sound_of_took (t := { t with cursor := t.cursor.backup }) hs htook.backup
    exact ⟨hsound, hle, nofun⟩

/-- A point and what is written right behind it, which are taken back if that is something else. -/
theorem Advances.point {f : Token → Parse α} {y : Parse α} {P : α → Prop} (good : Token → Prop)
    [DecidablePred good] (hf : ∀ token, 0 < m → Ends (m - 1) (f token)) (hy : Advances m y P) :
    Advances m (do
      let point ← next
      if point.is .punctuation "." then
        let token ← next
        if good token then f token
        else
          backup
          backup
          y
      else
        backup
        y) P := by
  intro s hs hm
  -- Whatever was taken back, there is as much left as before.
  have hback : ∀ t : ParseState, s.cursor.Took [] t.cursor →
      Halts y t fun a u => Sound u ∧ left u ≤ left s ∧ (P a → left u < left s) := by
    intro t htook
    obtain ⟨hsound, hle, -⟩ := sound_of_took hs htook
    refine (hy t hsound (by omega)).mono ?_
    rintro a u ⟨hu, hle', hlt⟩
    exact ⟨hu, by omega, fun ha => Nat.lt_of_lt_of_le (hlt ha) hle⟩
  refine (halts_consume Cursor.next).bind ?_
  rintro _ t ⟨herror, rfl, ht⟩
  have htook := (Cursor.Took.refl s.cursor).next hs (by decide)
  split
  · next hpoint =>
    refine (halts_consume Cursor.next).bind ?_
    rintro _ u ⟨-, rfl, hu⟩
    have htook' := htook.next hs (Nat.le_of_ble_eq_true rfl)
    rw [← ht, ← hu] at htook'
    split
    · obtain ⟨hsound, -, hlt⟩ := sound_of_took hs htook'
      have hlt : left u < left s := by
        apply hlt _ (List.mem_cons_of_mem _ (List.mem_singleton_self _)) herror
        rw [Token.kind_of_is hpoint]
        decide
      refine (hf _ (by omega) u hsound (by omega)).mono ?_
      rintro a v ⟨hv, hle, -⟩
      exact ⟨hv, by omega, fun _ => by omega⟩
    · exact hback { u with cursor := u.cursor.backup.backup } htook'.backup.backup
  · rw [← ht] at htook
    exact hback { t with cursor := t.cursor.backup } htook.backup

/-! ## §5. Lists -/

variable {n : Nat}

theorem steps_commaSeparated {item : Parse α} (hn : m < n) (hitem : Steps m item) :
    Steps m (commaSeparated n item) := by
  apply Advances.iterate hn
  intro items
  apply hitem.past
  intro a _
  apply (advances_accept (by decide) _).ends.andThen
  intro more
  split <;> exact .pure id

theorem steps_listUntil {item : Parse α} (hn : m < n) (close : TokenKind) (hclose : close ≠ .eof)
    (hitem : Steps m item) : Steps m (listUntil n close item) := by
  apply Advances.iterate hn
  intro items
  apply Advances.peek
  intro token
  split
  · next hkind => exact AdvancesFrom.take (hkind ▸ hclose) fun _ _ => .pure id
  · apply Advances.afterPeek
    apply hitem.past
    intro a _
    apply advances_nextSolid.ends.andThen
    intro token
    split
    · exact .pure id
    · split
      · exact .pure id
      · exact .unexpected _ _

/-! ## §6. Definitions -/

/-- A parser that leaves the cursor alone. -/
def Still (x : Parse α) : Prop :=
  ∀ s, Halts x s fun _ t => t.cursor = s.cursor

theorem Still.ends {x : Parse α} (h : Still x) : Ends m x := by
  intro s hs _
  refine (h s).mono fun a t ht => ?_
  rw [Sound, left, ht]
  exact ⟨hs, Nat.le_refl _, False.elim⟩

theorem still_addBlock (block : Block) : Still (addBlock block) := by
  intro s
  apply Halts.get_bind
  split
  · exact .fail _ _
  · split
    · exact .fail _ _
    · exact rfl

theorem still_addMacro (definition : MacroDef) : Still (addMacro definition) := by
  intro s
  apply Halts.get_bind
  split
  · exact .fail _ _
  · exact rfl

theorem still_openTable : Still openTable :=
  fun _ => rfl

theorem still_closeTable : Still closeTable := by
  intro s
  apply Halts.get_bind
  split <;> exact rfl

end Parse

end Stencil
