import Stencil.Proofs.Token.Ahead
import Stencil.Proofs.Template.Derivation
import Stencil.Template.Expr.Parser

/-!
What parsers read and collect.

`Collects` is about successful runs of a parser: from the tokens that are still to come and what is
collected before a run it says what the result is, which tokens are left and what is collected after
it.  `Reads` is for parsers that collect nothing and stay inside a piece of a body, as all parsers
of expressions do.  Both are closed under everything that parsers are built with.
-/

namespace Stencil

/-! ## §1. Reading and collecting -/

/-- Some tokens of a stream are still to come, and something has been collected. -/
structure ParseState.At (σ : TokenStream) (l : List Token) (d : Collected) (s : ParseState) :
    Prop where
  tidy : s.cursor.Tidy
  final : s.cursor.final = σ.final
  ahead : s.cursor.ahead = l
  within : l <:+ σ.tokens
  collected : s.collected = d
  /-- There is a table that blocks can be entered into. -/
  tabled : s.blockTables ≠ []

namespace ParseState.At

variable {σ : TokenStream} {s : ParseState} {l : List Token} {d : Collected}

/-- Moving the cursor changes only what is still to come. -/
theorem moved (h : s.At σ l d) {c : Cursor} {l' : List Token} (htidy : c.Tidy)
    (hfinal : c.final = s.cursor.final) (hahead : c.ahead = l') (hsuffix : l' <:+ l) :
    ParseState.At σ l' d { s with cursor := c } where
  tidy := htidy
  final := hfinal.trans h.final
  ahead := hahead
  within := hsuffix.trans h.within
  collected := h.collected
  tabled := h.tabled

theorem isFinal (h : s.At σ l d) : σ.final.kind.isFinal = true :=
  h.final ▸ h.tidy.final

theorem not_final (h : s.At σ l d) : ∀ t ∈ l, t.kind.isFinal = false := by
  intro t ht
  rw [← h.ahead] at ht
  simpa using (List.mem_filter.mp ht).2

end ParseState.At

namespace Parse

variable {α β : Type} {σ : TokenStream}

/-- What holds of a turn of a loop, whether it is the last one or not. -/
def Turn.Holds (I : α → Prop) (Q : β → Prop) : Turn α β → Prop
  | .more a => I a
  | .done b => Q b

/-- What a parser may read and collect: if it has a result in a state where the tokens `l` are still
to come and `d` is collected, then the result, the tokens left and what is collected after it are as
stated. -/
def Collects (σ : TokenStream) (x : Parse α) (l : List Token) (d : Collected)
    (Q : α → List Token → Collected → Prop) : Prop :=
  ∀ s a t, s.At σ l d → x.run s = .ok (a, t) → ∃ l' d', t.At σ l' d' ∧ Q a l' d'

/-- A parser that collects nothing, goes into no further piece of a body, and has results of a
certain kind. -/
def Reads (σ : TokenStream) (x : Parse α) (P : α → Prop) : Prop :=
  ∀ l d, Collects σ x l d fun a l' d' => d' = d ∧ Crosses l l' ∧ P a

namespace Collects

variable {l : List Token} {d : Collected} {Q : α → List Token → Collected → Prop}
  {R : β → List Token → Collected → Prop}

theorem pure {a : α} (h : Q a l d) : Collects σ (Pure.pure a) l d Q := by
  intro s a' t hs hrun
  cases hrun
  exact ⟨l, d, hs, h⟩

theorem throw (e : ParseFailure) : Collects σ (MonadExcept.throw e : Parse α) l d Q := by
  intro s a t _ hrun
  cases hrun

theorem bind {x : Parse α} {f : α → Parse β} (hx : Collects σ x l d Q)
    (hf : ∀ a l' d', Q a l' d' → Collects σ (f a) l' d' R) : Collects σ (x >>= f) l d R := by
  intro s b u hs hrun
  obtain ⟨a, t, hat, hbu⟩ := run_bind_eq_ok hrun
  obtain ⟨l', d', ht, ha⟩ := hx s a t hs hat
  exact hf a l' d' ha t b u ht hbu

theorem mono {Q' : α → List Token → Collected → Prop} {x : Parse α} (hx : Collects σ x l d Q')
    (h : ∀ a l' d', Q' a l' d' → Q a l' d') : Collects σ x l d Q := by
  intro s a t hs hrun
  obtain ⟨l', d', ht, ha⟩ := hx s a t hs hrun
  exact ⟨l', d', ht, h a l' d' ha⟩

/-- The tokens still to come are those of the stream. -/
theorem of_within {x : Parse α} (h : l <:+ σ.tokens → Collects σ x l d Q) : Collects σ x l d Q :=
  fun s a t hs hrun => h hs.within s a t hs hrun

theorem get_bind {f : ParseState → Parse α} (h : ∀ s, s.At σ l d → Collects σ (f s) l d Q) :
    Collects σ (MonadState.get >>= f) l d Q := by
  intro s a t hs hrun
  obtain ⟨s', s'', hget, hrun⟩ := run_bind_eq_ok hrun
  cases hget
  exact h s hs s a t hs hrun

theorem set {s : ParseState} {l' : List Token} {d' : Collected}
    {R : PUnit → List Token → Collected → Prop} (hs : s.At σ l' d') (h : R ⟨⟩ l' d') :
    Collects σ (MonadState.set s) l d R := by
  intro _ u t _ hrun
  cases hrun
  exact ⟨l', d', hs, h⟩

/-- A loop, with what holds before every turn. -/
theorem iterate {turn : α → Parse (Turn α β)} (I : α → List Token → Collected → Prop)
    (hturn : ∀ a l' d', I a l' d' →
      Collects σ (turn a) l' d' fun r l'' d'' => r.Holds (I · l'' d'') (R · l'' d''))
    (n : Nat) {a : α} (ha : I a l d) : Collects σ (Parse.iterate turn n a) l d R := by
  induction n generalizing a l d with
  | zero => exact throw _
  | succ n ih =>
    refine bind (hturn a l d ha) fun r l' d' hr => ?_
    cases r with
    | more a => exact ih hr
    | done b => exact pure hr

end Collects

namespace Reads

variable {P : α → Prop} {Q : β → Prop}

theorem pure {a : α} (h : P a) : Reads σ (Pure.pure a) P :=
  fun l _ => Collects.pure ⟨rfl, .refl l, h⟩

theorem throw (e : ParseFailure) : Reads σ (MonadExcept.throw e : Parse α) P :=
  fun _ _ => Collects.throw e

theorem fail (position : Position) (kind : ParseErrorKind) :
    Reads σ (Parse.fail position kind : Parse α) P :=
  throw _

theorem unexpected (token : Token) (expected : String) :
    Reads σ (Parse.unexpected token expected : Parse α) P :=
  throw _

theorem bind {x : Parse α} {f : α → Parse β} (hx : Reads σ x P) (hf : ∀ a, P a → Reads σ (f a) Q) :
    Reads σ (x >>= f) Q := by
  intro l d
  refine Collects.bind (hx l d) fun a l' d' h => ?_
  obtain ⟨rfl, hcross, ha⟩ := h
  exact (hf a ha l' d').mono fun b l'' d'' ⟨hd, hcross', hb⟩ => ⟨hd, hcross.trans hcross', hb⟩

/-- Something is collected after something was read. -/
theorem bindCollects {x : Parse α} {f : α → Parse β} {l : List Token} {d : Collected}
    {R : β → List Token → Collected → Prop} (hx : Reads σ x P)
    (hf : ∀ a l', Crosses l l' → P a → Collects σ (f a) l' d R) : Collects σ (x >>= f) l d R := by
  refine Collects.bind (hx l d) fun a l' d' h => ?_
  obtain ⟨rfl, hcross, ha⟩ := h
  exact hf a l' hcross ha

theorem mono {P' : α → Prop} {x : Parse α} (hx : Reads σ x P') (h : ∀ a, P' a → P a) :
    Reads σ x P :=
  fun l d => (hx l d).mono fun a _ _ ha => ⟨ha.1, ha.2.1, h a ha.2.2⟩

theorem map {x : Parse α} (hx : Reads σ x P) (f : α → β) (hf : ∀ a, P a → Q (f a)) :
    Reads σ (f <$> x) Q := by
  rw [← bind_pure_comp]
  exact bind hx fun a ha => pure (hf a ha)

theorem iterate {turn : α → Parse (Turn α β)} (I : α → Prop)
    (hturn : ∀ a, I a → Reads σ (turn a) fun r => r.Holds I Q) (n : Nat) {a : α}
    (ha : I a) : Reads σ (Parse.iterate turn n a) Q := by
  induction n generalizing a with
  | zero => exact throw _
  | succ n ih =>
    apply bind (hturn a ha)
    intro r hr
    cases r with
    | more a => exact ih hr
    | done b => exact pure hr

end Reads

/-- A parser that collects nothing and goes into no further piece of a body. -/
abbrev Quiet (σ : TokenStream) (x : Parse α) : Prop :=
  Reads σ x fun _ => True

theorem Quiet.bind {x : Parse α} {f : α → Parse β} {Q : β → Prop} (hx : Quiet σ x)
    (hf : ∀ a, Reads σ (f a) Q) : Reads σ (x >>= f) Q :=
  Reads.bind hx fun a _ => hf a

theorem Quiet.pure (a : α) : Quiet σ (Pure.pure a : Parse α) :=
  Reads.pure trivial

/-- A loop collects nothing if its turns do not. -/
theorem Quiet.iterate {turn : α → Parse (Turn α β)} (hturn : ∀ a, Quiet σ (turn a)) (n : Nat)
    (a : α) : Quiet σ (Parse.iterate turn n a) := by
  refine Reads.iterate (fun _ => True) (fun a _ => ?_) n trivial
  apply (hturn a).mono
  intro r _
  cases r <;> trivial

/-! ## §2. Moves -/

section Moves

variable {s t : ParseState} {token : Token} {l : List Token} {d : Collected}

theorem consume_of_run {move : Cursor → Token × Cursor}
    (h : (consume move).run s = .ok (token, t)) :
    (move s.cursor).1 = token ∧ token.kind ≠ .error ∧
      t = { s with cursor := (move s.cursor).2 } := by
  obtain ⟨s', s'', hget, hrest⟩ := run_bind_eq_ok h
  cases hget
  obtain ⟨_, s₁, hset, hrest⟩ := run_bind_eq_ok hrest
  cases hset
  -- A lexical error ends the parse; anything else only moves the cursor.
  split at hrest
  · cases hrest
  · next hkind =>
    cases hrest
    exact ⟨rfl, hkind, rfl⟩

theorem collects_next (l : List Token) (d : Collected) :
    Collects σ next l d fun token l' d' =>
      token = lead σ.final l ∧ (token.kind.isFinal = true → l = [] ∧ token = σ.final) ∧
        (token.kind.isFinal = false → l = token :: l') ∧ l' = l.tail ∧ d' = d := by
  intro s token t hs hrun
  obtain ⟨htoken, -, rfl⟩ := consume_of_run hrun
  obtain ⟨hlead, hahead⟩ := hs.tidy.next_eq
  rw [hs.ahead] at hlead hahead
  refine ⟨_, d, hs.moved hs.tidy.next (Cursor.final_next _) hahead (List.tail_suffix l), ?_⟩
  have hlead : token = lead σ.final l := by rw [← htoken, hlead, hs.final]
  refine ⟨hlead, fun hfinal => ?_, fun hfinal => ?_, rfl, rfl⟩
  · cases l with
    | nil => exact ⟨rfl, hlead⟩
    | cons first rest =>
      rw [hlead, lead_cons, hs.not_final first List.mem_cons_self] at hfinal
      cases hfinal
  · rw [hlead] at hfinal ⊢
    exact eq_cons_of_lead hs.isFinal hfinal

theorem collects_nextSolid (l : List Token) (d : Collected) :
    Collects σ nextSolid l d fun token l' d' =>
      token = lead σ.final (solid l) ∧ (token.kind.isFinal = false → solid l = token :: l') ∧
        l' = (solid l).tail ∧ d' = d := by
  intro s token t hs hrun
  obtain ⟨htoken, -, rfl⟩ := consume_of_run hrun
  obtain ⟨htidy, hlead, hahead, -⟩ := hs.tidy.nextSolid
  rw [hs.ahead] at hlead hahead
  have hsuffix : (solid l).tail <:+ l := (List.tail_suffix _).trans (List.dropWhile_suffix _)
  refine ⟨_, d, hs.moved htidy (Cursor.final_nextSolid _) hahead hsuffix, ?_⟩
  have hlead : token = lead σ.final (solid l) := by rw [← htoken, hlead, hs.final]
  refine ⟨hlead, fun hfinal => ?_, rfl, rfl⟩
  rw [hlead] at hfinal ⊢
  exact eq_cons_of_lead hs.isFinal hfinal

/-- The state once the token that was just read is taken back. -/
theorem at_backup (hs : s.At σ l d) (h : nextSolid.run s = .ok (token, t)) :
    ParseState.At σ (solid l) d { t with cursor := t.cursor.backup } := by
  obtain ⟨-, -, rfl⟩ := consume_of_run h
  obtain ⟨htidy, -, -, hback⟩ := hs.tidy.nextSolid
  rw [hs.ahead] at hback
  refine hs.moved htidy.backup ?_ hback (List.dropWhile_suffix _)
  rw [Cursor.final_backup, Cursor.final_nextSolid]

theorem collects_peek (l : List Token) (d : Collected) :
    Collects σ peek l d fun token l' d' =>
      token = lead σ.final (solid l) ∧ (token.kind.isFinal = false → ∃ rest, l' = token :: rest) ∧
        l' = solid l ∧ d' = d := by
  intro s token t hs hrun
  obtain ⟨token', s₁, hnext, hrest⟩ := run_bind_eq_ok hrun
  obtain ⟨l', d', -, hlead, hcons, rfl, rfl⟩ := collects_nextSolid l d s _ s₁ hs hnext
  cases hrest
  exact ⟨_, _, at_backup hs hnext, hlead, fun h => ⟨_, hcons h⟩, rfl, rfl⟩

/-- A token is taken if it is the one that is asked for, and is left otherwise. -/
theorem collects_accept (kind : TokenKind) (value : String) (l : List Token) (d : Collected) :
    Collects σ (accept kind value) l d fun accepted l' d' =>
      accepted = (lead σ.final (solid l)).is kind value ∧
        l' = (if accepted then (solid l).tail else solid l) ∧ d' = d := by
  intro s accepted t hs hrun
  obtain ⟨token, s₁, hnext, hrest⟩ := run_bind_eq_ok hrun
  obtain ⟨l', d', hs₁, rfl, -, rfl, rfl⟩ := collects_nextSolid l d s _ s₁ hs hnext
  split at hrest
  · next his =>
    cases hrest
    exact ⟨_, _, hs₁, his.symm, rfl, rfl⟩
  · next his =>
    cases hrest
    exact ⟨_, _, at_backup hs hnext, (Bool.eq_false_iff.mpr his).symm, rfl, rfl⟩

theorem collects_name (l : List Token) (d : Collected) :
    Collects σ name l d fun value l' d' =>
      (∃ token, solid l = token :: l' ∧ token.is .name value = true) ∧ d' = d := by
  have hname : Collects σ (expect [.name]) l d fun token l' d' =>
      (solid l = token :: l' ∧ token.kind = .name) ∧ d' = d := by
    refine Collects.bind (collects_nextSolid l d) fun token l' d' h => ?_
    obtain ⟨-, hcons, -, rfl⟩ := h
    split
    · next hmem =>
      have hkind : token.kind = .name := by simpa using hmem
      exact Collects.pure ⟨⟨hcons (by rw [hkind]; rfl), hkind⟩, rfl⟩
    · exact Collects.throw _
  refine Collects.bind hname fun token l' d' h => Collects.pure ⟨⟨token, h.1.1, ?_⟩, h.2⟩
  simp [Token.is, h.1.2]

/-- Something may follow in one piece: a dot, and a token of some kind after it.  If it does not, it
is as if nothing had been read. -/
theorem Collects.dotted {kind : TokenKind} {f : Token → Parse α} {y : Parse α}
    {Q : α → List Token → Collected → Prop}
    (hf : ∀ dot part rest, l = dot :: part :: rest → dot.is .punctuation "." = true →
      part.kind = kind → Collects σ (f part) rest d Q)
    (hkind : kind.isFinal = false)
    (hy : (∀ dot part rest, l = dot :: part :: rest → dot.is .punctuation "." = true →
      part.kind ≠ kind) → Collects σ y l d Q) :
    Collects σ (do
      let dot ← next
      if dot.is .punctuation "." then
        let part ← next
        if part.kind = kind then f part
        else
          backup
          backup
          y
      else
        backup
        y) l d Q := by
  intro s a t hs hrun
  obtain ⟨dot, s₁, hdot, hrest⟩ := run_bind_eq_ok hrun
  obtain ⟨l₁, d₁, hs₁, hlead, -, hcons, rfl, rfl⟩ := collects_next l d s dot s₁ hs hdot
  obtain ⟨-, -, rfl⟩ := consume_of_run hdot
  split at hrest
  · next his =>
    obtain ⟨part, s₂, hpart, hrest⟩ := run_bind_eq_ok hrest
    obtain ⟨l₂, d₂, hs₂, hlead', -, hcons', rfl, rfl⟩ := collects_next _ _ _ part s₂ hs₁ hpart
    obtain ⟨-, -, rfl⟩ := consume_of_run hpart
    -- Both tokens are there: neither of them can be the one that ends the stream.
    have hdotkind : dot.kind.isFinal = false := by
      rw [Token.kind_of_is his]
      rfl
    split at hrest
    · next hpartkind =>
      have hl' := hcons' (hpartkind ▸ hkind)
      exact hf dot part _ ((hcons hdotkind).trans (congrArg _ hl')) his hpartkind _ a t hs₂ hrest
    · next hpartkind =>
      have hback := hs.moved (c := s.cursor.next.2.next.2.backup.backup)
        hs.tidy.next.next.backup.backup (by simp)
        (hs.tidy.ahead_next_next_backup.trans hs.ahead) (List.suffix_refl l)
      refine hy (fun dot' part' rest hl _ => ?_) _ a t hback hrest
      rw [hl] at hlead'
      rwa [show part = part' from hlead'] at hpartkind
  · next his =>
    have hback := hs.moved (c := s.cursor.next.2.backup) hs.tidy.next.backup (by simp)
      (hs.tidy.ahead_next_backup.trans hs.ahead) (List.suffix_refl l)
    refine hy (fun dot' part' rest hl his' => ?_) _ a t hback hrest
    rw [hl, lead_cons] at hlead
    exact absurd (hlead ▸ his') his

end Moves

/-! ## §3. Reading -/

section Reading

variable {P : α → Prop}

/-- A token is read if nothing goes wrong with it, which shows that it begins no piece. -/
theorem Reads.next {f : Token → Parse α}
    (hf : ∀ token, Reads σ (f token) fun a => token.kind.beginsPiece = false ∧ P a) :
    Reads σ (next >>= f) P := by
  intro l d
  refine Collects.bind (collects_next l d) fun token l' d' h => ?_
  obtain ⟨rfl, -, -, rfl, rfl⟩ := h
  refine (hf _ _ _).mono fun a l'' d'' h => ?_
  obtain ⟨hd, hcross, hkind, ha⟩ := h
  exact ⟨hd, (Crosses.tail hkind).trans hcross, ha⟩

theorem Reads.nextSolid {f : Token → Parse α}
    (hf : ∀ token, Reads σ (f token) fun a => token.kind.beginsPiece = false ∧ P a) :
    Reads σ (nextSolid >>= f) P := by
  intro l d
  refine Collects.bind (collects_nextSolid l d) fun token l' d' h => ?_
  obtain ⟨rfl, -, rfl, rfl⟩ := h
  refine (hf _ _ _).mono fun a l'' d'' h => ?_
  obtain ⟨hd, hcross, hkind, ha⟩ := h
  exact ⟨hd, ((Crosses.solid l).trans (Crosses.tail hkind)).trans hcross, ha⟩

/-- What a parser reads if a certain token comes next, without any white space before it. -/
def Faces (σ : TokenStream) (token : Token) (x : Parse α) (P : α → Prop) : Prop :=
  ∀ l d, solid l = l → lead σ.final l = token →
    Collects σ x l d fun a l' d' => d' = d ∧ Crosses l l' ∧ P a

theorem Reads.faces {token : Token} {x : Parse α} (hx : Reads σ x P) : Faces σ token x P :=
  fun l d _ _ => hx l d

theorem Reads.peek {f : Token → Parse α} (hf : ∀ token, Faces σ token (f token) P) :
    Reads σ (peek >>= f) P := by
  intro l d
  refine Collects.bind (collects_peek l d) fun token l' d' h => ?_
  obtain ⟨rfl, -, rfl, rfl⟩ := h
  refine (hf _ _ _ (solid_solid l) rfl).mono fun a l'' d'' h => ?_
  exact ⟨h.1, (Crosses.solid l).trans h.2.1, h.2.2⟩

/-- The token that comes next is taken. -/
theorem Faces.take {token : Token} {f : Token → Parse α} (hkind : token.kind.beginsPiece = false)
    (hf : Reads σ (f token) P) : Faces σ token (Parse.nextSolid >>= f) P := by
  intro l d hsolid hlead
  refine Collects.bind (collects_nextSolid l d) fun token' l' d' h => ?_
  obtain ⟨rfl, -, rfl, rfl⟩ := h
  rw [hsolid, hlead]
  refine (hf _ _).mono fun a l'' d'' h => ?_
  exact ⟨h.1, (Crosses.tail (hlead ▸ hkind)).trans h.2.1, h.2.2⟩

theorem quiet_expect {kinds : List TokenKind} (hkinds : ∀ kind ∈ kinds, kind.beginsPiece = false) :
    Reads σ (expect kinds) fun token => token.kind ∈ kinds := by
  apply Reads.nextSolid
  intro token
  split
  · next hmem =>
    have hmem := List.contains_iff_mem.mp hmem
    exact Reads.pure ⟨hkinds _ hmem, hmem⟩
  · exact Reads.unexpected _ _

theorem quiet_expectValue {kind : TokenKind} (hkind : kind.beginsPiece = false) (value : String) :
    Quiet σ (expectValue kind value) := by
  apply Reads.nextSolid
  intro token
  split
  · next his =>
    rw [Token.kind_of_is his]
    exact Reads.pure ⟨hkind, trivial⟩
  · exact Reads.unexpected _ _

theorem quiet_accept {kind : TokenKind} (hkind : kind.beginsPiece = false) (value : String) :
    Quiet σ (accept kind value) := by
  intro l d
  refine (collects_accept kind value l d).mono fun accepted l' d' h => ?_
  obtain ⟨rfl, rfl, rfl⟩ := h
  refine ⟨rfl, ?_, trivial⟩
  split
  · next his =>
    have htail : (lead σ.final (solid l)).kind.beginsPiece = false := by
      rwa [Token.kind_of_is his]
    exact (Crosses.solid l).trans (Crosses.tail htail)
  · exact Crosses.solid l

theorem quiet_name : Quiet σ name :=
  Reads.bind (quiet_expect (by simp [TokenKind.beginsPiece])) fun _ _ => Quiet.pure _

theorem quiet_endTag : Quiet σ endTag :=
  Reads.bind (quiet_expect (by simp [TokenKind.beginsPiece])) fun _ _ => Quiet.pure _

/-- Something that may follow in one piece is read. -/
theorem Reads.dotted {kind : TokenKind} {f : Token → Parse α} {y : Parse α}
    (hf : ∀ part, Reads σ (f part) P) (hkind : kind.isFinal = false)
    (hpiece : kind.beginsPiece = false) (hy : Reads σ y P) :
    Reads σ (do
      let dot ← Parse.next
      if dot.is .punctuation "." then
        let part ← Parse.next
        if part.kind = kind then f part
        else
          backup
          backup
          y
      else
        backup
        y) P := by
  intro l d
  refine Collects.dotted (fun dot part rest hl hdot hpart => ?_) hkind fun _ => hy l d
  subst hl
  refine (hf part rest d).mono fun a l' d' h => ⟨h.1, .cons ?_ (.cons ?_ h.2.1), h.2.2⟩
  · rw [Token.kind_of_is hdot]
    rfl
  · rwa [hpart]

/-- Lists are read if their items are. -/
theorem reads_commaSeparated {item : Parse α} (hitem : Reads σ item P) (n : Nat) :
    Reads σ (commaSeparated n item) fun items => ∀ a ∈ items, P a := by
  -- Items are pushed in front as they are read, and turned round in the end.
  refine Reads.iterate (fun items => ∀ a ∈ items, P a) (fun items hitems => ?_) n nofun
  refine Reads.bind hitem fun a ha => (quiet_accept rfl _).bind fun more => ?_
  have hcons : ∀ b ∈ a :: items, P b := List.forall_mem_cons.mpr ⟨ha, hitems⟩
  split
  · exact Reads.pure hcons
  · exact Reads.pure fun b hb => hcons b (List.mem_reverse.mp hb)

theorem reads_listUntil {item : Parse α} (hitem : Reads σ item P) (n : Nat)
    {close : TokenKind} (hclose : close.beginsPiece = false) :
    Reads σ (listUntil n close item) fun items => ∀ a ∈ items, P a := by
  refine Reads.iterate (fun items => ∀ a ∈ items, P a) (fun items hitems => ?_) n nofun
  apply Reads.peek
  intro token
  split
  · next hkind =>
    refine Faces.take (hkind ▸ hclose) (Reads.pure fun b hb => ?_)
    exact hitems b (List.mem_reverse.mp hb)
  · refine Reads.faces (Reads.bind hitem fun a ha => Reads.nextSolid fun token => ?_)
    have hcons : ∀ b ∈ a :: items, P b := List.forall_mem_cons.mpr ⟨ha, hitems⟩
    split
    · next hkind => exact Reads.pure ⟨hkind ▸ hclose, fun b hb => hcons b (List.mem_reverse.mp hb)⟩
    · split
      · next hcomma =>
        rw [Token.kind_of_is hcomma]
        exact Reads.pure ⟨rfl, hcons⟩
      · exact Reads.unexpected _ _

end Reading

end Parse

end Stencil
