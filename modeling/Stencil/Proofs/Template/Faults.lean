import Stencil.Proofs.Expr.Reading
import Stencil.Proofs.Template.Collecting
import Stencil.Proofs.Token.Kinds
import Stencil.Template.Statement.Parser

/-!
What a parse fails with.

`Settles` is about all runs of a parser: a run that succeeds collects as `Collects` says, and the
error of a run that fails is of a certain kind.  `Faults` is for parsers that collect nothing.
Whatever goes wrong in one of them is a fault of some token of the stream: the error is at its
place, it is none of those that no source leads to, and it is not that of a tag that is never
closed.

All parsers of expressions are of the second kind.
-/

namespace Stencil

open Stencil.Text

/-! ## §1. Errors -/

/-- The complaints that are there for what cannot happen: a block without a table for it, and a
number that does not read as one. -/
def ParseErrorKind.IsInternal : ParseErrorKind → Prop
  | .plain text => text = Parse.homelessBlock ∨ "invalid number ".toList <+: text.toList
  | _ => False

/-- A complaint that begins with another letter than those is none of them. -/
theorem ParseErrorKind.not_isInternal {text : String} {c : Char} (h : text.toList.head? = some c)
    (hc : c ≠ 'b' ∧ c ≠ 'i') : ¬ IsInternal (.plain text) := by
  rintro (rfl | ⟨rest, hrest⟩)
  · exact hc.1 (Option.some.inj h).symm
  · rw [← hrest] at h
    exact hc.2 (Option.some.inj h).symm

/-- An error is a fault of some token of a stream, which is not that a tag is never closed. -/
structure ParseError.Fault (σ : TokenStream) (e : ParseError) : Prop where
  placed : ∃ token ∈ σ.all, e.position = token.position
  external : ¬ e.kind.IsInternal
  closed : ∀ tag start, e.kind ≠ .unclosedTag tag start

/-- Where a token of a stream stands. -/
def TokenStream.Places (σ : TokenStream) (position : Position) : Prop :=
  ∃ token ∈ σ.all, position = token.position

/-- The numbers of a stream are written in digits. -/
def TokenStream.Numbered (σ : TokenStream) : Prop :=
  ∀ token ∈ σ.all, token.kind = .number →
    token.value.toList ≠ [] ∧ ∀ c ∈ token.value.toList, c.isDigit = true

/-- A number goes on as long as there are digits. -/
theorem numbered_lex (source : String) : (lex source).Numbered := by
  intro token hmem hkind
  rcases List.mem_append.mp hmem with hmem | hmem
  · obtain ⟨s, t, -, hgives⟩ :=
      Scan.exists_gives (source.toList.length + 1) (.start source) token hmem
    obtain ⟨n, hreaches, hvalue, -⟩ := hgives.plain (by rw [hkind]; decide)
    rw [hkind] at hreaches
    obtain ⟨hfirst, hn⟩ := hreaches
    have htext : token.value.toList = s.rest.takeWhile Char.isDigit := by
      rw [hvalue, String.toList_ofList, hn]
      exact (List.prefix_iff_eq_take.mp (List.takeWhile_prefix _)).symm
    rw [htext]
    refine ⟨fun hnil => ?_, fun c hc => List.mem_takeWhile_imp hc⟩
    cases hrest : s.rest with
    | nil => simp [hrest] at hfirst
    | cons c cs =>
      rw [hrest] at hfirst hnil
      simp only [List.head?_cons, Option.any_some] at hfirst
      simp [hfirst] at hnil
  · -- What ends a stream is no number.
    have hfinal := isFinal_lex source
    rw [← List.mem_singleton.mp hmem, hkind] at hfinal
    cases hfinal

theorem TokenStream.places_of_mem {σ : TokenStream} {token : Token} (h : token ∈ σ.all) :
    σ.Places token.position :=
  ⟨token, h, rfl⟩

/-- What leads the tokens still to come is a token of the stream. -/
theorem TokenStream.lead_mem_all {σ : TokenStream} {l : List Token} (h : l <:+ σ.tokens) :
    lead σ.final l ∈ σ.all := by
  cases l with
  | nil => exact List.mem_append_right _ (List.mem_singleton.mpr rfl)
  | cons token l => exact List.mem_append_left _ (h.subset List.mem_cons_self)

/-- A complaint at a token about what stands there. -/
theorem ParseError.fault_unexpected {σ : TokenStream} {token : Token} (h : token ∈ σ.all)
    (expected : String) : (ParseError.unexpected token expected).Fault σ := by
  refine ⟨⟨token, h, rfl⟩, ?_, ?_⟩
  · unfold ParseError.unexpected
    split <;> exact id
  · unfold ParseError.unexpected
    split <;> nofun

namespace Parse

variable {α β : Type} {σ : TokenStream}

/-! ## §2. Runs that may fail -/

/-- What a parser does where the tokens `l` are still to come and `d` is collected: what it returns,
leaves and collects, or what it fails with. -/
structure Settles (σ : TokenStream) (x : Parse α) (l : List Token) (d : Collected)
    (Q : α → List Token → Collected → Prop) (E : ParseError → Prop) : Prop where
  collects : Collects σ x l d Q
  fails : ∀ s e, s.At σ l d → x.run s = .error (.error e) → E e

theorem run_bind_eq_error {x : Parse α} {f : α → Parse β} {s : ParseState} {failure : ParseFailure}
    (h : (x >>= f).run s = .error failure) :
    x.run s = .error failure ∨ ∃ a t, x.run s = .ok (a, t) ∧ (f a).run t = .error failure := by
  rw [StateT.run_bind] at h
  cases hx : x.run s with
  | error e =>
    rw [hx] at h
    exact .inl (congrArg Except.error (Except.error.inj h))
  | ok r =>
    rw [hx] at h
    exact .inr ⟨r.1, r.2, rfl, h⟩

/-- Looking at the state does not fail. -/
theorem run_get_bind_eq_error {f : ParseState → Parse α} {s : ParseState} {failure : ParseFailure}
    (h : (get >>= f).run s = .error failure) : (f s).run s = .error failure := by
  rcases run_bind_eq_error h with hget | ⟨_, _, hget, hrest⟩
  · cases hget
  · cases hget
    exact hrest

namespace Settles

variable {l : List Token} {d : Collected} {Q : α → List Token → Collected → Prop}
  {R : β → List Token → Collected → Prop} {E : ParseError → Prop}

theorem pure {a : α} (h : Q a l d) : Settles σ (Pure.pure a) l d Q E :=
  ⟨Collects.pure h, fun _ _ _ hrun => by cases hrun⟩

theorem fail {position : Position} {kind : ParseErrorKind} (h : E ⟨position, kind⟩) :
    Settles σ (Parse.fail position kind : Parse α) l d Q E := by
  refine ⟨Collects.throw _, fun s e _ hrun => ?_⟩
  cases hrun
  exact h

theorem unexpected {token : Token} {expected : String} (h : E (.unexpected token expected)) :
    Settles σ (Parse.unexpected token expected : Parse α) l d Q E := by
  refine ⟨Collects.throw _, fun s e _ hrun => ?_⟩
  cases hrun
  exact h

theorem exhausted : Settles σ (throw .exhausted : Parse α) l d Q E :=
  ⟨Collects.throw _, fun _ _ _ hrun => by cases hrun⟩

theorem bind {x : Parse α} {f : α → Parse β} (hx : Settles σ x l d Q E)
    (hf : ∀ a l' d', Q a l' d' → Settles σ (f a) l' d' R E) : Settles σ (x >>= f) l d R E := by
  refine ⟨hx.collects.bind fun a l' d' h => (hf a l' d' h).collects, fun s e hs hrun => ?_⟩
  rcases run_bind_eq_error hrun with hrun | ⟨a, t, hrun, hmore⟩
  · exact hx.fails s e hs hrun
  · obtain ⟨l', d', ht, ha⟩ := hx.collects s a t hs hrun
    exact (hf a l' d' ha).fails t e ht hmore

theorem mono {Q' : α → List Token → Collected → Prop} {x : Parse α} (hx : Settles σ x l d Q' E)
    (h : ∀ a l' d', Q' a l' d' → Q a l' d') : Settles σ x l d Q E :=
  ⟨hx.collects.mono h, hx.fails⟩

theorem monoErrors {E' : ParseError → Prop} {x : Parse α} (hx : Settles σ x l d Q E')
    (h : ∀ e, E' e → E e) : Settles σ x l d Q E :=
  ⟨hx.collects, fun s e hs hrun => h e (hx.fails s e hs hrun)⟩

/-- What is known of the runs that succeed may come from elsewhere. -/
theorem withCollects {Q' : α → List Token → Collected → Prop} {x : Parse α}
    (hx : Settles σ x l d Q' E) (hcollects : Collects σ x l d Q) : Settles σ x l d Q E :=
  ⟨hcollects, hx.fails⟩

/-- Two things that are known of the runs that succeed. -/
theorem and {Q' : α → List Token → Collected → Prop} {x : Parse α} (hx : Settles σ x l d Q E)
    (hcollects : Collects σ x l d Q') :
    Settles σ x l d (fun a l' d' => Q a l' d' ∧ Q' a l' d') E := by
  refine ⟨fun s a t hs hrun => ?_, hx.fails⟩
  obtain ⟨l', d', ht, ha⟩ := hx.collects s a t hs hrun
  obtain ⟨l'', d'', ht', ha'⟩ := hcollects s a t hs hrun
  obtain rfl := ht.ahead.symm.trans ht'.ahead
  obtain rfl := ht.collected.symm.trans ht'.collected
  exact ⟨l', d', ht, ha, ha'⟩

theorem get_bind {f : ParseState → Parse α} (h : ∀ s, s.At σ l d → Settles σ (f s) l d Q E) :
    Settles σ (MonadState.get >>= f) l d Q E := by
  exact ⟨.get_bind fun s hs => (h s hs).collects,
    fun s e hs hrun => (h s hs).fails s e hs (run_get_bind_eq_error hrun)⟩

/-- The tokens still to come are those of the stream. -/
theorem of_within {x : Parse α} (h : l <:+ σ.tokens → Settles σ x l d Q E) : Settles σ x l d Q E :=
  ⟨.of_within fun hl => (h hl).collects, fun s e hs hrun => (h hs.within).fails s e hs hrun⟩

/-- A loop, with what holds before every turn. -/
theorem iterate {turn : α → Parse (Turn α β)} (I : α → List Token → Collected → Prop)
    (hturn : ∀ a l' d', I a l' d' →
      Settles σ (turn a) l' d' (fun r l'' d'' => r.Holds (I · l'' d'') (R · l'' d'')) E)
    (n : Nat) {a : α} (ha : I a l d) : Settles σ (Parse.iterate turn n a) l d R E := by
  induction n generalizing a l d with
  | zero => exact exhausted
  | succ n ih =>
    refine bind (hturn a l d ha) fun r l' d' hr => ?_
    cases r with
    | more a => exact ih hr
    | done b => exact pure hr

end Settles

/-! ## §3. Parsers that collect nothing -/

/-- A parser that collects nothing and fails only by the fault of a token; what it returns. -/
def Faults (σ : TokenStream) (x : Parse α) (P : α → Prop) : Prop :=
  ∀ l d, Settles σ x l d (fun a _ d' => d' = d ∧ P a) (ParseError.Fault σ)

namespace Faults

variable {P : α → Prop} {R : β → Prop}

theorem pure {a : α} (h : P a) : Faults σ (Pure.pure a) P :=
  fun _ _ => Settles.pure ⟨rfl, h⟩

theorem fail {position : Position} {kind : ParseErrorKind} (hplaces : σ.Places position)
    (hexternal : ¬ kind.IsInternal) (hclosed : ∀ tag start, kind ≠ .unclosedTag tag start) :
    Faults σ (Parse.fail position kind : Parse α) P :=
  fun _ _ => Settles.fail ⟨hplaces, hexternal, hclosed⟩

theorem unexpected {token : Token} (h : token ∈ σ.all) (expected : String) :
    Faults σ (Parse.unexpected token expected : Parse α) P :=
  fun _ _ => Settles.unexpected (ParseError.fault_unexpected h expected)

theorem bind {x : Parse α} {f : α → Parse β} (hx : Faults σ x P)
    (hf : ∀ a, P a → Faults σ (f a) R) : Faults σ (x >>= f) R := by
  intro l d
  refine Settles.bind (hx l d) fun a l' d' h => ?_
  obtain ⟨rfl, ha⟩ := h
  exact hf a ha l' d'

theorem mono {P' : α → Prop} {x : Parse α} (hx : Faults σ x P') (h : ∀ a, P' a → P a) :
    Faults σ x P :=
  fun l d => (hx l d).mono fun a _ _ ha => ⟨ha.1, h a ha.2⟩

theorem map {x : Parse α} (hx : Faults σ x P) (f : α → β) (hf : ∀ a, P a → R (f a)) :
    Faults σ (f <$> x) R := by
  rw [← bind_pure_comp]
  exact bind hx fun a ha => pure (hf a ha)

end Faults

/-- A parser that collects nothing and fails only by the fault of a token. -/
abbrev Blames (σ : TokenStream) (x : Parse α) : Prop :=
  Faults σ x fun _ => True

theorem Blames.bind {x : Parse α} {f : α → Parse β} {R : β → Prop} (hx : Blames σ x)
    (hf : ∀ a, Faults σ (f a) R) : Faults σ (x >>= f) R :=
  Faults.bind hx fun a _ => hf a

theorem Blames.pure (a : α) : Blames σ (Pure.pure a : Parse α) :=
  Faults.pure trivial

theorem Blames.iterate {turn : α → Parse (Turn α β)} (hturn : ∀ a, Blames σ (turn a)) (n : Nat)
    (a : α) : Blames σ (Parse.iterate turn n a) := by
  induction n generalizing a with
  | zero => exact fun _ _ => Settles.exhausted
  | succ n ih =>
    refine (hturn a).bind fun r => ?_
    cases r with
    | more a => exact ih a
    | done b => exact Blames.pure b

/-! ## §4. Moves -/

section Moves

variable {s : ParseState} {l : List Token} {d : Collected}

/-- Only a lexical error is not consumed. -/
theorem fault_consume {move : Cursor → Token × Cursor} {e : ParseError}
    (htoken : (move s.cursor).1 ∈ σ.all)
    (hrun : (consume move).run s = .error (.error e)) : e.Fault σ := by
  -- The state is read and set first, and neither can fail.
  rcases run_bind_eq_error (run_get_bind_eq_error hrun) with hset | ⟨_, s₁, hset, hrest⟩
  · cases hset
  split at hrest
  · cases hrest
    exact ⟨⟨_, htoken, rfl⟩, id, nofun⟩
  · cases hrest

theorem settles_next (l : List Token) (d : Collected) :
    Settles σ next l d (fun token l' d' =>
      token = lead σ.final l ∧ (token.kind.isFinal = true → l = [] ∧ token = σ.final) ∧
        (token.kind.isFinal = false → l = token :: l') ∧ l' = l.tail ∧ d' = d)
      (ParseError.Fault σ) := by
  refine ⟨collects_next l d, fun s e hs hrun => fault_consume ?_ hrun⟩
  rw [hs.tidy.next_eq.1, hs.ahead, hs.final]
  exact TokenStream.lead_mem_all hs.within

theorem settles_nextSolid (l : List Token) (d : Collected) :
    Settles σ nextSolid l d (fun token l' d' =>
      token = lead σ.final (solid l) ∧ (token.kind.isFinal = false → solid l = token :: l') ∧
        l' = (solid l).tail ∧ d' = d) (ParseError.Fault σ) := by
  refine ⟨collects_nextSolid l d, fun s e hs hrun => fault_consume ?_ hrun⟩
  rw [hs.tidy.nextSolid.2.1, hs.ahead, hs.final]
  exact TokenStream.lead_mem_all ((List.dropWhile_suffix _).trans hs.within)

/-- Looking at a token fails as consuming it does. -/
theorem settles_peek (l : List Token) (d : Collected) :
    Settles σ peek l d (fun token l' d' =>
      token = lead σ.final (solid l) ∧ (token.kind.isFinal = false → ∃ rest, l' = token :: rest) ∧
        l' = solid l ∧ d' = d) (ParseError.Fault σ) := by
  refine ⟨collects_peek l d, fun s e hs hrun => ?_⟩
  rcases run_bind_eq_error hrun with hrun | ⟨token, t, -, hrest⟩
  · exact (settles_nextSolid l d).fails s e hs hrun
  · cases hrest

theorem settles_accept (kind : TokenKind) (value : String) (l : List Token) (d : Collected) :
    Settles σ (accept kind value) l d (fun accepted l' d' =>
      accepted = (lead σ.final (solid l)).is kind value ∧
        l' = (if accepted then (solid l).tail else solid l) ∧ d' = d) (ParseError.Fault σ) := by
  refine ⟨collects_accept kind value l d, fun s e hs hrun => ?_⟩
  rcases run_bind_eq_error hrun with hrun | ⟨token, t, -, hrest⟩
  · exact (settles_nextSolid l d).fails s e hs hrun
  · split at hrest <;> cases hrest

end Moves

theorem faults_next : Faults σ next (· ∈ σ.all) := fun l d =>
  Settles.of_within fun hl => (settles_next l d).mono
    fun _ _ _ h => ⟨h.2.2.2.2, h.1 ▸ TokenStream.lead_mem_all hl⟩

theorem faults_nextSolid : Faults σ nextSolid (· ∈ σ.all) := fun l d =>
  Settles.of_within fun hl => (settles_nextSolid l d).mono
    fun _ _ _ h => ⟨h.2.2.2, h.1 ▸ TokenStream.lead_mem_all ((List.dropWhile_suffix _).trans hl)⟩

theorem faults_peek : Faults σ peek (· ∈ σ.all) := fun l d =>
  Settles.of_within fun hl => (settles_peek l d).mono
    fun _ _ _ h => ⟨h.2.2.2, h.1 ▸ TokenStream.lead_mem_all ((List.dropWhile_suffix _).trans hl)⟩

theorem blames_accept (kind : TokenKind) (value : String) : Blames σ (accept kind value) :=
  fun l d => (settles_accept kind value l d).mono fun _ _ _ h => ⟨h.2.2, trivial⟩

theorem faults_expect (kinds : List TokenKind) :
    Faults σ (expect kinds) fun token => token ∈ σ.all ∧ token.kind ∈ kinds := by
  refine Faults.bind faults_nextSolid fun token htoken => ?_
  split
  · next hmem => exact Faults.pure ⟨htoken, List.contains_iff_mem.mp hmem⟩
  · exact Faults.unexpected htoken _

theorem blames_expectValue (kind : TokenKind) (value : String) :
    Blames σ (expectValue kind value) := by
  refine Faults.bind faults_nextSolid fun token htoken => ?_
  split
  · exact Blames.pure _
  · exact Faults.unexpected htoken _

theorem blames_name : Blames σ name :=
  Faults.bind (faults_expect _) fun _ _ => Blames.pure _

theorem blames_endTag : Blames σ endTag :=
  Faults.bind (faults_expect _) fun _ _ => Blames.pure _

/-- Something that may follow in one piece. -/
theorem Faults.dotted {kind : TokenKind} {f : Token → Parse α} {y : Parse α} {P : α → Prop}
    (hf : ∀ part ∈ σ.all, part.kind = kind → Faults σ (f part) P) (hkind : kind.isFinal = false)
    (hy : Faults σ y P) :
    Faults σ (do
      let dot ← Parse.next
      if dot.is .punctuation "." then
        let part ← Parse.next
        if part.kind = kind then f part
        else
          backup
          backup
          y
      else
        backup
        y) P := by
  intro l d
  refine Settles.of_within fun hl => ⟨?_, fun s e hs hrun => ?_⟩
  · refine Collects.dotted (fun dot part rest hcons _ hpart => ?_) hkind fun _ => (hy l d).collects
    subst hcons
    have hmem : part ∈ σ.all := List.mem_append_left _ (hl.subset (by simp))
    exact (hf part hmem hpart rest d).collects
  · rcases run_bind_eq_error hrun with hrun | ⟨dot, s₁, hdot, hrest⟩
    · exact (settles_next l d).fails s e hs hrun
    obtain ⟨l₁, d₁, hs₁, -, -, -, rfl, rfl⟩ := collects_next l d s dot s₁ hs hdot
    obtain ⟨-, -, rfl⟩ := consume_of_run hdot
    split at hrest
    · rcases run_bind_eq_error hrest with hrun | ⟨part, s₂, hpart, hrest⟩
      · exact (settles_next _ _).fails _ e hs₁ hrun
      obtain ⟨l₂, d₂, hs₂, hlead, -, -, rfl, rfl⟩ := collects_next _ _ _ part s₂ hs₁ hpart
      obtain ⟨-, -, rfl⟩ := consume_of_run hpart
      split at hrest
      · next hpartkind =>
        have hmem : part ∈ σ.all := hlead ▸ TokenStream.lead_mem_all hs₁.within
        exact (hf part hmem hpartkind _ _).fails _ e hs₂ hrest
      · -- Both tokens are taken back, so that `y` starts where this did.
        have hback := hs.moved (c := s.cursor.next.2.next.2.backup.backup)
          hs.tidy.next.next.backup.backup (by simp)
          (hs.tidy.ahead_next_next_backup.trans hs.ahead) (List.suffix_refl l)
        exact (hy l _).fails _ e hback hrest
    · have hback := hs.moved (c := s.cursor.next.2.backup) hs.tidy.next.backup (by simp)
        (hs.tidy.ahead_next_backup.trans hs.ahead) (List.suffix_refl l)
      exact (hy l _).fails _ e hback hrest

/-- Lists fail as their items do. -/
theorem blames_commaSeparated {item : Parse α} (hitem : Blames σ item) (n : Nat) :
    Blames σ (commaSeparated n item) := by
  refine Blames.iterate (fun items => hitem.bind fun a => (blames_accept _ _).bind fun _ => ?_) n _
  split <;> exact Blames.pure _

theorem blames_listUntil {item : Parse α} (hitem : Blames σ item) (n : Nat) (close : TokenKind) :
    Blames σ (listUntil n close item) := by
  refine Blames.iterate (fun items => Faults.bind faults_peek fun token _ => ?_) n _
  split
  · exact Faults.bind faults_nextSolid fun _ _ => Blames.pure _
  · refine hitem.bind fun a => Faults.bind faults_nextSolid fun token htoken => ?_
    split
    · exact Blames.pure _
    · split
      · exact Blames.pure _
      · exact Faults.unexpected htoken _

end Parse

/-! ## §5. Expressions -/

namespace Expr

open Parse

variable {σ : TokenStream} {rec : Tightness → Parse Expr} {n : Nat} (hσ : σ.Numbered)
  (hrec : ∀ tightness, Blames σ (rec tightness))

section Numbers

include hσ

/-- What is written in digits is a number, with a fraction or without one. -/
theorem blames_parseNumber {token : Token} (htoken : token ∈ σ.all) (hkind : token.kind = .number)
    (pos : Position) : Blames σ (parseNumber pos token.value) := by
  obtain ⟨hne, hwhole⟩ := hσ token htoken hkind
  refine Faults.dotted (fun part hpart hkind => ?_) rfl ?_
  · obtain ⟨-, hfraction⟩ := hσ part hpart hkind
    have htext : (token.value ++ "." ++ part.value).toList =
        token.value.toList ++ '.' :: part.value.toList := by simp
    rw [readNumber, htext, Number.readWhole?_fraction hne hwhole hfraction]
    exact Blames.pure _
  · rw [readNumber, Number.readWhole?_digits hne hwhole]
    exact Blames.pure _

end Numbers

include hrec

theorem blames_parseSegment (pos : Position) (segments : List Expr) :
    Blames σ (parseSegment rec pos segments) := by
  refine Faults.bind faults_next fun token htoken => ?_
  split
  · exact Blames.pure _
  · exact (hrec .any).bind fun segment => Faults.bind (faults_expect _) fun _ _ => Blames.pure _
  · exact Blames.pure _
  · exact Faults.unexpected htoken _

theorem blames_parseString (pos : Position) : Blames σ (parseString n rec pos) :=
  Blames.bind (Blames.iterate (blames_parseSegment hrec pos) n []) fun _ => Blames.pure _

theorem blames_parseArgs? : Blames σ (parseArgs? n rec) := by
  refine (blames_accept _ _).bind fun _ => ?_
  split
  · exact (blames_listUntil (hrec .any) n _).bind fun _ => Blames.pure _
  · exact Blames.pure _

theorem blames_parseWord (pos : Position) (word : String) :
    Blames σ (parseWord n rec pos word) := by
  unfold parseWord
  split
  · exact Blames.pure _
  · exact Blames.pure _
  · exact Blames.pure _
  · exact Blames.pure _
  · refine (blames_parseArgs? hrec).bind fun args => ?_
    cases args <;> exact Blames.pure _

theorem blames_parseEnclosed {token : Token} (htoken : token ∈ σ.all) :
    Blames σ (parseEnclosed n rec token) := by
  unfold parseEnclosed
  split
  · exact blames_parseString hrec _
  · exact (hrec .any).bind fun _ => Faults.bind (faults_expect _) fun _ _ => Blames.pure _
  · exact Faults.unexpected htoken _

theorem blames_parseAttribute (pos : Position) (object : Expr) :
    Blames σ (parseAttribute n rec pos object) := by
  refine Faults.bind (faults_expect _) fun key _ => (blames_parseArgs? hrec).bind fun args => ?_
  cases args <;> exact Blames.pure _

/-- What may follow an expression: nothing is wrong with a token that does not. -/
theorem blames_parseLink (subject : Expr) : Blames σ (parseLink n rec subject) := by
  refine Faults.bind faults_peek fun token _ => ?_
  split
  · exact Faults.bind faults_nextSolid fun _ _ =>
      (blames_parseAttribute hrec _ _).bind fun _ => Blames.pure _
  · split
    · exact Faults.bind faults_nextSolid fun _ _ => (hrec .any).bind fun _ =>
        Faults.bind (faults_expect _) fun _ _ => Blames.pure _
    · split
      · exact Faults.bind faults_nextSolid fun _ _ => Faults.bind (faults_expect _) fun _ _ =>
          (blames_parseArgs? hrec).bind fun _ => Blames.pure _
      · exact Blames.pure _

theorem blames_parseTest (pos : Position) (negated : Bool) (subject : Expr) :
    Blames σ (parseTest n rec pos negated subject) := by
  refine Faults.bind faults_nextSolid fun first hfirst => ?_
  extract_lets test named
  have htest : ∀ name, Blames σ (test name) := fun name =>
    (blames_parseArgs? hrec).bind fun _ => Blames.pure _
  have hnamed : ∀ u, Blames σ (named u) := by
    intro u
    refine Faults.bind faults_peek fun second _ => ?_
    split
    · exact Faults.bind faults_nextSolid fun _ _ => (Blames.pure _).bind htest
    · exact (Blames.pure _).bind htest
  split
  · exact Blames.bind (Faults.fail (TokenStream.places_of_mem hfirst) id nofun) hnamed
  · exact hnamed ()

theorem blames_climb (minimum : Nat) (left : Expr) : Blames σ (climb n rec minimum left) := by
  refine Faults.bind faults_peek fun token _ => ?_
  split
  · exact Blames.pure _
  · split
    · split
      · exact Blames.pure _
      · exact Faults.bind faults_nextSolid fun _ _ =>
          (blames_parseTest hrec _ _ _).bind fun _ => Blames.pure _
    · split
      · exact Blames.pure _
      · split
        · exact Blames.pure _
        · exact Faults.bind faults_nextSolid fun _ _ => (hrec _).bind fun _ => Blames.pure _

theorem blames_parseConditional (cond : Expr) : Blames σ (parseConditional rec cond) := by
  refine (blames_accept _ _).bind fun _ => ?_
  split
  · refine (hrec .any).bind fun whenTrue => (blames_accept _ _).bind fun _ => ?_
    extract_lets conditional
    have hconditional : ∀ whenFalse, Blames σ (conditional whenFalse) := fun _ => Blames.pure _
    split
    · exact (hrec .any).bind hconditional
    · exact (Blames.pure _).bind hconditional
  · exact Blames.pure _

include hσ

theorem blames_parseEntry : Blames σ (parseEntry n rec) := by
  refine Faults.bind faults_nextSolid fun token htoken => ?_
  extract_lets value
  have hvalue : ∀ key, Blames σ (value key) := fun key =>
    (blames_expectValue _ _).bind fun _ => (hrec .any).bind fun _ => Blames.pure _
  split
  · exact (Blames.pure _).bind hvalue
  · next hkind => exact (blames_parseNumber hσ htoken hkind _).bind hvalue
  · exact (blames_parseEnclosed hrec htoken).bind hvalue
  · exact (blames_parseEnclosed hrec htoken).bind hvalue
  · exact Blames.bind (Faults.unexpected htoken _) hvalue

theorem blames_parsePrimary : Blames σ (parsePrimary n rec) := by
  refine Faults.bind faults_nextSolid fun token htoken => ?_
  split
  · exact blames_parseWord hrec _ _
  · next hkind => exact blames_parseNumber hσ htoken hkind _
  · exact (blames_listUntil (hrec .any) n _).bind fun _ => Blames.pure _
  · exact (blames_listUntil (blames_parseEntry hσ hrec) n _).bind fun _ => Blames.pure _
  · exact blames_parseEnclosed hrec htoken

theorem blames_parseOperand : Blames σ (parseOperand n rec) := by
  refine Faults.bind faults_peek fun token _ => ?_
  split
  · exact Faults.bind faults_nextSolid fun _ _ => (hrec _).bind fun _ => Blames.pure _
  · exact (blames_parsePrimary hσ hrec).bind fun primary =>
      Blames.iterate (blames_parseLink hrec) n primary

omit hrec in
/-- **Expressions fail by the fault of a token.** -/
theorem blames_parse (n : Nat) (tightness : Tightness) : Blames σ (Expr.parse n tightness) := by
  -- The induction is on the depth that is left, which every expression inside another uses one of.
  induction n generalizing tightness with
  | zero => exact fun _ _ => Settles.exhausted
  | succ n ih =>
    cases tightness with
    | any => exact (ih _).bind fun cond => blames_parseConditional ih cond
    | atLeast minimum =>
      exact (blames_parseOperand hσ ih).bind fun left =>
        Blames.iterate (blames_climb ih minimum) n left

end Expr

/-! ## §6. Statements without bodies -/

namespace Stmt

open Parse

variable {σ : TokenStream}

theorem blames_parseDottedName (n : Nat) : Blames σ (parseDottedName n) := by
  refine blames_name.bind fun first => Blames.iterate (fun dotted => ?_) n first
  exact Faults.dotted (fun _ _ _ => Blames.pure _) rfl (Blames.pure _)

theorem blames_parseNamedEnd (n : Nat) (opened : String) : Blames σ (parseNamedEnd n opened) := by
  refine Faults.bind faults_peek fun token htoken => ?_
  split
  · refine (blames_parseDottedName n).bind fun found => ?_
    split
    · refine Blames.bind (Faults.fail (TokenStream.places_of_mem htoken) ?_ nofun)
        fun _ => blames_endTag
      refine ParseErrorKind.not_isInternal (c := 'e') ?_ (by decide)
      simp [toString]
    · exact blames_endTag
  · exact blames_endTag

theorem blames_parseAlias? (keyword : String) : Blames σ (parseAlias? keyword) := by
  refine (blames_accept _ _).bind fun _ => ?_
  split
  · exact blames_name.bind fun _ => Blames.pure _
  · exact Blames.pure _

variable {rules : Rules} (hexpr : Blames σ rules.expr)

include hexpr

theorem blames_parseParams : Blames σ (parseParams rules) := by
  refine Blames.iterate (fun params => Faults.bind faults_nextSolid fun token htoken => ?_) _ _
  split
  · exact Blames.pure _
  · refine (blames_accept _ _).bind fun _ => ?_
    extract_lets more
    have hmore : ∀ fallback, Blames σ (more fallback) := by
      intro fallback
      refine (blames_accept _ _).bind fun _ => ?_
      split
      · exact Blames.pure _
      · exact Faults.bind (faults_expect _) fun _ _ => Blames.pure _
    split
    · exact Blames.bind (hexpr.map some fun _ _ => trivial) hmore
    · exact (Blames.pure _).bind hmore
  · exact Faults.unexpected htoken _

theorem blames_parseInclusion (pos : Position) : Blames σ (parseInclusion rules pos) := by
  refine hexpr.bind fun template => (blames_accept _ _).bind fun _ => ?_
  extract_lets more
  have hmore : ∀ ignoreMissing, Blames σ (more ignoreMissing) := by
    intro ignoreMissing
    refine (blames_accept _ _).bind fun _ => ?_
    extract_lets only
    have honly : ∀ bindings, Blames σ (only bindings) := fun _ =>
      (blames_accept _ _).bind fun _ => Blames.pure _
    split
    · exact Blames.bind (hexpr.map some fun _ _ => trivial) honly
    · exact (Blames.pure _).bind honly
  split
  · exact (blames_expectValue _ _).bind fun _ => (Blames.pure _).bind hmore
  · exact (Blames.pure _).bind hmore

theorem blames_parseFilterCalls : Blames σ (parseFilterCalls rules) := by
  refine Blames.iterate (fun filters => Faults.bind (faults_expect _) fun filter _ =>
    (blames_accept _ _).bind fun _ => ?_) _ _
  extract_lets more
  have hmore : ∀ args, Blames σ (more args) := by
    intro args
    refine (blames_accept _ _).bind fun _ => ?_
    split <;> exact Blames.pure _
  split
  · exact (blames_listUntil hexpr _ _).bind hmore
  · exact (Blames.pure _).bind hmore

theorem blames_parseUse (pos : Position) : Blames σ (parseUse rules pos) := by
  refine hexpr.bind fun template => (blames_accept _ _).bind fun _ => ?_
  extract_lets reuse
  have hreuse : ∀ aliases, Blames σ (reuse aliases) := fun _ =>
    blames_endTag.bind fun _ => Blames.pure _
  split
  · refine (blames_commaSeparated ?_ _).bind hreuse
    exact blames_name.bind fun _ => (blames_expectValue _ _).bind fun _ =>
      blames_name.bind fun _ => Blames.pure _
  · exact (Blames.pure _).bind hreuse

theorem blames_parseImport (pos : Position) : Blames σ (parseImport rules pos) :=
  hexpr.bind fun _ => (blames_expectValue _ _).bind fun _ => blames_name.bind fun _ =>
    blames_endTag.bind fun _ => Blames.pure _

theorem blames_parseFrom (pos : Position) : Blames σ (parseFrom rules pos) := by
  refine hexpr.bind fun template => (blames_expectValue _ _).bind fun _ => Blames.bind ?_
    fun names => blames_endTag.bind fun _ => Blames.pure _
  exact blames_commaSeparated (blames_name.bind fun _ =>
    (blames_parseAlias? _).bind fun _ => Blames.pure _) _

end Stmt

end Stencil
