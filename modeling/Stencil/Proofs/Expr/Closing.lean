import Stencil.Proofs.Expr.Counting
import Stencil.Proofs.Expr.Forgetting
import Stencil.Proofs.Expr.Reading
import Stencil.Proofs.Template.Collecting
import Mathlib.Data.List.TakeWhile

/-!
What closes an expression does not matter to it.

An expression that stands in a print is followed by the token that closes the print, and one in a
string by the token that closes the interpolation.  Parsers of expressions look at either, take it
for the end of the expression and leave it where it is.  So an expression that is parsed in a print
is parsed in an interpolation, as the same tree and up to the same token.

`Agrees` says so of a parser in the one place and a parser in the other, and is closed under
everything that parsers of expressions are built with.  Two parsers are compared and not one with
itself, because a token that was looked at is an argument of what comes after it.
-/

namespace Stencil

/-! ## §1. Code up to what closes it -/

/-- The token that closes some code, and the tokens after it. -/
structure Closing (kind : TokenKind) where
  token : Token
  more : List Token
  kind_eq : token.kind = kind

/-- Whether tokens of a kind close the code of a print or of an interpolation. -/
def TokenKind.closesCode : TokenKind → Bool
  | .printClose | .interpolateClose => true
  | _ => false

/-- All tokens from the closing one on. -/
def Closing.tokens {kind : TokenKind} (fin : Closing kind) : List Token :=
  fin.token :: fin.more

/-- No token of another use closes code. -/
theorem Closing.kind_ne {kind other : TokenKind} (fin : Closing kind)
    (hkind : kind.closesCode = true) (hother : other.closesCode = false) :
    fin.token.kind ≠ other := by
  rintro rfl
  rw [fin.kind_eq, hkind] at hother
  cases hother

theorem Closing.is_eq_false {kind other : TokenKind} (fin : Closing kind)
    (hkind : kind.closesCode = true) (hother : other.closesCode = false) (value : String) :
    fin.token.is other value = false := by
  simp [Token.is, fin.kind_ne hkind hother]

theorem solid_eq_nil_iff {code : List Token} :
    solid code = [] ↔ ∀ token ∈ code, token.kind = .whitespace := by
  simp [solid, List.dropWhile_eq_nil_iff]

/-- The first token that is no white space is found in the code if there is one, and is what closes
the code otherwise.  It can be taken back. -/
theorem Cursor.exists_nextSolid_eq {kind : TokenKind} (fin : Closing kind)
    (hkind : kind ≠ .whitespace) (past code : List Token) (final : Token) :
    ∃ past', Cursor.nextSolid ⟨past, code ++ fin.tokens, final⟩ =
      match solid code with
      | [] => (fin.token, ⟨fin.token :: past', fin.more, final⟩)
      | token :: rest => (token, ⟨token :: past', rest ++ fin.tokens, final⟩) := by
  have hfin : fin.token.kind ≠ .whitespace := by rwa [fin.kind_eq]
  induction code generalizing past with
  | nil =>
    refine ⟨past.take 7, ?_⟩
    rw [nextSolid, Closing.tokens, List.nil_append, solidFrom, if_neg hfin]
    rfl
  | cons token code ih =>
    by_cases hblank : token.kind = .whitespace
    · obtain ⟨past', hrest⟩ := ih (remember past token)
      refine ⟨past', ?_⟩
      rw [solid_cons_of_blank hblank, ← hrest]
      show solidFrom _ _ (token :: (code ++ _)) = _
      rw [solidFrom, if_pos hblank]
      rfl
    · refine ⟨past.take 7, ?_⟩
      rw [solid_cons_of_solid hblank]
      show solidFrom _ _ (token :: (code ++ _)) = _
      rw [solidFrom, if_neg hblank]
      rfl

namespace Parse

variable {α β γ : Type} {fin : Closing .printClose} {fin' : Closing .interpolateClose}

/-- If a parser has a result in code that closes a print, it leaves a part of the code, and another
parser has the same result in the same code in an interpolation and leaves the same part.  That
changes nothing but how far the stream is read. -/
def Agrees (fin : Closing .printClose) (fin' : Closing .interpolateClose) (x y : Parse α) : Prop :=
  ∀ s t code a s', s.cursor.upcoming = code ++ fin.tokens →
    t.cursor.upcoming = code ++ fin'.tokens → x.run s = .ok (a, s') →
    ∃ code' c, code' <:+ code ∧ s'.cursor.upcoming = code' ++ fin.tokens ∧
      y.run t = .ok (a, { t with cursor := c }) ∧ c.final = t.cursor.final ∧
      c.upcoming = code' ++ fin'.tokens

/-- The same of code that begins with a token that was looked at. -/
def AgreesAt (fin : Closing .printClose) (fin' : Closing .interpolateClose) (token : Token)
    (x y : Parse α) : Prop :=
  ∀ s t rest a s', token.kind ≠ .whitespace → s.cursor.upcoming = token :: rest ++ fin.tokens →
    t.cursor.upcoming = token :: rest ++ fin'.tokens → x.run s = .ok (a, s') →
    ∃ code' c, code' <:+ token :: rest ∧ s'.cursor.upcoming = code' ++ fin.tokens ∧
      y.run t = .ok (a, { t with cursor := c }) ∧ c.final = t.cursor.final ∧
      c.upcoming = code' ++ fin'.tokens

/-- A parser has no result. -/
def Rejects (x : Parse α) : Prop :=
  ∀ s r, x.run s ≠ .ok r

theorem Rejects.throw (e : ParseFailure) : Rejects (throw e : Parse α) := by
  intro s r hrun
  cases hrun

theorem Rejects.bind {x : Parse α} (h : Rejects x) (f : α → Parse β) : Rejects (x >>= f) := by
  intro s r hrun
  obtain ⟨a, t, hx, -⟩ := run_bind_eq_ok (u := r.2) hrun
  exact h s _ hx

namespace Agrees

variable {x y : Parse α}

theorem pure (a : α) : Agrees fin fin' (Pure.pure a) (Pure.pure a) := by
  intro s t code b s' hs ht hrun
  cases hrun
  exact ⟨code, t.cursor, List.suffix_refl _, hs, rfl, rfl, ht⟩

theorem of_rejects (h : Rejects x) (y : Parse α) : Agrees fin fin' x y :=
  fun s _ _ a s' _ _ hrun => absurd hrun (h s (a, s'))

theorem bind {f g : α → Parse β} (hx : Agrees fin fin' x y)
    (hf : ∀ a, Agrees fin fin' (f a) (g a)) : Agrees fin fin' (x >>= f) (y >>= g) := by
  intro s t code b s' hs ht hrun
  obtain ⟨a, s₁, hx₁, hrest⟩ := run_bind_eq_ok hrun
  obtain ⟨code₁, c, hcode₁, hs₁, hy, hfinal, hc⟩ := hx s t code a s₁ hs ht hx₁
  obtain ⟨code', d, hcode', hs', hg, hfinal', hd⟩ :=
    hf a s₁ { t with cursor := c } code₁ b s' hs₁ hc hrest
  refine ⟨code', d, hcode'.trans hcode₁, hs', ?_, hfinal'.trans hfinal, hd⟩
  rw [run_bind_ok hy]
  exact hg

theorem ite {p : Prop} [Decidable p] {x' y' : Parse α} (hx : p → Agrees fin fin' x y)
    (hx' : ¬ p → Agrees fin fin' x' y') :
    Agrees fin fin' (if p then x else x') (if p then y else y') := by
  by_cases h : p
  · rw [if_pos h, if_pos h]
    exact hx h
  · rw [if_neg h, if_neg h]
    exact hx' h

theorem iterate {turn : α → Parse (Turn α β)} (hturn : ∀ a, Agrees fin fin' (turn a) (turn a))
    (n : Nat) (a : α) : Agrees fin fin' (iterate turn n a) (iterate turn n a) := by
  induction n generalizing a with
  | zero => exact of_rejects (Rejects.throw _) _
  | succ n ih =>
    refine (hturn a).bind fun r => ?_
    cases r with
    | more a => exact ih a
    | done b => exact pure b

end Agrees

theorem AgreesAt.ite {token : Token} {p : Prop} [Decidable p] {x x' y y' : Parse α}
    (hx : p → AgreesAt fin fin' token x y) (hx' : ¬ p → AgreesAt fin fin' token x' y') :
    AgreesAt fin fin' token (if p then x else x') (if p then y else y') := by
  by_cases h : p
  · rw [if_pos h, if_pos h]
    exact hx h
  · rw [if_neg h, if_neg h]
    exact hx' h

/-! ## §2. Moves -/

theorem run_next {s : ParseState} {token : Token} {rest : List Token}
    (hs : s.cursor.upcoming = token :: rest) (hkind : token.kind ≠ .error) :
    next.run s = .ok (token, { s with cursor := s.cursor.next.2 }) := by
  have hnext : s.cursor.next.1 = token := by rw [Cursor.next, hs]
  rw [next, run_consume (hnext ▸ hkind), hnext]

theorem upcoming_next {c : Cursor} {token : Token} {rest : List Token}
    (h : c.upcoming = token :: rest) : c.next.2.upcoming = rest := by
  rw [Cursor.next, h]

theorem upcoming_next_backup {c : Cursor} {token : Token} {rest : List Token}
    (h : c.upcoming = token :: rest) : c.next.2.backup.upcoming = token :: rest := by
  obtain ⟨past, upcoming, final⟩ := c
  obtain rfl : upcoming = token :: rest := h
  rfl

theorem upcoming_next_next_backup {c : Cursor} {token second : Token} {rest : List Token}
    (h : c.upcoming = token :: second :: rest) :
    c.next.2.next.2.backup.backup.upcoming = token :: second :: rest := by
  obtain ⟨past, upcoming, final⟩ := c
  obtain rfl : upcoming = token :: second :: rest := h
  rfl

namespace Agrees

variable {x y : Parse α}

/-- What a run of `next` reads in code: what closes it, or the first token of it, which another run
reads in the same code. -/
theorem next_cases {s t s₁ : ParseState} {code : List Token} {token : Token}
    (hs : s.cursor.upcoming = code ++ fin.tokens) (ht : t.cursor.upcoming = code ++ fin'.tokens)
    (hrun : Parse.next.run s = .ok (token, s₁)) :
    s₁ = { s with cursor := s.cursor.next.2 } ∧
      ((code = [] ∧ token = fin.token ∧
          Parse.next.run t = .ok (fin'.token, { t with cursor := t.cursor.next.2 })) ∨
        ∃ rest, code = token :: rest ∧ s.cursor.next.2.upcoming = rest ++ fin.tokens ∧
          t.cursor.next.2.upcoming = rest ++ fin'.tokens ∧
          Parse.next.run t = .ok (token, { t with cursor := t.cursor.next.2 })) := by
  obtain ⟨htoken, hkind, rfl⟩ := consume_of_run hrun
  rw [Cursor.next, hs] at htoken
  refine ⟨rfl, ?_⟩
  cases code with
  | nil =>
    obtain rfl : fin.token = token := htoken
    exact .inl ⟨rfl, rfl, run_next ht (fin'.kind_ne rfl rfl)⟩
  | cons first rest =>
    obtain rfl : first = token := htoken
    exact .inr ⟨rest, rfl, upcoming_next hs, upcoming_next ht, run_next ht hkind⟩

/-- A token of the code is read in both places.  What closes the code has to be rejected. -/
theorem next_bind {f g : Token → Parse α} (hreject : Rejects (f fin.token))
    (hf : ∀ token, Agrees fin fin' (f token) (g token)) :
    Agrees fin fin' (next >>= f) (next >>= g) := by
  intro s t code a s' hs ht hrun
  obtain ⟨token, s₁, hnext, hrest⟩ := run_bind_eq_ok hrun
  obtain ⟨rfl, ⟨-, rfl, -⟩ | ⟨rest, rfl, hs₁, ht₁, hread⟩⟩ := next_cases hs ht hnext
  · exact absurd hrest (hreject _ _)
  · obtain ⟨code', c, hcode', hs', hg, hfinal, hc⟩ :=
      hf token _ { t with cursor := t.cursor.next.2 } rest a s' hs₁ ht₁ hrest
    refine ⟨code', c, hcode'.trans (List.suffix_cons _ _), hs', ?_, hfinal.trans (by simp), hc⟩
    rw [run_bind_ok hread]
    exact hg

/-- What a run of `nextSolid` reads in code: what closes it, or a token of it, which another run
reads in the same code. -/
theorem nextSolid_cases {s t s₁ : ParseState} {code : List Token} {token : Token}
    (hs : s.cursor.upcoming = code ++ fin.tokens) (ht : t.cursor.upcoming = code ++ fin'.tokens)
    (hrun : nextSolid.run s = .ok (token, s₁)) :
    (∃ c, token = fin.token ∧ s₁.cursor.backup.upcoming = fin.tokens ∧
        nextSolid.run t = .ok (fin'.token, { t with cursor := c }) ∧ c.final = t.cursor.final ∧
        c.backup.upcoming = fin'.tokens) ∨
      ∃ rest c, token.kind ≠ .whitespace ∧ token :: rest <:+ code ∧
        s₁.cursor.upcoming = rest ++ fin.tokens ∧
        s₁.cursor.backup.upcoming = token :: rest ++ fin.tokens ∧
        nextSolid.run t = .ok (token, { t with cursor := c }) ∧ c.final = t.cursor.final ∧
        c.upcoming = rest ++ fin'.tokens ∧ c.backup.upcoming = token :: rest ++ fin'.tokens := by
  obtain ⟨htoken, hkind, rfl⟩ := consume_of_run hrun
  obtain ⟨past, hmove⟩ := Cursor.exists_nextSolid_eq fin (by simp) s.cursor.past code s.cursor.final
  obtain ⟨past', hmove'⟩ :=
    Cursor.exists_nextSolid_eq fin' (by simp) t.cursor.past code t.cursor.final
  rw [← hs] at hmove
  rw [← ht] at hmove'
  change s.cursor.nextSolid = _ at hmove
  change t.cursor.nextSolid = _ at hmove'
  rw [hmove] at htoken ⊢
  cases hsolid : solid code with
  | nil =>
    rw [hsolid] at hmove' htoken
    refine .inl ⟨t.cursor.nextSolid.2, htoken.symm, rfl, ?_, by rw [hmove'], by rw [hmove']; rfl⟩
    rw [nextSolid, run_consume, hmove']
    rw [hmove', fin'.kind_eq]
    simp
  | cons first rest =>
    rw [hsolid] at hmove' htoken
    obtain rfl : first = token := htoken
    have hfirst : first.kind ≠ .whitespace := by
      have hlead := List.head?_dropWhile_not (·.kind == .whitespace) code
      rw [← solid, hsolid] at hlead
      simpa using hlead
    refine .inr ⟨rest, t.cursor.nextSolid.2, hfirst, hsolid ▸ List.dropWhile_suffix _, rfl, rfl, ?_,
      by rw [hmove'], by rw [hmove'], by rw [hmove']; rfl⟩
    rw [nextSolid, run_consume (by rw [hmove']; exact hkind), hmove']

theorem nextSolid_bind {f g : Token → Parse α} (hreject : Rejects (f fin.token))
    (hf : ∀ token, Agrees fin fin' (f token) (g token)) :
    Agrees fin fin' (nextSolid >>= f) (nextSolid >>= g) := by
  intro s t code a s' hs ht hrun
  obtain ⟨token, s₁, hnext, hrest⟩ := run_bind_eq_ok hrun
  rcases nextSolid_cases hs ht hnext with ⟨-, rfl, -⟩ | ⟨rest, c, -, hsuffix, hs₁, -, hread,
    hfinal, hc, -⟩
  · exact absurd hrest (hreject _ _)
  · obtain ⟨code', d, hcode', hs', hg, hfinal', hd⟩ :=
      hf token s₁ { t with cursor := c } rest a s' hs₁ hc hrest
    refine ⟨code', d, hcode'.trans ((List.suffix_cons _ _).trans hsuffix), hs', ?_,
      hfinal'.trans hfinal, hd⟩
    rw [run_bind_ok hread]
    exact hg

theorem agreesAt (h : Agrees fin fin' x y) (token : Token) : AgreesAt fin fin' token x y :=
  fun s t rest a s' _ => h s t (token :: rest) a s'

/-- A token that was looked at is taken. -/
theorem take {f g : Token → Parse α} {token : Token} (h : Agrees fin fin' (f token) (g token)) :
    AgreesAt fin fin' token (nextSolid >>= f) (nextSolid >>= g) := by
  intro s t rest a s' hsolid hs ht hrun
  obtain ⟨found, s₁, hnext, hrest⟩ := run_bind_eq_ok hrun
  obtain ⟨hfound, hkind, rfl⟩ := consume_of_run hnext
  have hmove : ∀ {c : Cursor} {more : List Token}, c.upcoming = token :: more →
      c.nextSolid = (token, ⟨Cursor.remember c.past token, more, c.final⟩) := by
    rintro ⟨past, upcoming, final⟩ more rfl
    rw [Cursor.nextSolid, Cursor.solidFrom, if_neg hsolid]
  rw [hmove hs] at hfound hrest
  obtain rfl : token = found := hfound
  obtain ⟨code', c, hcode', hs', hg, hfinal, hc⟩ :=
    h _ { t with cursor := t.cursor.nextSolid.2 } rest a s' rfl (by rw [hmove ht]; rfl) hrest
  refine ⟨code', c, hcode'.trans (List.suffix_cons _ _), hs', ?_, by rw [hfinal, hmove ht], hc⟩
  rw [StateT.run_bind, nextSolid, run_consume (by rw [hmove ht]; exact hkind), hmove ht]
  rw [hmove ht] at hg
  exact hg

/-- A token that is looked at is the same in both places, or it is what closes the code there. -/
theorem peek_bind {f g : Token → Parse α} (hclose : Agrees fin fin' (f fin.token) (g fin'.token))
    (hf : ∀ token, AgreesAt fin fin' token (f token) (g token)) :
    Agrees fin fin' (peek >>= f) (peek >>= g) := by
  intro s t code a s' hs ht hrun
  obtain ⟨token, s₁, hpeek, hrest⟩ := run_bind_eq_ok hrun
  obtain ⟨_, s₂, hnext, hback⟩ := run_bind_eq_ok hpeek
  cases hback
  rcases nextSolid_cases hs ht hnext with ⟨c, rfl, hs₁, hread, hfinal, hc⟩ |
    ⟨rest, c, hsolid, hsuffix, -, hs₁, hread, hfinal, -, hc⟩
  · obtain ⟨code', d, hcode', hs', hg, hfinal', hd⟩ :=
      hclose _ { t with cursor := c.backup } [] a s' hs₁ hc hrest
    refine ⟨code', d, hcode'.trans (List.nil_suffix), hs', ?_,
      hfinal'.trans (c.final_backup.trans hfinal), hd⟩
    rw [peek, bind_assoc, run_bind_ok hread]
    exact hg
  · obtain ⟨code', d, hcode', hs', hg, hfinal', hd⟩ :=
      hf _ _ { t with cursor := c.backup } rest a s' hsolid hs₁ hc hrest
    refine ⟨code', d, hcode'.trans hsuffix, hs', ?_,
      hfinal'.trans (c.final_backup.trans hfinal), hd⟩
    rw [peek, bind_assoc, run_bind_ok hread]
    exact hg

/-- What is asked for is not what closes the code. -/
theorem accept {kind : TokenKind} (hkind : kind.closesCode = false) (value : String) :
    Agrees fin fin' (accept kind value) (accept kind value) := by
  intro s t code a s' hs ht hrun
  obtain ⟨token, s₁, hnext, hrest⟩ := run_bind_eq_ok hrun
  rcases nextSolid_cases hs ht hnext with ⟨c, rfl, hs₁, hread, hfinal, hc⟩ |
    ⟨rest, c, -, hsuffix, hs₁, hback, hread, hfinal, hc, hback'⟩
  · rw [fin.is_eq_false rfl hkind] at hrest
    cases hrest
    refine ⟨[], c.backup, List.nil_suffix, hs₁, ?_, c.final_backup.trans hfinal, hc⟩
    rw [Parse.accept, run_bind_ok hread, fin'.is_eq_false rfl hkind]
    rfl
  · rw [Parse.accept, run_bind_ok hread]
    split at hrest
    · next his =>
      cases hrest
      rw [if_pos his]
      exact ⟨rest, c, (List.suffix_cons _ _).trans hsuffix, hs₁, rfl, hfinal, hc⟩
    · next his =>
      cases hrest
      rw [if_neg his]
      exact ⟨token :: rest, c.backup, hsuffix, hback, rfl, c.final_backup.trans hfinal, hback'⟩

theorem expect {kinds : List TokenKind} (hkinds : kinds.contains .printClose = false) :
    Agrees fin fin' (expect kinds) (expect kinds) := by
  refine nextSolid_bind ?_ fun token => ite (fun _ => pure token) fun _ =>
    of_rejects (Rejects.throw _) _
  rw [fin.kind_eq, hkinds]
  exact Rejects.throw _

theorem expectValue {kind : TokenKind} (hkind : kind.closesCode = false) (value : String) :
    Agrees fin fin' (expectValue kind value) (expectValue kind value) := by
  refine nextSolid_bind ?_ fun token => ite (fun _ => pure token) fun _ =>
    of_rejects (Rejects.throw _) _
  rw [fin.is_eq_false rfl hkind]
  exact Rejects.throw _

/-- Something may follow in one piece: a dot and a token of some kind after it. -/
theorem dotted {kind : TokenKind} (hkind : kind.closesCode = false)
    {f : Token → Parse α} {x : Parse α} (hf : ∀ part, Agrees fin fin' (f part) (f part))
    (hx : Agrees fin fin' x x) : Agrees fin fin'
      (do
        let dot ← next
        if dot.is .punctuation "." then
          let part ← next
          if part.kind = kind then f part
          else
            backup
            backup
            x
        else
          backup
          x)
      (do
        let dot ← next
        if dot.is .punctuation "." then
          let part ← next
          if part.kind = kind then f part
          else
            backup
            backup
            x
        else
          backup
          x) := by
  intro s t code a s' hs ht hrun
  -- Where no piece follows, what was looked at is taken back.
  have hback (c d : Cursor) (hc : c.upcoming = code ++ fin.tokens)
      (hd : d.upcoming = code ++ fin'.tokens) (hfinal : d.final = t.cursor.final)
      (hrun : x.run { s with cursor := c } = .ok (a, s')) :
      ∃ code' c', code' <:+ code ∧ s'.cursor.upcoming = code' ++ fin.tokens ∧
        x.run { t with cursor := d } = .ok (a, { t with cursor := c' }) ∧
        c'.final = t.cursor.final ∧ c'.upcoming = code' ++ fin'.tokens := by
    obtain ⟨code', c', hcode', hs', hread, hfinal', hc'⟩ :=
      hx _ { t with cursor := d } code a s' hc hd hrun
    exact ⟨code', c', hcode', hs', hread, hfinal'.trans hfinal, hc'⟩
  obtain ⟨dot, s₁, hnext, hrest⟩ := run_bind_eq_ok hrun
  obtain ⟨rfl, ⟨rfl, rfl, hread⟩ | ⟨rest, rfl, hs₁, ht₁, hread⟩⟩ := next_cases hs ht hnext
  · rw [fin.is_eq_false rfl rfl, if_neg Bool.false_ne_true] at hrest
    rw [run_bind_ok hread, fin'.is_eq_false rfl rfl, if_neg Bool.false_ne_true]
    exact hback _ _ (upcoming_next_backup hs) (upcoming_next_backup ht) (by simp) hrest
  · rw [run_bind_ok hread]
    by_cases hdot : dot.is .punctuation "." = true
    · rw [if_pos hdot] at hrest ⊢
      obtain ⟨part, s₂, hnext', hrest⟩ := run_bind_eq_ok hrest
      obtain ⟨rfl, ⟨rfl, rfl, hread'⟩ | ⟨rest, rfl, hs₂, ht₂, hread'⟩⟩ :=
        next_cases (t := { t with cursor := t.cursor.next.2 }) hs₁ ht₁ hnext'
      · rw [if_neg (fin.kind_ne rfl hkind)] at hrest
        rw [run_bind_ok hread', if_neg (fin'.kind_ne rfl hkind)]
        exact hback _ _ (upcoming_next_next_backup hs) (upcoming_next_next_backup ht) (by simp)
          hrest
      · rw [run_bind_ok hread']
        by_cases hpart : part.kind = kind
        · rw [if_pos hpart] at hrest ⊢
          obtain ⟨code', c, hcode', hs', hread, hfinal, hc⟩ :=
            hf part _ { t with cursor := t.cursor.next.2.next.2 } rest a s' hs₂ ht₂ hrest
          refine ⟨code', c, ?_, hs', hread, hfinal.trans (by simp), hc⟩
          exact (hcode'.trans (List.suffix_cons _ _)).trans (List.suffix_cons _ _)
        · rw [if_neg hpart] at hrest ⊢
          exact hback _ _ (upcoming_next_next_backup hs) (upcoming_next_next_backup ht) (by simp)
            hrest
    · rw [if_neg hdot] at hrest ⊢
      exact hback _ _ (upcoming_next_backup hs) (upcoming_next_backup ht) (by simp) hrest

end Agrees

variable {x : Parse α}

theorem agrees_listUntil (hx : Agrees fin fin' x x) (n : Nat) {close : TokenKind}
    (hclose : close.closesCode = false) :
    Agrees fin fin' (listUntil n close x) (listUntil n close x) := by
  refine Agrees.iterate (fun items => ?_) n []
  -- An item and what comes after it, in a turn that is not the last one.
  have hitem : Agrees fin fin'
      (do
        let items := (← x) :: items
        let token ← nextSolid
        if token.kind = close then Pure.pure (Turn.done items.reverse)
        else if token.is .punctuation "," then Pure.pure (.more items)
        else unexpected token ("\",\" or " ++ close.describe))
      (do
        let items := (← x) :: items
        let token ← nextSolid
        if token.kind = close then Pure.pure (Turn.done items.reverse)
        else if token.is .punctuation "," then Pure.pure (.more items)
        else unexpected token ("\",\" or " ++ close.describe)) := by
    refine hx.bind fun item => Agrees.nextSolid_bind ?_ fun token => ?_
    · rw [if_neg (fin.kind_ne rfl hclose), fin.is_eq_false rfl rfl]
      exact Rejects.throw _
    · exact Agrees.ite (fun _ => Agrees.pure _) fun _ =>
        Agrees.ite (fun _ => Agrees.pure _) fun _ => Agrees.of_rejects (Rejects.throw _) _
  refine Agrees.peek_bind ?_ fun token => AgreesAt.ite (fun _ => Agrees.take (Agrees.pure _))
    fun _ => hitem.agreesAt token
  rw [if_neg (fin.kind_ne rfl hclose),
    if_neg (fin'.kind_ne rfl hclose)]
  exact hitem

end Parse

/-! ## §3. Expressions -/

namespace Expr

open Parse

variable {fin : Closing .printClose} {fin' : Closing .interpolateClose}

theorem agrees_readNumber (pos : Position) (text : String) :
    Agrees fin fin' (readNumber pos text) (readNumber pos text) := by
  unfold readNumber
  cases Number.readWhole? text.toList with
  | none => exact Agrees.of_rejects (Rejects.throw _) _
  | some value => exact Agrees.pure _

theorem agrees_parseNumber (pos : Position) (whole : String) :
    Agrees fin fin' (parseNumber pos whole) (parseNumber pos whole) :=
  Agrees.dotted rfl (fun _ => agrees_readNumber pos _) (agrees_readNumber pos whole)

section Rules

variable {rec : Tightness → Parse Expr}
  (hrec : ∀ tightness, Agrees fin fin' (rec tightness) (rec tightness))

include hrec

theorem agrees_parseString (n : Nat) (pos : Position) :
    Agrees fin fin' (parseString n rec pos) (parseString n rec pos) := by
  refine (Agrees.iterate (fun segments => Agrees.next_bind ?_ fun token => ?_) n []).bind
    fun _ => Agrees.pure _
  · simp only [fin.kind_eq]
    exact Rejects.throw _
  · cases token.kind with
    | stringText => exact Agrees.pure _
    | interpolateOpen =>
      exact (hrec .any).bind fun _ => (Agrees.expect rfl).bind fun _ => Agrees.pure _
    | stringClose => exact Agrees.pure _
    | _ => exact Agrees.of_rejects (Rejects.throw _) _

theorem agrees_parseArgs? (n : Nat) :
    Agrees fin fin' (parseArgs? n rec) (parseArgs? n rec) := by
  refine (Agrees.accept rfl _).bind fun _ => Agrees.ite (fun _ => ?_) fun _ =>
    Agrees.pure _
  exact (agrees_listUntil (hrec .any) n rfl).bind fun _ => Agrees.pure _

theorem agrees_parseWord (n : Nat) (pos : Position) (word : String) :
    Agrees fin fin' (parseWord n rec pos word) (parseWord n rec pos word) := by
  unfold parseWord
  split
  · exact Agrees.pure _
  · exact Agrees.pure _
  · exact Agrees.pure _
  · exact Agrees.pure _
  · refine (agrees_parseArgs? hrec n).bind fun args => ?_
    cases args <;> exact Agrees.pure _

theorem agrees_parseEnclosed (n : Nat) (token : Token) :
    Agrees fin fin' (parseEnclosed n rec token) (parseEnclosed n rec token) := by
  unfold parseEnclosed
  cases token.kind with
  | stringOpen => exact agrees_parseString hrec n _
  | parensOpen => exact (hrec .any).bind fun _ => (Agrees.expect rfl).bind fun _ => Agrees.pure _
  | _ => exact Agrees.of_rejects (Rejects.throw _) _

theorem agrees_parseEntry (n : Nat) :
    Agrees fin fin' (parseEntry n rec) (parseEntry n rec) := by
  refine Agrees.nextSolid_bind ?_ fun token => ?_
  · simp only [fin.kind_eq]
    exact (Rejects.throw _).bind _
  · extract_lets value
    have hvalue : ∀ key, Agrees fin fin' (value key) (value key) := fun key =>
      (Agrees.expectValue rfl _).bind fun _ => (hrec .any).bind fun _ => Agrees.pure _
    cases token.kind with
    | name => exact (Agrees.pure _).bind hvalue
    | number => exact (agrees_parseNumber _ _).bind hvalue
    | stringOpen | parensOpen => exact (agrees_parseEnclosed hrec n token).bind hvalue
    | _ => exact Agrees.of_rejects ((Rejects.throw _).bind _) _

theorem agrees_parsePrimary (n : Nat) :
    Agrees fin fin' (parsePrimary n rec) (parsePrimary n rec) := by
  refine Agrees.nextSolid_bind ?_ fun token => ?_
  · simp only [fin.kind_eq, parseEnclosed]
    exact Rejects.throw _
  · cases token.kind with
    | name => exact agrees_parseWord hrec n _ _
    | number => exact agrees_parseNumber _ _
    | arrayOpen =>
      exact (agrees_listUntil (hrec .any) n rfl).bind fun _ => Agrees.pure _
    | hashOpen =>
      exact (agrees_listUntil (agrees_parseEntry hrec n) n rfl).bind fun _ =>
        Agrees.pure _
    | _ => exact agrees_parseEnclosed hrec n token

theorem agrees_parseLink (n : Nat) (subject : Expr) :
    Agrees fin fin' (parseLink n rec subject) (parseLink n rec subject) := by
  refine Agrees.peek_bind ?_ fun token => ?_
  · -- No link begins with what closes the code.
    simpa [Token.is, fin.kind_eq, fin'.kind_eq] using Agrees.pure _
  refine AgreesAt.ite (fun _ => ?_) fun _ => AgreesAt.ite (fun _ => ?_) fun _ =>
    AgreesAt.ite (fun _ => ?_) fun _ => (Agrees.pure _).agreesAt token
  · refine Agrees.take (Agrees.bind ?_ fun _ => Agrees.pure _)
    refine (Agrees.expect rfl).bind fun key => (agrees_parseArgs? hrec n).bind fun args => ?_
    cases args <;> exact Agrees.pure _
  · exact Agrees.take ((hrec .any).bind fun _ => (Agrees.expect rfl).bind fun _ => Agrees.pure _)
  · exact Agrees.take ((Agrees.expect rfl).bind fun _ => (agrees_parseArgs? hrec n).bind fun _ =>
      Agrees.pure _)

theorem agrees_parseOperand (n : Nat) :
    Agrees fin fin' (parseOperand n rec) (parseOperand n rec) := by
  have hprimary : Agrees fin fin' (parsePrimary n rec >>= parsePostfix n rec)
      (parsePrimary n rec >>= parsePostfix n rec) :=
    (agrees_parsePrimary hrec n).bind fun primary =>
      Agrees.iterate (agrees_parseLink hrec n) n primary
  refine Agrees.peek_bind ?_ fun token => ?_
  · rw [if_neg (fin.kind_ne rfl rfl), if_neg (fin'.kind_ne rfl rfl)]
    exact hprimary
  · cases (if token.kind = .operator then UnaryOp.ofSpelling? token.value else none) with
    | some op => exact Agrees.take ((hrec _).bind fun _ => Agrees.pure _)
    | none => exact hprimary.agreesAt token

theorem agrees_parseTest (n : Nat) (pos : Position) (negated : Bool) (subject : Expr) :
    Agrees fin fin' (parseTest n rec pos negated subject)
      (parseTest n rec pos negated subject) := by
  refine Agrees.nextSolid_bind ?_ fun first => ?_
  · rw [if_pos (fin.kind_ne rfl rfl)]
    exact (Rejects.throw _).bind _
  extract_lets test named
  have htest : ∀ name, Agrees fin fin' (test name) (test name) := fun name =>
    (agrees_parseArgs? hrec n).bind fun _ => Agrees.pure _
  have hnamed : ∀ u, Agrees fin fin' (named u) (named u) := by
    refine fun _ => Agrees.peek_bind ?_ fun second => AgreesAt.ite (fun _ => ?_) fun _ => ?_
    · rw [if_neg (fin.kind_ne rfl rfl), if_neg (fin'.kind_ne rfl rfl)]
      exact (Agrees.pure _).bind htest
    · exact Agrees.take ((Agrees.pure _).bind htest)
    · exact ((Agrees.pure _).bind htest).agreesAt second
  exact Agrees.ite (fun _ => Agrees.of_rejects ((Rejects.throw _).bind _) _) fun _ => hnamed ()

theorem agrees_climb (n minimum : Nat) (left : Expr) :
    Agrees fin fin' (climb n rec minimum left) (climb n rec minimum left) := by
  refine Agrees.peek_bind ?_ fun token => ?_
  · rw [if_pos (fin.kind_ne rfl rfl), if_pos (fin'.kind_ne rfl rfl)]
    exact Agrees.pure _
  have hdone : AgreesAt fin fin' token (Pure.pure (.done left) : Parse (Turn Expr Expr))
      (Pure.pure (.done left)) := (Agrees.pure _).agreesAt token
  refine AgreesAt.ite (fun _ => hdone) fun _ => AgreesAt.ite (fun _ => ?_) fun _ => ?_
  · exact AgreesAt.ite (fun _ => hdone) fun _ =>
      Agrees.take ((agrees_parseTest hrec n _ _ left).bind fun _ => Agrees.pure _)
  · cases BinaryOp.ofSpelling? token.value with
    | none => exact hdone
    | some op =>
      exact AgreesAt.ite (fun _ => hdone) fun _ =>
        Agrees.take ((hrec _).bind fun _ => Agrees.pure _)

theorem agrees_parseConditional (cond : Expr) :
    Agrees fin fin' (parseConditional rec cond) (parseConditional rec cond) := by
  refine (Agrees.accept rfl _).bind fun _ => Agrees.ite (fun _ => ?_) fun _ =>
    Agrees.pure _
  refine (hrec .any).bind fun whenTrue => (Agrees.accept rfl _).bind fun _ => ?_
  exact Agrees.ite (fun _ => (hrec .any).bind fun _ => Agrees.pure _) fun _ => Agrees.pure _

end Rules

/-- An expression is parsed alike in a print and in an interpolation. -/
theorem agrees_parse (fin : Closing .printClose) (fin' : Closing .interpolateClose) (n : Nat)
    (tightness : Tightness) : Agrees fin fin' (parse n tightness) (parse n tightness) := by
  induction n generalizing tightness with
  | zero => exact Agrees.of_rejects (Rejects.throw _) _
  | succ n ih =>
    cases tightness with
    | any => exact (ih (.atLeast 0)).bind fun cond => agrees_parseConditional ih cond
    | atLeast minimum =>
      exact (agrees_parseOperand ih n).bind fun left =>
        Agrees.iterate (agrees_climb ih n minimum) n left

end Expr

/-! ## §4. From a print to an interpolation -/

/-- The token that closes an interpolation. -/
def interpolateShape : TokenKind × String :=
  (.interpolateClose, "\x7d")

/-- Blanks and then some tokens. -/
def AfterBlanks (ks ks' : List (TokenKind × String)) : Prop :=
  ∃ blanks : List (TokenKind × String), (∀ k ∈ blanks, k.1 = .whitespace) ∧ ks' = blanks ++ ks

theorem Token.unplaced_of_shape {t t' : Token} (h : t.shape = t'.shape) :
    t.unplaced = t'.unplaced := by
  have hkind : t.kind = t'.kind := congrArg Prod.fst h
  have hvalue : t.value = t'.value := congrArg Prod.snd h
  rw [unplaced, unplaced, hkind, hvalue]

theorem map_unplaced_of_shapes {l l' : List Token} (h : l.map Token.shape = l'.map Token.shape) :
    l.map Token.unplaced = l'.map Token.unplaced := by
  induction l generalizing l' with
  | nil =>
    obtain rfl : l' = [] := List.map_eq_nil_iff.mp h.symm
    rfl
  | cons t l ih =>
    obtain ⟨t', l', rfl, ht, hl⟩ := List.map_eq_cons_iff.mp h.symm
    rw [List.map_cons, List.map_cons, Token.unplaced_of_shape ht.symm, ih hl.symm]

namespace Parse

/-- What closes an interpolation is taken, after blanks. -/
theorem takes_interpolateClose (more : List (TokenKind × String)) :
    Takes (expect [.interpolateClose]) (AfterBlanks (interpolateShape :: more)) (fun _ => True)
      (· = more) := by
  rintro s ⟨blanks, hblanks, hs⟩
  obtain ⟨code, rest, hupcoming, hcode, hrest⟩ := List.map_eq_append_iff.mp hs
  obtain ⟨close, rest, rfl, hclose, hmore⟩ := List.map_eq_cons_iff.mp hrest
  have hkind : close.kind = .interpolateClose := congrArg Prod.fst hclose
  have hsolid : solid code = [] := solid_eq_nil_iff.mpr fun token hmem =>
    hblanks token.shape (hcode ▸ List.mem_map_of_mem hmem)
  obtain ⟨past, hmove⟩ :=
    Cursor.exists_nextSolid_eq ⟨close, rest, hkind⟩ (by simp) s.cursor.past code s.cursor.final
  rw [hsolid] at hmove
  have hcursor : s.cursor = ⟨s.cursor.past, code ++ close :: rest, s.cursor.final⟩ := by
    rw [← hupcoming]
  change Cursor.nextSolid ⟨s.cursor.past, code ++ close :: rest, s.cursor.final⟩ = _ at hmove
  rw [← hcursor] at hmove
  refine ⟨close, s.cursor.nextSolid.2, ?_, by rw [hmove], ?_, trivial⟩
  · rw [expect, nextSolid, run_bind_ok (run_consume (by simp [hmove, hkind])), hmove, hkind]
    rfl
  · rw [hmove]
    exact hmore

/-- What is taken as the end of a print is what closes its code, if the code has no other such
token. -/
theorem closes_of_expect {fin : Closing .printClose} {code : List Token}
    (hcode : ∀ token ∈ code, token.kind ≠ .printClose) {s t : ParseState} {close : Token}
    (hs : s.cursor.upcoming = code ++ fin.tokens)
    (h : (expect [.printClose]).run s = .ok (close, t)) :
    (∀ token ∈ code, token.kind = .whitespace) ∧ t.cursor.upcoming = fin.more := by
  obtain ⟨token, s₁, hnext, hrest⟩ := run_bind_eq_ok h
  obtain ⟨htoken, -, rfl⟩ := consume_of_run hnext
  obtain ⟨past, hmove⟩ := Cursor.exists_nextSolid_eq fin nofun s.cursor.past code s.cursor.final
  rw [← hs] at hmove
  change s.cursor.nextSolid = _ at hmove
  rw [hmove] at htoken hrest
  split at hrest
  · next hkind =>
    obtain ⟨rfl, rfl⟩ := Prod.mk.inj (Except.ok.inj hrest)
    have hkind : token.kind = .printClose := by simpa using hkind
    cases hsolid : solid code with
    | nil => exact ⟨solid_eq_nil_iff.mp hsolid, rfl⟩
    | cons first rest =>
      rw [hsolid] at htoken
      obtain rfl : first = token := htoken
      have hmem : first ∈ code := (List.dropWhile_suffix _).subset (hsolid ▸ List.mem_cons_self)
      exact absurd hkind (hcode first hmem)
  · cases hrest

end Parse

namespace Expr

open Parse

/-- **An expression in an interpolation.**  Code that is parsed as the expression of a print is
parsed in an interpolation as the same tree up to places, and to its end. -/
theorem takes_parse_of_print {fin : Closing .printClose} {code : List Token}
    (hcode : ∀ token ∈ code, token.kind ≠ .printClose) {s s₁ s₂ : ParseState} {e : Expr}
    {close : Token} {n m : Nat} (hs : s.cursor.upcoming = code ++ fin.tokens)
    (hparse : (parse n .any).run s = .ok (e, s₁))
    (hclose : (expect [.printClose]).run s₁ = .ok (close, s₂)) (hnm : n ≤ m)
    (more : List (TokenKind × String)) :
    Takes (parse m .any) (· = code.map Token.shape ++ interpolateShape :: more)
      (·.unplaced = e.unplaced) (AfterBlanks (interpolateShape :: more)) := by
  intro t ht
  obtain ⟨code', rest, hupcoming, hshapes, hrest⟩ := List.map_eq_append_iff.mp ht
  obtain ⟨closer, rest, rfl, hcloser, hmore⟩ := List.map_eq_cons_iff.mp hrest
  let fin' : Closing .interpolateClose := ⟨closer, rest, congrArg Prod.fst hcloser⟩
  -- In the print the code is parsed with the places that it has in the interpolation.
  let s' : ParseState := { s with cursor := ⟨s.cursor.past, code' ++ fin.tokens, s.cursor.final⟩ }
  have hunplaced : s'.unplaced = s.unplaced := by
    simp [ParseState.unplaced, Cursor.unplaced, s', hs, map_unplaced_of_shapes hshapes]
  have hforgets := Expr.forgets_parse n .any s'
  rw [hunplaced, Expr.forgets_parse n .any s, hparse] at hforgets
  cases hrun : (parse n .any).run s' with
  | error error =>
    rw [hrun] at hforgets
    cases hforgets
  | ok r =>
    obtain ⟨e', s₁'⟩ := r
    rw [hrun] at hforgets
    obtain ⟨he, hs₁⟩ := Prod.mk.inj (Except.ok.inj hforgets)
    obtain ⟨left', c, -, hleft', hread, hfinal, hc⟩ :=
      agrees_parse fin fin' n .any s' t code' e' s₁' rfl hupcoming hrun
    obtain ⟨left, -, hsuffix, hleft, -⟩ :=
      agrees_parse fin fin' n .any s { s with cursor := ⟨[], code ++ fin'.tokens, close⟩ }
        code e s₁ hs rfl hparse
    obtain ⟨hblank, -⟩ :=
      closes_of_expect (fun token hmem => hcode token (hsuffix.subset hmem)) hleft hclose
    -- What is left of the code is as blank as it is in the print.
    have hsame : left.map Token.unplaced = left'.map Token.unplaced := by
      have hall : s₁.unplaced.cursor.upcoming = s₁'.unplaced.cursor.upcoming := by rw [hs₁]
      simpa [ParseState.unplaced, Cursor.unplaced, hleft, hleft'] using hall
    refine ⟨e', c, (refines_parse hnm .any).run_eq_ok hread, hfinal, ?_, he.symm⟩
    refine ⟨left'.map Token.shape, fun k hk => ?_, ?_⟩
    · obtain ⟨token, hmem, rfl⟩ := List.mem_map.mp hk
      have hmem : token.unplaced ∈ left.map Token.unplaced := hsame ▸ List.mem_map_of_mem hmem
      obtain ⟨token', hmem', heq⟩ := List.mem_map.mp hmem
      have hkind : token'.unplaced.kind = token.unplaced.kind := congrArg Token.kind heq
      exact hkind.symm.trans (hblank token' hmem')
    · rw [Cursor.shapes, hc, List.map_append, ← hcloser, ← hmore]
      rfl

end Expr

end Stencil
