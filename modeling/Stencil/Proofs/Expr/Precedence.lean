import Stencil.Proofs.Template.WellFormed

/-!
Operators stand where their precedences let them.

A prefix operator takes its operand with a minimum of its own, so does the right side of a binary
operator, and either may stand inside the other.  Whatever the minimums are that wait around a call,
two things hold when it returns: no operator of less than its minimum is on top of the result, and
the next token is no operator that it would have taken.  The first is about the result as a right
side, the second about the result as the left side of what comes next.

The parts of a string are joined by an operator that is not in the source, whatever they are; so
what is shown here is about sources without interpolations.
-/

namespace Stencil

/-! ## §1. What may stand beside an operator -/

/-- Whether an expression may stand on the right side of an operator without parentheses. -/
def BinaryOp.AllowsRight (op : BinaryOp) : Expr → Prop
  | .binary _ inner _ _ => op.precedence < inner.precedence ∨
      inner.precedence = op.precedence ∧ inner.associativity = .right
  | _ => True

/-- Whether an expression may stand on the left side of an operator without parentheses.  A negated
test may stand anywhere. -/
def BinaryOp.AllowsLeft (op : BinaryOp) : Expr → Prop
  | .binary _ inner _ _ => op.precedence < inner.precedence ∨
      inner.precedence = op.precedence ∧ inner.associativity = .left
  | .unary _ _ (.test ..) => True
  | .unary _ inner _ => op.precedence < inner.precedence
  | _ => True

/-- Whether an expression may stand behind a prefix operator without parentheses. -/
def UnaryOp.Allows (op : UnaryOp) : Expr → Prop
  | .binary _ inner _ _ => op.precedence ≤ inner.precedence
  | _ => True

/-- Whether a token is an operator between two expressions. -/
def Token.IsInfix (token : Token) (op : BinaryOp) : Prop :=
  token.kind = .operator ∧ BinaryOp.ofSpelling? token.value = some op

namespace BinaryOp

/-- Operators of one precedence are grouped the same way. -/
theorem associativity_eq {op inner : BinaryOp} (h : inner.precedence = op.precedence) :
    inner.associativity = op.associativity := by
  cases op <;> cases inner <;> first | rfl | cases h

/-- What is read with the minimum of a right side may stand there. -/
theorem allowsRight_of_le {op : BinaryOp} {e : Expr}
    (h : ∀ pos inner left right, e = .binary pos inner left right →
      op.rightMinimum ≤ inner.precedence) : op.AllowsRight e := by
  cases e with
  | binary pos inner left right =>
    have hle := h pos inner left right rfl
    unfold rightMinimum at hle
    cases hassoc : op.associativity with
    | left =>
      simp only [hassoc] at hle
      exact .inl hle
    | right =>
      simp only [hassoc] at hle
      rcases Nat.lt_or_eq_of_le hle with hlt | heq
      · exact .inl hlt
      · exact .inr ⟨heq.symm, (associativity_eq heq.symm).trans hassoc⟩
  | _ => trivial

/-- What an operator is left to after a right side may have that operator on its left side. -/
theorem allowsLeft_of_lt {op inner : BinaryOp} (h : op.precedence < inner.rightMinimum)
    (pos : Position) (left right : Expr) : op.AllowsLeft (.binary pos inner left right) := by
  unfold rightMinimum at h
  cases hassoc : inner.associativity with
  | left =>
    simp only [hassoc] at h
    rcases Nat.lt_or_eq_of_le (Nat.le_of_lt_succ h) with hlt | heq
    · exact .inl hlt
    · exact .inr ⟨heq.symm, hassoc⟩
  | right =>
    simp only [hassoc] at h
    exact .inl h

theorem allowsLeft_unary {op : BinaryOp} {inner : UnaryOp} (h : op.precedence < inner.precedence)
    (pos : Position) (operand : Expr) : op.AllowsLeft (.unary pos inner operand) := by
  cases operand <;> first | exact h | trivial

theorem allowsLeft_of_not_isOperation {e : Expr} (h : ¬ e.IsOperation) (op : BinaryOp) :
    op.AllowsLeft e := by
  cases e with
  | binary | unary => exact absurd trivial h
  | _ => trivial

theorem allowsLeft_of_isTest {e : Expr} (h : e.IsTest) (op : BinaryOp) : op.AllowsLeft e := by
  cases h <;> trivial

/-- The operators of tests are not among the binary ones. -/
theorem not_isInfix_test {token : Token}
    (h : (token.value == "is" || token.value == "is not") = true) (op : BinaryOp) :
    ¬ token.IsInfix op := by
  rintro ⟨-, hop⟩
  simp only [Bool.or_eq_true, beq_iff_eq] at h
  rcases h with h | h <;> rw [h] at hop <;> cases hop

end BinaryOp

namespace Expr

open Parse

/-- Operands may stand beside the operator that is applied to them. -/
def Ranked : Expr → Prop
  | .binary _ op left right => op.AllowsLeft left ∧ op.AllowsRight right
  | .unary _ op operand => op.Allows operand
  | _ => True

/-- No operator of less than a minimum is on top of an expression. -/
def HoldsTogether (minimum : Nat) (e : Expr) : Prop :=
  ∀ pos op left right, e = .binary pos op left right → minimum ≤ op.precedence

/-- Without an operator in front of it an expression is ranked if its parts are. -/
theorem admits_ranked :
    Admits (Everywhere Ranked) fun e => e.Everywhere Ranked ∧ ¬ e.IsOperation where
  node := by
    intro e hnode _ hparts
    refine ⟨.node ?_ hparts, hnode⟩
    cases e with
    | binary | unary => exact absurd trivial hnode
    | _ => trivial
  any := fun _ h => h.1
  negated := fun _ _ _ _ _ h => .node trivial (by simpa [parts] using h)

end Expr

/-! ## §2. Strings -/

/-- Strings are literal: nothing is interpolated, and their text is in one piece. -/
structure TokenStream.Literal (σ : TokenStream) : Prop where
  closed : ∀ token ∈ σ.tokens, token.kind ≠ .interpolateOpen
  joined : σ.tokens.IsChain fun token token' =>
    token.kind = .stringText → token'.kind ≠ .stringText

theorem literal_lex {source : String} (h : ¬ ['#', '{'] <:+: source.toList) :
    (lex source).Literal where
  closed := by
    intro token htoken hkind
    obtain ⟨t, u, hsuffix, hgives⟩ :=
      Scan.exists_gives (source.toList.length + 1) (.start source) token htoken
    exact h ((hgives.opens hkind).isInfix.trans hsuffix.isInfix)
  joined := Scan.isChain_text (source.toList.length + 1) (.start source)

namespace Expr

open Parse

variable {σ : TokenStream} {rec : Tightness → Parse Expr} {n : Nat}

/-- A string without interpolations has one segment at most. -/
theorem collects_parseSegment (hσ : σ.Literal) (pos : Position) {segments : List Expr}
    {l : List Token} (hl : l <:+ σ.tokens) (d : Collected)
    (hsegments : segments = [] ∨ (∃ start text, segments = [.string start text]) ∧
      ∀ token ∈ l.head?, token.kind ≠ .stringText) :
    Collects σ (parseSegment rec pos segments) l d fun r l' d' => d' = d ∧ Crosses l l' ∧
      r.Holds (fun segments => segments = [] ∨ (∃ start text, segments = [.string start text]) ∧
          ∀ token ∈ l'.head?, token.kind ≠ .stringText)
        (fun segments => segments = [] ∨ ∃ start text, segments = [.string start text]) := by
  refine Collects.bind (collects_next l d) fun token l' d' h => ?_
  obtain ⟨-, -, hcons, -, rfl⟩ := h
  split
  · next hkind =>
    obtain rfl := hcons (by rw [hkind]; rfl)
    -- There is no segment yet, for no text comes after one.
    rcases hsegments with rfl | ⟨-, hhead⟩
    · refine Collects.pure ⟨rfl, .cons (by rw [hkind]; rfl) (.refl l'), .inr ⟨⟨_, _, rfl⟩, ?_⟩⟩
      intro token' htoken'
      have hchain := hσ.joined.suffix hl
      exact (List.isChain_cons.mp hchain).1 token' htoken' hkind
    · exact absurd hkind (hhead token rfl)
  · next hkind =>
    obtain rfl := hcons (by rw [hkind]; rfl)
    exact absurd hkind (hσ.closed token (hl.subset List.mem_cons_self))
  · next hkind =>
    obtain rfl := hcons (by rw [hkind]; rfl)
    refine Collects.pure ⟨rfl, .cons (by rw [hkind]; rfl) (.refl l'), ?_⟩
    rcases hsegments with rfl | ⟨⟨start, text, rfl⟩, -⟩
    · exact .inl rfl
    · exact .inr ⟨start, text, rfl⟩
  · exact Collects.throw _

theorem reads_parseString_literal (hσ : σ.Literal) (n : Nat) (pos : Position) :
    Reads σ (parseString n rec pos) fun e => e.Everywhere Ranked ∧ ¬ e.IsOperation := by
  intro l d
  refine Collects.of_within fun hl => ?_
  have hsegments : Collects σ (iterate (parseSegment rec pos) n []) l d fun segments l' d' =>
      d' = d ∧ Crosses l l' ∧ (segments = [] ∨ ∃ start text, segments = [.string start text]) := by
    refine Collects.iterate (fun segments l' d' => d' = d ∧ Crosses l l' ∧ (segments = [] ∨
      (∃ start text, segments = [.string start text]) ∧
        ∀ token ∈ l'.head?, token.kind ≠ .stringText))
      (fun segments l' d' h => ?_) n ⟨rfl, .refl l, .inl rfl⟩
    obtain ⟨rfl, hcross, hsegments⟩ := h
    refine (collects_parseSegment hσ pos (hcross.suffix.trans hl) d' hsegments).mono ?_
    intro r l'' d'' ⟨hd, hcross', hr⟩
    subst hd
    cases r with
    | more segments => exact ⟨rfl, hcross.trans hcross', hr⟩
    | done segments => exact ⟨rfl, hcross.trans hcross', hr⟩
  refine Collects.bind hsegments fun segments l' d' h => ?_
  obtain ⟨rfl, hcross, hone⟩ := h
  refine Collects.pure ⟨rfl, hcross, ?_⟩
  rcases hone with rfl | ⟨start, text, rfl⟩ <;> exact ⟨.node trivial nofun, nofun⟩

/-! ## §3. Climbing -/

/-- What has been read of an expression may be the left side of the operator that comes next. -/
structure Waits (minimum : Nat) (e : Expr) (token : Token) : Prop where
  ranked : e.Everywhere Ranked
  holds : e.HoldsTogether minimum
  opens : ∀ op, token.IsInfix op → op.AllowsLeft e

/-- An expression is read with a minimum: it holds together with it, and the next token is no
operator that would be taken with it. -/
def Climbs (σ : TokenStream) (x : Parse Expr) (minimum : Nat) : Prop :=
  ∀ l d, Collects σ x l d fun e l' d' => d' = d ∧ Crosses l l' ∧
    Waits minimum e (lead σ.final (solid l')) ∧
    ∀ op, (lead σ.final (solid l')).IsInfix op → op.precedence < minimum

theorem Climbs.reads {x : Parse Expr} {minimum : Nat} (h : Climbs σ x minimum) :
    Reads σ x (Everywhere Ranked) :=
  fun l d => (h l d).mono fun _ _ _ ⟨hd, hcross, hwaits, _⟩ => ⟨hd, hcross, hwaits.ranked⟩

/-- The parsers that the rules for operators build on. -/
structure Climber (σ : TokenStream) (n : Nat) (rec : Tightness → Parse Expr) : Prop where
  any : Reads σ (rec .any) (Everywhere Ranked)
  atLeast : ∀ minimum, Climbs σ (rec (.atLeast minimum)) minimum

theorem Climber.reads (h : Climber σ n rec) (tightness : Tightness) :
    Reads σ (rec tightness) (Everywhere Ranked) := by
  cases tightness with
  | any => exact h.any
  | atLeast minimum => exact (h.atLeast minimum).reads

variable (hσ : σ.Literal) (hrec : Climber σ n rec)

include hσ hrec

/-- Behind a prefix operator comes all that binds more, so what follows binds less. -/
theorem collects_parseOperand (minimum : Nat) (l : List Token) (d : Collected) :
    Collects σ (parseOperand n rec) l d fun e l' d' => d' = d ∧ Crosses l l' ∧
      Waits minimum e (lead σ.final (solid l')) := by
  refine Collects.bind (collects_peek l d) fun token l₁ d₁ h => ?_
  obtain ⟨htoken, -, rfl, rfl⟩ := h
  split
  · next op hop =>
    have hkind : token.kind = .operator := by
      split at hop
      · assumption
      · cases hop
    refine Collects.bind (collects_nextSolid _ _) fun _ l₂ d₂ h => ?_
    obtain ⟨-, -, rfl, rfl⟩ := h
    have hcross : Crosses l (solid (solid l)).tail := by
      rw [solid_solid]
      exact (Crosses.solid l).trans (Crosses.tail (by rw [← htoken, hkind]; rfl))
    refine Collects.bind (hrec.atLeast op.precedence _ _) fun operand l₃ d₃ h => ?_
    obtain ⟨rfl, hcross', hwaits, hstops⟩ := h
    refine Collects.pure ⟨rfl, hcross.trans hcross', ?_, by rintro _ _ _ _ ⟨⟩, fun next hnext => ?_⟩
    · refine .node ?_ (by simpa [parts] using hwaits.ranked)
      cases operand with
      | binary pos inner left right => exact hwaits.holds pos inner left right rfl
      | _ => trivial
    · exact BinaryOp.allowsLeft_unary (hstops next hnext) _ _
  · have hprimary := reads_parsePrimary admits_ranked hrec.reads (reads_parseString_literal hσ n)
    have hoperand := Reads.bind hprimary fun primary h =>
      reads_parsePostfix admits_ranked hrec.reads h n
    refine (hoperand (solid l) d₁).mono fun e l' d' h => ?_
    obtain ⟨hd, hcross, hranked, hnone⟩ := h
    refine ⟨hd, (Crosses.solid l).trans hcross, hranked, ?_, fun op _ => ?_⟩
    · rintro pos op left right rfl
      exact absurd trivial hnone
    · exact BinaryOp.allowsLeft_of_not_isOperation hnone op

omit hσ in
/-- One more operator. -/
theorem collects_climb {minimum : Nat} {left : Expr} {l : List Token} (d : Collected)
    (hleft : Waits minimum left (lead σ.final (solid l))) :
    Collects σ (climb n rec minimum left) l d fun r l' d' => d' = d ∧ Crosses l l' ∧
      r.Holds (fun left => Waits minimum left (lead σ.final (solid l')))
        (fun e => Waits minimum e (lead σ.final (solid l')) ∧
          ∀ op, (lead σ.final (solid l')).IsInfix op → op.precedence < minimum) := by
  refine Collects.bind (collects_peek l d) fun token l₁ d₁ h => ?_
  obtain ⟨htoken, -, rfl, rfl⟩ := h
  -- Where the climb ends, the token was looked at and left.
  have hdone : (∀ op, token.IsInfix op → op.precedence < minimum) →
      Collects σ (Pure.pure (.done left) : Parse (Turn Expr Expr)) (solid l) d₁ fun r l' d' =>
        d' = d₁ ∧ Crosses l l' ∧
        r.Holds (fun left => Waits minimum left (lead σ.final (solid l')))
          (fun e => Waits minimum e (lead σ.final (solid l')) ∧
            ∀ op, (lead σ.final (solid l')).IsInfix op → op.precedence < minimum) := by
    intro hlow
    refine Collects.pure ⟨rfl, Crosses.solid l, ?_⟩
    rw [solid_solid]
    exact ⟨hleft, htoken ▸ hlow⟩
  have hpast : token.kind = .operator → Crosses l (solid (solid l)).tail := by
    intro hkind
    rw [solid_solid]
    exact (Crosses.solid l).trans (Crosses.tail (by rw [← htoken, hkind]; rfl))
  split
  · next hkind => exact hdone fun op hop => absurd hop.1 hkind
  · next hkind =>
    have hkind := Decidable.of_not_not hkind
    split
    · next his =>
      split
      · exact hdone fun op hop => absurd hop (BinaryOp.not_isInfix_test his op)
      · refine Collects.bind (collects_nextSolid _ _) fun _ l₂ d₂ h => ?_
        obtain ⟨-, -, rfl, rfl⟩ := h
        have htest := reads_parseTest admits_ranked hrec.reads hleft.ranked n
        refine (htest _ _).bindCollects fun e l₃ hcross he => ?_
        refine Collects.pure ⟨rfl, (hpast hkind).trans hcross, he.1, ?_, fun op _ => ?_⟩
        · rintro pos op left right rfl
          cases he.2
        · exact BinaryOp.allowsLeft_of_isTest he.2 op
    · split
      · next hnone =>
        refine hdone fun op hop => ?_
        rw [hop.2] at hnone
        cases hnone
      · next op hop =>
        split
        · next hlow =>
          refine hdone fun op' hop' => ?_
          rw [hop'.2] at hop
          cases hop
          exact hlow
        · next hhigh =>
          refine Collects.bind (collects_nextSolid _ _) fun _ l₂ d₂ h => ?_
          obtain ⟨-, -, rfl, rfl⟩ := h
          refine Collects.bind (hrec.atLeast op.rightMinimum _ _) fun right l₃ d₃ h => ?_
          obtain ⟨rfl, hcross, hright, hstops⟩ := h
          have hallows : op.AllowsLeft left := hleft.opens op (htoken ▸ ⟨hkind, hop⟩)
          refine Collects.pure ⟨rfl, (hpast hkind).trans hcross, ?_, ?_, fun next hnext => ?_⟩
          · refine .node ⟨hallows, BinaryOp.allowsRight_of_le hright.holds⟩ ?_
            simp [parts, hleft.ranked, hright.ranked]
          · rintro pos op' left' right' heq
            cases heq
            exact Nat.le_of_not_lt hhigh
          · exact BinaryOp.allowsLeft_of_lt (hstops next hnext) _ _ _

omit hrec in
/-- Expressions are ranked, however tightly they are read. -/
theorem climber_parse (n : Nat) : Climber σ n (parse n) := by
  induction n with
  | zero => exact ⟨Reads.throw _, fun _ _ _ => Collects.throw _⟩
  | succ n ih =>
    refine ⟨?_, fun minimum l d => ?_⟩
    · exact Reads.bind (ih.reads (.atLeast 0)) fun cond hcond =>
        reads_parseConditional admits_ranked ih.reads hcond
    · refine Collects.bind (collects_parseOperand hσ ih minimum l d) fun left l₁ d₁ h => ?_
      obtain ⟨rfl, hcross, hleft⟩ := h
      refine Collects.iterate (fun left l' d' => d' = d₁ ∧ Crosses l l' ∧
        Waits minimum left (lead σ.final (solid l'))) (fun left l' d' h => ?_) n
        ⟨rfl, hcross, hleft⟩
      obtain ⟨rfl, hcross, hleft⟩ := h
      refine (collects_climb ih d' hleft).mono fun r l'' d'' ⟨hd, hcross', hr⟩ => ?_
      subst hd
      cases r with
      | more left => exact ⟨rfl, hcross.trans hcross', hr⟩
      | done e => exact ⟨rfl, hcross.trans hcross', hr⟩

end Expr

/-! ## §4. Templates -/

/-- **Precedence is respected.**  In a template that is parsed from a source without interpolations,
the operands of every operator may stand beside it without parentheses. -/
theorem Template.ranked_of_parse {name source : String} {t : Template}
    (hsource : ¬ ['#', '{'] <:+: source.toList) (h : Template.parse name source = .ok t) :
    ∀ e ∈ t.exprs, e.Everywhere Expr.Ranked := by
  have hgood : ∀ n, Parse.Reads (lex source) (Expr.parse n .any) (Expr.Everywhere Expr.Ranked) :=
    fun n => (Expr.climber_parse (literal_lex hsource) n).any
  exact good_of_derives (parse_derives hgood h).2

/-- Prefix operators of low and of high precedence on both sides of operators, a negated test and a
conditional. -/
theorem Template.ranked_of_parse_mixed :
    ∃ t, Template.parse "t" "\x7b\x7b -a ** not b + 1 is not odd and 2 - 3 - 4 ? d : -f \x7d\x7d" =
        .ok t ∧ t.exprs.length = 1 ∧ ∀ e ∈ t.exprs, e.Everywhere Expr.Ranked := by
  let source := "\x7b\x7b -a ** not b + 1 is not odd and 2 - 3 - 4 ? d : -f \x7d\x7d"
  have hlength : (Template.parse "t" source).toOption.map (·.exprs.length) = some 1 := by
    decide +kernel
  have hsource : ¬ ['#', '{'] <:+: source.toList := by decide +kernel
  cases h : Template.parse "t" source with
  | error e =>
    rw [h] at hlength
    cases hlength
  | ok t =>
    rw [h] at hlength
    exact ⟨t, rfl, by simpa [Except.toOption] using hlength, ranked_of_parse hsource h⟩

end Stencil
