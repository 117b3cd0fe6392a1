import Stencil.Proofs.Template.Collecting
import Stencil.Proofs.Template.Traversal

/-!
What expressions are read.

All rules but those for operators make an expression of its parts in one way: what they read is good
if an expression without an operator in front of its parts is good whenever they are.  So a property
of parsed expressions takes a proof for operators, and one for strings, which may be put together by
an operator.  The first such property is that filters are applied to something.
-/

namespace Stencil

namespace Expr

open Parse

/-! ## §1. Operands -/

/-- A filter is applied to something, which is its first argument. -/
def HasSubject : Expr → Prop
  | .filter _ _ args => args ≠ []
  | _ => True

/-- An operator with its operands. -/
def IsOperation : Expr → Prop
  | .binary .. | .unary .. => True
  | _ => False

/-- A test, or a negated one. -/
inductive IsTest : Expr → Prop
  | plain (pos : Position) (test : String) (subject : Expr) (args : List Expr) :
    IsTest (.test pos test subject args)
  | negated (pos pos' : Position) (test : String) (subject : Expr) (args : List Expr) :
    IsTest (.unary pos .not (.test pos' test subject args))

/-- An expression in which every filter is applied to something. -/
abbrev Applied (e : Expr) : Prop :=
  e.Everywhere HasSubject

/-- What is good as any expression and what is good as an operand: an expression without an operator
is a good operand if its parts are good, and the negation of a good test is good. -/
structure Admits (good operand : Expr → Prop) : Prop where
  node : ∀ e : Expr, ¬ e.IsOperation → e.HasSubject → (∀ part ∈ e.parts, good part) → operand e
  any : ∀ e, operand e → good e
  negated : ∀ pos pos' test subject args, good (.test pos' test subject args) →
    good (.unary pos .not (.test pos' test subject args))

section Reading

variable {σ : TokenStream} {good operand : Expr → Prop} {rec : Tightness → Parse Expr} {n : Nat}
  (hadmits : Admits good operand) (hrec : ∀ tightness, Reads σ (rec tightness) good)
  (hstring : ∀ pos, Reads σ (parseString n rec pos) operand)

include hadmits in
theorem reads_parseNumber (pos : Position) (whole : String) :
    Reads σ (parseNumber pos whole) operand := by
  have hnumber : ∀ text, Reads σ (readNumber pos text) operand := by
    intro text
    unfold readNumber
    split
    · exact Reads.pure (hadmits.node _ nofun trivial nofun)
    · exact Reads.fail _ _
  exact Reads.dotted (fun _ => hnumber _) rfl rfl (hnumber _)

include hrec

theorem reads_parseArgs (n : Nat) :
    Reads σ (parseArgs n rec) fun args => ∀ e ∈ args, good e :=
  reads_listUntil (hrec .any) n rfl

theorem reads_parseArgs? (n : Nat) :
    Reads σ (parseArgs? n rec) fun args => ∀ e ∈ args.getD [], good e := by
  apply (quiet_accept rfl _).bind
  intro _
  split
  · exact Reads.bind (reads_parseArgs hrec n) fun _ hargs => Reads.pure hargs
  · exact Reads.pure nofun

include hadmits

theorem reads_parseWord (n : Nat) (pos : Position) (word : String) :
    Reads σ (parseWord n rec pos word) operand := by
  unfold parseWord
  split
  · exact Reads.pure (hadmits.node _ nofun trivial nofun)
  · exact Reads.pure (hadmits.node _ nofun trivial nofun)
  · exact Reads.pure (hadmits.node _ nofun trivial nofun)
  · exact Reads.pure (hadmits.node _ nofun trivial nofun)
  · apply Reads.bind (reads_parseArgs? hrec n)
    intro args hargs
    cases args with
    | none => exact Reads.pure (hadmits.node _ nofun trivial nofun)
    | some args => exact Reads.pure (hadmits.node _ nofun trivial hargs)

include hstring

theorem reads_parseEnclosed (token : Token) :
    Reads σ (parseEnclosed n rec token) fun e => token.kind.beginsPiece = false ∧ operand e := by
  unfold parseEnclosed
  split
  · next hkind =>
    rw [hkind]
    exact (hstring _).mono fun e he => ⟨rfl, he⟩
  · next hkind =>
    rw [hkind]
    refine Reads.bind (hrec .any) fun inner hinner => Reads.bind (quiet_expect ?_) fun _ _ => ?_
    · simp [TokenKind.beginsPiece]
    · exact Reads.pure ⟨rfl, hadmits.node _ (by rintro ⟨⟩) trivial (by simp [parts, hinner])⟩
  · exact Reads.unexpected _ _

theorem reads_parseEntry :
    Reads σ (parseEntry n rec) fun entry => good entry.key ∧ good entry.value := by
  apply Reads.nextSolid
  intro token
  extract_lets value
  have hvalue : ∀ key : Expr, token.kind.beginsPiece = false ∧ operand key →
      Reads σ (value key) fun entry =>
        token.kind.beginsPiece = false ∧ good entry.key ∧ good entry.value := fun key hkey =>
    (quiet_expectValue rfl _).bind fun _ => Reads.bind (hrec .any) fun value hvalue =>
      Reads.pure ⟨hkey.1, hadmits.any key hkey.2, hvalue⟩
  split
  · next hkind =>
    rw [hkind] at hvalue ⊢
    exact Reads.bind (Reads.pure ⟨rfl, hadmits.node _ nofun trivial nofun⟩) hvalue
  · next hkind =>
    rw [hkind] at hvalue ⊢
    exact Reads.bind ((reads_parseNumber hadmits _ _).mono fun e he => ⟨rfl, he⟩) hvalue
  · exact Reads.bind (reads_parseEnclosed hadmits hrec hstring _) hvalue
  · exact Reads.bind (reads_parseEnclosed hadmits hrec hstring _) hvalue
  · exact Reads.bind (Reads.unexpected _ _) hvalue

theorem reads_parsePrimary : Reads σ (parsePrimary n rec) operand := by
  apply Reads.nextSolid
  intro token
  split
  · next hkind =>
    rw [hkind]
    exact (reads_parseWord hadmits hrec n _ _).mono fun e he => ⟨rfl, he⟩
  · next hkind =>
    rw [hkind]
    exact (reads_parseNumber hadmits _ _).mono fun e he => ⟨rfl, he⟩
  · next hkind =>
    rw [hkind]
    exact Reads.bind (reads_listUntil (hrec .any) n rfl) fun items hitems =>
      Reads.pure ⟨rfl, hadmits.node _ nofun trivial hitems⟩
  · next hkind =>
    rw [hkind]
    refine Reads.bind (reads_listUntil (reads_parseEntry hadmits hrec hstring) n rfl)
      fun entries hentries => Reads.pure ⟨rfl, hadmits.node _ nofun trivial fun part hpart => ?_⟩
    obtain ⟨entry, hentry, hpart⟩ := List.mem_flatMap.mp hpart
    obtain ⟨hkey, hvalue⟩ := hentries entry hentry
    simp only [List.mem_cons, List.not_mem_nil, or_false] at hpart
    rcases hpart with rfl | rfl
    · exact hkey
    · exact hvalue
  · exact reads_parseEnclosed hadmits hrec hstring _

omit hstring

theorem reads_parseAttribute {subject : Expr} (hsubject : operand subject) (n : Nat)
    (pos : Position) : Reads σ (parseAttribute n rec pos subject) operand := by
  have hsubject : good subject := hadmits.any subject hsubject
  refine Reads.bind (quiet_expect (by simp [TokenKind.beginsPiece])) fun key _ => ?_
  have hkey : good (.string key.position key.value) :=
    hadmits.any _ (hadmits.node _ (by rintro ⟨⟩) trivial (by rintro _ ⟨⟩))
  apply Reads.bind (reads_parseArgs? hrec n)
  intro args hargs
  cases args with
  | none =>
    exact Reads.pure (hadmits.node _ (by rintro ⟨⟩) trivial (by simp [parts, hsubject, hkey]))
  | some args =>
    refine Reads.pure (hadmits.node _ (by rintro ⟨⟩) trivial ?_)
    exact List.forall_mem_cons.mpr ⟨hsubject, List.forall_mem_cons.mpr ⟨hkey, hargs⟩⟩

/-- A filter that follows an expression is applied to it. -/
theorem reads_parsePostfix {subject : Expr} (hsubject : operand subject) (n : Nat) :
    Reads σ (parsePostfix n rec subject) operand := by
  refine Reads.iterate operand (fun subject hsubject => ?_) n hsubject
  have hgood : good subject := hadmits.any subject hsubject
  refine Reads.peek fun token => ?_
  split
  · next hdot =>
    refine Faces.take (by rw [Token.kind_of_is hdot]; rfl) ?_
    exact Reads.bind (reads_parseAttribute hadmits hrec hsubject n _) fun _ h => Reads.pure h
  · split
    · next hopen =>
      refine Faces.take (by rw [hopen]; rfl) (Reads.bind (hrec .any) fun key hkey => ?_)
      refine Reads.bind (quiet_expect (by simp [TokenKind.beginsPiece])) fun _ _ => Reads.pure ?_
      exact hadmits.node _ (by rintro ⟨⟩) trivial (by simp [parts, hgood, hkey])
    · split
      · next hbar =>
        refine Faces.take (by rw [Token.kind_of_is hbar]; rfl) ?_
        refine Reads.bind (quiet_expect (by simp [TokenKind.beginsPiece])) fun filter _ => ?_
        refine Reads.bind (reads_parseArgs? hrec n) fun args hargs => Reads.pure ?_
        refine hadmits.node _ (by rintro ⟨⟩) (List.cons_ne_nil _ _) ?_
        exact List.forall_mem_cons.mpr ⟨hgood, hargs⟩
      · exact Reads.faces (Reads.pure hsubject)

theorem reads_parseTest {subject : Expr} (hsubject : good subject) (n : Nat) (pos : Position)
    (negated : Bool) :
    Reads σ (parseTest n rec pos negated subject) fun e => good e ∧ e.IsTest := by
  apply Reads.nextSolid
  intro first
  extract_lets test named
  have htest : ∀ name, Reads σ (test name) fun e => good e ∧ e.IsTest := by
    intro name
    refine Reads.bind (reads_parseArgs? hrec n) fun args hargs => Reads.pure ?_
    have htest : good (.test pos name subject (args.getD [])) :=
      hadmits.any _ (hadmits.node _ nofun trivial (List.forall_mem_cons.mpr ⟨hsubject, hargs⟩))
    cases negated with
    | false => exact ⟨htest, .plain _ _ _ _⟩
    | true => exact ⟨hadmits.negated _ _ _ _ _ htest, .negated _ _ _ _ _⟩
  have hnamed : ∀ u, Reads σ (named u) fun e => good e ∧ e.IsTest := by
    refine fun _ => Reads.peek fun second => ?_
    split
    · next hkind => exact Faces.take (by rw [hkind]; rfl) ((Quiet.pure _).bind htest)
    · exact Reads.faces ((Quiet.pure _).bind htest)
  split
  · exact Reads.bind (P := fun _ => False) (Reads.fail _ _) nofun
  · next hkind =>
    refine (hnamed ()).mono fun e he => ⟨?_, he⟩
    rw [Decidable.of_not_not hkind]
    rfl

theorem reads_parseConditional {cond : Expr} (hcond : good cond) :
    Reads σ (parseConditional rec cond) good := by
  apply (quiet_accept rfl _).bind
  intro _
  split
  · refine Reads.bind (hrec .any) fun whenTrue htrue => (quiet_accept rfl _).bind fun _ => ?_
    extract_lets conditional
    have hconditional : ∀ whenFalse : Expr, good whenFalse →
        Reads σ (conditional whenFalse) good := by
      intro whenFalse hfalse
      have hparts : ∀ part ∈ [cond, whenTrue, whenFalse], good part := by
        simp [hcond, htrue, hfalse]
      exact Reads.pure (hadmits.any _ (hadmits.node _ nofun trivial hparts))
    split
    · exact Reads.bind (hrec .any) hconditional
    · have hnull : good (.null whenTrue.pos) :=
        hadmits.any _ (hadmits.node _ nofun trivial nofun)
      exact Reads.bind (Reads.pure hnull) hconditional
  · exact Reads.pure hcond

end Reading

/-! ## §2. Filters -/

section Filters

theorem admits_applied : Admits Applied Applied where
  node := fun _ _ hsubject hparts => .node hsubject hparts
  any := fun _ h => h
  negated := fun _ _ _ _ _ h => .node trivial (by simpa [parts] using h)

/-- Segments are joined from left to right. -/
theorem applied_joinSegments {pos : Position} {segments : List Expr}
    (h : ∀ e ∈ segments, e.Applied) : (joinSegments pos segments).Applied := by
  cases segments with
  | nil => exact .node trivial nofun
  | cons first more =>
    obtain ⟨hfirst, hmore⟩ := List.forall_mem_cons.mp h
    show (more.foldl (.binary pos .concat) first).Applied
    clear h
    induction more generalizing first with
    | nil => exact hfirst
    | cons second more ih =>
      obtain ⟨hsecond, hmore⟩ := List.forall_mem_cons.mp hmore
      exact ih _ (.node trivial (by simp [parts, hfirst, hsecond])) hmore

variable {σ : TokenStream} {rec : Tightness → Parse Expr}
  (hrec : ∀ tightness, Reads σ (rec tightness) Applied)

include hrec

theorem reads_parseString (n : Nat) (pos : Position) : Reads σ (parseString n rec pos) Applied := by
  let Good (segments : List Expr) : Prop := ∀ e ∈ segments, e.Applied
  have hsegments : Reads σ (iterate (parseSegment rec pos) n []) Good := by
    refine Reads.iterate Good (fun segments hsegments => ?_) n nofun
    apply Reads.next
    intro token
    split
    · next hkind =>
      rw [hkind]
      exact Reads.pure ⟨rfl, List.forall_mem_cons.mpr ⟨.node trivial nofun, hsegments⟩⟩
    · next hkind =>
      rw [hkind]
      refine Reads.bind (hrec .any) fun segment hsegment => ?_
      refine Reads.bind (quiet_expect (by simp [TokenKind.beginsPiece])) fun _ _ => ?_
      exact Reads.pure ⟨rfl, List.forall_mem_cons.mpr ⟨hsegment, hsegments⟩⟩
    · next hkind =>
      rw [hkind]
      exact Reads.pure ⟨rfl, fun e he => hsegments e (List.mem_reverse.mp he)⟩
    · exact Reads.unexpected _ _
  exact Reads.bind hsegments fun _ h => Reads.pure (applied_joinSegments h)

theorem reads_parseOperand (n : Nat) : Reads σ (parseOperand n rec) Applied := by
  refine Reads.peek fun token => ?_
  split
  · next hop =>
    have hkind : token.kind = .operator := by
      split at hop
      · assumption
      · cases hop
    refine Faces.take (by rw [hkind]; rfl) (Reads.bind (hrec _) fun operand hoperand => ?_)
    exact Reads.pure (.node trivial (by simp [parts, hoperand]))
  · refine Reads.faces ?_
    refine Reads.bind (reads_parsePrimary admits_applied hrec (reads_parseString hrec n)) ?_
    exact fun primary h => reads_parsePostfix admits_applied hrec h n

theorem reads_climb {left : Expr} (hleft : left.Applied) (n minimum : Nat) :
    Reads σ (climb n rec minimum left) fun r => r.Holds Applied Applied := by
  refine Reads.peek fun token => ?_
  split
  · exact Reads.faces (Reads.pure hleft)
  · next hkind =>
    have hpiece : token.kind.beginsPiece = false := by
      rw [Decidable.of_not_not hkind]
      rfl
    split
    · split
      · exact Reads.faces (Reads.pure hleft)
      · have htest := reads_parseTest admits_applied hrec hleft n
        exact Faces.take hpiece (Reads.bind (htest _ _) fun _ h => Reads.pure h.1)
    · split
      · exact Reads.faces (Reads.pure hleft)
      · split
        · exact Reads.faces (Reads.pure hleft)
        · refine Faces.take hpiece (Reads.bind (hrec _) fun right hright => ?_)
          exact Reads.pure (.node trivial (by simp [parts, hleft, hright]))

omit hrec

/-- Parsing an expression collects nothing, and its filters are applied to something. -/
theorem reads_parse (n : Nat) (tightness : Tightness) :
    Reads σ (Expr.parse n tightness) Applied := by
  induction n generalizing tightness with
  | zero => exact Reads.throw _
  | succ n ih =>
    cases tightness with
    | any =>
      exact Reads.bind (ih (.atLeast 0)) fun cond hcond =>
        reads_parseConditional admits_applied ih hcond
    | atLeast minimum =>
      apply Reads.bind (reads_parseOperand ih n)
      intro left hleft
      exact Reads.iterate Applied (fun left hleft => reads_climb ih hleft n minimum) n hleft

theorem quiet_parse (n : Nat) (tightness : Tightness) : Quiet σ (Expr.parse n tightness) :=
  (reads_parse n tightness).mono fun _ _ => trivial

end Filters

end Expr

end Stencil
