import Stencil.Template.Expr.Parser

/-!
The count of steps only ends a parse.

Parsers of expressions are given a count for their recursion and their loops.  Running out of it is
an outcome of its own, and as long as a parser does not run out its outcome is the same with every
larger count.  So a count may be forgotten: what is read with one count is read with all that are
large enough.
-/

namespace Stencil

/-! ## §1. Outcomes that remain -/

namespace Parse

variable {α β : Type}

/-- One parser runs out where it does not do the same as another. -/
def Refines (x y : Parse α) : Prop :=
  ∀ s, x.run s = .error .exhausted ∨ x.run s = y.run s

namespace Refines

variable {x y : Parse α}

theorem refl (x : Parse α) : Refines x x :=
  fun _ => .inr rfl

theorem exhausted (y : Parse α) : Refines (throw .exhausted) y :=
  fun _ => .inl rfl

theorem run_eq_ok (h : Refines x y) {s : ParseState} {r : α × ParseState}
    (hrun : x.run s = .ok r) : y.run s = .ok r := by
  rcases h s with hexhausted | heq
  · rw [hrun] at hexhausted
    cases hexhausted
  · rw [← heq, hrun]

theorem bind {f g : α → Parse β} (hx : Refines x y) (hf : ∀ a, Refines (f a) (g a)) :
    Refines (x >>= f) (y >>= g) := by
  intro s
  rw [StateT.run_bind, StateT.run_bind]
  rcases hx s with hexhausted | heq
  · rw [hexhausted]
    exact .inl rfl
  · rw [← heq]
    cases x.run s with
    | error e => exact .inr rfl
    | ok r => exact hf r.1 r.2

/-- After something that both do the same only the rest counts. -/
theorem next (x : Parse α) {f g : α → Parse β} (hf : ∀ a, Refines (f a) (g a)) :
    Refines (x >>= f) (x >>= g) :=
  (refl x).bind hf

theorem iterate {turn turn' : α → Parse (Turn α β)} (hturn : ∀ a, Refines (turn a) (turn' a))
    {n n' : Nat} (hn : n ≤ n') (a : α) : Refines (iterate turn n a) (iterate turn' n' a) := by
  induction n generalizing n' a with
  | zero => exact exhausted _
  | succ n ih =>
    obtain ⟨m, rfl⟩ : ∃ m, n' = m + 1 := ⟨n' - 1, by omega⟩
    apply (hturn a).bind
    intro r
    cases r with
    | more a => exact ih (by omega) a
    | done b => exact refl _

end Refines

theorem refines_listUntil {item item' : Parse α} (hitem : Refines item item') {n n' : Nat}
    (hn : n ≤ n') (close : TokenKind) :
    Refines (listUntil n close item) (listUntil n' close item') := by
  refine Refines.iterate (fun items => Refines.next _ fun token => ?_) hn []
  split
  · exact Refines.refl _
  · exact hitem.bind fun a => Refines.refl _

end Parse

/-! ## §2. Expressions -/

namespace Expr

open Parse

variable {rec rec' : Tightness → Parse Expr}
  (hrec : ∀ tightness, Refines (rec tightness) (rec' tightness)) {n n' : Nat} (hn : n ≤ n')

include hrec hn

theorem refines_parseString (pos : Position) :
    Refines (parseString n rec pos) (parseString n' rec' pos) := by
  have hsegment : ∀ segments,
      Refines (parseSegment rec pos segments) (parseSegment rec' pos segments) := by
    refine fun segments => Refines.next _ fun token => ?_
    split
    · exact Refines.refl _
    · exact (hrec .any).bind fun segment => Refines.refl _
    · exact Refines.refl _
    · exact Refines.refl _
  exact (Refines.iterate hsegment hn []).bind fun segments => Refines.refl _

theorem refines_parseArgs? : Refines (parseArgs? n rec) (parseArgs? n' rec') := by
  apply Refines.next
  intro opened
  split
  · exact (refines_listUntil (hrec .any) hn _).bind fun args => Refines.refl _
  · exact Refines.refl _

theorem refines_parseWord (pos : Position) (word : String) :
    Refines (parseWord n rec pos word) (parseWord n' rec' pos word) := by
  unfold parseWord
  split
  · exact Refines.refl _
  · exact Refines.refl _
  · exact Refines.refl _
  · exact Refines.refl _
  · exact (refines_parseArgs? hrec hn).bind fun args => Refines.refl _

theorem refines_parseEnclosed (token : Token) :
    Refines (parseEnclosed n rec token) (parseEnclosed n' rec' token) := by
  unfold parseEnclosed
  split
  · exact refines_parseString hrec hn _
  · exact (hrec .any).bind fun inner => Refines.refl _
  · exact Refines.refl _

theorem refines_parseEntry : Refines (parseEntry n rec) (parseEntry n' rec') := by
  apply Refines.next
  intro token
  extract_lets value value'
  have hvalue : ∀ key, Refines (value key) (value' key) := fun key =>
    Refines.next _ fun _ => (hrec .any).bind fun value => Refines.refl _
  split
  · exact Refines.next _ hvalue
  · exact Refines.next _ hvalue
  · exact (refines_parseEnclosed hrec hn _).bind hvalue
  · exact (refines_parseEnclosed hrec hn _).bind hvalue
  · exact Refines.next _ hvalue

theorem refines_parsePrimary : Refines (parsePrimary n rec) (parsePrimary n' rec') := by
  apply Refines.next
  intro token
  split
  · exact refines_parseWord hrec hn _ _
  · exact Refines.refl _
  · exact (refines_listUntil (hrec .any) hn _).bind fun items => Refines.refl _
  · exact (refines_listUntil (refines_parseEntry hrec hn) hn _).bind fun entries => Refines.refl _
  · exact refines_parseEnclosed hrec hn _

theorem refines_parsePostfix (subject : Expr) :
    Refines (parsePostfix n rec subject) (parsePostfix n' rec' subject) := by
  refine Refines.iterate (fun subject => Refines.next _ fun token => ?_) hn subject
  split
  · refine Refines.next _ fun _ => Refines.bind ?_ fun e => Refines.refl _
    refine Refines.next _ fun key => (refines_parseArgs? hrec hn).bind fun args => ?_
    exact Refines.refl _
  · split
    · exact Refines.next _ fun _ => (hrec .any).bind fun key => Refines.refl _
    · split
      · refine Refines.next _ fun _ => Refines.next _ fun filter => ?_
        exact (refines_parseArgs? hrec hn).bind fun args => Refines.refl _
      · exact Refines.refl _

theorem refines_parseOperand : Refines (parseOperand n rec) (parseOperand n' rec') := by
  apply Refines.next
  intro token
  split
  · exact Refines.next _ fun _ => (hrec _).bind fun operand => Refines.refl _
  · exact (refines_parsePrimary hrec hn).bind fun primary => refines_parsePostfix hrec hn primary

theorem refines_parseTest (pos : Position) (negated : Bool) (subject : Expr) :
    Refines (parseTest n rec pos negated subject) (parseTest n' rec' pos negated subject) := by
  apply Refines.next
  intro first
  extract_lets test named test' named'
  have htest : ∀ name, Refines (test name) (test' name) := fun name =>
    (refines_parseArgs? hrec hn).bind fun args => Refines.refl _
  have hnamed : ∀ u, Refines (named u) (named' u) := by
    refine fun _ => Refines.next _ fun second => ?_
    split
    · exact Refines.next _ fun _ => Refines.next _ htest
    · exact Refines.next _ htest
  split
  · exact Refines.next _ hnamed
  · exact hnamed ()

theorem refines_climb (minimum : Nat) (left : Expr) :
    Refines (climb n rec minimum left) (climb n' rec' minimum left) := by
  apply Refines.next
  intro token
  split
  · exact Refines.refl _
  · split
    · split
      · exact Refines.refl _
      · exact Refines.next _ fun _ => (refines_parseTest hrec hn _ _ _).bind fun e => Refines.refl _
    · split
      · exact Refines.refl _
      · split
        · exact Refines.refl _
        · exact Refines.next _ fun _ => (hrec _).bind fun right => Refines.refl _

omit hn in
theorem refines_parseConditional (cond : Expr) :
    Refines (parseConditional rec cond) (parseConditional rec' cond) := by
  apply Refines.next
  intro asked
  split
  · refine (hrec .any).bind fun whenTrue => Refines.next _ fun _ => ?_
    extract_lets conditional
    split
    · exact (hrec .any).bind fun whenFalse => Refines.refl _
    · exact Refines.refl _
  · exact Refines.refl _

omit hrec in
/-- An expression is parsed the same with every count that suffices. -/
theorem refines_parse (tightness : Tightness) :
    Refines (Expr.parse n tightness) (Expr.parse n' tightness) := by
  induction n generalizing n' tightness with
  | zero => exact Refines.exhausted _
  | succ n ih =>
    obtain ⟨m, rfl⟩ : ∃ m, n' = m + 1 := ⟨n' - 1, by omega⟩
    have hm : n ≤ m := by omega
    have hrec : ∀ tightness, Refines (Expr.parse n tightness) (Expr.parse m tightness) :=
      fun tightness => ih hm tightness
    cases tightness with
    | any => exact (hrec (.atLeast 0)).bind fun cond => refines_parseConditional hrec cond
    | atLeast minimum =>
      apply (refines_parseOperand hrec hm).bind
      intro left
      exact Refines.iterate (fun left => refines_climb hrec hm minimum left) hm left

end Expr

end Stencil
