import Stencil.Proofs.Template.Advancing
import Stencil.Proofs.Token.Kinds
import Stencil.Template.Statement.Parser

/-!
Parsing comes to an end.

Recursion and loops of the parser are counted down from a number.  Between two calls of the rule for
expressions or for bodies some token is gone past, but for a fixed number of calls, and every turn
of a loop goes past a token.  So a number in proportion to that of the tokens is enough, and no
source exhausts it.
-/

namespace Stencil

open Parse

variable {m n : Nat}

/-! ## §1. Primary expressions -/

namespace Expr

theorem ends_readNumber (pos : Position) (text : String) : Ends m (readNumber pos text) := by
  unfold readNumber
  split
  · exact .pure id
  · exact .fail _ _

theorem ends_parseNumber (pos : Position) (whole : String) : Ends m (parseNumber pos whole) :=
  Advances.point (fun token => token.kind = .number) (fun _ _ => ends_readNumber pos _)
    (ends_readNumber pos whole)

section Inside

variable {rec : Tightness → Parse Expr} (hn : m < n) (hrec : Steps m (rec .any))
include hrec

theorem advances_parseSegment (pos : Position) (segments : List Expr) :
    Advances m (parseSegment rec pos segments) (Turn.Advances fun _ => False) := by
  apply advances_next.bind
  · intro token heof
    have hkind : token.kind = .eof := Decidable.of_not_not heof
    simp only [hkind]
    exact .unexpected _ _
  · intro token _ _
    split
    · exact .pure id
    · exact (hrec.anti (Nat.sub_le m 1)).ends.andThen fun segment =>
        (steps_expect (by decide)).ends.andThen fun _ => .pure id
    · exact .pure id
    · exact .unexpected _ _

include hn

theorem ends_parseString (pos : Position) : Ends m (parseString n rec pos) :=
  (Advances.iterate hn (advances_parseSegment hrec pos) []).andThen fun _ => .pure id

theorem steps_parseArgs : Steps m (parseArgs n rec) :=
  steps_listUntil hn .parensClose (by decide) hrec

theorem ends_parseArgs? : Ends m (parseArgs? n rec) := by
  apply (advances_accept (by decide) _).ends.andThen
  intro _
  split
  · exact (steps_parseArgs hn hrec).ends.andThen fun _ => .pure id
  · exact .pure id

theorem ends_parseWord (pos : Position) (word : String) : Ends m (parseWord n rec pos word) := by
  unfold parseWord
  split
  · exact .pure id
  · exact .pure id
  · exact .pure id
  · exact .pure id
  · apply (ends_parseArgs? hn hrec).andThen
    intro args
    split <;> exact .pure id

theorem ends_parseEnclosed (token : Token) : Ends m (parseEnclosed n rec token) := by
  unfold parseEnclosed
  split
  · exact ends_parseString hn hrec _
  · exact hrec.ends.andThen fun _ => (steps_expect (by decide)).ends.andThen fun _ => .pure id
  · exact .unexpected _ _

theorem steps_parseEntry : Steps m (parseEntry n rec) := by
  apply advances_nextSolid.ends.andThen
  intro token
  extract_lets value
  have hvalue : ∀ key : Expr, Steps m (value key) := fun key =>
    (steps_expectValue (by decide) _).ends.andThen fun _ => hrec.past fun _ _ => .pure id
  split
  · exact (Advances.pure id).andThen hvalue
  · exact (ends_parseNumber _ _).andThen hvalue
  · exact (ends_parseEnclosed hn hrec _).andThen hvalue
  · exact (ends_parseEnclosed hn hrec _).andThen hvalue
  · exact (Advances.unexpected _ _).andThen hvalue

/-! ## §2. Attributes, subscripts, filters and tests -/

theorem steps_parseAttribute (pos : Position) (object : Expr) :
    Steps m (parseAttribute n rec pos object) := by
  apply (steps_expect (by decide)).past
  intro key _
  apply ((ends_parseArgs? hn hrec).anti (Nat.sub_le m 1)).andThen
  intro args
  split <;> exact .pure id

theorem advances_parseLink (subject : Expr) :
    Advances m (parseLink n rec subject) (Turn.Advances fun _ => False) := by
  apply ends_peek.andThen
  intro token
  split
  · apply advances_nextSolid.ends.andThen
    intro _
    exact (steps_parseAttribute hn hrec _ _).past fun _ _ => .pure id
  · split
    · apply advances_nextSolid.ends.andThen
      intro _
      exact hrec.past fun _ _ => (steps_expect (by decide)).ends.andThen fun _ => .pure id
    · split
      · apply advances_nextSolid.ends.andThen
        intro _
        apply (steps_expect (by decide)).past
        intro filter _
        exact ((ends_parseArgs? hn hrec).anti (Nat.sub_le m 1)).andThen fun _ => .pure id
      · exact .pure id

theorem ends_parsePostfix (subject : Expr) : Ends m (parsePostfix n rec subject) :=
  Advances.iterate hn (advances_parseLink hn hrec) subject

theorem steps_parseTest (pos : Position) (negated : Bool) (subject : Expr) :
    Steps m (parseTest n rec pos negated subject) := by
  have hargs : Ends (m - 1) (parseArgs? n rec) := (ends_parseArgs? hn hrec).anti (Nat.sub_le m 1)
  apply advances_nextSolid.bind
  · intro first heof
    extract_lets named
    have hkind : first.kind = .eof := Decidable.of_not_not heof
    rw [if_pos (by rw [hkind]; decide)]
    exact .fail_bind _ _ _
  · intro first _ _
    extract_lets test named
    have htest : ∀ name, Ends (m - 1) (test name) := fun name =>
      hargs.andThen fun args => .pure id
    have hnamed : ∀ u, Ends (m - 1) (named u) := by
      intro _
      apply ends_peek.andThen
      intro second
      split
      · exact advances_nextSolid.ends.andThen fun _ => (Advances.pure id).andThen htest
      · exact (Advances.pure id).andThen htest
    split
    · exact .fail_bind _ _ _
    · exact hnamed ()

end Inside

/-! ## §3. Operators -/

section Operators

variable {rec : Tightness → Parse Expr} (hn : m ≤ n)
  (hrec : ∀ k < m, ∀ tightness, Steps k (rec tightness))
include hn hrec

/-- After the first token of a primary expression, or on the end of the source, which is none. -/
theorem steps_parsePrimary : Steps m (parsePrimary n rec) := by
  apply advances_nextSolid.bind
  · intro token heof
    have hkind : token.kind = .eof := Decidable.of_not_not heof
    simp only [hkind, parseEnclosed]
    exact .unexpected _ _
  · intro token _ hm
    have hn : m - 1 < n := by omega
    have hrec : Steps (m - 1) (rec .any) := hrec _ (by omega) _
    split
    · exact ends_parseWord hn hrec _ _
    · exact ends_parseNumber _ _
    · exact (steps_listUntil hn _ (by decide) hrec).ends.andThen fun _ => .pure id
    · exact (steps_listUntil hn _ (by decide) (steps_parseEntry hn hrec)).ends.andThen fun _ =>
        .pure id
    · exact ends_parseEnclosed hn hrec _

theorem steps_parseOperand : Steps m (parseOperand n rec) := by
  apply Advances.peek
  intro token
  split
  · next op hop =>
    apply AdvancesFrom.take
    · intro heof
      simp [heof] at hop
    · intro _ hm
      exact (hrec _ (by omega) _).ends.andThen fun _ => .pure id
  · apply Advances.afterPeek
    apply (steps_parsePrimary hn hrec).past
    intro primary hm
    exact ends_parsePostfix (by omega) (hrec _ (by omega) _) primary

end Operators

theorem advances_climb {rec : Tightness → Parse Expr} (hn : m < n)
    (hrec : ∀ tightness, Steps m (rec tightness)) (minimum : Nat) (left : Expr) :
    Advances m (climb n rec minimum left) (Turn.Advances fun _ => False) := by
  apply ends_peek.andThen
  intro token
  split
  · exact .pure id
  · split
    · split
      · exact .pure id
      · apply advances_nextSolid.ends.andThen
        intro _
        exact (steps_parseTest hn (hrec .any) _ _ _).past fun _ _ => .pure id
    · split
      · exact .pure id
      · split
        · exact .pure id
        · apply advances_nextSolid.ends.andThen
          intro _
          exact (hrec _).past fun _ _ => .pure id

theorem ends_parseConditional {rec : Tightness → Parse Expr} (hrec : Steps m (rec .any))
    (cond : Expr) : Ends m (parseConditional rec cond) := by
  apply (advances_accept (by decide) _).ends.andThen
  intro _
  split
  · apply hrec.ends.andThen
    intro whenTrue
    apply (advances_accept (by decide) _).ends.andThen
    intro _
    extract_lets conditional
    have hconditional : ∀ whenFalse : Expr, Ends m (conditional whenFalse) := fun _ => .pure id
    split
    · exact hrec.ends.andThen hconditional
    · exact (Advances.pure id).andThen hconditional
  · exact .pure id

/-- A rule for expressions of a tightness is called at most twice before a token is gone past. -/
theorem steps_parse (n : Nat) : (∀ m, 2 * m + 2 ≤ n → Steps m (parse n .any)) ∧
    ∀ m, 2 * m + 1 ≤ n → ∀ minimum, Steps m (parse n (.atLeast minimum)) := by
  induction n with
  | zero => exact ⟨fun m h => by omega, fun m h => by omega⟩
  | succ n ih =>
    obtain ⟨ihany, ihleast⟩ := ih
    have hrec : ∀ m, 2 * m + 2 ≤ n → ∀ tightness, Steps m (parse n tightness) := by
      intro m hm tightness
      cases tightness with
      | any => exact ihany m hm
      | atLeast minimum => exact ihleast m (by omega) minimum
    constructor
    · intro m hm
      apply (ihleast m (by omega) 0).past
      intro cond hpos
      exact ends_parseConditional (ihany _ (by omega)) cond
    · intro m hm minimum
      apply (steps_parseOperand (by omega) fun k hk => hrec k (by omega)).past
      intro left hpos
      exact Advances.iterate (by omega) (advances_climb (by omega) (hrec _ (by omega)) minimum) left

end Expr

/-! ## §4. Names -/

namespace Stmt

/-- The rules that others build on come to an end where at most `m` tokens are left. -/
structure Rules.End (m : Nat) (rules : Rules) : Prop where
  turns : m < rules.turns
  expr : Steps m rules.expr
  body : ∀ stops opening, Ends m (rules.body stops opening)

theorem Rules.End.anti {rules : Rules} {m' : Nat} (h : rules.End m) (hm : m' ≤ m) :
    rules.End m' :=
  ⟨Nat.lt_of_le_of_lt hm h.turns, h.expr.anti hm, fun _ _ => (h.body _ _).anti hm⟩

theorem ends_parseDottedName (hn : m < n) : Ends m (parseDottedName n) := by
  apply steps_name.ends.andThen
  intro first
  refine Advances.iterate hn (fun dotted => ?_) first
  exact Advances.point (fun part => part.kind = .name) (fun _ _ => .pure id) (.pure id)

theorem ends_parseNamedEnd (hn : m < n) (opened : String) : Ends m (parseNamedEnd n opened) := by
  apply ends_peek.andThen
  intro token
  split
  · apply (ends_parseDottedName hn).andThen
    intro found
    split
    · exact .fail_bind _ _ _
    · exact steps_endTag.ends
  · exact steps_endTag.ends

theorem ends_parseAlias? (keyword : String) : Ends m (parseAlias? keyword) := by
  apply (advances_accept (by decide) _).ends.andThen
  intro _
  split
  · exact steps_name.ends.andThen fun _ => .pure id
  · exact .pure id

/-! ## §5. Tags -/

section Tags

variable {rules : Rules} (h : rules.End m)
include h

theorem ends_bodyOf (tag : String) (start : Position) (stops : List String) :
    Ends m (rules.bodyOf tag start stops) :=
  h.body stops _

theorem ends_parseIf (pos : Position) : Ends m (parseIf rules pos) := by
  refine Advances.iterate h.turns (fun branches => ?_) []
  apply h.expr.past
  intro cond _
  have hbody := fun stops => ends_bodyOf (h.anti (Nat.sub_le m 1)) "if" pos stops
  apply steps_endTag.ends.andThen
  intro _
  apply (hbody _).andThen
  intro body
  split
  · exact .pure id
  · apply (advances_accept (by decide) _).ends.andThen
    intro _
    split
    · exact .pure id
    · exact steps_endTag.ends.andThen fun _ => (hbody _).andThen fun _ =>
        steps_endTag.ends.andThen fun _ => .pure id
  · exact steps_endTag.ends.andThen fun _ => .pure id

theorem ends_parseFor (pos : Position) : Ends m (parseFor rules pos) := by
  apply steps_name.ends.andThen
  intro first
  apply (advances_accept (by decide) _).ends.andThen
  intro _
  extract_lets items
  have hitems : ∀ names, Ends m (items names) := by
    intro (key, value)
    refine (steps_expectValue (by decide) _).ends.andThen fun _ => h.expr.ends.andThen fun _ => ?_
    refine (advances_accept (by decide) _).ends.andThen fun _ => ?_
    extract_lets rounds
    have hrounds : ∀ cond, Ends m (rounds cond) := by
      intro cond
      refine steps_endTag.ends.andThen fun _ => (ends_bodyOf h _ _ _).andThen fun body => ?_
      refine steps_endTag.ends.andThen fun _ => ?_
      extract_lets statements loop
      have hloop : ∀ orElse, Ends m (loop orElse) := fun _ => .pure id
      split
      · exact (ends_bodyOf h _ _ _).andThen fun _ => steps_endTag.ends.andThen fun _ =>
          (Advances.pure id).andThen hloop
      · exact (Advances.pure id).andThen hloop
    split
    · exact (h.expr.ends.map some fun _ => id).andThen hrounds
    · exact (Advances.pure id).andThen hrounds
  split
  · exact steps_name.ends.andThen fun _ => (Advances.pure id).andThen hitems
  · exact (Advances.pure id).andThen hitems

theorem ends_parseBlock (pos : Position) : Ends m (parseBlock rules pos) := by
  refine (ends_parseDottedName h.turns).andThen fun name => ends_peek.andThen fun token => ?_
  extract_lets slot
  have hslot : ∀ body, Ends m (slot body) := fun _ =>
    (still_addBlock _).ends.andThen fun _ => .pure id
  split
  · exact steps_endTag.ends.andThen fun _ => (ends_bodyOf h _ _ _).andThen fun _ =>
      (ends_parseNamedEnd h.turns _).andThen fun _ => (Advances.pure id).andThen hslot
  · exact h.expr.ends.andThen fun _ => steps_endTag.ends.andThen fun _ =>
      (Advances.pure id).andThen hslot

theorem ends_parseParams : Ends m (parseParams rules) := by
  refine Advances.iterate h.turns (fun params => ?_) []
  apply advances_nextSolid.bind
  · intro token heof
    have hkind : token.kind = .eof := Decidable.of_not_not heof
    simp only [hkind]
    exact .unexpected _ _
  · intro token _ _
    have hexpr : Ends (m - 1) rules.expr := (h.expr.anti (Nat.sub_le m 1)).ends
    split
    · exact .pure id
    · apply (advances_accept (by decide) _).ends.andThen
      intro _
      extract_lets more
      have hmore : ∀ fallback, Ends (m - 1) (more fallback) := by
        intro fallback
        apply (advances_accept (by decide) _).ends.andThen
        intro _
        split
        · exact .pure id
        · exact (steps_expect (by decide)).ends.andThen fun _ => .pure id
      split
      · exact (hexpr.map some fun _ => id).andThen hmore
      · exact (Advances.pure id).andThen hmore
    · exact .unexpected _ _

theorem ends_parseMacro (pos : Position) : Ends m (parseMacro rules pos) := by
  refine steps_name.ends.andThen fun name => (steps_expect (by decide)).ends.andThen fun _ => ?_
  refine (ends_parseParams h).andThen fun params => steps_endTag.ends.andThen fun _ => ?_
  refine (ends_bodyOf h _ _ _).andThen fun body =>
    (ends_parseNamedEnd h.turns _).andThen fun _ => ?_
  exact (still_addMacro _).ends.andThen fun _ => .pure id

theorem ends_parseExtends (pos : Position) : Ends m (parseExtends rules pos) := by
  have hget : Ends m (get : Parse ParseState) := Still.ends fun _ => rfl
  apply hget.andThen
  intro s
  extract_lets more
  have hmore : ∀ u, Ends m (more u) := fun _ =>
    h.expr.ends.andThen fun _ => steps_endTag.ends.andThen fun _ => Still.ends fun _ => rfl
  split
  · exact .fail_bind _ _ _
  · exact hmore ()

theorem ends_parseUse (pos : Position) : Ends m (parseUse rules pos) := by
  refine h.expr.ends.andThen fun template =>
    (advances_accept (by decide) _).ends.andThen fun _ => ?_
  extract_lets reuse
  have hreuse : ∀ aliases, Ends m (reuse aliases) := fun _ =>
    steps_endTag.ends.andThen fun _ => .pure id
  have halias : Steps m (do
      let own ← name
      let _ ← expectValue .name "as"
      pure (own, ← name)) :=
    steps_name.past fun _ _ => (steps_expectValue (by decide) _).ends.andThen fun _ =>
      steps_name.ends.andThen fun _ => .pure id
  split
  · exact (steps_commaSeparated h.turns halias).ends.andThen hreuse
  · exact (Advances.pure id).andThen hreuse

theorem ends_parseInclusion (pos : Position) : Ends m (parseInclusion rules pos) := by
  refine h.expr.ends.andThen fun template =>
    (advances_accept (by decide) _).ends.andThen fun _ => ?_
  extract_lets more
  have hmore : ∀ ignoreMissing, Ends m (more ignoreMissing) := by
    intro ignoreMissing
    apply (advances_accept (by decide) _).ends.andThen
    intro _
    extract_lets only
    have honly : ∀ bindings, Ends m (only bindings) := fun _ =>
      (advances_accept (by decide) _).ends.andThen fun _ => .pure id
    split
    · exact (h.expr.ends.map some fun _ => id).andThen honly
    · exact (Advances.pure id).andThen honly
  split
  · exact (steps_expectValue (by decide) _).ends.andThen fun _ => (Advances.pure id).andThen hmore
  · exact (Advances.pure id).andThen hmore

theorem ends_parseEmbed (pos : Position) : Ends m (parseEmbed rules pos) := by
  refine (ends_parseInclusion h pos).andThen fun inclusion => steps_endTag.ends.andThen fun _ => ?_
  refine still_openTable.ends.andThen fun _ => (ends_bodyOf h _ _ _).andThen fun _ => ?_
  exact still_closeTable.ends.andThen fun _ => steps_endTag.ends.andThen fun _ => .pure id

theorem ends_parseImport (pos : Position) : Ends m (parseImport rules pos) :=
  h.expr.ends.andThen fun _ => (steps_expectValue (by decide) _).ends.andThen fun _ =>
    steps_name.ends.andThen fun _ => steps_endTag.ends.andThen fun _ => .pure id

theorem ends_parseFrom (pos : Position) : Ends m (parseFrom rules pos) := by
  have hname : Steps m (do
      let own ← name
      pure (own, (← parseAlias? "as").getD own)) :=
    steps_name.past fun _ _ => (ends_parseAlias? _).andThen fun _ => .pure id
  refine h.expr.ends.andThen fun template => ?_
  refine (steps_expectValue (by decide) _).ends.andThen fun _ => ?_
  refine (steps_commaSeparated h.turns hname).ends.andThen fun names => ?_
  exact steps_endTag.ends.andThen fun _ => .pure id

theorem ends_parseSet (pos : Position) : Ends m (parseSet rules pos) := by
  refine (steps_commaSeparated h.turns steps_name).ends.andThen fun targets => ?_
  refine (advances_accept (by decide) _).ends.andThen fun _ => ?_
  split
  · refine (steps_commaSeparated h.turns h.expr).ends.andThen fun values => ?_
    refine steps_endTag.ends.andThen fun _ => ?_
    split
    · exact .fail_bind _ _ _
    · exact .pure id
  · split
    · exact steps_endTag.ends.andThen fun _ => (ends_bodyOf h _ _ _).andThen fun _ =>
        steps_endTag.ends.andThen fun _ => .pure id
    · exact .fail _ _

theorem ends_parseFilterCalls : Ends m (parseFilterCalls rules) := by
  refine Advances.iterate h.turns (fun filters => ?_) []
  apply (steps_expect (by decide)).past
  intro filter _
  apply (advances_accept (by decide) _).ends.andThen
  intro _
  extract_lets more
  have hmore : ∀ args, Ends (m - 1) (more args) := by
    intro args
    apply (advances_accept (by decide) _).ends.andThen
    intro _
    split <;> exact .pure id
  have h := h.anti (Nat.sub_le m 1)
  split
  · exact (steps_listUntil h.turns _ (by decide) h.expr).ends.andThen hmore
  · exact (Advances.pure id).andThen hmore

theorem ends_parseFiltered (pos : Position) : Ends m (parseFiltered rules pos) :=
  (ends_parseFilterCalls h).andThen fun _ => steps_endTag.ends.andThen fun _ =>
    (ends_bodyOf h _ _ _).andThen fun _ => steps_endTag.ends.andThen fun _ => .pure id

theorem ends_parseTag (tag : String) (pos : Position) : Ends m (parseTag rules tag pos) := by
  unfold parseTag
  split
  · exact ends_parseIf h pos
  · exact (ends_parseFor h pos).andThen fun _ => .pure id
  · exact (ends_parseBlock h pos).andThen fun _ => .pure id
  · exact (ends_parseExtends h pos).andThen fun _ => .pure id
  · exact (ends_parseUse h pos).andThen fun _ => .pure id
  · exact (ends_parseInclusion h pos).andThen fun _ => steps_endTag.ends.andThen fun _ => .pure id
  · exact (ends_parseEmbed h pos).andThen fun _ => .pure id
  · exact (ends_parseSet h pos).andThen fun _ => .pure id
  · exact h.expr.ends.andThen fun _ => steps_endTag.ends.andThen fun _ => .pure id
  · exact (ends_parseFiltered h pos).andThen fun _ => .pure id
  · exact (ends_parseMacro h pos).andThen fun _ => .pure id
  · exact (ends_parseImport h pos).andThen fun _ => .pure id
  · exact (ends_parseFrom h pos).andThen fun _ => .pure id
  · exact .fail _ _

end Tags

/-! ## §6. Templates -/

theorem advances_parsePiece {rules : Rules} (h : ∀ k < m, rules.End k) (stops : List String)
    (opening : Option Opening) (before : List Stmt) :
    Advances m (parsePiece rules stops opening before) (Turn.Advances fun _ => False) := by
  apply advances_next.bind
  · intro token heof
    have hkind : token.kind = .eof := Decidable.of_not_not heof
    simp only [hkind]
    cases opening with
    | none => exact .pure id
    | some => exact .fail _ _
  · intro token heof hm
    have h := h (m - 1) (by omega)
    split
    · next hkind => exact absurd hkind heof
    · exact .pure id
    · exact h.expr.ends.andThen fun _ => (steps_expect (by decide)).ends.andThen fun _ => .pure id
    · apply steps_name.ends.andThen
      intro tag
      split
      · exact .pure id
      · exact (ends_parseTag h tag _).andThen fun _ => .pure id
    · exact .unexpected _ _

/-- A body has a token before each body inside it. -/
theorem ends_parseBody (n : Nat) : ∀ m, 2 * m + 3 ≤ n → ∀ stops opening,
    Ends m (parseBody n stops opening) := by
  induction n with
  | zero => exact fun m h => by omega
  | succ n ih =>
    intro m hm stops opening
    refine Advances.iterate (by omega) (fun before => ?_) []
    refine advances_parsePiece (fun k hk => ?_) stops opening before
    have hturns : k < n := by omega
    exact ⟨hturns, (Expr.steps_parse n).1 k (by omega), ih k (by omega)⟩

end Stmt

/-- **Parsing comes to an end**, with a template or with a parse error, for every source. -/
theorem Template.parse_ne_exhausted (name source : String) :
    Template.parse name source ≠ .error .exhausted := by
  let s := Parse.startState (lex source)
  let n := parseDepth (lex source).tokens.length
  have hleft : Parse.left s ≤ (lex source).tokens.length := List.countP_le_length
  have hbody : Ends (lex source).tokens.length (Stmt.parseBody n [] none) :=
    Stmt.ends_parseBody n _ (by simp only [n, parseDepth]; omega) [] none
  have hhalts := hbody s (isFinal_lex source) hleft
  unfold Halts at hhalts
  show ((Stmt.parseBody n [] none).run s >>= _) ≠ .error .exhausted
  cases hr : (Stmt.parseBody n [] none).run s with
  | ok r => rintro ⟨⟩
  | error e =>
    rw [hr] at hhalts
    intro h
    exact hhalts (Except.error.inj h)

end Stencil
