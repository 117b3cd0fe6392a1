import Stencil.Proofs.Template.Spending
import Stencil.Proofs.Template.Termination

/-!
What the rules of the grammar spend.

Every rule gets along with its credit, given that the rules it calls do.  The turn of a loop takes a
token and so leaves a whole price behind, from which the next turn is paid; every other rule has the
credit to call what it calls before it takes a token.

So in the record of a source no rule is called inside itself without a token taken in between, what
is taken back is always remembered, and how much happens at all is in proportion to the tokens.
-/

namespace Stencil

namespace Recorded

variable {n : Nat}

/-! ## §1. Primary expressions -/

theorem costs_readNumber {cost : Nat} (pos : Position) (text : String) :
    Costs cost (readNumber pos text) := by
  unfold readNumber
  split
  · exact .pure id
  · exact .fail _ _

theorem costs_parseNumber (pos : Position) (whole : String) :
    Costs Rule.number.cost (parseNumber pos whole) := by
  apply Spends.call
  apply (spends_afterPoint .number).costs.andThen (by decide)
  intro fraction
  split <;> exact costs_readNumber pos _

section Inside

open Stencil.Expr (Tightness)

variable {rec : Tightness → Recorded Expr} (hany : Costs Rule.expression.cost (rec .any))
include hany

theorem spends_parseSegment (pos : Position) (segments : List Expr) :
    Spends 1 2 (parseSegment rec pos segments) (Parse.Turn.Advances fun _ => False) := by
  apply spends_next.bind (by decide)
  · intro token heof
    have hkind : token.kind = .eof := Decidable.of_not_not heof
    simp only [hkind]
    exact .unexpected _ _
  · intro token _
    split
    · exact .pure id
    · exact hany.andThen (by decide) fun segment =>
        (spends_expect (by decide)).costs.andThen (by decide) fun _ => .pure id
    · exact .pure id
    · exact .unexpected _ _

theorem costs_parseString (pos : Position) : Costs Rule.string.cost (parseString n rec pos) :=
  .call ((Spends.iterate (spends_parseSegment hany pos) (by decide) n []).andThen (by decide)
    fun _ => .pure id)

theorem costs_parseArgs? : Costs Rule.arguments.cost (parseArgs? n rec) := by
  apply Spends.call
  apply (spends_accept (by decide) _).bind (by decide)
  · intro open_ hopen
    rw [if_neg hopen]
    exact .pure id
  · intro open_ hopen
    rw [if_pos hopen]
    exact (costs_listUntil hany (by decide) n (by decide)).andThen (by decide) fun _ => .pure id

theorem costs_parseWord (pos : Position) (word : String) :
    Costs Rule.word.cost (parseWord n rec pos word) := by
  apply Spends.call
  split
  · exact .pure id
  · exact .pure id
  · exact .pure id
  · exact .pure id
  · apply (costs_parseArgs? hany).andThen (by decide)
    intro args
    split <;> exact .pure id

theorem costs_parseEnclosed (token : Token) : Costs 19 (parseEnclosed n rec token) := by
  unfold parseEnclosed
  split
  · exact (costs_parseString hany _).weaken (by decide)
  · exact hany.andThen (by decide) fun _ =>
      (spends_expect (by decide)).costs.andThen (by decide) fun _ => .pure id
  · exact .unexpected _ _

theorem costs_parseEntry : Costs Rule.entry.cost (parseEntry n rec) := by
  apply Spends.call
  apply spends_nextSolid.bind (by decide)
  · intro token heof
    have hkind : token.kind = .eof := Decidable.of_not_not heof
    simp only [hkind]
    exact .unexpected_bind _ _ _
  · intro token _
    extract_lets value
    have hvalue : ∀ key : Expr, Costs 1 (value key) := fun key =>
      (spends_expectValue (by decide) _).past (by decide) fun _ =>
        hany.andThen (by decide) fun _ => .pure id
    split
    · exact .pure_bind ((hvalue _).weaken (by decide))
    · exact (costs_parseNumber _ _).andThen (by decide) fun key => (hvalue key).weaken (by decide)
    · exact (costs_parseEnclosed hany _).andThen (by decide) fun key =>
        (hvalue key).weaken (by decide)
    · exact (costs_parseEnclosed hany _).andThen (by decide) fun key =>
        (hvalue key).weaken (by decide)
    · exact .unexpected_bind _ _ _

theorem spends_parsePrimary :
    Spends Rule.primary.cost 2 (parsePrimary n rec) fun _ => True := by
  apply Spends.call
  apply spends_nextSolid.bind (by decide)
  · intro token heof
    have hkind : token.kind = .eof := Decidable.of_not_not heof
    simp only [hkind, parseEnclosed]
    exact .unexpected _ _
  · intro token _
    split
    · exact (costs_parseWord hany _ _).weaken (by decide)
    · exact (costs_parseNumber _ _).weaken (by decide)
    · exact (costs_listUntil hany (by decide) n (by decide)).andThen (by decide) fun _ => .pure id
    · apply (costs_listUntil (costs_parseEntry hany) (by decide) n (by decide)).andThen (by decide)
      exact fun _ => .pure id
    · exact (costs_parseEnclosed hany _).weaken (by decide)

/-! ## §2. Attributes, subscripts, filters and tests -/

theorem costs_parseAttribute (pos : Position) (object : Expr) :
    Costs Rule.property.cost (parseAttribute n rec pos object) := by
  apply Spends.call
  apply (spends_expect (by decide)).past (by decide)
  intro key
  apply (costs_parseArgs? hany).andThen (by decide)
  intro args
  split <;> exact .pure id

theorem spends_parseLink (subject : Expr) :
    Spends 3 4 (parseLink n rec subject) (Parse.Turn.Advances fun _ => False) := by
  refine Spends.peek (by decide) fun token => ?_
  split
  · next hpoint =>
    apply SpendsFrom.take (Token.kind_of_is hpoint ▸ nofun) (by decide)
    intro _
    exact (costs_parseAttribute hany _ _).andThen (by decide) fun _ => .pure id
  · split
    · next hopen =>
      apply SpendsFrom.take (hopen ▸ nofun) (by decide)
      intro _
      exact hany.andThen (by decide) fun _ =>
        (spends_expect (by decide)).costs.andThen (by decide) fun _ => .pure id
    · split
      · next hpipe =>
        apply SpendsFrom.take (Token.kind_of_is hpipe ▸ nofun) (by decide)
        intro _
        apply (spends_expect (by decide)).costs.andThen (by decide)
        intro filter
        exact (costs_parseArgs? hany).andThen (by decide) fun _ => .pure id
      · exact Spends.afterPeek (.pure id)

theorem costs_parsePostfix (subject : Expr) :
    Costs Rule.links.cost (parsePostfix n rec subject) :=
  Spends.iterate (spends_parseLink hany) (by decide) n subject

theorem costs_parseTest (pos : Position) (negated : Bool) (subject : Expr) :
    Costs Rule.test.cost (parseTest n rec pos negated subject) := by
  apply Spends.call
  apply spends_nextSolid.costs.andThen (by decide)
  intro first
  extract_lets test named
  have htest : ∀ name, Costs 3 (test name) := fun name =>
    (costs_parseArgs? hany).andThen (by decide) fun args => .pure id
  have hnamed : ∀ u, Costs 6 (named u) := by
    intro _
    apply costs_peek.andThen (by decide)
    intro second
    split
    · exact spends_nextSolid.costs.andThen (by decide) fun _ => .pure_bind (htest _)
    · exact .pure_bind ((htest _).weaken (by decide))
  split
  · exact .fail_bind _ _ _
  · exact hnamed ()

theorem costs_parseConditional (cond : Expr) :
    Costs Rule.conditional.cost (parseConditional rec cond) := by
  apply Spends.call
  apply (spends_accept (by decide) _).bind (by decide)
  · intro asked hasked
    rw [if_neg hasked]
    exact .pure id
  · intro asked hasked
    rw [if_pos hasked]
    exact hany.andThen (by decide) fun whenTrue =>
      costs_optional (by decide) _ hany (by decide) fun _ => .pure id

end Inside

/-! ## §3. Operators -/

section Operators

open Stencil.Expr (Tightness)

variable {rec : Tightness → Recorded Expr}
  (hrec : ∀ tightness, Costs Rule.expression.cost (rec tightness))
include hrec

theorem spends_parseOperand :
    Spends Rule.operand.cost 0 (parseOperand n rec) fun _ => True := by
  apply Spends.call
  refine Spends.peek (by decide) fun token => ?_
  split
  · next op hop =>
    refine SpendsFrom.take (fun heof => ?_) (by decide) fun _ =>
      (hrec _).andThen (by decide) fun _ => .pure id
    simp [heof] at hop
  · apply Spends.afterPeek
    exact (spends_parsePrimary (hrec _)).past (by decide) fun primary =>
      (costs_parsePostfix (hrec _) primary).weaken (by decide)

theorem spends_climb (minimum : Nat) (left : Expr) :
    Spends 3 4 (climb n rec minimum left) (Parse.Turn.Advances fun _ => False) := by
  refine Spends.peek (by decide) fun token => ?_
  split
  · exact Spends.afterPeek (.pure id)
  · next hoperator =>
    have hkind : token.kind ≠ .eof := Decidable.of_not_not hoperator ▸ nofun
    split
    · split
      · exact Spends.afterPeek (.pure id)
      · refine SpendsFrom.take hkind (by decide) fun _ => ?_
        exact (costs_parseTest (hrec _) _ _ _).andThen (by decide) fun _ => .pure id
    · split
      · exact Spends.afterPeek (.pure id)
      · split
        · exact Spends.afterPeek (.pure id)
        · refine SpendsFrom.take hkind (by decide) fun _ => ?_
          exact (hrec _).andThen (by decide) fun _ => .pure id

end Operators

theorem costs_parseExpr (n : Nat) : Costs Rule.expression.cost (parseExpr n .any) ∧
    ∀ minimum, Costs Rule.operators.cost (parseExpr n (.atLeast minimum)) := by
  induction n with
  | zero => exact ⟨.exhausted, fun _ => .exhausted⟩
  | succ n ih =>
    obtain ⟨ihany, ihleast⟩ := ih
    have hrec : ∀ tightness, Costs Rule.expression.cost (parseExpr n tightness) := by
      intro tightness
      cases tightness with
      | any => exact ihany
      | atLeast minimum => exact (ihleast minimum).weaken (by decide)
    constructor
    · exact .call ((ihleast 0).andThen (by decide) fun cond => costs_parseConditional ihany cond)
    · intro minimum
      exact .call ((spends_parseOperand hrec).costs.andThen (by decide) fun left =>
        Spends.iterate (spends_climb hrec minimum) (by decide) n left)

/-! ## §4. Names -/

theorem costs_parseDottedName : Costs Rule.dottedName.cost (parseDottedName n) := by
  apply Spends.call
  apply spends_name.past (by decide)
  intro first
  refine (Spends.iterate (c := 4) (g := 5) (fun dotted => ?_) (by decide) n first).weaken
    (by decide)
  apply (spends_afterPoint .name).bind (by decide)
  · intro part hpart
    cases part with
    | none => exact .pure id
    | some part => exact absurd rfl hpart
  · intro part _
    split <;> exact .pure id

theorem costs_parseNamedEnd (opened : String) :
    Costs Rule.namedEnd.cost (parseNamedEnd n opened) := by
  apply Spends.call
  apply costs_peek.andThen (by decide)
  intro token
  split
  · apply costs_parseDottedName.andThen (by decide)
    intro found
    split
    · exact .fail_bind _ _ _
    · exact spends_endTag.costs
  · exact spends_endTag.costs.weaken (by decide)

theorem costs_parseAlias? (keyword : String) :
    Costs Rule.newName.cost (parseAlias? keyword) := by
  apply Spends.call
  apply (spends_accept (by decide) _).bind (by decide)
  · intro more hmore
    rw [if_neg hmore]
    exact .pure id
  · intro more hmore
    rw [if_pos hmore]
    exact spends_name.costs.andThen (by decide) fun _ => .pure id

/-! ## §5. Tags -/

/-- The rules that others build on get along with their credit. -/
structure Rules.Affordable (rules : Rules) : Prop where
  expr : Costs Rule.expression.cost rules.expr
  body : ∀ stops opening, Costs Rule.body.cost (rules.body stops opening)

section Tags

variable {rules : Rules} (h : rules.Affordable)
include h

theorem costs_bodyOf (tag : String) (start : Position) (stops : List String) :
    Costs Rule.body.cost (rules.bodyOf tag start stops) :=
  h.body stops _

theorem costs_parseIf (pos : Position) : Costs Rule.branches.cost (parseIf rules pos) := by
  refine Spends.iterate (c := 19) (g := 20) (fun branches => ?_) (by decide) rules.turns []
  have hbody := fun stops => costs_bodyOf h "if" pos stops
  apply h.expr.andThen (by decide)
  intro cond
  apply spends_endTag.past (by decide)
  intro _
  apply (hbody _).andThen (by decide)
  intro body
  split
  · exact .pure id
  · apply (spends_accept (by decide) _).costs.andThen (by decide)
    intro _
    split
    · exact .pure id
    · exact spends_endTag.costs.andThen (by decide) fun _ => (hbody _).andThen (by decide) fun _ =>
        spends_endTag.costs.andThen (by decide) fun _ => .pure id
  · exact spends_endTag.costs.andThen (by decide) fun _ => .pure id

theorem costs_parseFor (pos : Position) :
    Costs (Rule.construct "for").credit (parseFor rules pos) := by
  apply spends_name.past (by decide)
  intro first
  apply (spends_accept (by decide) _).costs.andThen (by decide)
  intro _
  extract_lets items
  have hitems : ∀ names, Costs 50 (items names) := by
    intro (key, value)
    refine (spends_expectValue (by decide) _).costs.andThen (by decide) fun _ =>
      h.expr.andThen (by decide) fun _ => ?_
    refine costs_optional (by decide) _ (h.expr.map some) (by decide) fun cond => ?_
    refine spends_endTag.costs.andThen (by decide) fun _ =>
      (costs_bodyOf h _ _ _).andThen (by decide) fun body => ?_
    refine spends_endTag.costs.andThen (by decide) fun _ => ?_
    extract_lets statements loop
    have hloop : ∀ orElse, Costs 0 (loop orElse) := fun _ => .pure id
    split
    · exact (costs_bodyOf h _ _ _).andThen (by decide) fun _ =>
        spends_endTag.costs.andThen (by decide) fun _ => .pure_bind ((hloop _).weaken (by decide))
    · exact .pure_bind ((hloop _).weaken (by decide))
  split
  · exact spends_name.costs.andThen (by decide) fun value =>
      .pure_bind ((hitems (some first, value)).weaken (by decide))
  · exact .pure_bind ((hitems (none, first)).weaken (by decide))

theorem costs_parseBlock (pos : Position) :
    Costs (Rule.construct "block").credit (parseBlock rules pos) := by
  refine costs_parseDottedName.andThen (by decide) fun name =>
    costs_peek.andThen (by decide) fun token => ?_
  extract_lets slot
  have hslot : ∀ body, Costs 0 (slot body) := fun _ =>
    (costs_still (Parse.still_addBlock _)).andThen (by decide) fun _ => .pure id
  split
  · exact spends_endTag.costs.andThen (by decide) fun _ =>
      (costs_bodyOf h _ _ _).andThen (by decide) fun _ =>
        (costs_parseNamedEnd _).andThen (by decide) fun _ =>
          .pure_bind ((hslot _).weaken (by decide))
  · exact h.expr.andThen (by decide) fun _ =>
      spends_endTag.costs.andThen (by decide) fun _ =>
        .pure_bind ((hslot _).weaken (by decide))

theorem costs_parseParams : Costs Rule.params.cost (parseParams rules) := by
  refine Spends.iterate (c := 1) (g := 2) (fun params => ?_) (by decide) rules.turns []
  apply spends_nextSolid.bind (by decide)
  · intro token heof
    have hkind : token.kind = .eof := Decidable.of_not_not heof
    simp only [hkind]
    exact .unexpected _ _
  · intro token _
    split
    · exact .pure id
    · refine costs_optional (by decide) _ (h.expr.map some) (by decide) fun fallback => ?_
      apply (spends_accept (by decide) _).costs.andThen (by decide)
      intro _
      split
      · exact .pure id
      · exact (spends_expect (by decide)).costs.andThen (by decide) fun _ => .pure id
    · exact .unexpected _ _

theorem costs_parseMacro (pos : Position) :
    Costs (Rule.construct "macro").credit (parseMacro rules pos) := by
  refine spends_name.past (by decide) fun name =>
    (spends_expect (by decide)).costs.andThen (by decide) fun _ => ?_
  refine (costs_parseParams h).andThen (by decide) fun params =>
    spends_endTag.costs.andThen (by decide) fun _ => ?_
  refine (costs_bodyOf h _ _ _).andThen (by decide) fun body =>
    (costs_parseNamedEnd _).andThen (by decide) fun _ => ?_
  exact (costs_still (Parse.still_addMacro _)).andThen (by decide) fun _ => .pure id

theorem costs_parseExtends (pos : Position) :
    Costs (Rule.construct "extends").credit (parseExtends rules pos) := by
  have hstate : Costs 0 state := costs_still _
  apply hstate.andThen (by decide)
  intro s
  extract_lets more
  have hmore : ∀ u, Costs 19 (more u) := fun _ =>
    h.expr.andThen (by decide) fun _ =>
      spends_endTag.costs.andThen (by decide) fun _ =>
        (costs_still _).weaken (Nat.zero_le _)
  split
  · exact .fail_bind _ _ _
  · exact (hmore ()).weaken (by decide)

theorem costs_parseUse (pos : Position) :
    Costs (Rule.construct "use").credit (parseUse rules pos) := by
  have halias : Costs 3 (do
      let own ← name
      let _ ← expectValue .name "as"
      pure (own, ← name)) :=
    spends_name.costs.andThen (by decide) fun _ =>
      (spends_expectValue (by decide) _).costs.andThen (by decide) fun _ =>
        spends_name.costs.andThen (by decide) fun _ => .pure id
  have haliases := costs_commaSeparated halias (by decide) rules.turns
  exact h.expr.andThen (by decide) fun template =>
    costs_optional (by decide) _ haliases (by decide) fun aliases =>
      spends_endTag.costs.andThen (by decide) fun _ => .pure id

theorem costs_parseInclusion (pos : Position) :
    Costs Rule.inclusion.cost (parseInclusion rules pos) := by
  apply Spends.call
  apply h.expr.andThen (by decide)
  intro template
  extract_lets more
  have hmore : ∀ ignoreMissing, Costs 4 (more ignoreMissing) := fun _ =>
    costs_optional (by decide) _ (h.expr.map some) (by decide) fun bindings =>
      (spends_accept (by decide) _).costs.andThen (by decide) fun _ => .pure id
  apply (spends_accept (by decide) _).bind (by decide)
  · intro ignored hignored
    rw [if_neg hignored]
    exact .pure_bind (hmore _)
  · intro ignored hignored
    rw [if_pos hignored]
    exact (spends_expectValue (by decide) _).costs.andThen (by decide) fun _ =>
      .pure_bind ((hmore _).weaken (by decide))

theorem costs_parseEmbed (pos : Position) :
    Costs (Rule.construct "embed").credit (parseEmbed rules pos) := by
  refine (costs_parseInclusion h pos).andThen (by decide) fun inclusion =>
    spends_endTag.past (by decide) fun _ => ?_
  refine (costs_still Parse.still_openTable).andThen (by decide) fun _ => ?_
  refine (costs_bodyOf h _ _ _).andThen (by decide) fun _ => ?_
  refine (costs_still Parse.still_closeTable).andThen (by decide) fun _ => ?_
  exact spends_endTag.costs.andThen (by decide) fun _ => .pure id

theorem costs_parseImport (pos : Position) :
    Costs (Rule.construct "import").credit (parseImport rules pos) :=
  h.expr.andThen (by decide) fun _ =>
    (spends_expectValue (by decide) _).costs.andThen (by decide) fun _ =>
      spends_name.costs.andThen (by decide) fun _ =>
        spends_endTag.costs.andThen (by decide) fun _ => .pure id

theorem costs_parseFrom (pos : Position) :
    Costs (Rule.construct "from").credit (parseFrom rules pos) := by
  have hname : Costs 4 (do
      let own ← name
      pure (own, (← parseAlias? "as").getD own)) :=
    spends_name.costs.andThen (by decide) fun _ =>
      (costs_parseAlias? _).andThen (by decide) fun _ => .pure id
  refine h.expr.andThen (by decide) fun template =>
    (spends_expectValue (by decide) _).past (by decide) fun _ => ?_
  exact (costs_commaSeparated hname (by decide) _).andThen (by decide) fun names =>
    spends_endTag.costs.andThen (by decide) fun _ => .pure id

theorem costs_parseSet (pos : Position) :
    Costs (Rule.construct "set").credit (parseSet rules pos) := by
  apply (costs_commaSeparated spends_name.costs (by decide) _).andThen (by decide)
  intro targets
  apply (spends_accept (by decide) _).bind (by decide)
  · intro assigned hassigned
    rw [if_neg hassigned]
    split
    · exact spends_endTag.past (by decide) fun _ =>
        (costs_bodyOf h _ _ _).andThen (by decide) fun _ =>
          spends_endTag.costs.andThen (by decide) fun _ => .pure id
    · exact .fail _ _
  · intro assigned hassigned
    rw [if_pos hassigned]
    refine (costs_commaSeparated h.expr (by decide) _).andThen (by decide) fun values => ?_
    refine spends_endTag.costs.andThen (by decide) fun _ => ?_
    split
    · exact .fail_bind _ _ _
    · exact .pure id

theorem costs_parseFilterCalls : Costs Rule.filterCalls.cost (parseFilterCalls rules) := by
  refine Spends.iterate (c := 1) (g := 2) (fun filters => ?_) (by decide) rules.turns []
  apply (spends_expect (by decide)).past (by decide)
  intro filter
  apply costs_optional (by decide) _ (costs_listUntil h.expr (by decide) _ (by decide)) (by decide)
  intro args
  apply (spends_accept (by decide) _).costs.andThen (by decide)
  intro _
  split <;> exact .pure id

theorem costs_parseFiltered (pos : Position) :
    Costs (Rule.construct "filter").credit (parseFiltered rules pos) :=
  (costs_parseFilterCalls h).andThen (by decide) fun _ =>
    spends_endTag.costs.andThen (by decide) fun _ =>
      (costs_bodyOf h _ _ _).andThen (by decide) fun _ =>
        spends_endTag.costs.andThen (by decide) fun _ => .pure id

theorem costs_parseTag (pos : Position) (tag : String) :
    Costs (Rule.construct tag).cost (parseTag rules pos tag) := by
  apply Spends.call
  split
  · exact (costs_parseIf h pos).weaken (by decide)
  · exact (costs_parseFor h pos).andThen (by decide) fun _ => .pure id
  · exact (costs_parseBlock h pos).andThen (by decide) fun _ => .pure id
  · exact (costs_parseExtends h pos).andThen (by decide) fun _ => .pure id
  · exact (costs_parseUse h pos).andThen (by decide) fun _ => .pure id
  · exact (costs_parseInclusion h pos).andThen (by decide) fun _ =>
      spends_endTag.costs.andThen (by decide) fun _ => .pure id
  · exact (costs_parseEmbed h pos).andThen (by decide) fun _ => .pure id
  · exact (costs_parseSet h pos).andThen (by decide) fun _ => .pure id
  · exact h.expr.andThen (by decide) fun _ =>
      spends_endTag.costs.andThen (by decide) fun _ => .pure id
  · exact (costs_parseFiltered h pos).andThen (by decide) fun _ => .pure id
  · exact (costs_parseMacro h pos).andThen (by decide) fun _ => .pure id
  · exact (costs_parseImport h pos).andThen (by decide) fun _ => .pure id
  · exact (costs_parseFrom h pos).andThen (by decide) fun _ => .pure id
  · exact .fail _ _

/-! ## §6. Templates -/

theorem spends_parsePiece (stops : List String) (opening : Option Stmt.Opening)
    (before : List Stmt) :
    Spends 1 2 (parsePiece rules stops opening before)
      (Parse.Turn.Advances fun _ => False) := by
  apply spends_next.bind (by decide)
  · intro token heof
    have hkind : token.kind = .eof := Decidable.of_not_not heof
    simp only [hkind]
    cases opening with
    | none => exact .pure id
    | some => exact .fail _ _
  · intro token heof
    split
    · next hkind => exact absurd hkind heof
    · exact .pure id
    · exact h.expr.andThen (by decide) fun _ =>
        (spends_expect (by decide)).costs.andThen (by decide) fun _ => .pure id
    · apply spends_name.costs.andThen (by decide)
      intro tag
      split
      · exact .pure id
      · exact ((costs_parseTag h _ tag).weaken (Nat.le_refl 27)).andThen (by decide) fun _ =>
          .pure id
    · exact .unexpected _ _

end Tags

theorem costs_parseBody (n : Nat) (stops : List String) (opening : Option Stmt.Opening) :
    Costs Rule.body.cost (parseBody n stops opening) := by
  induction n generalizing stops opening with
  | zero => exact .exhausted
  | succ n ih =>
    have hrules : Rules.Affordable ⟨n, parseExpr n .any, parseBody n⟩ :=
      ⟨(costs_parseExpr n).1, ih⟩
    exact .call (Spends.iterate (spends_parsePiece hrules stops opening) (by decide) n [])

end Recorded

/-! ## §7. Going round -/

namespace Event

variable {tokens credit : Nat} {record : List Event}

/-- What is taken back in a record that is in order is remembered. -/
theorem remembered_pos (h : ∀ e ∈ record, e.Fits tokens credit) {remembered : Nat}
    (hbackup : (backup remembered).Happens record) : 0 < remembered := by
  cases hbackup.fits h with
  | backup hpos => exact hpos

/-- A rule has no more credit than itself, so it is called inside itself only where fewer tokens are
left. -/
theorem left_lt_of_inside (h : ∀ e ∈ record, e.Fits tokens credit) {rule : Rule} {left left' : Nat}
    {inside inside' : List Event} (hcall : (call rule left inside).Happens record)
    (hagain : (call rule left' inside').Happens inside) : left' < left := by
  cases hcall.fits h with
  | call _ hinside =>
    cases hagain.fits hinside with
    | call hleft _ => exact hleft.resolve_right fun hcredit => Nat.lt_irrefl _ hcredit.2

end Event

/-- What is spent on a source. -/
theorem Template.spendsAt_recorded (source : String) :
    let start := Parse.startState (lex source)
    let events := (Recorded.parseBody (parseDepth (lex source).tokens.length) [] none).events start
    (∀ e ∈ events, e.Fits (Parse.left start) Rule.body.cost) ∧
      Event.total events ≤ price * (lex source).tokens.length + Rule.body.cost := by
  intro start events
  have hleft : Parse.left start ≤ (lex source).tokens.length := List.countP_le_length
  obtain ⟨hfits, hrun⟩ := Recorded.costs_parseBody _ [] none start (isFinal_lex source)
  refine ⟨hfits, Nat.le_trans ?_ (Nat.add_le_add_right (Nat.mul_le_mul_left price hleft) _)⟩
  split at hrun
  · exact Nat.le_trans (Nat.le_add_right _ _) hrun.paid
  · exact hrun

/-- **The parser takes a token on every round.**  It has a record of all that it does: to go through
the record is to move the cursor as the parser does, with the numbers of the cursor in it.  What is
taken back is always remembered, no rule and no turn of a loop, which is a call of the loop by
itself, comes back to itself before fewer tokens are left, and so much is done for each token at
most.  So it comes to an end. -/
theorem Template.parse_progresses (name source : String) :
    let start := Parse.startState (lex source)
    let record := (Template.recorded name source).2
    (Template.recorded name source).1 = Template.parse name source ∧
    Template.parse name source ≠ .error .exhausted ∧
    Event.Faithful record start.cursor ∧
    (∀ body final,
      (Stmt.parseBody (parseDepth (lex source).tokens.length) [] none).run start =
        .ok (body, final) → Event.replay record start.cursor = final.cursor) ∧
    (∀ remembered, (Event.backup remembered).Happens record → 0 < remembered) ∧
    (∀ rule left inside, (Event.call rule left inside).Happens record →
      ∀ left' inside', (Event.call rule left' inside').Happens inside → left' < left) ∧
    Event.total record ≤ 32 * (lex source).tokens.length + 3 := by
  intro start record
  let x := Recorded.parseBody (parseDepth (lex source).tokens.length) [] none
  obtain ⟨hfits, htotal⟩ := Template.spendsAt_recorded source
  have hparser : x.parser = _ := Recorded.parser_parseBody _ [] none
  refine ⟨recorded_fst name source, parse_ne_exhausted name source, x.faithful start,
    fun body final hrun => ?_, fun remembered => Event.remembered_pos hfits,
    fun rule left inside hcall left' inside' => Event.left_lt_of_inside hfits hcall, htotal⟩
  rw [← hparser] at hrun
  exact x.replays start body final hrun

end Stencil
