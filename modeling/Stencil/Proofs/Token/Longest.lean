import Stencil.Proofs.Token.Places

/-!
The longest operator is taken.

Symbols and words share beginnings, such as `*` and `**` or `is` and `is not`, so that several
entries of the tables may match at one place of a source.  `Stands` says that an entry does, with
any blanks between its words.  An operator token is the entry at its place that goes on for longest,
and the parser knows what to do with it.  Where a name begins no entry stands, so that no name is an
operator.
-/

namespace Stencil

open Stencil.Text

namespace Token

variable {value : String} {words : List String} {cs span after : List Char} {n : Nat}

/-! ## §1. Entries of the tables -/

/-- An entry of the tables of operators stands at the head of a text, which goes on after it. -/
inductive Stands (value : String) (span after : List Char) : Prop
  | symbol : value ∈ symbolOperators → span = value.toList → Stands value span after
  /-- Words stand before anything that does not go on with the last one. -/
  | words {words : List String} : words ∈ wordOperators → value = " ".intercalate words →
      Spelt words span → continuesName after = false → Stands value span after

/-- What stands somewhere is to be seen from the text. -/
theorem Stands.value_eq (h : Stands value span after) : value.toList = squeezed span := by
  cases h with
  | symbol hvalue hspan =>
    have hplain : ∀ symbol ∈ symbolOperators, symbol.toList.any isBlank = false := by decide
    have hblank := hplain value hvalue
    rw [hspan, squeezed_of_not_blank (by simpa using hblank)]
  | words hwords hvalue hspelt =>
    rw [hvalue, hspelt.squeezed_eq fun word => isWord_of_operator hwords]

theorem continuesName_of_wordsLength (h : wordsLength words cs = some n) :
    continuesName (cs.drop n) = false := by
  induction words generalizing cs n with
  | nil =>
    rw [wordsLength] at h
    by_cases hcontinued : continuesName cs = true
    · rw [if_pos hcontinued] at h
      cases h
    · rw [if_neg hcontinued] at h
      cases h
      simpa using hcontinued
  | cons word more ih =>
    rw [wordsLength] at h
    by_cases hprefix : word.toList.isPrefixOf cs = true
    · rw [if_pos hprefix] at h
      dsimp only at h
      generalize hgap : (if more.isEmpty = true then 0 else
        ((cs.drop word.toList.length).takeWhile isBlank).length) = gap at h
      by_cases hmissing : (gap == 0 && !more.isEmpty) = true
      · rw [if_pos hmissing] at h
        cases h
      · rw [if_neg hmissing] at h
        obtain ⟨m, hm, rfl⟩ := Option.map_eq_some_iff.mp h
        have hrest := ih hm
        rwa [List.drop_drop, List.drop_drop, ← Nat.add_assoc] at hrest
    · rw [if_neg hprefix] at h
      cases h

/-- Words in a row are found wherever they end as words do. -/
theorem wordsLength_of_spelt (hspelt : Spelt words span) (hwords : ∀ word ∈ words, IsWord word)
    (hafter : continuesName after = false) :
    wordsLength words (span ++ after) = some span.length := by
  induction hspelt with
  | last word => simp [wordsLength, hafter]
  | @more word words gap span hgap hblank hspan ih =>
    obtain ⟨-, hmore⟩ := List.forall_mem_cons.mp hwords
    have hlength := ih hmore
    have hne : words.isEmpty = false := by
      cases hspan <;> rfl
    -- The blanks end where the next word begins.
    have htake : (gap ++ (span ++ after)).takeWhile isBlank = gap := by
      have hhead : (span ++ after).takeWhile isBlank = [] := by
        have hstart := hspan.head hmore
        cases hspan with
        | last word | more word =>
          obtain ⟨c, cs, hcs⟩ := List.exists_cons_of_ne_nil (hmore word List.mem_cons_self).1
          simp_all
      rw [List.takeWhile_append_of_pos (List.all_eq_true.mp hblank), hhead, List.append_nil]
    have hlong : (gap.length == 0) = false := by simpa using hgap
    have hprefix : word.toList.isPrefixOf (word.toList ++ (gap ++ span) ++ after) = true := by simp
    rw [wordsLength, if_pos hprefix, List.append_assoc, List.drop_left, List.append_assoc]
    simp [hne, htake, hgap, hlength]
    omega

/-! ## §2. The longest one -/

/-- Where an entry stands, an operator is found that is as long or longer. -/
theorem Stands.exists_operatorLength (h : Stands value span after) :
    ∃ n, operatorLength (span ++ after) = some n ∧ span.length ≤ n := by
  let found := symbolOperators.filterMap (symbolLength · (span ++ after)) ++
    wordOperators.filterMap (wordsLength · (span ++ after))
  have hmem : span.length ∈ found := by
    cases h with
    | symbol hvalue hspan =>
      subst hspan
      refine List.mem_append_left _ (List.mem_filterMap.mpr ⟨value, hvalue, ?_⟩)
      simp [symbolLength]
    | words hwords _ hspelt hafter =>
      refine List.mem_append_right _ (List.mem_filterMap.mpr ⟨_, hwords, ?_⟩)
      exact wordsLength_of_spelt hspelt (fun word => isWord_of_operator hwords) hafter
  obtain ⟨n, hn⟩ : ∃ n, found.max? = some n := by
    cases hmax : found.max? with
    | none =>
      rw [List.max?_eq_none_iff.mp hmax] at hmem
      cases hmem
    | some n => exact ⟨n, rfl⟩
  exact ⟨n, hn, (List.max?_eq_some_iff.mp hn).2 _ hmem⟩

/-- What is found stands there. -/
theorem stands_of_operatorLength (h : operatorLength cs = some n) :
    Stands (operatorValue (cs.take n)) (cs.take n) (cs.drop n) := by
  have hvalue : ∀ value, Stands value (cs.take n) (cs.drop n) →
      operatorValue (cs.take n) = value := fun value hstands =>
    String.toList_injective ((operatorValue_of_operatorLength h).trans hstands.value_eq.symm)
  suffices hstands : ∃ value, Stands value (cs.take n) (cs.drop n) by
    obtain ⟨value, hstands⟩ := hstands
    rwa [hvalue value hstands]
  rcases List.mem_append.mp (List.max?_mem h) with hmem | hmem
  · obtain ⟨symbol, hsymbol, hn⟩ := List.mem_filterMap.mp hmem
    unfold symbolLength at hn
    by_cases hprefix : symbol.toList.isPrefixOf cs = true
    · rw [if_pos hprefix] at hn
      cases hn
      have hspan := List.prefix_iff_eq_take.mp (List.isPrefixOf_iff_prefix.mp hprefix)
      exact ⟨symbol, .symbol hsymbol hspan.symm⟩
    · rw [if_neg hprefix] at hn
      cases hn
  · obtain ⟨words, hwords, hn⟩ := List.mem_filterMap.mp hmem
    have hne : ∀ words ∈ wordOperators, words ≠ [] := by decide
    exact ⟨_, .words hwords rfl (spelt_of_wordsLength (hne words hwords) hn)
      (continuesName_of_wordsLength hn)⟩

/-- An entry stands at a place, and every other one that does is shorter. -/
structure Longest (value : String) (span after : List Char) : Prop where
  stands : Stands value span after
  longest : ∀ value' span' after', span' ++ after' = span ++ after → Stands value' span' after' →
    value' = value ∧ span' = span ∨ span'.length < span.length

/-- What is found is the longest. -/
theorem longest_of_operatorLength (h : operatorLength cs = some n) :
    Longest (operatorValue (cs.take n)) (cs.take n) (cs.drop n) := by
  refine ⟨stands_of_operatorLength h, fun value' span' after' htext hstands => ?_⟩
  rw [List.take_append_drop] at htext
  obtain ⟨m, hm, hle⟩ := hstands.exists_operatorLength
  rw [htext, h] at hm
  cases hm
  -- Both are prefixes of one text, and of the same length are only equal ones.
  have hprefix : span' <+: cs := ⟨after', htext⟩
  have hshort : span'.length ≤ (cs.take n).length := by
    rw [List.length_take]
    exact Nat.le_min.mpr ⟨hle, hprefix.length_le⟩
  have hspan := List.prefix_of_prefix_length_le hprefix (List.take_prefix n cs) hshort
  by_cases hlength : span'.length = (cs.take n).length
  · have hspan := hspan.eq_of_length hlength
    refine .inl ⟨String.toList_injective ?_, hspan⟩
    rw [hstands.value_eq, operatorValue_of_operatorLength h, hspan]
  · exact .inr (by omega)

/-- What the parser knows what to do with: operators before and between expressions, and tests. -/
def Understood (value : String) : Prop :=
  (BinaryOp.ofSpelling? value).isSome ∨ (UnaryOp.ofSpelling? value).isSome ∨
    value = "is" ∨ value = "is not"

instance (value : String) : Decidable (Understood value) :=
  inferInstanceAs (Decidable (_ ∨ _))

/-- The parser knows all entries. -/
theorem Stands.understood (h : Stands value span after) : Understood value := by
  cases h with
  | symbol hvalue =>
    have hall : ∀ symbol ∈ symbolOperators, Understood symbol := by decide
    exact hall value hvalue
  | words hwords hvalue =>
    have hall : ∀ words ∈ wordOperators, Understood (" ".intercalate words) := by decide
    exact hvalue ▸ hall _ hwords

end Token

/-! ## §3. Tokens -/

namespace Scan

open Token

variable {s t : Scan} {found : Lexeme} {token : Token} {n : Nat}

/-- What was taken, if so much of it is gone. -/
theorem span_of_next (hnext : s.next = .lexeme found t) (hrest : t.rest = s.rest.drop n) :
    found.span = s.rest.take n := by
  have hconsumes := s.consumes_next
  rw [hnext] at hconsumes
  have hsplit := hconsumes.2.trans (List.take_append_drop n s.rest).symm
  rw [hrest] at hsplit
  exact List.append_cancel_right hsplit

theorem longest_of_next (hnext : s.next = .lexeme found t) (htoken : found.token = some token)
    (hkind : token.kind = .operator) : Longest token.value found.span t.rest := by
  obtain ⟨n, hlength, hvalue, hrest⟩ := (gives_of_next hnext htoken).operator hkind
  rw [hvalue, span_of_next hnext hrest, hrest]
  exact longest_of_operatorLength hlength

/-- A name is no operator, as that would stand where the name does. -/
theorem not_operator_of_next (hnext : s.next = .lexeme found t) (htoken : found.token = some token)
    (hkind : token.kind = .name) : [token.value] ∉ wordOperators := by
  intro hmem
  obtain ⟨n, hreaches, hvalue, hrest⟩ :=
    (gives_of_next hnext htoken).plain (by rw [hkind]; decide)
  rw [hkind] at hreaches
  obtain ⟨hnone, rfl⟩ := hreaches
  have hspan : s.rest.take (s.rest.takeWhile isNameChar).length = s.rest.takeWhile isNameChar :=
    (List.prefix_iff_eq_take.mp (List.takeWhile_prefix _)).symm
  have hname : token.value.toList = s.rest.takeWhile isNameChar := by
    rw [hvalue, String.toList_ofList, hspan]
  have hafter : continuesName (s.rest.dropWhile isNameChar) = false := by
    have hhead := List.head?_dropWhile_not isNameChar s.rest
    cases hdrop : s.rest.dropWhile isNameChar with
    | nil => rfl
    | cons c cs =>
      rw [hdrop] at hhead
      exact hhead
  have hstands : Stands token.value token.value.toList (s.rest.dropWhile isNameChar) :=
    .words hmem (by simp) (.last token.value) hafter
  obtain ⟨m, hsome, -⟩ := hstands.exists_operatorLength
  rw [hname, List.takeWhile_append_dropWhile, hnone] at hsome
  cases hsome

end Scan

/-- **Operators are longest matches that the parser understands.**  An operator token is the longest
entry of the tables that stands at its place, its value is understood by the parser, and a name is
no operator. -/
theorem operators_of_lex {source : String} {token : Token} (htoken : token ∈ (lex source).tokens) :
    ∃ earlier later span after,
      (lexemes source).1 = earlier ++ ⟨span, some token⟩ :: later ∧
      source.toList = earlier.flatMap Lexeme.span ++ (span ++ after) ∧
      token.position = Position.start.past (earlier.flatMap Lexeme.span) ∧
      (token.kind = .operator → Token.Longest token.value span after ∧
        Token.Understood token.value) ∧
      (token.kind = .name → [token.value] ∉ Token.wordOperators) := by
  obtain ⟨found, hfound, htoken⟩ := List.mem_filterMap.mp htoken
  obtain ⟨earlier, s, t, hsteps, hnext⟩ :=
    Scan.exists_steps_of_mem (source.toList.length + 1) (.start source) hfound
  obtain ⟨later, hlexemes⟩ := hsteps.exists_lexemes hnext
  have hconsumes := s.consumes_next
  have hplaced := s.placed_next
  rw [hnext] at hconsumes hplaced
  refine ⟨earlier, later, found.span, t.rest, ?_, ?_, ?_, fun hkind => ?_, fun hkind => ?_⟩
  · rw [← htoken]
    exact hlexemes
  · rw [hconsumes.2]
    exact hsteps.rest_eq
  · rw [hplaced.1 token htoken]
    exact hsteps.position_eq
  · have hlongest := Scan.longest_of_next hnext htoken hkind
    exact ⟨hlongest, hlongest.stands.understood⟩
  · exact Scan.not_operator_of_next hnext htoken hkind

/-- In this source `not in` is taken with all blanks between its words, and a name begins with an
operator. -/
theorem operators_of_lex_not_in :
    ∃ earlier later span after,
      (lexemes "\x7b\x7b index not \u00a0in b ** 2 \x7d\x7d").1 =
        earlier ++ ⟨span, some ⟨.operator, "not in", ⟨1, 10⟩⟩⟩ :: later ∧
      Token.Longest "not in" span after ∧ Token.Understood "not in" := by
  have hmem : ⟨.operator, "not in", ⟨1, 10⟩⟩ ∈
      (lex "\x7b\x7b index not \u00a0in b ** 2 \x7d\x7d").tokens := by decide +kernel
  obtain ⟨earlier, later, span, after, hlexemes, -, -, hoperator, -⟩ := operators_of_lex hmem
  exact ⟨earlier, later, span, after, hlexemes, hoperator rfl⟩

end Stencil
