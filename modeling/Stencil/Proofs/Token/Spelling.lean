import Stencil.Proofs.Token.Operators
import Mathlib.Data.List.SplitBy

/-!
The text of an operator.

An operator token stands for a symbol or for words with blanks between them.  Its value is the text
it was read from, except that a single space takes the place of each run of blanks.
-/

namespace Stencil

open Stencil.Text

/-! ## §1. What an operator is read from -/

namespace Token

/-- A text in which words stand in a row with blanks between them. -/
inductive Spelt : List String → List Char → Prop
  | last (word : String) : Spelt [word] word.toList
  | more (word : String) {words : List String} {gap span : List Char} : gap ≠ [] →
      gap.all isBlank → Spelt words span → Spelt (word :: words) (word.toList ++ (gap ++ span))

theorem take_of_isPrefixOf {ds cs : List Char} (h : ds.isPrefixOf cs = true) (n : Nat) :
    cs.take (ds.length + n) = ds ++ (cs.drop ds.length).take n := by
  obtain ⟨rest, rfl⟩ := List.isPrefixOf_iff_prefix.mp h
  rw [List.take_length_add_append, List.drop_left]

theorem spelt_of_wordsLength {words : List String} {cs : List Char} {n : Nat} (hne : words ≠ [])
    (h : wordsLength words cs = some n) : Spelt words (cs.take n) := by
  induction words generalizing cs n with
  | nil => exact absurd rfl hne
  | cons word more ih =>
    rw [wordsLength] at h
    by_cases hprefix : word.toList.isPrefixOf cs = true
    · rw [if_pos hprefix] at h
      cases more with
      | nil =>
        -- Nothing is taken after the last word.
        have hn : word.toList.length + 0 = n := by
          obtain ⟨m, hm, hn⟩ := Option.map_eq_some_iff.mp h
          by_cases hcontinued : continuesName (cs.drop word.toList.length) = true
          · simp [wordsLength, hcontinued] at hm
          · simp [wordsLength, hcontinued] at hm
            simpa [← hm] using hn
        rw [← hn, take_of_isPrefixOf hprefix, List.take_zero, List.append_nil]
        exact .last word
      | cons second more =>
        let rest := cs.drop word.toList.length
        let gap := rest.takeWhile isBlank
        have h : (if (gap.length == 0) = true then none else
            (wordsLength (second :: more) (rest.drop gap.length)).map
              (word.toList.length + gap.length + ·)) = some n := by
          simpa [gap, rest] using h
        by_cases hgap : gap = []
        · simp [hgap] at h
        · have hlength : (gap.length == 0) = false := by simpa using hgap
          rw [hlength, if_neg Bool.false_ne_true] at h
          obtain ⟨m, hm, rfl⟩ := Option.map_eq_some_iff.mp h
          have hrest : gap.isPrefixOf rest = true :=
            List.isPrefixOf_iff_prefix.mpr (List.takeWhile_prefix _)
          rw [Nat.add_assoc, take_of_isPrefixOf hprefix, take_of_isPrefixOf hrest]
          exact .more word hgap List.all_takeWhile (ih (List.cons_ne_nil _ _) hm)
    · rw [if_neg hprefix] at h
      cases h

/-- An operator is a symbol, or words with blanks between them. -/
theorem span_of_operatorLength {cs : List Char} {n : Nat} (h : operatorLength cs = some n) :
    (∃ symbol ∈ symbolOperators, cs.take n = symbol.toList) ∨
      ∃ words ∈ wordOperators, Spelt words (cs.take n) := by
  have hmem := List.max?_mem h
  rcases List.mem_append.mp hmem with hmem | hmem
  · obtain ⟨symbol, hsymbol, hn⟩ := List.mem_filterMap.mp hmem
    refine .inl ⟨symbol, hsymbol, ?_⟩
    unfold symbolLength at hn
    by_cases hprefix : symbol.toList.isPrefixOf cs = true
    · rw [if_pos hprefix] at hn
      cases hn
      exact (List.prefix_iff_eq_take.mp (List.isPrefixOf_iff_prefix.mp hprefix)).symm
    · rw [if_neg hprefix] at hn
      cases hn
  · obtain ⟨words, hwords, hn⟩ := List.mem_filterMap.mp hmem
    have hne : ∀ words ∈ wordOperators, words ≠ [] := by decide
    exact .inr ⟨words, hwords, spelt_of_wordsLength (hne words hwords) hn⟩

end Token

/-! ## §2. Runs of blanks -/

namespace Text

/-- A text in which every run of blanks is a single space. -/
def squeezed : List Char → List Char
  | [] => []
  | c :: cs =>
    if isBlank c then if cs.head?.any isBlank then squeezed cs else ' ' :: squeezed cs
    else c :: squeezed cs

theorem squeezed_append_of_not_blank {word : List Char} (h : ∀ c ∈ word, isBlank c = false)
    (cs : List Char) : squeezed (word ++ cs) = word ++ squeezed cs := by
  induction word with
  | nil => rfl
  | cons c word ih =>
    obtain ⟨hc, hword⟩ := List.forall_mem_cons.mp h
    simp [squeezed, hc, ih hword]

/-- Blanks before something else become one space. -/
theorem squeezed_append_of_blank {gap cs : List Char} (hne : gap ≠ []) (hgap : gap.all isBlank)
    (hcs : cs.head?.any isBlank = false) : squeezed (gap ++ cs) = ' ' :: squeezed cs := by
  induction gap with
  | nil => exact absurd rfl hne
  | cons c gap ih =>
    obtain ⟨hc, hgap⟩ := List.all_cons ▸ hgap |> Bool.and_eq_true_iff.mp
    cases gap with
    | nil => simp [squeezed, hc, hcs]
    | cons d gap =>
      have hd : isBlank d = true := List.all_eq_true.mp hgap d List.mem_cons_self
      rw [List.cons_append, squeezed, if_pos hc, if_pos (by simpa using hd)]
      exact ih (List.cons_ne_nil _ _) hgap

theorem splitBy_blanks {b : Bool} {run : List Char} (hne : run ≠ [])
    (h : ∀ c ∈ run, isBlank c = b) :
    run.splitBy (fun a b => isBlank a == isBlank b) = [run] := by
  refine List.splitBy_of_isChain hne (List.Pairwise.isChain ?_)
  exact List.pairwise_of_forall_mem_list fun c hc d hd => by simp [h c hc, h d hd]

/-- The words of a text that begins with one are that word and those of the rest. -/
theorem words_append {word gap cs : List Char} (hword : word ≠ [])
    (hplain : ∀ c ∈ word, isBlank c = false) (hne : gap ≠ []) (hgap : gap.all isBlank)
    (hcs : cs.head?.any isBlank = false) :
    words (word ++ (gap ++ cs)) = word :: words cs := by
  have hblank : ∀ c ∈ gap, isBlank c = true := List.all_eq_true.mp hgap
  have hends : ∀ c ∈ word.getLast?, ∀ d ∈ (gap ++ cs).head?, (isBlank c == isBlank d) = false := by
    intro c hc d hd
    rw [List.head?_append_of_ne_nil _ hne] at hd
    rw [hplain c (List.mem_of_getLast? hc), hblank d (List.mem_of_head? hd)]
    rfl
  have hstarts : ∀ c ∈ gap.getLast?, ∀ d ∈ cs.head?, (isBlank c == isBlank d) = false := by
    intro c hc d hd
    have hd' : isBlank d = false := by simpa [Option.mem_def.mp hd] using hcs
    rw [hblank c (List.mem_of_getLast? hc), hd']
    rfl
  rw [words, List.splitBy_append hends, List.splitBy_append hstarts, splitBy_blanks hword hplain,
    splitBy_blanks hne hblank]
  have hkept : word.any isBlank = false := by simpa using hplain
  have hdropped : gap.any isBlank = true := by
    obtain ⟨c, gap, rfl⟩ := List.exists_cons_of_ne_nil hne
    simp [hblank c List.mem_cons_self]
  simp [hkept, hdropped, words]

theorem squeezed_of_not_blank {word : List Char} (h : ∀ c ∈ word, isBlank c = false) :
    squeezed word = word := by
  have happend := squeezed_append_of_not_blank h []
  rwa [squeezed, List.append_nil] at happend

end Text

/-! ## §3. The value -/

namespace Token

/-- Words as they are in operators: not empty, and without blanks. -/
def IsWord (word : String) : Prop :=
  word.toList ≠ [] ∧ ∀ c ∈ word.toList, isBlank c = false

/-- A row of words begins with none of the blanks between them. -/
theorem Spelt.head {words : List String} {span : List Char} (h : Spelt words span)
    (hwords : ∀ word ∈ words, IsWord word) : span.head?.any isBlank = false := by
  have hhead : ∀ (word : String) (more : List Char), IsWord word →
      (word.toList ++ more).head?.any isBlank = false := by
    intro word more hword
    obtain ⟨c, cs, hcs⟩ := List.exists_cons_of_ne_nil hword.1
    simpa [hcs] using hword.2 c (by simp [hcs])
  cases h with
  | last word => simpa using hhead word [] (hwords word List.mem_cons_self)
  | more word => exact hhead word _ (hwords word List.mem_cons_self)

theorem Spelt.words_eq {words : List String} {span : List Char} (h : Spelt words span)
    (hwords : ∀ word ∈ words, IsWord word) : Text.words span = words.map String.toList := by
  induction h with
  | last word =>
    obtain ⟨hne, hplain⟩ := hwords word List.mem_cons_self
    have hkept : word.toList.any isBlank = false := by simpa using hplain
    simp [Text.words, splitBy_blanks hne hplain, hkept]
  | more word hgap hblank hspan ih =>
    obtain ⟨hword, hmore⟩ := List.forall_mem_cons.mp hwords
    rw [words_append hword.1 hword.2 hgap hblank (hspan.head hmore), ih hmore, List.map_cons]

theorem Spelt.squeezed_eq {words : List String} {span : List Char} (h : Spelt words span)
    (hwords : ∀ word ∈ words, IsWord word) : squeezed span = (" ".intercalate words).toList := by
  induction h with
  | last word =>
    simp [squeezed_of_not_blank (hwords word List.mem_cons_self).2]
  | @more word words gap span hgap hblank hspan ih =>
    obtain ⟨hword, hmore⟩ := List.forall_mem_cons.mp hwords
    have hne : words ≠ [] := by
      rintro rfl
      cases hspan
    rw [squeezed_append_of_not_blank hword.2,
      squeezed_append_of_blank hgap hblank (hspan.head hmore), ih hmore]
    obtain ⟨second, words, rfl⟩ := List.exists_cons_of_ne_nil hne
    simp [String.toList_intercalate]

theorem isWord_of_operator {words : List String} {word : String} (hwords : words ∈ wordOperators)
    (hword : word ∈ words) : IsWord word := by
  have hall : ∀ words ∈ wordOperators, ∀ word ∈ words,
      word.toList ≠ [] ∧ word.toList.any isBlank = false := by decide
  obtain ⟨hne, hplain⟩ := hall words hwords word hword
  exact ⟨hne, by simpa using hplain⟩

/-- The value of an operator is its text, with a single space for each run of blanks. -/
theorem operatorValue_of_operatorLength {cs : List Char} {n : Nat}
    (h : operatorLength cs = some n) :
    (operatorValue (cs.take n)).toList = squeezed (cs.take n) := by
  unfold operatorValue
  by_cases hblank : (cs.take n).any isBlank = true
  · rw [if_pos hblank]
    rcases span_of_operatorLength h with ⟨symbol, hsymbol, hspan⟩ | ⟨words, hwords, hspelt⟩
    -- Symbols are written without blanks.
    · have hplain : ∀ symbol ∈ symbolOperators, symbol.toList.any isBlank = false := by decide
      rw [hspan, hplain symbol hsymbol] at hblank
      cases hblank
    · have hword : ∀ word ∈ words, IsWord word := fun word => isWord_of_operator hwords
      rw [hspelt.words_eq hword, hspelt.squeezed_eq hword]
      simp [Function.comp_def]
  · rw [if_neg hblank, String.toList_ofList, squeezed_of_not_blank (by simpa using hblank)]

end Token

end Stencil
