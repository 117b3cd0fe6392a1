import Stencil.Proofs.Token.Operators
import Stencil.Proofs.Token.Progress
import Stencil.Token.Reader

/-!
What is measured in bytes is measured in characters.

Readers look for the end of a lexeme and get a number of bytes; the lexer counts characters.  Both
find the same end: the number of bytes is that of the characters that the lexer takes.  So it is a
place to cut at, however many bytes the characters have.  The longest operator is the same by either
measure, because more characters of one text are never fewer bytes.
-/

namespace Stencil

open Stencil.Text Stencil.Token
open String (utf8Len)

/-! ## §1. Comments and strings -/

theorem findBytes?_comment (cs : List Char) :
    findBytes? ['#', '}'] cs = (commentLength cs).map fun n => utf8Len (cs.take (n - 2)) := by
  fun_induction commentLength cs with
  | case1 => rfl
  | case2 => simp [findBytes?]
  | case3 c cs hcloses ih =>
    have hprefix : ['#', '}'].isPrefixOf (c :: cs) = false := by
      cases cs with
      | nil => simp [List.isPrefixOf]
      | cons d cs =>
        simp only [List.isPrefixOf, Bool.and_true, Bool.and_eq_false_imp, beq_iff_eq,
          beq_eq_false_iff_ne]
        rintro rfl rfl
        exact hcloses cs rfl rfl
    rw [findBytes?, hprefix, if_neg Bool.false_ne_true, ih, Option.map_map, Option.map_map]
    cases hlength : commentLength cs with
    | none => rfl
    | some n =>
      obtain ⟨m, rfl⟩ := Nat.exists_eq_add_of_le' (two_le_commentLength hlength)
      show some (c.utf8Size + utf8Len (cs.take m)) = some (utf8Len ((c :: cs).take (m + 1)))
      rw [List.take_succ_cons, String.utf8Len_cons, Nat.add_comm]

/-- An interpolation is opened by two characters. -/
theorem opensInterpolation_eq (quote c : Char) (cs : List Char) :
    (c == quote || (quote == '"' && ['#', '{'].isPrefixOf (c :: cs))) =
      (c == quote || (quote == '"' && c == '#' && cs.head? == some '{')) := by
  cases cs with
  | nil => simp [List.isPrefixOf]
  | cons d cs =>
    simp only [List.isPrefixOf, List.head?_cons, Bool.and_true, Option.some_beq_some]
    rw [Bool.and_assoc, BEq.comm (a := '#'), BEq.comm (a := '{')]

theorem stringEnd?_eq (quote : Char) (cs : List Char) :
    stringEnd? quote false cs = (stringRunLength quote cs).map fun n => utf8Len (cs.take n) := by
  fun_induction stringRunLength quote cs with
  | case1 => rfl
  | case2 => simp [stringEnd?]
  | case3 c cs ih =>
    rw [stringEnd?, if_pos rfl, stringEnd?, ih]
    cases stringRunLength quote cs with
    | none => rfl
    | some n => simp [Nat.add_comm]
  | case4 c cs hsingle hescape hends =>
    have hplain : c ≠ '\\' := by
      rintro rfl
      cases cs with
      | nil => exact hsingle rfl rfl
      | cons d cs => exact hescape d cs rfl rfl
    rw [stringEnd?, if_neg hplain, if_pos (by rwa [opensInterpolation_eq])]
    rfl
  | case5 c cs hsingle hescape hends ih =>
    have hplain : c ≠ '\\' := by
      rintro rfl
      cases cs with
      | nil => exact hsingle rfl rfl
      | cons d cs => exact hescape d cs rfl rfl
    rw [stringEnd?, if_neg hplain, if_neg (by rwa [opensInterpolation_eq]), ih]
    cases stringRunLength quote cs with
    | none => rfl
    | some n => simp [Nat.add_comm]

/-! ## §2. Literal text -/

theorem openerAt?_cons (c : Char) (cs : List Char) :
    openerAt? (c :: cs) =
      if opensRegion (c :: cs) then some 0 else (openerAt? cs).map (c.utf8Size + ·) := by
  have hopens : opensRegion (c :: cs) = (['{', '%'].isPrefixOf (c :: cs) ||
      ['{', '{'].isPrefixOf (c :: cs) || ['{', '#'].isPrefixOf (c :: cs)) := by
    cases cs with
    | nil => simp [opensRegion, List.isPrefixOf]
    | cons d cs =>
      by_cases hc : c = '{'
      · subst hc
        simp [opensRegion, List.isPrefixOf, BEq.comm (b := d)]
      · have hne : ('{' == c) = false := beq_eq_false_iff_ne.mpr (Ne.symm hc)
        simp [opensRegion, List.isPrefixOf, hne, hc]
  split
  · next h =>
    -- One of the delimiters stands here, and nothing is found earlier.
    rw [hopens] at h
    have hmem : 0 ∈ [['{', '%'], ['{', '{'], ['{', '#']].filterMap (findBytes? · (c :: cs)) := by
      simp only [Bool.or_eq_true, or_assoc] at h
      rw [List.mem_filterMap]
      rcases h with h | h | h
      · exact ⟨_, .head _, by rw [findBytes?, if_pos h]⟩
      · exact ⟨_, .tail _ (.head _), by rw [findBytes?, if_pos h]⟩
      · exact ⟨_, .tail _ (.tail _ (.head _)), by rw [findBytes?, if_pos h]⟩
    exact List.min?_eq_some_iff.mpr ⟨hmem, fun _ _ => Nat.zero_le _⟩
  · next h =>
    rw [hopens] at h
    simp only [Bool.or_eq_true, not_or, Bool.not_eq_true] at h
    obtain ⟨⟨htag, hprint⟩, hcomment⟩ := h
    simp only [openerAt?, List.filterMap_cons, List.filterMap_nil, findBytes?, htag, hprint,
      hcomment, Bool.false_eq_true, if_false]
    rcases findBytes? ['{', '%'] cs with - | a <;> rcases findBytes? ['{', '{'] cs with - | b <;>
      rcases findBytes? ['{', '#'] cs with - | d <;>
      simp [Nat.add_min_add_left]

/-- Literal text ends where the next delimiter begins, or with the source. -/
theorem openerAt?_getD (cs : List Char) :
    (openerAt? cs).getD (utf8Len cs) = utf8Len (literalRun cs) := by
  induction cs with
  | nil => rfl
  | cons c cs ih =>
    rw [openerAt?_cons, literalRun]
    split
    · rfl
    · rw [String.utf8Len_cons, String.utf8Len_cons, ← ih]
      cases openerAt? cs <;> simp [Nat.add_comm]

/-! ## §3. Operators -/

/-- The number of bytes of the first characters of a text grows with their number. -/
theorem monotone_utf8Len_take (cs : List Char) : Monotone fun n => utf8Len (cs.take n) :=
  fun _ _ h => String.utf8Len_le_of_prefix (List.take_prefix_take_left h)

theorem utf8Len_take_add (cs : List Char) (m n : Nat) :
    utf8Len (cs.take (m + n)) = utf8Len (cs.take m) + utf8Len ((cs.drop m).take n) := by
  rw [List.take_add, String.utf8Len_append]

theorem utf8Len_take_of_isPrefixOf {word : String} {cs : List Char}
    (h : word.toList.isPrefixOf cs = true) :
    utf8Len (cs.take word.toList.length) = word.utf8ByteSize := by
  obtain ⟨more, rfl⟩ := List.isPrefixOf_iff_prefix.mp h
  rw [List.take_left, String.utf8Len_toList]

theorem symbolBytes?_eq (symbol : String) (cs : List Char) :
    symbolBytes? symbol cs = (symbolLength symbol cs).map fun n => utf8Len (cs.take n) := by
  unfold symbolBytes? symbolLength
  split
  · next h => rw [Option.map_some, utf8Len_take_of_isPrefixOf h]
  · rfl

/-- Blanks before a word are passed over; there has to be one. -/
theorem wordsBytes?_gap (word : String) (more : List String) (cs : List Char) (k : Nat) :
    wordsBytes? cs true (word :: more) (utf8Len (cs.take k)) =
      if ((cs.drop k).takeWhile isBlank).length = 0 then none
      else wordsBytes? cs false (word :: more)
        (utf8Len (cs.take (k + ((cs.drop k).takeWhile isBlank).length))) := by
  have hblanks : runBytes isBlank (cs.drop k) = 0 ↔
      ((cs.drop k).takeWhile isBlank).length = 0 := by
    rw [runBytes_eq, String.utf8Len_eq_zero, List.length_eq_zero_iff]
  have hbehind : utf8Len (cs.take k) + runBytes isBlank (cs.drop k) =
      utf8Len (cs.take (k + ((cs.drop k).takeWhile isBlank).length)) := by
    rw [utf8Len_take_add, runBytes_eq_take]
  rw [wordsBytes?]
  simp only [if_true, Option.bind_eq_bind, dropBytes?_take, Option.bind_some, hblanks, hbehind]
  split
  · rfl
  · simp [wordsBytes?, dropBytes?_take]

/-- A sequence of words that comes after `k` characters ends after the same number of bytes. -/
theorem wordsBytes?_eq (words : List String) (cs : List Char) (k : Nat) :
    wordsBytes? cs false words (utf8Len (cs.take k)) =
      (wordsLength words (cs.drop k)).map fun n => utf8Len (cs.take (k + n)) := by
  induction words generalizing k with
  | nil =>
    rw [wordsBytes?, dropBytes?_take, wordsLength]
    cases cs.drop k with
    | nil => rfl
    | cons c more =>
      simp only [continuesName, Option.bind_some, List.head?_cons]
      by_cases hc : isNameChar c = true <;> simp [hc]
  | cons word more ih =>
    have hdrop := dropBytes?_take k cs
    simp only [wordsBytes?, Bool.false_eq_true, if_false, Option.bind_eq_bind, Option.bind_some,
      hdrop, wordsLength]
    split
    · next hword =>
      -- The word is there; the next one, if there is one, comes after blanks.
      have hbytes : utf8Len (cs.take k) + word.utf8ByteSize =
          utf8Len (cs.take (k + word.toList.length)) := by
        rw [utf8Len_take_add, utf8Len_take_of_isPrefixOf hword]
      rw [hbytes]
      cases more with
      | nil =>
        have hlast := ih (k + word.toList.length)
        simp only [wordsBytes?, List.drop_drop] at hlast ⊢
        simpa [Function.comp_def, Nat.add_assoc] using hlast
      | cons next more =>
        rw [wordsBytes?_gap, List.drop_drop]
        generalize hgap : ((cs.drop (k + word.toList.length)).takeWhile isBlank).length = gap
        by_cases hnone : gap = 0
        · simp [hnone]
        · have hnext := ih (k + word.toList.length + gap)
          simp only [Nat.add_assoc] at hnext
          simp [hnone, hnext, List.drop_drop, Function.comp_def, Nat.add_assoc]
    · rfl

/-- The longest operator in bytes is the longest one in characters. -/
theorem operatorBytes?_eq (cs : List Char) :
    operatorBytes? cs = (operatorLength cs).map fun n => utf8Len (cs.take n) := by
  have hwords : ∀ words, wordsBytes? cs false words 0 =
      (wordsLength words cs).map fun n => utf8Len (cs.take n) := by
    intro words
    simpa using wordsBytes?_eq words cs 0
  have hall : symbolOperators.filterMap (symbolBytes? · cs) ++
      wordOperators.filterMap (wordsBytes? cs false · 0) =
        (symbolOperators.filterMap (symbolLength · cs) ++
          wordOperators.filterMap (wordsLength · cs)).map fun n => utf8Len (cs.take n) := by
    rw [List.map_append, List.map_filterMap, List.map_filterMap]
    simp only [symbolBytes?_eq, hwords]
  rw [operatorBytes?, hall, max?_map_of_monotone (monotone_utf8Len_take cs), operatorLength]

/-! ## §4. Closing delimiters -/

/-- A trim marker and what comes after it. -/
theorem isPrefixOf_marked (delimiter cs : List Char) :
    (cs.head? == some '-' && (dropBytes? 1 cs).any (delimiter.isPrefixOf ·)) =
      ('-' :: delimiter).isPrefixOf cs := by
  cases cs with
  | nil => simp
  | cons c cs =>
    by_cases hc : c = '-'
    · subst hc
      have hdrop : dropBytes? 1 ('-' :: cs) = some cs := dropBytes?_append ['-'] cs
      simp [hdrop, List.isPrefixOf]
    · have hne : ('-' == c) = false := beq_eq_false_iff_ne.mpr (Ne.symm hc)
      simp [List.isPrefixOf, hne, hc]

theorem Reader.closing?_eq (r : Reader) (region : Region) :
    r.closing? region =
      (region.closing? r.rest).map fun (kind, n, trims) =>
        (kind, utf8Len (r.rest.take n), trims) := by
  unfold Reader.closing? Region.closing?
  generalize region.delimiter? = closer
  generalize region.brackets = brackets
  match closer, brackets with
  | none, _ | some _, _ :: _ => rfl
  | some (kind, delimiter), [] =>
    dsimp only
    rw [isPrefixOf_marked]
    split
    · next h =>
      obtain ⟨more, hmore⟩ := List.isPrefixOf_iff_prefix.mp h
      simp [← hmore]
    · split
      · next h =>
        obtain ⟨more, hmore⟩ := List.isPrefixOf_iff_prefix.mp h
        have hdash : ('-' : Char).utf8Size = 1 := rfl
        simp [← hmore, hdash]
      · rfl

end Stencil
