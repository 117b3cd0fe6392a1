import Stencil.Token.Spelling
import Stencil.Template.Operator
import Mathlib.Order.Monotone.Basic

/-!
Where operators are.

Whether an operator stands at the head of a text shows in the first few characters.  Most characters
begin none.  A word that may begin one does not if it is part of a longer name, and a plain word is
never taken for one.  Of the operators themselves only `not` and `is` depend on what comes after the
next blank, since they also begin the longer `not in` and `is not`.
-/

namespace Stencil

open Stencil.Text

/-! ## §1. Characters of names -/

/-- The blank characters by their numbers. -/
def blankCodes : List Nat :=
  List.range' 9 5 ++ [0x20, 0x85, 0xA0, 0x1680] ++ List.range' 0x2000 11 ++
    [0x2028, 0x2029, 0x202F, 0x205F, 0x3000]

theorem toNat_mem_blankCodes {c : Char} (h : isBlank c = true) : c.toNat ∈ blankCodes := by
  simp only [isBlank, Bool.or_eq_true, Bool.and_eq_true, decide_eq_true_eq, beq_iff_eq] at h
  simp only [blankCodes, List.mem_append, List.mem_range'_1, List.mem_cons, List.not_mem_nil,
    or_false]
  omega

/-- No character of a name is blank. -/
theorem isBlank_of_isNameChar {c : Char} (h : isNameChar c = true) : isBlank c = false := by
  cases hblank : isBlank c with
  | false => rfl
  | true =>
    have hcode := toNat_mem_blankCodes hblank
    -- The table is long, so it is searched by numbers and with the comparison that computes.
    have htable : (blankCodes.all fun n =>
        alphanumericRanges.all fun r => !(r.1.ble n && n.ble r.2)) = true := by decide +kernel
    have hascii : ∀ n ∈ blankCodes, n < 128 → (Char.ofNat n).isAlphanum = false := by decide
    have hunderscore : ('_' : Char).toNat ∉ blankCodes := by decide
    simp only [isNameChar, isAlphanumeric, Bool.or_eq_true, beq_iff_eq] at h
    rcases h with h | rfl
    · split at h
      · next hc =>
        have hfalse := hascii c.toNat hcode hc
        rw [Char.ofNat_toNat, h] at hfalse
        cases hfalse
      · obtain ⟨r, hr, hlow, hhigh⟩ := (CodeRanges.has_iff _ _).mp h
        have houtside := List.all_eq_true.mp (List.all_eq_true.mp htable c.toNat hcode) r hr
        rw [Nat.ble_eq_true_of_le hlow, Nat.ble_eq_true_of_le hhigh] at houtside
        cases houtside
    · exact absurd hcode hunderscore

theorem isNameChar_of_isDigit {c : Char} (h : c.isDigit = true) : isNameChar c = true := by
  have halpha : c.isAlphanum = true := by simp [Char.isAlphanum, h]
  simp [isNameChar, isAlphanumeric_of_isAlphanum halpha]

theorem ne_of_isNameChar {c d : Char} (hc : isNameChar c = true) (hd : isNameChar d = false) :
    c ≠ d := by
  rintro rfl
  rw [hc] at hd
  cases hd

namespace Token

/-! ## §2. No operator -/

theorem operatorLength_eq_none_iff {cs : List Char} :
    operatorLength cs = none ↔ (∀ symbol ∈ symbolOperators, symbolLength symbol cs = none) ∧
      ∀ words ∈ wordOperators, wordsLength words cs = none := by
  simp only [operatorLength, List.max?_eq_none_iff, List.append_eq_nil_iff,
    List.filterMap_eq_nil_iff]

/-- A prefix that begins with a character of some kind does not stand before one of another. -/
theorem isPrefixOf_of_head {p : Char → Bool} {ds cs : List Char} {c : Char}
    (hds : ds.head?.any p) (hc : p c = false) : ds.isPrefixOf (c :: cs) = false := by
  cases ds with
  | nil => cases hds
  | cons d ds =>
    have hne : (d == c) = false := by
      rw [beq_eq_false_iff_ne]
      rintro rfl
      rw [List.head?_cons, Option.any_some, hc] at hds
      cases hds
    rw [List.isPrefixOf_cons_cons, hne, Bool.false_and]

theorem symbolLength_of_head {p : Char → Bool} {symbol : String} {cs : List Char} {c : Char}
    (hsymbol : symbol.toList.head?.any p) (hc : p c = false) :
    symbolLength symbol (c :: cs) = none := by
  rw [symbolLength, isPrefixOf_of_head hsymbol hc]
  rfl

theorem wordsLength_of_head {p : Char → Bool} {words : List String} {cs : List Char} {c : Char}
    (hwords : words.head?.any fun word => word.toList.head?.any p) (hc : p c = false) :
    wordsLength words (c :: cs) = none := by
  cases words with
  | nil => cases hwords
  | cons word more =>
    rw [wordsLength, isPrefixOf_of_head hwords hc]
    rfl

/-- The characters that operators begin with. -/
def operatorHeads : List Char :=
  "=!<>+-~*/%.seinbmao".toList

/-- Whether operators begin with a character. -/
def headsOperator (c : Char) : Bool :=
  operatorHeads.contains c

/-- A text that begins with another character does not begin with an operator. -/
theorem operatorLength_of_head {c : Char} (hc : headsOperator c = false) (cs : List Char) :
    operatorLength (c :: cs) = none := by
  have hsymbols : ∀ symbol ∈ symbolOperators, symbol.toList.head?.any headsOperator := by decide
  have hwords : ∀ words ∈ wordOperators,
      words.head?.any fun word => word.toList.head?.any headsOperator := by decide
  exact operatorLength_eq_none_iff.mpr ⟨fun symbol h => symbolLength_of_head (hsymbols symbol h) hc,
    fun words h => wordsLength_of_head (hwords words h) hc⟩

theorem operatorLength_of_isDigit {c : Char} (hc : c.isDigit = true) (cs : List Char) :
    operatorLength (c :: cs) = none := by
  refine operatorLength_of_head ?_ cs
  -- Digits are searched for among the heads, not heads among the digits: those are few.
  have hheads : (operatorHeads.all fun d => !d.isDigit) = true := by decide
  unfold headsOperator
  rw [List.contains_eq_any_beq, List.any_eq_false]
  intro d hd
  have hne : c ≠ d := by
    rintro rfl
    have hnot := List.all_eq_true.mp hheads c hd
    rw [hc] at hnot
    cases hnot
  simpa using hne

theorem operatorLength_mark {c : Char} (hc : c ∈ punctuation) (cs : List Char) :
    operatorLength (c :: ' ' :: cs) = none := by
  simp only [punctuation, List.mem_cons, List.not_mem_nil, or_false] at hc
  rcases hc with rfl | rfl | rfl | rfl | rfl | rfl <;> rfl

/-- A point before digits or a name is no range. -/
theorem operatorLength_point {c : Char} (hc : isNameChar c = true) (cs : List Char) :
    operatorLength ('.' :: c :: cs) = none := by
  have hne : '.' ≠ c := (ne_of_isNameChar hc (by decide)).symm
  have hsymbol : symbolLength ".." ('.' :: c :: cs) = none := by simp [symbolLength, hne]
  simp only [operatorLength, symbolOperators, List.filterMap_cons, hsymbol]
  rfl

/-! ## §3. Plain words -/

/-- Whether a word is an operator or the first word of one. -/
def beginsOperator (word : String) : Bool :=
  wordOperators.any fun words => words.head? == some word

/-- Whether a text is lexed as a name, whatever it stands between. -/
def isPlain (text : String) : Bool :=
  match text.toList with
  | [] => false
  | c :: cs => !c.isDigit && (c :: cs).all isNameChar && !beginsOperator text

/-- A word of an operator ends where a name would not go on. -/
theorem wordsLength_of_continued {word : String} {c : Char} (hc : isNameChar c = true)
    (more : List String) (cs : List Char) :
    wordsLength (word :: more) (word.toList ++ c :: cs) = none := by
  have hprefix : word.toList.isPrefixOf (word.toList ++ c :: cs) = true := by simp
  rw [wordsLength, if_pos hprefix, List.drop_left]
  cases more with
  | nil => simp [wordsLength, continuesName, hc]
  | cons second more => simp [isBlank_of_isNameChar hc]

/-- A plain word before a space or a point does not begin with an operator. -/
theorem operatorLength_of_isPlain {text : String} (h : isPlain text) {after : Char}
    (hafter : after = ' ' ∨ after = '.') (cs : List Char) :
    operatorLength (text.toList ++ after :: cs) = none := by
  unfold isPlain at h
  split at h
  · cases h
  · next c ds htext =>
    simp only [Bool.and_eq_true, Bool.not_eq_true'] at h
    obtain ⟨⟨-, hnames⟩, hoperator⟩ := h
    have hsymbols : ∀ symbol ∈ symbolOperators,
        symbol.toList.head?.any fun c => !isNameChar c := by decide
    refine operatorLength_eq_none_iff.mpr ⟨fun symbol hsymbol => ?_, fun words hwords => ?_⟩
    · rw [htext]
      apply symbolLength_of_head (hsymbols symbol hsymbol)
      simp only [List.all_cons, Bool.and_eq_true] at hnames
      simp [hnames.1]
    -- A word of an operator holds no blank and no point, so it cannot go on past the plain word.
    · have hinside : ∀ words ∈ wordOperators, ∀ word ∈ words,
          ' ' ∉ word.toList ∧ '.' ∉ word.toList := by decide
      cases words with
      | nil => simp [wordOperators] at hwords
      | cons word more =>
        have hword : after ∉ word.toList := by
          obtain ⟨hspace, hpoint⟩ := hinside _ hwords word List.mem_cons_self
          rcases hafter with rfl | rfl
          · exact hspace
          · exact hpoint
        have hne : word ≠ text := by
          rintro rfl
          have hbegins : beginsOperator word = true :=
            List.any_eq_true.mpr ⟨_, hwords, by simp⟩
          rw [hbegins] at hoperator
          cases hoperator
        cases hprefix : word.toList.isPrefixOf (text.toList ++ after :: cs) with
        | false => simp [wordsLength, hprefix]
        | true =>
          have hprefix := List.isPrefixOf_iff_prefix.mp hprefix
          -- Either the operator's word is a part of the plain one, or the other way round.
          rcases List.prefix_or_prefix_of_prefix hprefix (List.prefix_append _ _) with h | h
          · obtain ⟨rest, hrest⟩ := h
            cases rest with
            | nil => exact absurd (String.toList_injective (by simpa using hrest)) hne
            | cons d rest =>
              have hd : isNameChar d = true := by
                rw [← htext, ← hrest] at hnames
                simp at hnames
                exact hnames.2.1
              rw [← hrest, List.append_assoc]
              exact wordsLength_of_continued hd more _
          · obtain ⟨rest, hrest⟩ := h
            cases rest with
            | nil => exact absurd (String.toList_injective (by simpa using hrest.symm)) hne
            | cons d rest =>
              rw [← hrest, List.prefix_append_right_inj, List.cons_prefix_cons] at hprefix
              rw [← hrest, hprefix.1] at hword
              simp at hword

/-! ## §4. Operators -/

/-- The longest of several operators is the longest in any other measure that grows with the first
one. -/
theorem max?_map_of_monotone {f : Nat → Nat} (hf : Monotone f) (ns : List Nat) :
    (ns.map f).max? = ns.max?.map f := by
  cases hmax : ns.max? with
  | none => simp [List.max?_eq_none_iff.mp hmax]
  | some n =>
    obtain ⟨hmem, hle⟩ := List.max?_eq_some_iff.mp hmax
    refine List.max?_eq_some_iff.mpr ⟨List.mem_map_of_mem hmem, fun k hk => ?_⟩
    obtain ⟨l, hl, rfl⟩ := List.mem_map.mp hk
    exact hf (hle l hl)

theorem operatorLength_binary (op : BinaryOp) (cs : List Char) :
    operatorLength (op.spelling.toList ++ ' ' :: cs) = some op.spelling.toList.length := by
  cases op <;> rfl

/-- A sequence of two words stands at the head of a text only if the second word does after the
blank. -/
theorem wordsLength_pair {first second : String} {c : Char} {cs : List Char}
    (hc : isBlank c = false) (h : wordsLength [second] (c :: cs) = none) :
    wordsLength [first, second] (first.toList ++ ' ' :: c :: cs) = none := by
  have hprefix : first.toList.isPrefixOf (first.toList ++ ' ' :: c :: cs) = true := by simp
  have hspace : isBlank ' ' = true := rfl
  rw [wordsLength, if_pos hprefix, List.drop_left]
  simp [hspace, hc, h]

theorem operatorLength_not {c : Char} {cs : List Char} (hc : isBlank c = false)
    (h : operatorLength (c :: cs) = none) :
    operatorLength ("not".toList ++ ' ' :: c :: cs) = some "not".toList.length := by
  have hwords := (operatorLength_eq_none_iff.mp h).2
  have hin : wordsLength ["not", "in"] ("not".toList ++ ' ' :: c :: cs) = none :=
    wordsLength_pair hc (hwords _ (by decide))
  simp only [operatorLength, wordOperators, List.filterMap_cons, hin]
  rfl

theorem operatorLength_is {c : Char} {cs : List Char} (hc : isBlank c = false)
    (h : operatorLength (c :: cs) = none) :
    operatorLength ("is".toList ++ ' ' :: c :: cs) = some "is".toList.length := by
  have hwords := (operatorLength_eq_none_iff.mp h).2
  have hnot : wordsLength ["is", "not"] ("is".toList ++ ' ' :: c :: cs) = none :=
    wordsLength_pair hc (hwords _ (by decide))
  simp only [operatorLength, wordOperators, List.filterMap_cons, hnot]
  rfl

/-- A prefix operator is taken as such unless it is followed by another operator. -/
theorem operatorLength_unary (op : UnaryOp) {c : Char} {cs : List Char} (hc : isBlank c = false)
    (h : operatorLength (c :: cs) = none) :
    operatorLength (op.spelling.toList ++ ' ' :: c :: cs) = some op.spelling.toList.length := by
  cases op with
  | not => exact operatorLength_not hc h
  | neg => rfl
  | pos => rfl

theorem operatorValue_binary (op : BinaryOp) : operatorValue op.spelling.toList = op.spelling := by
  cases op <;> decide

theorem operatorValue_unary (op : UnaryOp) : operatorValue op.spelling.toList = op.spelling := by
  cases op <;> decide

end Token

end Stencil
