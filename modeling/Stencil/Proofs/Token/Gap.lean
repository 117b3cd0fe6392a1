import Stencil.Proofs.Token.Spelling
import Stencil.Token.Lexer

/-!
A gap in a text, and two ways to fill it with blanks.

What is read before a run of blanks depends on the text before it and on there being a blank, not on
which blanks and how many there are.  Only the words of an operator may have the run between them.
The operator is then longer or shorter as the run is, and its value is the same.
-/

namespace Stencil

open Stencil.Text Stencil.Token

/-! ## §1. Texts that end where a blank stands -/

section Cut

variable {before rest rest' : List Char} {p : Char → Bool}

/-- Whether a text begins with a blank. -/
def beginsBlank (cs : List Char) : Bool :=
  cs.head?.any isBlank

/-- Whether a text ends with a blank. -/
def endsBlank (cs : List Char) : Bool :=
  cs.getLast?.any isBlank

theorem exists_of_beginsBlank (h : beginsBlank rest) :
    ∃ c cs, rest = c :: cs ∧ isBlank c = true := by
  cases rest with
  | nil => cases h
  | cons c cs => exact ⟨c, cs, rfl, h⟩

theorem endsBlank_of_suffix {cs : List Char} (h : endsBlank before = false)
    (hsuffix : cs <:+ before) : endsBlank cs = false := by
  obtain ⟨front, rfl⟩ := hsuffix
  cases hcs : cs.getLast? with
  | none => simp [endsBlank, hcs]
  | some c => simpa [endsBlank, List.getLast?_append, hcs] using h

theorem beginsBlank_take {cs : List Char} (h : beginsBlank cs = false) (n : Nat) :
    beginsBlank (cs.take n) = false := by
  cases n with
  | zero => rfl
  | succ n =>
    cases cs with
    | nil => rfl
    | cons c cs => exact h

theorem not_blank_of_any {cs : List Char} (h : cs.any isBlank = false) :
    ∀ c ∈ cs, isBlank c = false := by
  simpa using h

/-- A text without blanks that begins another ends before a blank. -/
theorem isPrefixOf_cut {ds : List Char} (hds : ∀ c ∈ ds, isBlank c = false)
    (hrest : beginsBlank rest) : ds.isPrefixOf (before ++ rest) = ds.isPrefixOf before := by
  obtain ⟨b, bs, rfl, hb⟩ := exists_of_beginsBlank hrest
  induction ds generalizing before with
  | nil => simp
  | cons d ds ih =>
    obtain ⟨hd, hds⟩ := List.forall_mem_cons.mp hds
    cases before with
    | nil =>
      have hne : d ≠ b := fun h => Bool.false_ne_true (hd.symm.trans (h ▸ hb))
      simp [List.isPrefixOf, hne]
    | cons c before => simp [List.isPrefixOf, ih hds]

/-- A run of characters that are no blanks ends before a blank. -/
theorem takeWhile_cut (hp : ∀ c, p c = true → isBlank c = false) (hrest : beginsBlank rest) :
    (before ++ rest).takeWhile p = before.takeWhile p := by
  obtain ⟨b, bs, rfl, hb⟩ := exists_of_beginsBlank hrest
  have hpb : p b = false := Bool.eq_false_iff.mpr fun h => by
    rw [hp b h] at hb
    cases hb
  induction before with
  | nil => simp [hpb]
  | cons c before ih =>
    cases hc : p c with
    | false => simp [hc]
    | true => simp [hc, ih]

/-- A run of blanks ends inside a text that does not end with one. -/
theorem takeWhile_isBlank_cut (rest : List Char) (hne : before ≠ [])
    (hends : endsBlank before = false) :
    (before ++ rest).takeWhile isBlank = before.takeWhile isBlank ∧
      (before.takeWhile isBlank).length < before.length := by
  induction before with
  | nil => exact absurd rfl hne
  | cons c before ih =>
    cases hc : isBlank c with
    | false => simp [hc]
    | true =>
      have hbefore : before ≠ [] := by
        rintro rfl
        simp [endsBlank, hc] at hends
      obtain ⟨htake, hlength⟩ :=
        ih hbefore (endsBlank_of_suffix hends (List.suffix_cons c before))
      simpa [hc, htake] using hlength

end Cut

/-! ## §2. Two ways to fill a gap -/

/-- Two runs of blanks, either of which may stand before a text that begins with none. -/
structure Respacing where
  old : List Char
  new : List Char
  after : List Char
  old_ne : old ≠ []
  new_ne : new ≠ []
  isBlank_old : ∀ c ∈ old, isBlank c = true
  isBlank_new : ∀ c ∈ new, isBlank c = true
  after_solid : beginsBlank after = false

namespace Respacing

variable (r : Respacing)

/-- The text from the first run on. -/
def oldRest : List Char := r.old ++ r.after

/-- The text from the second run on. -/
def newRest : List Char := r.new ++ r.after

theorem beginsBlank_append {gap : List Char} (hne : gap ≠ []) (hgap : ∀ c ∈ gap, isBlank c = true)
    (cs : List Char) : beginsBlank (gap ++ cs) = true := by
  obtain ⟨c, gap, rfl⟩ := List.exists_cons_of_ne_nil hne
  exact hgap c List.mem_cons_self

theorem beginsBlank_oldRest : beginsBlank r.oldRest = true :=
  beginsBlank_append r.old_ne r.isBlank_old _

theorem beginsBlank_newRest : beginsBlank r.newRest = true :=
  beginsBlank_append r.new_ne r.isBlank_new _

theorem takeWhile_gap {gap cs : List Char} (hgap : ∀ c ∈ gap, isBlank c = true)
    (hcs : beginsBlank cs = false) : (gap ++ cs).takeWhile isBlank = gap := by
  rw [List.takeWhile_append_of_pos hgap]
  cases cs with
  | nil => simp
  | cons c cs =>
    have hc : isBlank c = false := hcs
    simp [hc]

theorem takeWhile_oldRest : r.oldRest.takeWhile isBlank = r.old :=
  takeWhile_gap r.isBlank_old r.after_solid

theorem takeWhile_newRest : r.newRest.takeWhile isBlank = r.new :=
  takeWhile_gap r.isBlank_new r.after_solid

/-- Whichever run stands in the gap, the text with single spaces for runs is the same. -/
theorem squeezed_eq {before after : List Char} (hends : endsBlank before = false)
    (hafter : beginsBlank after = false) :
    squeezed (before ++ (r.new ++ after)) = squeezed (before ++ (r.old ++ after)) := by
  induction before with
  | nil =>
    rw [List.nil_append, List.nil_append,
      squeezed_append_of_blank r.new_ne (List.all_eq_true.mpr r.isBlank_new) hafter,
      squeezed_append_of_blank r.old_ne (List.all_eq_true.mpr r.isBlank_old) hafter]
  | cons c before ih =>
    have ih := ih (endsBlank_of_suffix hends (List.suffix_cons c before))
    cases hc : isBlank c with
    | false => simp [squeezed, hc, ih]
    | true =>
      -- What stands after a blank of the text before the gap is in that text too.
      obtain ⟨d, before, rfl⟩ := List.exists_cons_of_ne_nil (l := before) (by
        rintro rfl
        simp [endsBlank, hc] at hends)
      have hcons : ∀ cs, squeezed (c :: d :: cs) =
          if isBlank d then squeezed (d :: cs) else ' ' :: squeezed (d :: cs) := fun cs => by
        rw [squeezed, if_pos hc]
        rfl
      simp only [List.cons_append, hcons] at ih ⊢
      rw [ih]

/-! ## §3. Operators around a gap -/

/-- Where a place of the first text is in the second, if the gap begins after `m` characters. -/
def moved (m n : Nat) : Nat :=
  if n ≤ m then n else m + r.new.length + (n - (m + r.old.length))

/-- Two lengths, that of the same lexeme before the one and before the other text: it does not end
inside the gap. -/
structure Aligned (m : Nat) (found found' : Option Nat) : Prop where
  eq_moved : found' = found.map (r.moved m)
  apart : ∀ n ∈ found, n ≤ m ∨ m + r.old.length ≤ n

variable {r} {m : Nat} {found found' : Option Nat}

theorem aligned_none : r.Aligned m none none :=
  ⟨rfl, nofun⟩

/-- A lexeme that ends before the gap has one length. -/
theorem aligned_of_le (h : ∀ n ∈ found, n ≤ m) : r.Aligned m found found := by
  refine ⟨?_, fun n hn => .inl (h n hn)⟩
  cases found with
  | none => rfl
  | some n => simp [moved, h n rfl]

/-- What is read before the gap is as long in both. -/
theorem Aligned.add (h : r.Aligned m found found') (k : Nat) :
    r.Aligned (k + m) (found.map (k + ·)) (found'.map (k + ·)) := by
  constructor
  · rw [h.eq_moved]
    cases found with
    | none => rfl
    | some n =>
      simp only [Option.map_some, Option.some.injEq, moved]
      split <;> split <;> omega
  · intro n hn
    obtain ⟨n', hn', rfl⟩ := Option.map_eq_some_iff.mp hn
    have := h.apart n' hn'
    omega

/-- What begins at the gap with the blanks in it goes on in the same way. -/
theorem aligned_gap (found : Option Nat) :
    r.Aligned 0 (found.map (r.old.length + ·)) (found.map (r.new.length + ·)) := by
  have hold := List.length_pos_iff.mpr r.old_ne
  constructor
  · cases found with
    | none => rfl
    | some n =>
      simp only [Option.map_some, Option.some.injEq, moved]
      split <;> omega
  · intro n hn
    obtain ⟨n, hn, rfl⟩ := Option.map_eq_some_iff.mp hn
    omega

/-- Whether a name goes on is seen before the gap. -/
theorem continuesName_cut {before rest rest' : List Char} (hrest : beginsBlank rest)
    (hrest' : beginsBlank rest') :
    continuesName (before ++ rest) = continuesName (before ++ rest') := by
  obtain ⟨c, cs, rfl, hc⟩ := exists_of_beginsBlank hrest
  obtain ⟨d, ds, rfl, hd⟩ := exists_of_beginsBlank hrest'
  cases before with
  | nil =>
    have hname : ∀ c, isBlank c = true → isNameChar c = false := fun c hc =>
      Bool.eq_false_iff.mpr fun h => by
        rw [isBlank_of_isNameChar h] at hc
        cases hc
    simp [continuesName, hname c hc, hname d hd]
  | cons => rfl

theorem aligned_wordsLength {words : List String} (hwords : ∀ word ∈ words, IsWord word)
    {before : List Char} (hends : endsBlank before = false) :
    r.Aligned before.length (wordsLength words (before ++ r.oldRest))
      (wordsLength words (before ++ r.newRest)) := by
  have hold := r.beginsBlank_oldRest
  have hnew := r.beginsBlank_newRest
  induction words generalizing before with
  | nil =>
    rw [wordsLength, wordsLength, continuesName_cut hold hnew]
    refine aligned_of_le fun n hn => ?_
    split at hn <;> cases hn
    exact Nat.zero_le _
  | cons word more ih =>
    obtain ⟨hword, hmore⟩ := List.forall_mem_cons.mp hwords
    rw [wordsLength, wordsLength, isPrefixOf_cut hword.2 hold, isPrefixOf_cut hword.2 hnew]
    by_cases hprefix : word.toList.isPrefixOf before = true
    · obtain ⟨before, rfl⟩ := List.isPrefixOf_iff_prefix.mp hprefix
      have hends' := endsBlank_of_suffix hends (List.suffix_append word.toList before)
      simp only [if_pos hprefix, List.append_assoc, List.drop_left, List.length_append]
      cases more with
      | nil => simpa using (ih hmore hends').add word.toList.length
      | cons second more =>
        cases before with
        | nil =>
          -- The words go on right after the gap.
          have hgap := (aligned_gap (r := r) (wordsLength (second :: more) r.after)).add
            word.toList.length
          have hold' := r.takeWhile_oldRest
          have hnew' := r.takeWhile_newRest
          unfold oldRest newRest at *
          simpa [hold', hnew', r.old_ne, r.new_ne, Option.map_map, Function.comp_def,
            Nat.add_assoc] using hgap
        | cons c cs =>
          -- The blanks after the word end before the gap.
          obtain ⟨htake, -⟩ := takeWhile_isBlank_cut r.oldRest (by simp) hends'
          obtain ⟨htake', -⟩ := takeWhile_isBlank_cut r.newRest (by simp) hends'
          obtain ⟨rest, hrest⟩ := List.takeWhile_prefix isBlank (l := c :: cs)
          rw [htake, htake']
          generalize (c :: cs).takeWhile isBlank = blanks at *
          rw [← hrest] at hends' ⊢
          by_cases hblanks : blanks = []
          · simpa [hblanks] using aligned_none
          · have hends'' := endsBlank_of_suffix hends' (List.suffix_append blanks rest)
            have hmore := ((ih hmore hends'').add blanks.length).add word.toList.length
            simpa [hblanks, Option.map_map, Function.comp_def, Nat.add_assoc] using hmore
    · simp only [if_neg hprefix]
      exact aligned_none

/-- Lengths are aligned one by one if they are for each rule. -/
theorem Aligned.filterMap {α : Type} {f f' : α → Option Nat} {xs : List α}
    (h : ∀ x ∈ xs, r.Aligned m (f x) (f' x)) :
    xs.filterMap f' = (xs.filterMap f).map (r.moved m) ∧
      ∀ n ∈ xs.filterMap f, n ≤ m ∨ m + r.old.length ≤ n := by
  constructor
  · rw [List.map_filterMap]
    exact List.filterMap_congr fun x hx => (h x hx).eq_moved
  · intro n hn
    obtain ⟨x, hx, hn⟩ := List.mem_filterMap.mp hn
    exact (h x hx).apart n hn

theorem monotone_moved (r : Respacing) (m : Nat) : Monotone (r.moved m) := by
  intro n n' h
  simp only [moved]
  split <;> split <;> omega

theorem aligned_symbolLength {symbol : String} (hsymbol : ∀ c ∈ symbol.toList, isBlank c = false)
    (before : List Char) :
    r.Aligned before.length (symbolLength symbol (before ++ r.oldRest))
      (symbolLength symbol (before ++ r.newRest)) := by
  rw [symbolLength, symbolLength, isPrefixOf_cut hsymbol r.beginsBlank_oldRest,
    isPrefixOf_cut hsymbol r.beginsBlank_newRest]
  refine aligned_of_le fun n hn => ?_
  split at hn
  · next h =>
    cases hn
    exact (List.isPrefixOf_iff_prefix.mp h).length_le
  · cases hn

theorem aligned_operatorLength {before : List Char} (hends : endsBlank before = false) :
    r.Aligned before.length (operatorLength (before ++ r.oldRest))
      (operatorLength (before ++ r.newRest)) := by
  have hsymbols : ∀ symbol ∈ symbolOperators, symbol.toList.any isBlank = false := by decide
  obtain ⟨hsymbol, hsymbol'⟩ := Aligned.filterMap (r := r) fun symbol hmem =>
    aligned_symbolLength (not_blank_of_any (hsymbols symbol hmem)) before
  obtain ⟨hwords, hwords'⟩ := Aligned.filterMap (r := r) fun words hmem =>
    aligned_wordsLength (fun word hword => isWord_of_operator hmem hword) hends
  rw [operatorLength, operatorLength, hsymbol, hwords, ← List.map_append,
    max?_map_of_monotone (monotone_moved r _)]
  refine ⟨rfl, fun n hn => ?_⟩
  rcases List.mem_append.mp (List.max?_mem hn) with hn | hn
  · exact hsymbol' n hn
  · exact hwords' n hn

/-! ## §4. What is left to read -/

/-- Two texts that begin alike and then differ in the run of blanks that fills the gap, or not at
all. -/
inductive Splits (r : Respacing) : List Char → List Char → List Char → Prop
  | gap {before : List Char} : endsBlank before = false →
      Splits r before (before ++ r.oldRest) (before ++ r.newRest)
  | all (cs : List Char) : Splits r cs cs cs

/-- Two texts that differ in the run of blanks that fills the gap, or not at all. -/
def Rests (r : Respacing) (cs cs' : List Char) : Prop :=
  ∃ before, r.Splits before cs cs'

namespace Splits

variable {before cs cs' : List Char}

theorem isPrefixOf (h : r.Splits before cs cs') {ds : List Char}
    (hds : ∀ c ∈ ds, isBlank c = false) :
    ds.isPrefixOf cs = ds.isPrefixOf before ∧ ds.isPrefixOf cs' = ds.isPrefixOf before := by
  cases h with
  | gap =>
    exact ⟨isPrefixOf_cut hds r.beginsBlank_oldRest, isPrefixOf_cut hds r.beginsBlank_newRest⟩
  | all => exact ⟨rfl, rfl⟩

theorem takeWhile (h : r.Splits before cs cs') {p : Char → Bool}
    (hp : ∀ c, p c = true → isBlank c = false) :
    cs.takeWhile p = before.takeWhile p ∧ cs'.takeWhile p = before.takeWhile p := by
  cases h with
  | gap => exact ⟨takeWhile_cut hp r.beginsBlank_oldRest, takeWhile_cut hp r.beginsBlank_newRest⟩
  | all => exact ⟨rfl, rfl⟩

theorem takeWhile_isBlank (h : r.Splits before cs cs') (hne : before ≠ []) :
    cs.takeWhile isBlank = before.takeWhile isBlank ∧
      cs'.takeWhile isBlank = before.takeWhile isBlank := by
  cases h with
  | gap hends =>
    exact ⟨(takeWhile_isBlank_cut _ hne hends).1, (takeWhile_isBlank_cut _ hne hends).1⟩
  | all => exact ⟨rfl, rfl⟩

theorem take (h : r.Splits before cs cs') {n : Nat} (hn : n ≤ before.length) :
    cs.take n = before.take n ∧ cs'.take n = before.take n := by
  cases h with
  | gap => exact ⟨List.take_append_of_le_length hn, List.take_append_of_le_length hn⟩
  | all => exact ⟨rfl, rfl⟩

theorem drop (h : r.Splits before cs cs') {n : Nat} (hn : n ≤ before.length) :
    r.Splits (before.drop n) (cs.drop n) (cs'.drop n) := by
  cases h with
  | gap hends =>
    rw [List.drop_append_of_le_length hn, List.drop_append_of_le_length hn]
    exact .gap (endsBlank_of_suffix hends (List.drop_suffix n before))
  | all => exact .all _

/-- An operator is the same in both texts, before the gap and around it. -/
theorem operator (h : r.Splits before cs cs') {n : Nat} (hn : operatorLength cs = some n) :
    ∃ n', operatorLength cs' = some n' ∧
      operatorValue (cs'.take n') = operatorValue (cs.take n) ∧
      r.Rests (cs.drop n) (cs'.drop n') := by
  cases h with
  | all => exact ⟨n, hn, rfl, _, .all _⟩
  | gap hends =>
    have haligned := aligned_operatorLength (r := r) hends
    have hn' := haligned.eq_moved
    rw [hn, Option.map_some] at hn'
    refine ⟨_, hn', ?_⟩
    rcases haligned.apart n hn with hle | hle
    · have hmoved : r.moved before.length n = n := if_pos hle
      rw [hmoved, List.take_append_of_le_length hle, List.take_append_of_le_length hle]
      exact ⟨rfl, _, (Splits.gap hends).drop hle⟩
    · -- The gap is between two words.
      obtain ⟨k, rfl⟩ := Nat.exists_eq_add_of_le hle
      have hmoved : r.moved before.length (before.length + r.old.length + k) =
          before.length + r.new.length + k := by
        have := List.length_pos_iff.mpr r.old_ne
        rw [moved, if_neg (by omega), Nat.add_sub_cancel_left]
      have htake : ∀ gap : List Char, (before ++ (gap ++ r.after)).take
          (before.length + gap.length + k) = before ++ (gap ++ r.after.take k) := fun gap => by
        rw [Nat.add_assoc, List.take_length_add_append, List.take_length_add_append]
      have hdrop : ∀ gap : List Char, (before ++ (gap ++ r.after)).drop
          (before.length + gap.length + k) = r.after.drop k := fun gap => by
        rw [Nat.add_assoc, List.drop_length_add_append, List.drop_length_add_append]
      rw [hmoved] at hn' ⊢
      refine ⟨?_, r.after.drop k, ?_⟩
      · rw [← String.toList_inj, operatorValue_of_operatorLength hn',
          operatorValue_of_operatorLength hn]
        unfold oldRest newRest
        rw [htake, htake, r.squeezed_eq hends (beginsBlank_take r.after_solid k)]
      · unfold oldRest newRest
        rw [hdrop, hdrop]
        exact .all _

theorem operator_none (h : r.Splits before cs cs') (hn : operatorLength cs = none) :
    operatorLength cs' = none := by
  cases h with
  | all => exact hn
  | gap hends =>
    have hn' := (aligned_operatorLength (r := r) hends).eq_moved
    rwa [hn] at hn'

theorem not_blank_of_delimiter? {region : Region} {kind : TokenKind} {delimiter : List Char}
    (h : region.delimiter? = some (kind, delimiter)) :
    ∀ c ∈ '-' :: delimiter, isBlank c = false := by
  cases region <;> cases h <;> exact not_blank_of_any (by decide)

/-- Whether a region is closed here, with what, and whether it may be. -/
theorem closing?_eq (h : r.Splits before cs cs') (region : Region) :
    region.closing? cs' = region.closing? cs ∧ region.unbalanced? cs' = region.unbalanced? cs := by
  have hprefix : ∀ ds : List Char, (∀ c ∈ ds, isBlank c = false) →
      ds.isPrefixOf cs' = ds.isPrefixOf cs := fun ds hds =>
    (h.isPrefixOf hds).2.trans (h.isPrefixOf hds).1.symm
  cases hdelimiter : region.delimiter? with
  | none => simp [Region.closing?, Region.unbalanced?, hdelimiter]
  | some p =>
    obtain ⟨kind, delimiter⟩ := p
    have hblank := not_blank_of_delimiter? hdelimiter
    have htrims := hprefix _ hblank
    have hplain := hprefix _ (List.forall_mem_cons.mp hblank).2
    cases hbrackets : region.brackets <;>
      simp [Region.closing?, Region.unbalanced?, hdelimiter, hbrackets, htrims, hplain]

/-- The delimiter that closes a region is in what the two texts have in common. -/
theorem length_le_of_closing? (h : r.Splits before cs cs') {region : Region} {kind : TokenKind}
    {n : Nat} {trims : Bool} (hclosing : region.closing? cs = some (kind, n, trims)) :
    n ≤ before.length := by
  have hprefix : ∀ ds : List Char, (∀ c ∈ ds, isBlank c = false) → ds.isPrefixOf cs = true →
      ds.length ≤ before.length := fun ds hds hcs => by
    rw [(h.isPrefixOf hds).1] at hcs
    exact (List.isPrefixOf_iff_prefix.mp hcs).length_le
  unfold Region.closing? at hclosing
  split at hclosing
  · next delimiter hdelimiter _ =>
    have hblank := not_blank_of_delimiter? hdelimiter
    split at hclosing
    · next hcs =>
      cases hclosing
      exact hprefix _ (List.forall_mem_cons.mp hblank).2 hcs
    · split at hclosing
      · next hcs =>
        cases hclosing
        exact hprefix _ hblank hcs
      · cases hclosing
  · cases hclosing

theorem nil (h : r.Splits before cs cs') (hbefore : before = []) :
    cs = [] ∧ cs' = [] ∨ cs = r.oldRest ∧ cs' = r.newRest := by
  subst hbefore
  cases h with
  | gap => exact .inr ⟨rfl, rfl⟩
  | all => exact .inl ⟨rfl, rfl⟩

theorem cons {c : Char} {more : List Char} (h : r.Splits before cs cs')
    (hbefore : before = c :: more) : ∃ ds ds', cs = c :: ds ∧ cs' = c :: ds' := by
  subst hbefore
  cases h with
  | gap => exact ⟨_, _, rfl, rfl⟩
  | all => exact ⟨_, _, rfl, rfl⟩

end Splits

end Respacing

end Stencil
