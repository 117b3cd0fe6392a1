import Mathlib.Algebra.Group.Nat.Defs
import Stencil.Escape

/-!
Escaped texts can be read back, and are harmless.

Every character, or byte, is escaped by itself.  So a text can be read back if the escaped form of
each of its characters can be told from what comes after it, and a text is harmless if the escaped
form of every character is.  A reader takes one escaped character off the front; `readAll` goes on
to the end.

The kind `html_attr` has one form for all control characters that must not stand in a document, so
a text with one of them cannot be read back there.
-/

namespace Stencil.Escape

/-! ## §1. Hexadecimal numbers -/

/-- The hexadecimal digits, each at the place that is its value. -/
def hexDigits : List Char :=
  "0123456789ABCDEF".toList

/-- The number that hexadecimal digits are. -/
def readHex (cs : List Char) : Nat :=
  cs.foldl (fun n c => 16 * n + hexDigits.idxOf c) 0

theorem hexDigits_toUpper_digitChar {d : Nat} (h : d < 16) :
    d.digitChar.toUpper ∈ hexDigits ∧ hexDigits.idxOf d.digitChar.toUpper = d := by
  have hall : ∀ d < 16, d.digitChar.toUpper ∈ hexDigits ∧
      hexDigits.idxOf d.digitChar.toUpper = d := by decide
  exact hall d h

theorem readHex_append (cs : List Char) (c : Char) :
    readHex (cs ++ [c]) = 16 * readHex cs + hexDigits.idxOf c := by
  simp [readHex]

/-- Leading zeros do not count. -/
theorem readHex_replicate_append (k : Nat) (cs : List Char) :
    readHex (List.replicate k '0' ++ cs) = readHex cs := by
  have hzero : hexDigits.idxOf '0' = 0 := rfl
  induction k with
  | zero => rfl
  | succ k ih => simpa [readHex, List.replicate_succ, hzero] using ih

theorem toDigits_sixteen (n : Nat) :
    (∀ c ∈ (Nat.toDigits 16 n).map Char.toUpper, c ∈ hexDigits) ∧
      readHex ((Nat.toDigits 16 n).map Char.toUpper) = n := by
  induction n using Nat.strongRecOn with
  | ind n ih =>
    rw [Nat.toDigits_eq_if (by decide)]
    split
    · next h =>
      obtain ⟨hmem, hvalue⟩ := hexDigits_toUpper_digitChar h
      simpa [readHex] using ⟨hmem, hvalue⟩
    · obtain ⟨hmem, hvalue⟩ := hexDigits_toUpper_digitChar (Nat.mod_lt n (by decide : 0 < 16))
      obtain ⟨hmore, hrest⟩ := ih (n / 16) (by omega)
      simp only [List.map_append, List.map_cons, List.map_nil, readHex_append, hrest, hvalue,
        List.mem_append, List.mem_singleton]
      refine ⟨?_, by omega⟩
      rintro c (hc | rfl)
      · exact hmore c hc
      · exact hmem

theorem mem_hexDigits_of_mem_hex {width n : Nat} {c : Char} (h : c ∈ hex width n) :
    c ∈ hexDigits := by
  rcases List.mem_append.mp h with h | h
  · rw [List.eq_of_mem_replicate h]
    decide
  · exact (toDigits_sixteen n).1 c h

/-- A number is read back from its digits. -/
theorem readHex_hex (width n : Nat) : readHex (hex width n) = n :=
  (readHex_replicate_append _ _).trans (toDigits_sixteen n).2

/-- A number that fits has as many digits as it is asked for. -/
theorem length_hex {width n : Nat} (hwidth : 0 < width) (h : n < 16 ^ width) :
    (hex width n).length = width := by
  have := (Nat.length_toDigits_le_iff (by decide) hwidth).mpr h
  simp [hex]
  omega

theorem takeWhile_hex (width n : Nat) {after : Char} (h : after ∉ hexDigits) (rest : List Char) :
    (hex width n ++ after :: rest).takeWhile (· ∈ hexDigits) = hex width n := by
  rw [List.takeWhile_append_of_pos fun c hc => decide_eq_true (mem_hexDigits_of_mem_hex hc)]
  simp [h]

/-! ## §2. Readers -/

/-- Whether a reader takes what codes something off the front of every text. -/
def Reads {α : Type} (read : List Char → Option (α × List Char)) (code : List Char) (a : α) :
    Prop :=
  code ≠ [] ∧ ∀ rest, read (code ++ rest) = some (a, rest)

/-- What a reader takes off the front of a text, again and again, in at most `n` steps. -/
def readAll {α : Type} (read : List Char → Option (α × List Char)) : Nat → List Char → List α
  | 0, _ => []
  | n + 1, cs =>
    match read cs with
    | some (a, rest) => a :: readAll read n rest
    | none => []

theorem readAll_flatMap {α : Type} {read : List Char → Option (α × List Char)}
    {code : α → List Char} {as : List α} (h : ∀ a ∈ as, Reads read (code a) a)
    (hnil : read [] = none) {n : Nat} (hn : (as.flatMap code).length ≤ n) :
    readAll read n (as.flatMap code) = as := by
  induction as generalizing n with
  | nil => cases n <;> simp [readAll, hnil]
  | cons a as ih =>
    obtain ⟨⟨hne, hread⟩, has⟩ := List.forall_mem_cons.mp h
    have hpos := List.length_pos_iff.mpr hne
    simp only [List.flatMap_cons, List.length_append] at hn ⊢
    obtain ⟨n, rfl⟩ : ∃ m, n = m + 1 := ⟨n - 1, by omega⟩
    simp only [readAll, hread, ih has (by omega : (as.flatMap code).length ≤ n)]

/-- The entities of HTML text, with the characters that they are. -/
def entities : List (List Char × Char) :=
  [("&amp;".toList, '&'), ("&lt;".toList, '<'), ("&gt;".toList, '>'), ("&quot;".toList, '"'),
    ("&#039;".toList, '\'')]

/-- Takes the first character off. -/
def readPlain : List Char → Option (Char × List Char)
  | [] => none
  | c :: cs => some (c, cs)

/-- Takes a character of HTML text off. -/
def readHtml (cs : List Char) : Option (Char × List Char) :=
  match entities.find? fun entity => entity.1.isPrefixOf cs with
  | some (entity, c) => some (c, cs.drop entity.length)
  | none => readPlain cs

/-- The character whose number stands at the front of a text, with one more character after it. -/
def readNumber (cs : List Char) : Char × List Char :=
  let digits := cs.takeWhile (· ∈ hexDigits)
  (Char.ofNat (readHex digits), cs.drop (digits.length + 1))

/-- Takes a character of an HTML attribute off. -/
def readHtmlAttr : List Char → Option (Char × List Char)
  | '&' :: '#' :: 'x' :: cs => some (readNumber cs)
  | cs => readHtml cs

/-- The characters of a script that are written as a letter after a backslash. -/
def shortForms : List (Char × Char) :=
  [('b', '\x08'), ('f', '\x0c'), ('n', '\n'), ('r', '\r'), ('t', '\t')]

/-- Takes a character of a string in a script off.  The first of two code units is a surrogate,
which no character is. -/
def readJs : List Char → Option (Char × List Char)
  | '\\' :: 'u' :: cs =>
    let unit := readHex (cs.take 4)
    if 0xD800 ≤ unit ∧ unit < 0xDC00 then
      let low := readHex ((cs.drop 6).take 4)
      some (Char.ofNat (0x10000 + (unit - 0xD800) * 0x400 + (low - 0xDC00)), cs.drop 10)
    else some (Char.ofNat unit, cs.drop 4)
  | '\\' :: c :: cs => some (((shortForms.lookup c).getD c), cs)
  | cs => readPlain cs

/-- Takes a character of a style sheet off. -/
def readCss : List Char → Option (Char × List Char)
  | '\\' :: cs => some (readNumber cs)
  | cs => readPlain cs

/-- Takes a byte of a part of a URL off. -/
def readUrl : List Char → Option (UInt8 × List Char)
  | '%' :: cs => some (UInt8.ofNat (readHex (cs.take 2)), cs.drop 2)
  | c :: cs => some (UInt8.ofNat c.toNat, cs)
  | [] => none

/-- All that a reader takes off a text. -/
def decode {α : Type} (read : List Char → Option (α × List Char)) (escaped : String) : List α :=
  readAll read escaped.toList.length escaped.toList

/-! ## §3. Every character is read back -/

theorem htmlChar_cases (c : Char) :
    (htmlChar c, c) ∈ entities ∨ (htmlChar c = [c] ∧ ∀ entity ∈ entities, entity.2 ≠ c) := by
  unfold htmlChar
  split
  · exact .inl (by decide)
  · exact .inl (by decide)
  · exact .inl (by decide)
  · exact .inl (by decide)
  · exact .inl (by decide)
  · next hamp hlt hgt hquot hapos =>
    refine .inr ⟨rfl, ?_⟩
    simp only [entities, List.forall_mem_cons]
    exact ⟨Ne.symm hamp, Ne.symm hlt, Ne.symm hgt, Ne.symm hquot, Ne.symm hapos, nofun⟩

/-- No entity is the beginning of another. -/
theorem find?_entities {entity : List Char × Char} (h : entity ∈ entities) (rest : List Char) :
    (entities.find? fun entity' => entity'.1.isPrefixOf (entity.1 ++ rest)) = some entity := by
  simp only [entities, List.mem_cons, List.not_mem_nil, or_false] at h
  rcases h with rfl | rfl | rfl | rfl | rfl <;> rfl

theorem find?_entities_of_ne {c : Char} (h : c ≠ '&') (rest : List Char) :
    (entities.find? fun entity => entity.1.isPrefixOf (c :: rest)) = none := by
  have hamp : ('&' == c) = false := beq_eq_false_iff_ne.mpr h.symm
  simp [entities, List.isPrefixOf, hamp]

theorem readHtml_of_ne {c : Char} (h : c ≠ '&') (rest : List Char) :
    readHtml (c :: rest) = some (c, rest) := by
  rw [readHtml, find?_entities_of_ne h]
  rfl

theorem reads_htmlChar (c : Char) : Reads readHtml (htmlChar c) c := by
  rcases htmlChar_cases c with h | ⟨h, hne⟩
  · refine ⟨fun hnil => ?_, fun rest => ?_⟩
    · have hentities : ∀ entity ∈ entities, entity.1 ≠ [] := by decide
      exact hentities _ h hnil
    · simp [readHtml, find?_entities h]
  · have hamp : c ≠ '&' := (hne _ (by decide : ("&amp;".toList, '&') ∈ entities)).symm
    rw [h]
    exact ⟨List.cons_ne_nil _ _, fun rest => readHtml_of_ne hamp rest⟩

theorem readNumber_hex (width : Nat) (c after : Char) (h : after ∉ hexDigits) (rest : List Char) :
    readNumber (hex width c.toNat ++ after :: rest) = (c, rest) := by
  simp [readNumber, takeWhile_hex width _ h, readHex_hex, Char.ofNat_toNat, ← List.drop_drop]

theorem readHtmlAttr_eq {c : Char} {cs : List Char} (h : ∀ ds, c :: cs ≠ '&' :: '#' :: 'x' :: ds) :
    readHtmlAttr (c :: cs) = readHtml (c :: cs) := by
  unfold readHtmlAttr
  split
  · next ds heq => exact absurd heq (h ds)
  · rfl

theorem reads_htmlAttrChar {c : Char} (h : isControl c → c = '\t' ∨ c = '\n' ∨ c = '\r') :
    Reads readHtmlAttr (htmlAttrChar c) c := by
  unfold htmlAttrChar
  split
  · next hplain =>
    have hamp : c ≠ '&' := by
      rintro rfl
      exact absurd hplain (by decide)
    refine ⟨List.cons_ne_nil _ _, fun rest => ?_⟩
    show readHtmlAttr (c :: rest) = _
    rw [readHtmlAttr_eq fun ds heq => hamp (List.cons.inj heq).1, readHtml_of_ne hamp]
  · split
    · next hmarkup =>
      simp only [Bool.or_eq_true, beq_iff_eq] at hmarkup
      refine ⟨(reads_htmlChar c).1, fun rest => ?_⟩
      rw [← (reads_htmlChar c).2 rest]
      rcases hmarkup with ((rfl | rfl) | rfl) | rfl <;> rfl
    · split
      · next hcontrol =>
        simp only [Bool.and_eq_true, bne_iff_ne] at hcontrol
        obtain ⟨⟨⟨hc, htab⟩, hline⟩, hreturn⟩ := hcontrol
        rcases h hc with rfl | rfl | rfl <;> contradiction
      · refine ⟨by simp, fun rest => ?_⟩
        have hnumber := readNumber_hex 2 c ';' (by decide) rest
        simpa [readHtmlAttr] using hnumber

theorem reads_cssChar (c : Char) : Reads readCss (cssChar c) c := by
  unfold cssChar
  split
  · next hplain =>
    have hslash : c ≠ '\\' := by
      rintro rfl
      exact absurd hplain (by decide)
    refine ⟨List.cons_ne_nil _ _, fun rest => ?_⟩
    show readCss (c :: rest) = _
    unfold readCss
    split
    · next heq => exact absurd (List.cons.inj heq).1 hslash
    · rfl
  · refine ⟨by simp, fun rest => ?_⟩
    have hnumber := readNumber_hex 1 c ' ' (by decide) rest
    simpa [readCss] using hnumber

theorem readHex_take_hex {unit : Nat} (h : unit < 0x10000) (rest : List Char) :
    readHex ((hex 4 unit ++ rest).take 4) = unit := by
  have hlength : (hex 4 unit).length = 4 := length_hex (by decide) h
  rw [List.take_left' hlength, readHex_hex]

theorem drop_hex {unit : Nat} (h : unit < 0x10000) (rest : List Char) :
    (hex 4 unit ++ rest).drop 4 = rest :=
  List.drop_left' (length_hex (by decide) h)

/-- No character is half of a pair. -/
theorem not_surrogate (c : Char) : c.toNat < 0xD800 ∨ (0xDFFF < c.toNat ∧ c.toNat < 0x110000) := by
  have h := c.valid
  simp only [UInt32.isValidChar, Nat.isValidChar] at h
  exact h

theorem readJs_unit {unit : Nat} (h : unit < 0x10000) (hpair : ¬ (0xD800 ≤ unit ∧ unit < 0xDC00))
    (rest : List Char) :
    readJs ('\\' :: 'u' :: (hex 4 unit ++ rest)) = some (Char.ofNat unit, rest) := by
  simp only [readJs, readHex_take_hex h, drop_hex h, if_neg hpair]

theorem readJs_pair (high low : Nat) (hhigh : 0xD800 ≤ high ∧ high < 0xDC00) (hlow : low < 0x10000)
    (rest : List Char) :
    readJs ('\\' :: 'u' :: (hex 4 high ++ ('\\' :: 'u' :: (hex 4 low ++ rest)))) =
      some (Char.ofNat (0x10000 + (high - 0xD800) * 0x400 + (low - 0xDC00)), rest) := by
  have hfour : ∀ cs : List Char, (hex 4 high ++ cs).drop 4 = cs :=
    drop_hex (Nat.lt_trans hhigh.2 (by decide))
  have hsix : (hex 4 high ++ ('\\' :: 'u' :: (hex 4 low ++ rest))).drop 6 = hex 4 low ++ rest := by
    rw [show 6 = 4 + 2 from rfl, ← List.drop_drop, hfour]
    rfl
  have hten : (hex 4 high ++ ('\\' :: 'u' :: (hex 4 low ++ rest))).drop 10 = rest := by
    rw [show 10 = 6 + 4 from rfl, ← List.drop_drop, hsix, drop_hex hlow]
  simp only [readJs, readHex_take_hex (Nat.lt_trans hhigh.2 (by decide : 0xDC00 < 0x10000)),
    if_pos hhigh, hsix, hten, readHex_take_hex hlow]

theorem reads_units (c : Char) :
    Reads readJs ((utf16Units c).flatMap fun unit => '\\' :: 'u' :: hex 4 unit) c := by
  have hc := not_surrogate c
  have hback := Char.ofNat_toNat c
  by_cases hone : c.toNat < 0x10000
  · have hunits : utf16Units c = [c.toNat] := if_pos hone
    rw [hunits]
    refine ⟨List.cons_ne_nil _ _, fun rest => ?_⟩
    have hunit := readJs_unit hone (by omega) rest
    rw [hback] at hunit
    simpa using hunit
  · obtain ⟨high, hhigh⟩ : ∃ high, high = 0xD800 + (c.toNat - 0x10000) / 0x400 := ⟨_, rfl⟩
    obtain ⟨low, hlow⟩ : ∃ low, low = 0xDC00 + (c.toNat - 0x10000) % 0x400 := ⟨_, rfl⟩
    have hunits : utf16Units c = [high, low] := by
      rw [hhigh, hlow]
      exact if_neg hone
    have hvalue : 0x10000 + (high - 0xD800) * 0x400 + (low - 0xDC00) = c.toNat := by omega
    rw [hunits]
    refine ⟨List.cons_ne_nil _ _, fun rest => ?_⟩
    have hpair := readJs_pair high low (by omega) (by omega) rest
    rw [hvalue, hback] at hpair
    simpa using hpair

theorem reads_jsChar (c : Char) : Reads readJs (jsChar c) c := by
  unfold jsChar
  split
  · next hplain =>
    have hslash : c ≠ '\\' := by
      rintro rfl
      exact absurd hplain (by decide)
    refine ⟨List.cons_ne_nil _ _, fun rest => ?_⟩
    show readJs (c :: rest) = _
    unfold readJs
    split
    · next heq => exact absurd (List.cons.inj heq).1 hslash
    · next heq => exact absurd (List.cons.inj heq).1 hslash
    · rfl
  -- The characters with a form of two characters come first, then all others.
  iterate 7
    split
    · next hshort =>
      obtain rfl := eq_of_beq hshort
      exact ⟨List.cons_ne_nil _ _, fun rest => rfl⟩
  exact reads_units c

theorem reads_urlByte (b : UInt8) : Reads readUrl (urlByte b) b := by
  have hb : b.toNat < 256 := b.toNat_lt
  unfold urlByte
  extract_lets c
  split
  · next hplain =>
    have hpercent : c ≠ '%' := by
      intro h
      rw [h] at hplain
      exact absurd hplain (by decide)
    have hc : c.toNat = b.toNat := by
      have hall : ∀ n < 256, (Char.ofNat n).toNat = n := by decide +kernel
      exact hall _ hb
    refine ⟨List.cons_ne_nil _ _, fun rest => ?_⟩
    show readUrl (c :: rest) = _
    unfold readUrl
    split
    · next heq => exact absurd (List.cons.inj heq).1 hpercent
    · next heq =>
      obtain ⟨rfl, rfl⟩ := List.cons.inj heq
      rw [hc, UInt8.ofNat_toNat]
    · next heq => cases heq
  · refine ⟨by simp, fun rest => ?_⟩
    have hlength : (hex 2 b.toNat).length = 2 := length_hex (by decide) hb
    have htake : (hex 2 b.toNat ++ rest).take 2 = hex 2 b.toNat := List.take_left' hlength
    have hdrop : (hex 2 b.toNat ++ rest).drop 2 = rest := List.drop_left' hlength
    simp [readUrl, htake, hdrop, readHex_hex]

/-! ## §4. Every character is harmless -/

/-- Texts of ASCII letters, digits and some marks. -/
def Only (marks : String) (cs : List Char) : Prop :=
  ∀ c ∈ cs, c.isAlphanum ∨ c ∈ marks.toList

instance (marks : String) (cs : List Char) : Decidable (Only marks cs) :=
  decidable_of_iff (cs.all fun c => c.isAlphanum || decide (c ∈ marks.toList)) (by simp [Only])

section Only

variable {marks : String} {cs ds : List Char}

theorem only_append : Only marks (cs ++ ds) ↔ Only marks cs ∧ Only marks ds :=
  List.forall_mem_append

theorem only_cons {c : Char} :
    Only marks (c :: cs) ↔ (c.isAlphanum ∨ c ∈ marks.toList) ∧ Only marks cs :=
  List.forall_mem_cons

theorem only_nil : Only marks [] := nofun

theorem only_flatMap {α : Type} {code : α → List Char} (h : ∀ a, Only marks (code a))
    (as : List α) : Only marks (as.flatMap code) := by
  intro c hc
  obtain ⟨a, -, hc⟩ := List.mem_flatMap.mp hc
  exact h a c hc

theorem only_hex (width n : Nat) : Only marks (hex width n) := by
  have hall : ∀ c ∈ hexDigits, c.isAlphanum := List.all_eq_true.mp (by decide)
  exact fun c hc => .inl (hall c (mem_hexDigits_of_mem_hex hc))

end Only

theorem only_htmlAttrChar (c : Char) : Only ",-._&#;" (htmlAttrChar c) := by
  unfold htmlAttrChar
  split
  · next hplain =>
    simp only [Bool.or_eq_true, beq_iff_eq] at hplain
    refine only_cons.mpr ⟨?_, only_nil⟩
    rcases hplain with (((h | rfl) | rfl) | rfl) | rfl
    · exact .inl h
    all_goals exact .inr (by decide)
  · split
    · next hmarkup =>
      simp only [Bool.or_eq_true, beq_iff_eq] at hmarkup
      rcases hmarkup with ((rfl | rfl) | rfl) | rfl <;> decide
    · split
      · decide
      · have hfront : Only ",-._&#;" "&#x".toList := by decide
        exact only_append.mpr ⟨only_append.mpr ⟨hfront, only_hex _ _⟩, by decide⟩

theorem only_jsChar (c : Char) : Only ",._/\\" (jsChar c) := by
  unfold jsChar
  split
  · next hplain =>
    simp only [Bool.or_eq_true, beq_iff_eq] at hplain
    refine only_cons.mpr ⟨?_, only_nil⟩
    rcases hplain with ((h | rfl) | rfl) | rfl
    · exact .inl h
    all_goals exact .inr (by decide)
  iterate 7
    split
    · decide
  exact only_flatMap (fun unit => only_cons.mpr ⟨.inr (by decide),
    only_cons.mpr ⟨.inl (by decide), only_hex _ _⟩⟩) _

theorem only_cssChar (c : Char) : Only "\\ " (cssChar c) := by
  unfold cssChar
  split
  · next hplain => exact only_cons.mpr ⟨.inl hplain, only_nil⟩
  · exact only_append.mpr ⟨only_cons.mpr ⟨.inr (by decide), only_hex _ _⟩, by decide⟩

theorem only_urlByte (b : UInt8) : Only "-._~%" (urlByte b) := by
  unfold urlByte
  extract_lets c
  split
  · next hplain =>
    simp only [Bool.or_eq_true, beq_iff_eq] at hplain
    refine only_cons.mpr ⟨?_, only_nil⟩
    rcases hplain with (((h | h) | h) | h) | h
    · exact .inl h
    all_goals exact .inr (h ▸ by decide)
  · exact only_cons.mpr ⟨.inr (by decide), only_hex _ _⟩

/-- A character of a text that is put together stands in one of the parts. -/
theorem exists_split_of_flatMap {α : Type} {code : α → List Char} {as : List α}
    {before after : List Char} {c : Char} (h : as.flatMap code = before ++ c :: after) :
    ∃ a front back start rest, code a = start ++ c :: rest ∧ before = front ++ start ∧
      after = rest ++ back := by
  induction as generalizing before with
  | nil => simp at h
  | cons a as ih =>
    rw [List.flatMap_cons] at h
    rcases List.append_eq_append_iff.mp h with ⟨front, rfl, hrest⟩ | ⟨rest, hcode, hrest⟩
    · obtain ⟨b, front', back, start, rest, hcode, rfl, rfl⟩ := ih hrest
      exact ⟨b, code a ++ front', back, start, rest, hcode, (List.append_assoc _ _ _).symm, rfl⟩
    · cases rest with
      | nil =>
        have hrest : as.flatMap code = [] ++ c :: after := hrest.symm
        obtain ⟨b, front', back, start, rest, hcode', hfront, rfl⟩ := ih hrest
        obtain ⟨rfl, rfl⟩ := List.append_eq_nil_iff.mp hfront.symm
        exact ⟨b, before, back, [], rest, hcode', (List.append_nil _).symm, rfl⟩
      | cons d rest =>
        obtain ⟨rfl, rfl⟩ := List.cons.inj hrest
        exact ⟨a, [], as.flatMap code, before, rest, hcode, rfl, rfl⟩

theorem not_markup_of_mem_htmlChar {c d : Char} (h : d ∈ htmlChar c) :
    d ≠ '<' ∧ d ≠ '>' ∧ d ≠ '"' ∧ d ≠ '\'' := by
  have hall : (entities.all fun entity => entity.1.all fun d =>
      d ≠ '<' ∧ d ≠ '>' ∧ d ≠ '"' ∧ d ≠ '\'') = true := by decide
  have hentities : ∀ entity ∈ entities, ∀ d ∈ entity.1,
      d ≠ '<' ∧ d ≠ '>' ∧ d ≠ '"' ∧ d ≠ '\'' := by
    simpa only [List.all_eq_true, decide_eq_true_iff] using hall
  rcases htmlChar_cases c with hmem | ⟨heq, hne⟩
  · exact hentities _ hmem d h
  · rw [heq, List.mem_singleton] at h
    subst h
    refine ⟨?_, ?_, ?_, ?_⟩
    · exact (hne ("&lt;".toList, '<') (by decide)).symm
    · exact (hne ("&gt;".toList, '>') (by decide)).symm
    · exact (hne ("&quot;".toList, '"') (by decide)).symm
    · exact (hne ("&#039;".toList, '\'') (by decide)).symm

/-- In the form of a character an ampersand is the first of an entity. -/
theorem entity_of_htmlChar {c : Char} {start rest : List Char}
    (h : htmlChar c = start ++ '&' :: rest) : ∃ entity ∈ entities, entity.1 = '&' :: rest := by
  have hentities : ∀ entity ∈ entities, '&' ∉ entity.1.tail := by decide
  rcases htmlChar_cases c with hmem | ⟨heq, hne⟩
  · cases start with
    | nil => exact ⟨_, hmem, h⟩
    | cons d start =>
      have htail := hentities _ hmem
      simp [h] at htail
  · have hamp : c ≠ '&' := (hne ("&amp;".toList, '&') (by decide)).symm
    rw [heq, eq_comm, List.append_eq_singleton_iff] at h
    rcases h with ⟨-, h⟩ | ⟨-, h⟩
    · exact absurd (List.cons.inj h).1.symm hamp
    · cases h

theorem slash_of_jsChar (c : Char) : jsChar c = ['\\', '/'] ∨ '/' ∉ jsChar c := by
  unfold jsChar
  split
  · next hplain =>
    refine .inr fun h => ?_
    rw [← List.mem_singleton.mp h] at hplain
    exact absurd hplain (by decide)
  iterate 7
    split
    · decide
  refine .inr fun h => ?_
  obtain ⟨unit, -, hunit⟩ := List.mem_flatMap.mp h
  have hhex : '/' ∉ hexDigits := by decide
  simp only [List.mem_cons, Char.reduceEq, false_or] at hunit
  exact hhex (mem_hexDigits_of_mem_hex hunit)

/-- In the form of a character a slash comes right after a backslash. -/
theorem backslash_of_jsChar {c : Char} {start rest : List Char}
    (h : jsChar c = start ++ '/' :: rest) : start = ['\\'] := by
  rcases slash_of_jsChar c with heq | hnone
  · rw [heq] at h
    rcases start with _ | ⟨d, _ | ⟨e, start⟩⟩
    · simp at h
    · rw [(List.cons.inj h).1]
    · simp at h
  · exact absurd (h ▸ List.mem_append_right start List.mem_cons_self) hnone

/-! ## §5. Texts -/

/-- **Escaping loses nothing and leaves nothing harmful.**  For each kind of output there is a
reader that gets the text back, or its bytes where bytes are escaped; for attributes it does if the
text has no control characters but those that may stand in a document.  HTML text has no brackets
and no quotes, and ampersands only where an entity begins; the other kinds consist of letters,
digits and a few marks, and a slash in a script comes after a backslash. -/
theorem text_readable_and_harmless (s : String) :
    (.ofList (decode readHtml (text s "html")) = s ∧
      .ofList (decode readJs (text s "js")) = s ∧
      .ofList (decode readCss (text s "css")) = s ∧
      decode readUrl (text s "url") = s.toUTF8.toList ∧
      ((∀ c ∈ s.toList, isControl c → c = '\t' ∨ c = '\n' ∨ c = '\r') →
        .ofList (decode readHtmlAttr (text s "html_attr")) = s)) ∧
    ((∀ c ∈ (text s "html").toList, c ≠ '<' ∧ c ≠ '>' ∧ c ≠ '"' ∧ c ≠ '\'') ∧
      ∀ before after, (text s "html").toList = before ++ '&' :: after →
        ∃ entity ∈ entities, entity.1 <+: '&' :: after) ∧
    Only ",-._&#;" (text s "html_attr").toList ∧
    (Only ",._/\\" (text s "js").toList ∧
      ∀ before after, (text s "js").toList = before ++ '/' :: after →
        before.getLast? = some '\\') ∧
    Only "\\ " (text s "css").toList ∧
    Only "-._~%" (text s "url").toList := by
  have hhtml : text s "html" = .ofList (s.toList.flatMap htmlChar) := rfl
  have hattr : text s "html_attr" = .ofList (s.toList.flatMap htmlAttrChar) := rfl
  have hjs : text s "js" = .ofList (s.toList.flatMap jsChar) := rfl
  have hcss : text s "css" = .ofList (s.toList.flatMap cssChar) := rfl
  have hurl : text s "url" = .ofList (s.toUTF8.toList.flatMap urlByte) := rfl
  simp only [hhtml, hattr, hjs, hcss, hurl, decode, String.toList_ofList]
  refine ⟨⟨?_, ?_, ?_, ?_, fun h => ?_⟩, ⟨fun c hc => ?_, fun before after h => ?_⟩, ?_,
    ⟨?_, fun before after h => ?_⟩, ?_, ?_⟩
  · rw [readAll_flatMap (fun c _ => reads_htmlChar c) rfl (Nat.le_refl _), String.ofList_toList]
  · rw [readAll_flatMap (fun c _ => reads_jsChar c) rfl (Nat.le_refl _), String.ofList_toList]
  · rw [readAll_flatMap (fun c _ => reads_cssChar c) rfl (Nat.le_refl _), String.ofList_toList]
  · exact readAll_flatMap (fun b _ => reads_urlByte b) rfl (Nat.le_refl _)
  · rw [readAll_flatMap (fun c hc => reads_htmlAttrChar (h c hc)) rfl (Nat.le_refl _),
      String.ofList_toList]
  · obtain ⟨d, -, hd⟩ := List.mem_flatMap.mp hc
    exact not_markup_of_mem_htmlChar hd
  · obtain ⟨c, front, back, start, rest, hcode, rfl, rfl⟩ := exists_split_of_flatMap h
    obtain ⟨entity, hmem, hentity⟩ := entity_of_htmlChar hcode
    exact ⟨entity, hmem, back, by rw [hentity, List.cons_append]⟩
  · exact only_flatMap only_htmlAttrChar _
  · exact only_flatMap only_jsChar _
  · obtain ⟨c, front, back, start, rest, hcode, rfl, rfl⟩ := exists_split_of_flatMap h
    rw [backslash_of_jsChar hcode, List.getLast?_concat]
  · exact only_flatMap only_cssChar _
  · exact only_flatMap only_urlByte _

/-- A tag over two lines is read back from an attribute. -/
theorem text_readable_and_harmless_tag :
    (∀ c ∈ "<b\n>".toList, isControl c → c = '\t' ∨ c = '\n' ∨ c = '\r') ∧
      .ofList (decode readHtmlAttr (text "<b\n>" "html_attr")) = "<b\n>" := by
  have hall : ("<b\n>".toList.all fun c =>
      decide (isControl c → c = '\t' ∨ c = '\n' ∨ c = '\r')) = true := by decide
  have h : ∀ c ∈ "<b\n>".toList, isControl c → c = '\t' ∨ c = '\n' ∨ c = '\r' := by
    simpa only [List.all_eq_true, decide_eq_true_iff] using hall
  exact ⟨h, (text_readable_and_harmless "<b\n>").1.2.2.2.2 h⟩

end Stencil.Escape
