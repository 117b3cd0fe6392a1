import Stencil.Proofs.Expr.Phrase
import Stencil.Template.Expr.Parser
import Mathlib.Data.List.TakeWhile

/-!
Reading words off the stream of tokens.

A parser faces words: the tokens to come are those of the words, with or without the blank before
the first one, which a parser that looked ahead has passed already.  After the words comes the end
of their print or tag, and then whatever the source goes on with.  `Takes` says that a parser
succeeds wherever it faces certain words, what it then faces, and what it returns.  It composes
along the parser's own code, so that reading a construct is proved by naming the words it consumes
one after the other.
-/

namespace Stencil

open Stencil.Text Stencil.Token

/-! ## §1. Facing words -/

/-- The tokens to come, places aside. -/
def Cursor.shapes (c : Cursor) : List (TokenKind × String) :=
  c.upcoming.map Token.shape

namespace Word

/-- The first token of a word. -/
def lead : Word → TokenKind × String
  | .name word => (.name, word.text)
  | .dotted joined => (.name, joined.first.text)
  | .number whole _ => (.number, whole.text)
  | .quoted _ => (.stringOpen, "\"")
  | .binary op => (.operator, op.spelling)
  | .unary op => (.operator, op.spelling)
  | .is => (.operator, "is")
  | .mark c _ => (.punctuation, .singleton c)
  | .opening bracket => (bracket.openKind, .singleton bracket.opener)
  | .closing bracket => (bracket.closeKind, .singleton bracket.closer)

/-- The tokens of a word after the first one. -/
def others : Word → List (TokenKind × String)
  | .dotted joined =>
    joined.more.flatMap fun part => [(.punctuation, "."), (.name, part.text)]
  | .number _ (some fraction) => [(.punctuation, "."), (.number, fraction.text)]
  | .quoted text =>
    (if text = "" then [] else [(.stringText, .ofList (protect text.toList))]) ++
      [(.stringClose, "\"")]
  | _ => []

theorem shapes_eq (word : Word) : word.shapes = word.lead :: word.others := by
  rcases word with _ | _ | ⟨_, _ | _⟩ | _ | _ | _ | _ | _ | _ | _ <;> rfl

/-- A word is no white space, no error and no end of the source. -/
theorem lead_kind (word : Word) : word.lead.1 ≠ .whitespace ∧ word.lead.1 ≠ .error := by
  rcases word with _ | _ | _ | _ | _ | _ | _ | _ | ⟨⟨⟩⟩ | ⟨⟨⟩⟩ <;> exact ⟨nofun, nofun⟩

end Word

/-- What comes after words: the delimiter that ends their print or tag, and more tokens. -/
structure Ending where
  fence : Fence
  more : List (TokenKind × String)

/-- The end of a print that is the end of the source. -/
def Ending.lastPrint : Ending := ⟨.print, []⟩

/-- The tokens of words up to an ending, from the first word on. -/
def ahead (fin : Ending) : List Word → List (TokenKind × String)
  | [] => fin.fence.closeShape :: fin.more
  | word :: words => word.shapes ++ blankShape :: ahead fin words

/-- The first token of words up to an ending. -/
def leadOf (fin : Ending) : List Word → TokenKind × String
  | [] => fin.fence.closeShape
  | word :: _ => word.lead

/-- The tokens of words up to an ending, after the first one. -/
def othersOf (fin : Ending) : List Word → List (TokenKind × String)
  | [] => fin.more
  | word :: words => word.others ++ blankShape :: ahead fin words

variable {fin : Ending}

theorem ahead_eq (words : List Word) :
    ahead fin words = leadOf fin words :: othersOf fin words := by
  cases words with
  | nil => rfl
  | cons word words =>
    rw [ahead, Word.shapes_eq]
    rfl

theorem leadOf_kind (fin : Ending) (words : List Word) :
    (leadOf fin words).1 ≠ .whitespace ∧ (leadOf fin words).1 ≠ .error := by
  cases words with
  | nil =>
    obtain ⟨⟨⟩, more⟩ := fin
    · exact ⟨nofun, nofun⟩
    · exact ⟨nofun, nofun⟩
  | cons word words => exact word.lead_kind

theorem shapesOf_append_ending (fin : Ending) (words : List Word) :
    shapesOf words ++ blankShape :: fin.fence.closeShape :: fin.more =
      blankShape :: ahead fin words := by
  induction words with
  | nil => rfl
  | cons word words ih =>
    rw [shapesOf_cons, List.append_assoc, ih]
    rfl

/-- The token that closes a print. -/
def closeShape : TokenKind × String :=
  (.printClose, "\x7d\x7d")

theorem shapesOf_append_close (words : List Word) :
    shapesOf words ++ [blankShape, closeShape] = blankShape :: ahead .lastPrint words :=
  shapesOf_append_ending .lastPrint words

/-- The tokens of words up to an ending, with or without the blank before the first word. -/
def Facing (fin : Ending) (words : List Word) (ks : List (TokenKind × String)) : Prop :=
  ks = ahead fin words ∨ ks = blankShape :: ahead fin words

/-! ## §2. Taking words -/

namespace Parse

variable {α β : Type}

/-- A parser succeeds where the tokens to come are of one kind, with a result as stated, and leaves
tokens of another kind.  It changes nothing but how far the stream is read. -/
def Takes (x : Parse α) (P : List (TokenKind × String) → Prop) (Q : α → Prop)
    (P' : List (TokenKind × String) → Prop) : Prop :=
  ∀ s : ParseState, P s.cursor.shapes →
    ∃ a c, x.run s = .ok (a, { s with cursor := c }) ∧ c.final = s.cursor.final ∧
      P' c.shapes ∧ Q a

namespace Takes

variable {x : Parse α} {P P' P'' : List (TokenKind × String) → Prop} {Q : α → Prop}
  {R : β → Prop}

theorem pure {a : α} (h : Q a) : Takes (Pure.pure a) P Q P :=
  fun s hs => ⟨a, s.cursor, rfl, rfl, hs, h⟩

theorem bind {f : α → Parse β} (hx : Takes x P Q P') (hf : ∀ a, Q a → Takes (f a) P' R P'') :
    Takes (x >>= f) P R P'' := by
  intro s hs
  obtain ⟨a, c, hrun, hfinal, hc, ha⟩ := hx s hs
  obtain ⟨b, d, hmore, hfinal', hd, hb⟩ := hf a ha { s with cursor := c } hc
  refine ⟨b, d, ?_, hfinal'.trans hfinal, hd, hb⟩
  rw [run_bind_ok hrun]
  exact hmore

theorem mono {Q' : α → Prop} (hx : Takes x P Q P') (h : ∀ a, Q a → Q' a) : Takes x P Q' P' := by
  intro s hs
  obtain ⟨a, c, hrun, hfinal, hc, ha⟩ := hx s hs
  exact ⟨a, c, hrun, hfinal, hc, h a ha⟩

/-- A turn of a loop that is not the last one. -/
theorem more {γ : Type} {turn : α → Parse (Turn α γ)} {I : α → Prop} {S : γ → Prop} {a : α}
    {n : Nat}
    (hturn : Takes (turn a) P (fun r => ∃ a', r = .more a' ∧ I a') P')
    (hrest : ∀ a', I a' → Takes (iterate turn n a') P' S P'') :
    Takes (iterate turn (n + 1) a) P S P'' := by
  apply bind hturn
  rintro _ ⟨a', rfl, ha'⟩
  exact hrest a' ha'

/-- The last turn of a loop. -/
theorem done {γ : Type} {turn : α → Parse (Turn α γ)} {S : γ → Prop} {a : α} {n : Nat}
    (hturn : Takes (turn a) P (fun r => ∃ b, r = .done b ∧ S b) P') :
    Takes (iterate turn (n + 1) a) P S P' := by
  apply bind hturn
  rintro _ ⟨b, rfl, hb⟩
  exact pure hb

theorem facing {words : List Word} (hx : Takes x P Q (· = blankShape :: ahead fin words)) :
    Takes x P Q (Facing fin words) := by
  intro s hs
  obtain ⟨a, c, hrun, hfinal, hc, ha⟩ := hx s hs
  exact ⟨a, c, hrun, hfinal, .inr hc, ha⟩

/-- A blank before the first word makes no difference. -/
theorem of_blank {words : List Word} (hx : Takes x (Facing fin words) Q P') :
    Takes x (· = blankShape :: ahead fin words) Q P' :=
  fun s hs => hx s (.inr hs)

end Takes

theorem run_consume {move : Cursor → Token × Cursor} {s : ParseState}
    (h : (move s.cursor).1.kind ≠ .error) :
    (consume move).run s = .ok ((move s.cursor).1, { s with cursor := (move s.cursor).2 }) := by
  show (if (move s.cursor).1.kind = .error then _ else _ : Parse Token).run _ = _
  rw [if_neg h]
  rfl

/-- Tokens of a given shape and then others are a token and then others. -/
theorem exists_upcoming {c : Cursor} {k : TokenKind × String} {ks : List (TokenKind × String)}
    (h : c.shapes = k :: ks) :
    ∃ past token rest final, c = ⟨past, token :: rest, final⟩ ∧ token.shape = k ∧
      rest.map Token.shape = ks := by
  obtain ⟨token, rest, hupcoming, htoken, hrest⟩ := List.map_eq_cons_iff.mp h
  exact ⟨c.past, token, rest, c.final, by rw [← hupcoming], htoken, hrest⟩

/-- What a move of the cursor finds: a token of a given shape, with given tokens after it, and the
move can be undone up to the blank before it. -/
def Finds (move : Cursor → Token × Cursor) (c : Cursor) (k : TokenKind × String)
    (ks : List (TokenKind × String)) : Prop :=
  ∃ token past rest, move c = (token, ⟨token :: past, rest, c.final⟩) ∧ token.shape = k ∧
    rest.map Token.shape = ks

theorem finds_next {c : Cursor} {k : TokenKind × String} {ks : List (TokenKind × String)}
    (h : c.shapes = k :: ks) : Finds Cursor.next c k ks := by
  obtain ⟨past, token, rest, final, rfl, htoken, hrest⟩ := exists_upcoming h
  exact ⟨token, past.take 7, rest, rfl, htoken, hrest⟩

theorem finds_nextSolid {c : Cursor} {k : TokenKind × String} {ks : List (TokenKind × String)}
    (h : c.shapes = k :: ks) (hk : k.1 ≠ .whitespace) : Finds Cursor.nextSolid c k ks := by
  obtain ⟨past, token, rest, final, rfl, htoken, hrest⟩ := exists_upcoming h
  have hkind : token.kind ≠ .whitespace := by
    rw [← htoken] at hk
    exact hk
  refine ⟨token, past.take 7, rest, ?_, htoken, hrest⟩
  rw [Cursor.nextSolid, Cursor.solidFrom, if_neg hkind]
  rfl

/-- A blank before a token is passed. -/
theorem finds_nextSolid_of_blank {c : Cursor} {k : TokenKind × String}
    {ks : List (TokenKind × String)} (h : c.shapes = blankShape :: k :: ks)
    (hk : k.1 ≠ .whitespace) : Finds Cursor.nextSolid c k ks := by
  obtain ⟨past, blank, more, final, rfl, hblank, hmore⟩ := exists_upcoming h
  have hkind : blank.kind = .whitespace := congrArg Prod.fst hblank
  have hnext : Cursor.nextSolid ⟨past, blank :: more, final⟩ =
      Cursor.nextSolid ⟨Cursor.remember past blank, more, final⟩ := by
    rw [Cursor.nextSolid, Cursor.solidFrom, if_pos hkind]
    rfl
  have hfinds := finds_nextSolid (c := ⟨Cursor.remember past blank, more, final⟩) hmore hk
  unfold Finds at hfinds ⊢
  rwa [hnext]

/-- A parser that consumes a token succeeds, and so does one that takes the token back. -/
theorem Finds.run {move : Cursor → Token × Cursor} {s : ParseState} {k : TokenKind × String}
    {ks : List (TokenKind × String)} (h : Finds move s.cursor k ks) (hk : k.1 ≠ .error) :
    ∃ token c, (consume move).run s = .ok (token, { s with cursor := c }) ∧
      c.final = s.cursor.final ∧ token.shape = k ∧ c.shapes = ks ∧ c.backup.shapes = k :: ks := by
  obtain ⟨token, past, rest, hmove, htoken, hrest⟩ := h
  have hkind : (move s.cursor).1.kind ≠ .error := by
    rw [hmove]
    rw [← htoken] at hk
    exact hk
  refine ⟨token, ⟨token :: past, rest, s.cursor.final⟩, ?_, rfl, htoken, hrest, ?_⟩
  · rw [run_consume hkind, hmove]
  · -- Taking the token back puts it in front of the rest, places and all.
    rw [← htoken, ← hrest]
    rfl

variable {words : List Word}

theorem Facing.finds {c : Cursor} (h : Facing fin words c.shapes) :
    Finds Cursor.nextSolid c (leadOf fin words) (othersOf fin words) := by
  have hkind := (leadOf_kind fin words).1
  unfold Facing at h
  rw [ahead_eq] at h
  -- Without the blank the first token is next, with it the next but one.
  rcases h with h | h
  · exact finds_nextSolid h hkind
  · exact finds_nextSolid_of_blank h hkind

theorem takes_nextSolid (words : List Word) :
    Takes nextSolid (Facing fin words) (·.shape = leadOf fin words) (· = othersOf fin words) := by
  intro s hs
  obtain ⟨token, c, hrun, hfinal, htoken, hc, -⟩ := (Facing.finds hs).run (leadOf_kind fin words).2
  exact ⟨token, c, hrun, hfinal, hc, htoken⟩

/-- A word of one token is consumed as a whole. -/
theorem takes_word {word : Word} (h : word.others = []) (words : List Word) :
    Takes nextSolid (Facing fin (word :: words)) (·.shape = word.lead) (Facing fin words) := by
  apply Takes.facing
  have htakes : Takes nextSolid (Facing fin (word :: words)) _ _ := takes_nextSolid (word :: words)
  rwa [othersOf, h] at htakes

theorem takes_peek (words : List Word) :
    Takes peek (Facing fin words) (·.shape = leadOf fin words) (Facing fin words) := by
  intro s hs
  obtain ⟨token, c, hrun, hfinal, htoken, -, hback⟩ :=
    (Facing.finds hs).run (leadOf_kind fin words).2
  rw [← ahead_eq] at hback
  refine ⟨token, c.backup, ?_, c.final_backup.trans hfinal, .inl hback, htoken⟩
  rw [peek, nextSolid, run_bind_ok hrun]
  rfl

theorem is_eq_decide (token : Token) (kind : TokenKind) (value : String) :
    token.is kind value = decide (token.shape = (kind, value)) := by
  rw [Bool.eq_iff_iff, decide_eq_true_iff]
  simp [Token.is, Token.shape]

/-- A token that is asked for is consumed. -/
theorem takes_accept (word : Word) {kind : TokenKind} {value : String}
    (h : word.shapes = [(kind, value)]) (words : List Word) :
    Takes (accept kind value) (Facing fin (word :: words)) (· = true) (Facing fin words) := by
  obtain ⟨hlead, hothers⟩ := List.cons_eq_cons.mp (word.shapes_eq.symm.trans h)
  apply (takes_word hothers words).bind
  intro token htoken
  rw [is_eq_decide, htoken, if_pos (decide_eq_true hlead)]
  exact Takes.pure rfl

/-- A token that is not the one asked for is left. -/
theorem takes_accept_of_ne {kind : TokenKind} {value : String}
    (h : leadOf fin words ≠ (kind, value)) :
    Takes (accept kind value) (Facing fin words) (· = false) (Facing fin words) := by
  intro s hs
  obtain ⟨token, c, hrun, hfinal, htoken, -, hback⟩ :=
    (Facing.finds hs).run (leadOf_kind fin words).2
  rw [← ahead_eq] at hback
  refine ⟨false, c.backup, ?_, c.final_backup.trans hfinal, .inl hback, rfl⟩
  have his : token.is kind value = false := by
    rw [is_eq_decide, htoken]
    exact decide_eq_false h
  rw [accept, nextSolid, run_bind_ok hrun, his]
  rfl

theorem takes_expect {word : Word} (h : word.others = []) {kinds : List TokenKind}
    (hkinds : kinds.contains word.lead.1) (words : List Word) :
    Takes (expect kinds) (Facing fin (word :: words)) (·.shape = word.lead) (Facing fin words) := by
  apply (takes_word h words).bind
  intro token htoken
  have hkind : token.kind = word.lead.1 := congrArg Prod.fst htoken
  rw [hkind, if_pos hkinds]
  exact Takes.pure htoken

theorem takes_expectValue (word : Word) {kind : TokenKind} {value : String}
    (h : word.shapes = [(kind, value)]) (words : List Word) :
    Takes (expectValue kind value) (Facing fin (word :: words)) (fun _ => True)
      (Facing fin words) := by
  obtain ⟨hlead, hothers⟩ := List.cons_eq_cons.mp (word.shapes_eq.symm.trans h)
  apply (takes_word hothers words).bind
  intro token htoken
  rw [is_eq_decide, htoken, if_pos (decide_eq_true hlead)]
  exact Takes.pure trivial

/-- A token is taken as it is, a blank included. -/
theorem takes_next (k : TokenKind × String) (ks : List (TokenKind × String))
    (hk : k.1 ≠ .error) : Takes next (· = k :: ks) (·.shape = k) (· = ks) := by
  intro s hs
  obtain ⟨token, c, hrun, hfinal, htoken, hc, -⟩ := (finds_next hs).run hk
  exact ⟨token, c, hrun, hfinal, hc, htoken⟩

end Parse

/-! ## §3. Numbers and quoted text -/

namespace Number

theorem toLower_of_isDigit {c : Char} (hc : c.isDigit = true) : c.toLower = c := by
  simp only [Char.isDigit, Bool.and_eq_true, decide_eq_true_eq, ge_iff_le,
    UInt32.le_iff_toNat_le] at hc
  have hupper : ¬ (c.val ≥ 'A'.val ∧ c.val ≤ 'Z'.val) := by
    simp only [ge_iff_le, UInt32.le_iff_toNat_le]
    have hnine : c.val.toNat ≤ 57 := hc.2
    have hletter : 'A'.val.toNat = 65 := rfl
    omega
  unfold Char.toLower
  rw [dif_neg hupper]

/-- A text that begins with a digit has no sign and is none of the words. -/
theorem readWhole?_of_isDigit {c : Char} (hc : c.isDigit = true) (cs : List Char) :
    readWhole? (c :: cs) = readDecimal? false (c :: cs) := by
  have hsign : splitSign (c :: cs) = (false, c :: cs) := by
    unfold splitSign
    split
    · next h => exact absurd hc (by rw [(List.cons.inj h).1]; decide)
    · next h => exact absurd hc (by rw [(List.cons.inj h).1]; decide)
    · rfl
  have hword : ∀ word : String, word.toList.head?.any Char.isDigit = false →
      (String.ofList ((c :: cs).map Char.toLower) == word) = false := by
    intro word hhead
    rw [beq_eq_false_iff_ne]
    rintro rfl
    rw [String.toList_ofList, List.map_cons, toLower_of_isDigit hc] at hhead
    simp [hc] at hhead
  unfold readWhole?
  simp only [hsign, hword "inf" rfl, hword "infinity" rfl, hword "nan" rfl]
  rfl

/-- A run of digits is a number. -/
theorem readWhole?_digits {whole : List Char} (hne : whole ≠ [])
    (hwhole : ∀ c ∈ whole, c.isDigit = true) : readWhole? whole = some (ofDigits whole []) := by
  obtain ⟨c, cs, rfl⟩ := List.exists_cons_of_ne_nil hne
  have htake : (c :: cs).takeWhile Char.isDigit = c :: cs :=
    List.takeWhile_eq_self_iff.mpr hwhole
  have hdrop : (c :: cs).dropWhile Char.isDigit = [] :=
    List.dropWhile_eq_nil_iff.mpr hwhole
  rw [readWhole?_of_isDigit (hwhole c List.mem_cons_self), readDecimal?, htake, hdrop]
  rfl

/-- Two runs of digits with a point between them are a number. -/
theorem readWhole?_fraction {whole fraction : List Char} (hne : whole ≠ [])
    (hwhole : ∀ c ∈ whole, c.isDigit = true) (hfraction : ∀ c ∈ fraction, c.isDigit = true) :
    readWhole? (whole ++ '.' :: fraction) = some (ofDigits whole fraction) := by
  obtain ⟨c, cs, rfl⟩ := List.exists_cons_of_ne_nil hne
  have htake : (c :: cs ++ '.' :: fraction).takeWhile Char.isDigit = c :: cs := by
    rw [List.takeWhile_append_of_pos hwhole, List.takeWhile_cons_of_neg (by decide),
      List.append_nil]
  have hdrop : (c :: cs ++ '.' :: fraction).dropWhile Char.isDigit = '.' :: fraction := by
    rw [List.dropWhile_append_of_pos hwhole, List.dropWhile_cons_of_neg (by decide)]
  have htake' : fraction.takeWhile Char.isDigit = fraction :=
    List.takeWhile_eq_self_iff.mpr hfraction
  have hdrop' : fraction.dropWhile Char.isDigit = [] :=
    List.dropWhile_eq_nil_iff.mpr hfraction
  have hfirst : readWhole? (c :: cs ++ '.' :: fraction) =
      readDecimal? false (c :: cs ++ '.' :: fraction) :=
    readWhole?_of_isDigit (hwhole c List.mem_cons_self) _
  rw [hfirst, readDecimal?, htake, hdrop]
  simp only [htake', hdrop', List.isEmpty_cons, Bool.false_and, readExponent?, Option.map_some,
    ofDigits, Int.zero_sub]
  rfl

end Number

namespace Expr

open Parse

/-- What is written in digits is read as a number. -/
theorem readNumber_text (pos : Position) (whole : Digits) (fraction : Option Digits) :
    readNumber pos (whole.text ++ (fraction.map ("." ++ ·.text)).getD "") =
      pure (.number pos (numberOf whole fraction)) := by
  have hne : whole.text.toList ≠ [] := fun h => whole.nonempty (String.toList_eq_nil_iff.mp h)
  have hwhole := List.all_eq_true.mp whole.digits
  unfold readNumber
  cases fraction with
  | none =>
    rw [show whole.text ++ (none.map ("." ++ Digits.text ·)).getD "" = whole.text by simp,
      Number.readWhole?_digits hne hwhole]
    rfl
  | some fraction =>
    have hread := Number.readWhole?_fraction hne hwhole (List.all_eq_true.mp fraction.digits)
    rw [show (whole.text ++ ((some fraction).map ("." ++ Digits.text ·)).getD "").toList =
      whole.text.toList ++ '.' :: fraction.text.toList by simp, hread]
    rfl

/-- The rest of a number.  Only a point right after the digits is followed. -/
theorem takes_parseNumber (pos : Position) (whole : Digits) (fraction : Option Digits)
    (words : List Word) :
    Takes (parseNumber pos whole.text) (· = othersOf fin (.number whole fraction :: words))
      (· = .number pos (numberOf whole fraction)) (Facing fin words) := by
  cases fraction with
  | none =>
    -- The token after the digits is a blank, which is looked at and taken back.
    intro s hs
    obtain ⟨token, c, hrun, hfinal, htoken, -, hback⟩ := (finds_next hs).run nofun
    have his : token.is .punctuation "." = false := by
      rw [is_eq_decide, htoken]
      rfl
    refine ⟨_, c.backup, ?_, c.final_backup.trans hfinal, .inr hback, rfl⟩
    have hread := readNumber_text pos whole none
    rw [Option.map_none, Option.getD_none, String.append_empty] at hread
    rw [parseNumber, next, run_bind_ok hrun, his, hread]
    rfl
  | some fraction =>
    apply Takes.bind (takes_next (.punctuation, ".") _ nofun)
    intro dot hdot
    rw [is_eq_decide, hdot, if_pos (decide_eq_true rfl)]
    refine Takes.bind (Takes.facing (takes_next (.number, fraction.text) _ nofun))
      fun token htoken => ?_
    have hkind : token.kind = .number := congrArg Prod.fst htoken
    have hvalue : token.value = fraction.text := congrArg Prod.snd htoken
    have hread := readNumber_text pos whole (some fraction)
    rw [Option.map_some, Option.getD_some, ← String.append_assoc] at hread
    rw [if_pos hkind, hvalue, hread]
    exact Takes.pure rfl

/-- Unescaping undoes escaping. -/
theorem unescape_escaped {quote : Char} (hquote : quote = '"' ∨ quote = '\'') (cs : List Char) :
    unescape (escaped quote cs) = cs := by
  induction cs with
  | nil => rfl
  | cons c cs ih =>
    rw [escaped, List.flatMap_cons]
    change unescape (_ ++ escaped quote cs) = c :: cs
    split
    · next h =>
      rcases hquote with rfl | rfl <;> rcases h with rfl | rfl | rfl <;> simp [unescape, ih]
    · next h =>
      simp only [not_or] at h
      rw [List.singleton_append, unescape, ih]
      all_goals
        intros
        exact h.1 ‹_›

/-- The closing quote ends a string. -/
theorem takes_parseSegment_close (rec : Tightness → Parse Expr) (pos : Position)
    (segments : List Expr) (value : String) (more : List (TokenKind × String)) :
    Takes (parseSegment rec pos segments) (· = (.stringClose, value) :: more)
      (fun r => ∃ all, r = .done all ∧ all = segments.reverse) (· = more) := by
  apply (takes_next (.stringClose, value) more nofun).bind
  intro token htoken
  have hkind : token.kind = .stringClose := congrArg Prod.fst htoken
  simp only [hkind]
  exact Takes.pure ⟨_, rfl, rfl⟩

/-- A text in a string is one more segment. -/
theorem takes_parseSegment_text {quote : Char} (hquote : quote = '"' ∨ quote = '\'')
    (rec : Tightness → Parse Expr) (pos : Position) (segments : List Expr) (text : String)
    (more : List (TokenKind × String)) :
    Takes (parseSegment rec pos segments)
      (· = (.stringText, .ofList (escaped quote text.toList)) :: more)
      (fun r => ∃ all, r = .more all ∧ ∃ e, all = e :: segments ∧ e.unplaced = .string .start text)
      (· = more) := by
  apply (takes_next (.stringText, .ofList (escaped quote text.toList)) more nofun).bind
  intro token htoken
  have hkind : token.kind = .stringText := congrArg Prod.fst htoken
  have hvalue : token.value = .ofList (escaped quote text.toList) := congrArg Prod.snd htoken
  simp only [hkind, hvalue, String.toList_ofList, unescape_escaped hquote, String.ofList_toList]
  exact Takes.pure ⟨_, rfl, _, rfl, rfl⟩

/-- The rest of a quoted text. -/
theorem takes_parseString (n : Nat) (rec : Tightness → Parse Expr) (pos : Position) (text : String)
    (words : List Word) :
    Takes (parseString (n + 2) rec pos) (· = othersOf fin (.quoted text :: words))
      (·.unplaced = .string .start text) (Facing fin words) := by
  suffices h : Takes (iterate (parseSegment rec pos) (n + 2) [])
      (· = othersOf fin (.quoted text :: words))
      (fun segments => (joinSegments pos segments).unplaced = .string .start text)
      (Facing fin words) from h.bind fun segments hsegments => Takes.pure hsegments
  have hclose : ∀ segments, Takes (parseSegment rec pos segments)
      (· = (.stringClose, "\"") :: blankShape :: ahead fin words)
      (fun r => ∃ b, r = .done b ∧ b = segments.reverse) (Facing fin words) :=
    fun segments => (takes_parseSegment_close rec pos segments _ _).facing
  -- An empty text has no token of its own, any other has exactly one.
  by_cases htext : text = ""
  · subst htext
    exact Takes.done ((hclose []).mono fun r ⟨b, hr, hb⟩ => ⟨b, hr, by rw [hb]; rfl⟩)
  · have hshapes : othersOf fin (.quoted text :: words) =
        (.stringText, .ofList (escaped '"' text.toList)) :: (.stringClose, "\"") ::
          blankShape :: ahead fin words := by
      simp only [othersOf, Word.others, if_neg htext, List.singleton_append]
      rfl
    rw [hshapes]
    apply (takes_parseSegment_text (.inl rfl) rec pos [] text _).more
    rintro _ ⟨e, rfl, he⟩
    exact Takes.done ((hclose [e]).mono fun r ⟨b, hr, hb⟩ => ⟨b, hr, by rw [hb]; exact he⟩)

end Expr

/-! ## §4. Lists -/

/-- Whether a word may follow a phrase: a closing bracket, a mark between phrases, or a word of a
tag. -/
def Word.endsPhrase : Word → Bool
  | .closing _ | .name _ => true
  | .mark c _ => c == ',' || c == ':'
  | _ => false

/-- Whether a phrase may be followed by these words, or by the end of the print or tag. -/
def EndsPhrase (words : List Word) : Prop :=
  words.head?.all Word.endsPhrase

namespace Parse

variable {α β γ : Type}

/-- A list of items through its closing bracket, if every item is read up to what follows it.  The
items are compared by what the functions say about their words and about their values. -/
theorem takes_list {item : Parse α} (words : β → List Word) (means : β → γ) (shows : α → γ)
    (bracket : Bracket) (items : List β)
    (hitem : ∀ b ∈ items, ∀ rest, EndsPhrase rest →
      Takes item (Facing fin (words b ++ rest)) (shows · = means b) (Facing fin rest))
    (hlead : ∀ b ∈ items, ∀ rest, (leadOf fin (words b ++ rest)).1 ≠ bracket.closeKind)
    (rest : List Word) (before : List α) (n : Nat) (hn : items.length < n) :
    Takes (iterate (listTurn bracket.closeKind item) n before)
      (Facing fin (commas (items.map words) ++ .closing bracket :: rest))
      (fun all => all.map shows = before.reverse.map shows ++ items.map means)
      (Facing fin rest) := by
  have hclose : ∀ token : Token, token.shape = (Word.closing bracket).lead →
      token.kind = bracket.closeKind := fun token htoken => congrArg Prod.fst htoken
  obtain ⟨n, rfl⟩ : ∃ m, n = m + 1 := ⟨n - 1, by omega⟩
  -- Each turn puts one item in front of those before it, so the list is generalised over them.
  induction items generalizing before n with
  | nil =>
    apply Takes.done
    apply (takes_peek _).bind
    intro token htoken
    rw [if_pos (hclose token htoken)]
    apply (takes_word rfl rest).bind
    intro _ _
    exact Takes.pure ⟨_, rfl, by simp⟩
  | cons b items ih =>
    obtain ⟨hb, hitems⟩ := List.forall_mem_cons.mp hitem
    obtain ⟨hleadb, hleads⟩ := List.forall_mem_cons.mp hlead
    -- A token is looked at before every item, to see that the list does not end there.
    have hopen : ∀ after, Takes peek (Facing fin (words b ++ after))
        (fun token => ¬ token.kind = bracket.closeKind) (Facing fin (words b ++ after)) := by
      intro after
      apply (takes_peek _).mono
      intro token htoken
      rw [show token.kind = _ from congrArg Prod.fst htoken]
      exact hleadb after
    cases items with
    | nil =>
      -- After the last item comes the closing bracket, in the same turn.
      refine Takes.done ((hopen (.closing bracket :: rest)).bind fun token htoken => ?_)
      rw [if_neg htoken]
      apply (hb (.closing bracket :: rest) rfl).bind
      intro a ha
      apply (takes_word rfl rest).bind
      intro token htoken
      rw [if_pos (hclose token htoken)]
      exact Takes.pure ⟨_, rfl, by simp [ha]⟩
    | cons second items =>
      have hwords : commas ((b :: second :: items).map words) ++ .closing bracket :: rest =
          words b ++ .mark ',' (by decide) ::
            (commas ((second :: items).map words) ++ .closing bracket :: rest) := by
        simp [commas]
      rw [hwords]
      obtain ⟨n, rfl⟩ : ∃ m, n = m + 1 := ⟨n - 1, by simp at hn; omega⟩
      -- After any other item comes a comma, and the turn leaves the rest of the list.
      have hturn : Takes (listTurn bracket.closeKind item before)
          (Facing fin (words b ++ .mark ',' (by decide) ::
            (commas ((second :: items).map words) ++ .closing bracket :: rest)))
          (fun r => ∃ all, r = .more all ∧ ∃ a, all = a :: before ∧ shows a = means b)
          (Facing fin (commas ((second :: items).map words) ++ .closing bracket :: rest)) := by
        apply (hopen _).bind
        intro token htoken
        rw [if_neg htoken]
        apply (hb (.mark ',' _ :: _) rfl).bind
        intro a ha
        apply (takes_word rfl _).bind
        intro token htoken
        have hkind : token.kind = .punctuation := congrArg Prod.fst htoken
        have hcomma : token.is .punctuation "," = true := by
          rw [is_eq_decide, htoken]
          rfl
        rw [if_neg (by rw [hkind]; cases bracket <;> decide), if_pos hcomma]
        exact Takes.pure ⟨_, rfl, a, rfl, ha⟩
      apply hturn.more
      rintro _ ⟨a, rfl, ha⟩
      apply (ih hitems hleads (a :: before) n (by simp at hn ⊢; omega)).mono
      intro all hall
      rw [hall]
      simp [ha]

/-- A list of items through its closing bracket. -/
theorem takes_listUntil {item : Parse α} (words : β → List Word) (means : β → γ) (shows : α → γ)
    (bracket : Bracket) {items : List β}
    (hitem : ∀ b ∈ items, ∀ rest, EndsPhrase rest →
      Takes item (Facing fin (words b ++ rest)) (shows · = means b) (Facing fin rest))
    (hlead : ∀ b ∈ items, ∀ rest, (leadOf fin (words b ++ rest)).1 ≠ bracket.closeKind)
    {n : Nat} (hn : items.length < n) (rest : List Word) :
    Takes (listUntil n bracket.closeKind item)
      (Facing fin (commas (items.map words) ++ .closing bracket :: rest))
      (fun all => all.map shows = items.map means) (Facing fin rest) :=
  takes_list words means shows bracket items hitem hlead rest [] n hn

end Parse

end Stencil
