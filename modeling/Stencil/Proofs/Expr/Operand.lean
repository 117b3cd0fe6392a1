import Stencil.Proofs.Expr.Reading

/-!
Reading operands.

If the phrases inside an operand are read, so is the operand: its arguments, its items and entries,
and the links that go on with it.  An operand is read from left to right although its tree leans the
other way, so the statement about operands carries along what is done with the links after them.
-/

namespace Stencil

open Stencil.Text Stencil.Token Parse

variable {fin : Ending}

/-! ## §1. First tokens -/

theorem Word.lead_of_startsOperand {word : Word} (h : word.startsOperand) :
    word.lead.1 ≠ .operator ∧ ∀ bracket : Bracket, word.lead.1 ≠ bracket.closeKind := by
  cases word with
  | name | number | quoted => exact ⟨nofun, by rintro ⟨⟩ <;> nofun⟩
  | opening bracket => cases bracket <;> exact ⟨nofun, by rintro ⟨⟩ <;> nofun⟩
  | dotted | binary | unary | is | mark | closing => cases h

theorem Operand.leadOf_words (operand : Operand) (rest : List Word) :
    (leadOf fin (operand.words ++ rest)).1 ≠ .operator ∧
      ∀ bracket : Bracket, (leadOf fin (operand.words ++ rest)).1 ≠ bracket.closeKind := by
  obtain ⟨word, words, hwords, hstarts⟩ := operand.startsOperand_words
  rw [hwords]
  exact Word.lead_of_startsOperand hstarts

/-- A phrase does not begin with a closing bracket. -/
theorem Phrase.leadOf_words (phrase : Phrase) (rest : List Word) (bracket : Bracket) :
    (leadOf fin (phrase.words ++ rest)).1 ≠ bracket.closeKind := by
  cases phrase with
  | operand operand => exact (operand.leadOf_words rest).2 bracket
  | unary op operand => cases bracket <;> nofun
  | binary op left right =>
    rw [Phrase.words, List.append_assoc]
    exact (left.leadOf_words _).2 bracket
  | test subject first second args =>
    rw [Phrase.words, List.append_assoc, List.append_assoc]
    exact (subject.leadOf_words _).2 bracket
  | conditional cond whenTrue whenFalse =>
    rw [Phrase.words, List.append_assoc, List.append_assoc]
    exact (cond.leadOf_words _).2 bracket

/-! ## §2. Arguments -/

/-- A phrase is read to its end, whatever it may be followed by. -/
def Phrase.Read (n : Nat) (phrase : Phrase) : Prop :=
  ∀ ⦃fin : Ending⦄ rest, EndsPhrase rest →
    Takes (Expr.parse n .any) (Facing fin (phrase.words ++ rest)) (·.unplaced = phrase.expr)
      (Facing fin rest)

/-- If a key is a phrase in parentheses, the phrase is read. -/
def Key.Read (n : Nat) (key : Key) : Prop :=
  ∀ inner, key = .group inner → inner.Read n

namespace Expr

variable {n : Nat}

/-- Phrases in brackets, after the opening bracket. -/
theorem takes_phrases {phrases : List Phrase} (hphrases : ∀ phrase ∈ phrases, phrase.Read n)
    (hn : phrases.length < n) (bracket : Bracket) (rest : List Word) :
    Takes (listUntil n bracket.closeKind (parse n .any))
      (Facing fin (commas (phrases.map Phrase.words) ++ .closing bracket :: rest))
      (fun es => es.map unplaced = phrases.map Phrase.expr) (Facing fin rest) :=
  takes_listUntil Phrase.words Phrase.expr unplaced bracket
    (fun phrase hphrase rest => hphrases phrase hphrase rest)
    (fun phrase _ rest => phrase.leadOf_words rest bracket) hn rest

/-- Arguments that are there. -/
theorem takes_parseArgs? {args : List Phrase} (hargs : ∀ arg ∈ args, arg.Read n)
    (hn : args.length < n) (rest : List Word) :
    Takes (parseArgs? n (parse n))
      (Facing fin (enclosed .parens (commas (args.map Phrase.words)) ++ rest))
      (fun r => ∃ es, r = some es ∧ es.map unplaced = args.map Phrase.expr) (Facing fin rest) := by
  rw [enclosed_append]
  apply (takes_accept (.opening .parens) rfl _).bind
  rintro _ rfl
  apply (takes_phrases hargs hn .parens rest).bind
  intro es hes
  exact Takes.pure ⟨es, rfl, hes⟩

/-- Arguments that are not there. -/
theorem takes_parseArgs?_none {rest : List Word} (h : leadOf fin rest ≠ (.parensOpen, "(")) :
    Takes (parseArgs? n (parse n)) (Facing fin rest) (· = none) (Facing fin rest) := by
  apply (takes_accept_of_ne h).bind
  rintro _ rfl
  exact Takes.pure rfl

/-! ## §3. Primary expressions -/

/-- A name that is no literal is a call if it has arguments. -/
theorem parseWord_of_free {word : String} (h : isLiteral word = false)
    (rec : Tightness → Parse Expr) (pos : Position) :
    parseWord n rec pos word = parseArgs? n rec >>= fun
      | some args => pure (.call pos word args)
      | none => pure (.name pos word) := by
  unfold parseWord
  -- Each of the four literals would make the word one of them.
  split
  · next hlower => simp [isLiteral, hlower] at h
  · next hlower => simp [isLiteral, hlower] at h
  · next hlower => simp [isLiteral, hlower] at h
  · next hlower => simp [isLiteral, hlower] at h
  · rfl

theorem takes_name (name : FreeWord) {rest : List Word} (h : leadOf fin rest ≠ (.parensOpen, "(")) :
    Takes (parsePrimary n (parse n)) (Facing fin (.name name.word :: rest))
      (·.unplaced = .name .start name.word.text) (Facing fin rest) := by
  apply (takes_word rfl rest).bind
  intro token htoken
  have hkind : token.kind = .name := congrArg Prod.fst htoken
  have hvalue : token.value = name.word.text := congrArg Prod.snd htoken
  simp only [hkind, hvalue, parseWord_of_free name.free]
  refine (takes_parseArgs?_none h).bind ?_
  rintro _ rfl
  exact Takes.pure rfl

theorem takes_call (name : FreeWord) {args : List Phrase} (hargs : ∀ arg ∈ args, arg.Read n)
    (hn : args.length < n) (rest : List Word) :
    Takes (parsePrimary n (parse n))
      (Facing fin (.name name.word :: (enclosed .parens (commas (args.map Phrase.words)) ++ rest)))
      (·.unplaced = .call .start name.word.text (args.map Phrase.expr)) (Facing fin rest) := by
  apply (takes_word rfl _).bind
  intro token htoken
  have hkind : token.kind = .name := congrArg Prod.fst htoken
  have hvalue : token.value = name.word.text := congrArg Prod.snd htoken
  simp only [hkind, hvalue, parseWord_of_free name.free]
  apply (takes_parseArgs? hargs hn rest).bind
  rintro _ ⟨es, rfl, hes⟩
  exact Takes.pure (by simp [unplaced, hes])

/-- A literal that is a word. -/
theorem takes_literal {word : PlainWord} {e : Position → Expr} {e' : Expr}
    (h : ∀ rec pos, parseWord n rec pos word.text = pure (e pos))
    (he : ∀ pos, (e pos).unplaced = e') (rest : List Word) :
    Takes (parsePrimary n (parse n)) (Facing fin (.name word :: rest)) (·.unplaced = e')
      (Facing fin rest) := by
  apply (takes_word rfl rest).bind
  intro token htoken
  have hkind : token.kind = .name := congrArg Prod.fst htoken
  have hvalue : token.value = word.text := congrArg Prod.snd htoken
  simp only [hkind, hvalue, h]
  exact Takes.pure (he _)

theorem takes_null (rest : List Word) :
    Takes (parsePrimary n (parse n)) (Facing fin (Operand.null.words ++ rest))
      (·.unplaced = .null .start) (Facing fin rest) := by
  refine takes_literal (e := .null) (fun rec pos => ?_) (fun _ => rfl) rest
  have hlower : "null".toLower = "null" := by decide +kernel
  simp only [parseWord, hlower]

theorem takes_bool (value : Bool) (rest : List Word) :
    Takes (parsePrimary n (parse n)) (Facing fin ((Operand.bool value).words ++ rest))
      (·.unplaced = .bool .start value) (Facing fin rest) := by
  cases value with
  | true =>
    refine takes_literal (e := (.bool · true)) (fun rec pos => ?_) (fun _ => rfl) rest
    have hlower : "true".toLower = "true" := by decide +kernel
    simp only [parseWord, hlower]
  | false =>
    refine takes_literal (e := (.bool · false)) (fun rec pos => ?_) (fun _ => rfl) rest
    have hlower : "false".toLower = "false" := by decide +kernel
    simp only [parseWord, hlower]

theorem takes_number (whole : Digits) (fraction : Option Digits) (rest : List Word) :
    Takes (parsePrimary n (parse n)) (Facing fin (.number whole fraction :: rest))
      (·.unplaced = .number .start (numberOf whole fraction)) (Facing fin rest) := by
  apply (takes_nextSolid (.number whole fraction :: rest)).bind
  intro token htoken
  have hkind : token.kind = .number := congrArg Prod.fst htoken
  have hvalue : token.value = whole.text := congrArg Prod.snd htoken
  simp only [hkind, hvalue]
  apply (takes_parseNumber _ whole fraction rest).mono
  rintro _ rfl
  rfl

/-- A quoted text, as an expression or as a key. -/
theorem takes_enclosed_string (hn : 2 ≤ n) (text : String) (rest : List Word) {token : Token}
    (htoken : token.shape = (Word.quoted text).lead) :
    Takes (parseEnclosed n (parse n) token) (· = othersOf fin (.quoted text :: rest))
      (·.unplaced = .string .start text) (Facing fin rest) := by
  have hkind : token.kind = .stringOpen := congrArg Prod.fst htoken
  obtain ⟨m, rfl⟩ : ∃ m, n = m + 2 := ⟨n - 2, by omega⟩
  simp only [parseEnclosed, hkind]
  exact takes_parseString m _ _ text rest

/-- A phrase in parentheses, as an expression or as a key. -/
theorem takes_enclosed_group {inner : Phrase} (hinner : inner.Read n) (rest : List Word)
    {token : Token} (htoken : token.shape = (Word.opening .parens).lead) :
    Takes (parseEnclosed n (parse n) token) (Facing fin (inner.words ++ .closing .parens :: rest))
      (·.unplaced = .group .start inner.expr) (Facing fin rest) := by
  have hkind : token.kind = .parensOpen := congrArg Prod.fst htoken
  simp only [parseEnclosed, hkind]
  apply (hinner (.closing .parens :: rest) rfl).bind
  intro e he
  refine (takes_expect rfl rfl rest).bind fun _ _ => ?_
  exact Takes.pure (by rw [unplaced, he])

theorem takes_string (hn : 2 ≤ n) (text : String) (rest : List Word) :
    Takes (parsePrimary n (parse n)) (Facing fin (.quoted text :: rest))
      (·.unplaced = .string .start text) (Facing fin rest) := by
  apply (takes_nextSolid (.quoted text :: rest)).bind
  intro token htoken
  have hkind : token.kind = .stringOpen := congrArg Prod.fst htoken
  simp only [hkind]
  exact takes_enclosed_string hn text rest htoken

theorem takes_group {inner : Phrase} (hinner : inner.Read n) (rest : List Word) :
    Takes (parsePrimary n (parse n)) (Facing fin (enclosed .parens inner.words ++ rest))
      (·.unplaced = .group .start inner.expr) (Facing fin rest) := by
  rw [enclosed_append]
  apply (takes_word rfl _).bind
  intro token htoken
  have hkind : token.kind = .parensOpen := congrArg Prod.fst htoken
  simp only [hkind]
  exact takes_enclosed_group hinner rest htoken

theorem takes_array {items : List Phrase} (hitems : ∀ item ∈ items, item.Read n)
    (hn : items.length < n) (rest : List Word) :
    Takes (parsePrimary n (parse n))
      (Facing fin (enclosed .array (commas (items.map Phrase.words)) ++ rest))
      (·.unplaced = .array .start (items.map Phrase.expr)) (Facing fin rest) := by
  rw [enclosed_append]
  apply (takes_word rfl _).bind
  intro token htoken
  have hkind : token.kind = .arrayOpen := congrArg Prod.fst htoken
  simp only [hkind]
  apply (takes_phrases hitems hn .array rest).bind
  intro es hes
  exact Takes.pure (by simp [unplaced, hes])

/-! ## §4. Hashes -/

/-- A key is read to its end, and so is the phrase after it. -/
theorem takes_parseEntry {entry : Key × Phrase} (hn : 2 ≤ n) (hkey : entry.1.Read n)
    (hvalue : entry.2.Read n) {rest : List Word} (hrest : EndsPhrase rest) :
    Takes (parseEntry n (parse n)) (Facing fin (Phrase.wordsOfEntry entry ++ rest))
      (unplacedEntry · = Phrase.exprOfEntry entry) (Facing fin rest) := by
  obtain ⟨key, value⟩ := entry
  -- What is left of the entry once its key is read.
  have hentry : ∀ pos e, e.unplaced = key.expr → Takes (do
      let _ ← expectValue .punctuation ":"
      let value ← parse n .any
      Pure.pure (⟨pos, e, value⟩ : Entry Expr))
      (Facing fin (.mark ':' (by decide) :: (value.words ++ rest)))
      (unplacedEntry · = Phrase.exprOfEntry (key, value)) (Facing fin rest) := by
    intro pos e he
    apply (takes_expectValue (.mark ':' (by decide)) rfl _).bind
    intro _ _
    apply (hvalue rest hrest).bind
    intro e' he'
    exact Takes.pure (by rw [unplacedEntry, he, he', Phrase.exprOfEntry])
  rw [Phrase.wordsOfEntry, List.append_assoc, List.cons_append]
  cases key with
  | string text =>
    apply (takes_nextSolid _).bind
    intro token htoken
    have hkind : token.kind = .stringOpen := congrArg Prod.fst htoken
    simp only [hkind]
    exact (takes_enclosed_string hn text _ htoken).bind (hentry token.position)
  | number whole fraction =>
    apply (takes_nextSolid _).bind
    intro token htoken
    have hkind : token.kind = .number := congrArg Prod.fst htoken
    have hvalue : token.value = whole.text := congrArg Prod.snd htoken
    simp only [hkind, hvalue]
    apply (takes_parseNumber _ whole fraction _).bind
    rintro _ rfl
    exact hentry token.position _ rfl
  | group inner =>
    rw [Key.words, enclosed_append]
    apply (takes_word rfl _).bind
    intro token htoken
    have hkind : token.kind = .parensOpen := congrArg Prod.fst htoken
    simp only [hkind]
    exact (takes_enclosed_group (hkey inner rfl) _ htoken).bind (hentry token.position)

theorem leadOf_wordsOfEntry (entry : Key × Phrase) (rest : List Word) (bracket : Bracket) :
    (leadOf fin (Phrase.wordsOfEntry entry ++ rest)).1 ≠ bracket.closeKind := by
  obtain ⟨key, value⟩ := entry
  cases key <;> cases bracket <;> nofun

theorem takes_hash {entries : List (Key × Phrase)} (hlength : 2 ≤ n)
    (hentries : ∀ entry ∈ entries, entry.1.Read n ∧ entry.2.Read n) (hn : entries.length < n)
    (rest : List Word) :
    Takes (parsePrimary n (parse n))
      (Facing fin (enclosed .hash (commas (entries.map Phrase.wordsOfEntry)) ++ rest))
      (·.unplaced = .hash .start (entries.map Phrase.exprOfEntry)) (Facing fin rest) := by
  rw [enclosed_append]
  apply (takes_word rfl _).bind
  intro token htoken
  have hkind : token.kind = .hashOpen := congrArg Prod.fst htoken
  simp only [hkind]
  -- An entry is compared by its key and its value, with the places of both left out.
  refine (takes_listUntil Phrase.wordsOfEntry Phrase.exprOfEntry unplacedEntry .hash
    (fun entry hentry _ => ?_) (fun entry _ rest => leadOf_wordsOfEntry entry rest .hash) hn
    rest).bind fun read hread => ?_
  · obtain ⟨hkey, hvalue⟩ := hentries entry hentry
    exact takes_parseEntry hlength hkey hvalue
  · exact Takes.pure (by simp [unplaced, hread])

end Expr

/-! ## §5. Operands -/

/-- Whether a word goes on with the operand before it. -/
def Word.continues : Word → Bool
  | .opening _ => true
  | .mark c _ => c == '.' || c == '|'
  | _ => false

/-- Whether an operand ends before these words. -/
def Separate (words : List Word) : Prop :=
  words.head?.all fun word => !word.continues

theorem EndsPhrase.separate {words : List Word} (h : EndsPhrase words) : Separate words := by
  rcases words with _ | ⟨word, words⟩
  · rfl
  · cases word with
    | mark c isMark =>
      have h : (c == ',' || c == ':') = true := h
      show (!(c == '.' || c == '|')) = true
      rw [Bool.or_eq_true, beq_iff_eq, beq_iff_eq] at h
      rcases h with rfl | rfl <;> decide
    | closing | name => rfl
    | _ => cases h

/-- After a phrase comes no operator and no second half of a conditional. -/
theorem EndsPhrase.leadOf {words : List Word} (h : EndsPhrase words) (fin : Ending) :
    (leadOf fin words).1 ≠ .operator ∧ leadOf fin words ≠ (.punctuation, "?") := by
  rcases words with _ | ⟨word, words⟩
  · rcases fin with ⟨⟨⟩, more⟩ <;> exact ⟨nofun, nofun⟩
  · cases word with
    | name => exact ⟨nofun, nofun⟩
    | mark c isMark =>
      have h : (c == ',' || c == ':') = true := h
      rw [Bool.or_eq_true, beq_iff_eq, beq_iff_eq] at h
      have hne : ∀ c : Char, c = ',' ∨ c = ':' → String.singleton c ≠ "?" := by
        rintro c (rfl | rfl) <;> decide
      exact ⟨nofun, fun hlead => hne c h (congrArg Prod.snd hlead)⟩
    | closing bracket => cases bracket <;> exact ⟨nofun, nofun⟩
    | _ => cases h

theorem Separate.leadOf {words : List Word} (h : Separate words) :
    leadOf fin words ≠ (.parensOpen, "(") ∧ leadOf fin words ≠ (.punctuation, ".") ∧
      (leadOf fin words).1 ≠ .arrayOpen ∧ leadOf fin words ≠ (.punctuation, "|") := by
  rcases words with _ | ⟨word, words⟩
  · rcases fin with ⟨⟨⟩, more⟩ <;> exact ⟨nofun, nofun, nofun, nofun⟩
  · cases word with
    | mark c isMark =>
      have h : (!(c == '.' || c == '|')) = true := h
      simp only [Bool.not_eq_true', Bool.or_eq_false_iff, beq_eq_false_iff_ne] at h
      -- As the token of a mark holds the mark, it differs where the mark does.
      have hmark : ∀ d : Char, c ≠ d → Stencil.leadOf fin (.mark c isMark :: words) ≠
          (.punctuation, .singleton d) := by
        intro d hd hlead
        have hsingle : String.singleton c = .singleton d := congrArg Prod.snd hlead
        exact hd (by simpa using congrArg String.toList hsingle)
      exact ⟨nofun, hmark '.' h.1, nofun, hmark '|' h.2⟩
    | closing bracket => cases bracket <;> exact ⟨nofun, nofun, nofun, nofun⟩
    | opening => cases h
    | _ => exact ⟨nofun, nofun, nofun, nofun⟩

/-- An operand is read, and what is done with the links after it is done after it. -/
def Operand.Read (n : Nat) (operand : Operand) : Prop :=
  ∀ ⦃fin : Ending⦄ rest (Q : Expr → Prop) (P : List (TokenKind × String) → Prop) m,
    leadOf fin rest ≠ (.parensOpen, "(") →
    (∀ e, e.unplaced = operand.expr →
      Takes (iterate (Expr.parseLink n (Expr.parse n)) m e) (Facing fin rest) Q P) →
    Takes (Expr.parsePrimary n (Expr.parse n) >>=
        iterate (Expr.parseLink n (Expr.parse n)) (m + operand.links))
      (Facing fin (operand.words ++ rest)) Q P

namespace Expr

variable {n : Nat}

/-- Nothing more follows an operand. -/
theorem takes_noLink {rest : List Word} (h : Separate rest) (subject : Expr) :
    Takes (parseLink n (parse n) subject) (Facing fin rest)
      (fun r => ∃ e, r = .done e ∧ e = subject) (Facing fin rest) := by
  obtain ⟨-, hdot, harray, hbar⟩ := h.leadOf
  apply (takes_peek rest).bind
  intro token htoken
  have hkind : token.kind = (leadOf fin rest).1 := congrArg Prod.fst htoken
  -- None of the three tests for a link succeeds.
  rw [is_eq_decide, is_eq_decide, htoken, hkind, decide_eq_false hdot, decide_eq_false hbar,
    if_neg nofun, if_neg harray, if_neg nofun]
  exact Takes.pure ⟨_, rfl, rfl⟩

/-- What follows a dot is an attribute or a method call. -/
theorem takes_dot {subject : Expr} {words rest : List Word} {Q : Expr → Prop}
    (h : ∀ pos,
      Takes (parseAttribute n (parse n) pos subject) (Facing fin words) Q (Facing fin rest)) :
    Takes (parseLink n (parse n) subject) (Facing fin (.mark '.' (by decide) :: words))
      (fun r => ∃ e, r = .more e ∧ Q e) (Facing fin rest) := by
  apply (takes_peek _).bind
  intro token htoken
  have hdot : token.is .punctuation "." = true := by
    rw [is_eq_decide, htoken]
    rfl
  rw [if_pos hdot]
  apply (takes_word rfl _).bind
  intro _ _
  exact (h token.position).bind fun e he => Takes.pure ⟨e, rfl, he⟩

theorem takes_attribute (subject : Expr) (word : PlainWord) {rest : List Word}
    (h : leadOf fin rest ≠ (.parensOpen, "(")) :
    Takes (parseLink n (parse n) subject)
      (Facing fin (.mark '.' (by decide) :: .name word :: rest))
      (fun r => ∃ e, r = .more e ∧
        e.unplaced = .attribute .start subject.unplaced (.string .start word.text))
      (Facing fin rest) := by
  apply takes_dot
  intro pos
  apply (takes_expect rfl rfl rest).bind
  intro key hkey
  have hvalue : key.value = word.text := congrArg Prod.snd hkey
  refine (takes_parseArgs?_none h).bind ?_
  rintro _ rfl
  exact Takes.pure (by simp [unplaced, hvalue])

theorem takes_method (subject : Expr) (word : PlainWord) {args : List Phrase}
    (hargs : ∀ arg ∈ args, arg.Read n) (hn : args.length < n) (rest : List Word) :
    Takes (parseLink n (parse n) subject)
      (Facing fin (.mark '.' (by decide) :: .name word ::
        (enclosed .parens (commas (args.map Phrase.words)) ++ rest)))
      (fun r => ∃ e, r = .more e ∧ e.unplaced =
        .method .start subject.unplaced (.string .start word.text) (args.map Phrase.expr))
      (Facing fin rest) := by
  apply takes_dot
  intro pos
  apply (takes_expect rfl rfl _).bind
  intro key hkey
  have hvalue : key.value = word.text := congrArg Prod.snd hkey
  apply (takes_parseArgs? hargs hn rest).bind
  rintro _ ⟨es, rfl, hes⟩
  exact Takes.pure (by simp [unplaced, hvalue, hes])

theorem takes_subscript (subject : Expr) {key : Phrase} (hkey : key.Read n) (rest : List Word) :
    Takes (parseLink n (parse n) subject) (Facing fin (enclosed .array key.words ++ rest))
      (fun r => ∃ e, r = .more e ∧ e.unplaced = .attribute .start subject.unplaced key.expr)
      (Facing fin rest) := by
  rw [enclosed_append]
  apply (takes_peek _).bind
  intro token htoken
  have hkind : token.kind = .arrayOpen := congrArg Prod.fst htoken
  have hdot : token.is .punctuation "." = false := by
    rw [is_eq_decide, htoken]
    rfl
  rw [hdot, if_neg nofun, if_pos hkind]
  apply (takes_word rfl _).bind
  intro _ _
  apply (hkey (.closing .array :: rest) rfl).bind
  intro e he
  apply (takes_expect rfl rfl rest).bind
  intro _ _
  exact Takes.pure ⟨_, rfl, by rw [unplaced, he]⟩

/-- What follows a bar is a filter, with its arguments if it has any. -/
theorem takes_bar (subject : Expr) (name : PlainWord) {words rest : List Word} {es : List Expr}
    (h : Takes (parseArgs? n (parse n)) (Facing fin words)
      (fun args => (args.getD []).map unplaced = es) (Facing fin rest)) :
    Takes (parseLink n (parse n) subject)
      (Facing fin (.mark '|' (by decide) :: .name name :: words))
      (fun r => ∃ e, r = .more e ∧ e.unplaced =
        .filter .start name.text (subject.unplaced :: es)) (Facing fin rest) := by
  apply (takes_peek _).bind
  intro token htoken
  have hdot : token.is .punctuation "." = false := by
    rw [is_eq_decide, htoken]
    rfl
  have hbar : token.is .punctuation "|" = true := by
    rw [is_eq_decide, htoken]
    rfl
  have hkind : token.kind = .punctuation := congrArg Prod.fst htoken
  rw [hdot, if_neg nofun, hkind, if_neg nofun, if_pos hbar]
  apply (takes_word rfl _).bind
  intro _ _
  apply (takes_expect rfl rfl words).bind
  intro filter hfilter
  have hvalue : filter.value = name.text := congrArg Prod.snd hfilter
  apply h.bind
  intro args hargs
  exact Takes.pure ⟨_, rfl, by simp [unplaced, hvalue, hargs]⟩

end Expr

namespace Operand.Read

variable {n : Nat} {operand operand' : Operand}

/-- A primary expression is read if parsing one reads it. -/
theorem primary (hlinks : operand.links = 0)
    (h : ∀ {fin : Ending} rest, leadOf fin rest ≠ (.parensOpen, "(") →
      Takes (Expr.parsePrimary n (Expr.parse n)) (Facing fin (operand.words ++ rest))
        (·.unplaced = operand.expr) (Facing fin rest)) : operand.Read n := by
  intro fin rest Q P m hrest hthen
  rw [hlinks, Nat.add_zero]
  exact (h rest hrest).bind hthen

/-- An operand with one more link is read if the operand is and the link is after it. -/
theorem link (hoperand : operand.Read n) {words : List Word}
    (hwords : operand'.words = operand.words ++ words)
    (hlinks : operand'.links = operand.links + 1)
    (hlead : ∀ {fin : Ending} rest, leadOf fin (words ++ rest) ≠ (.parensOpen, "("))
    (h : ∀ {fin : Ending} e rest, e.unplaced = operand.expr → leadOf fin rest ≠ (.parensOpen, "(") →
      Takes (Expr.parseLink n (Expr.parse n) e) (Facing fin (words ++ rest))
        (fun r => ∃ e', r = .more e' ∧ e'.unplaced = operand'.expr) (Facing fin rest)) :
    operand'.Read n := by
  intro fin rest Q P m hrest hthen
  -- The link takes a turn that the operand does not need, so it is there to be taken after it.
  have hcount : m + operand'.links = m + 1 + operand.links := by omega
  rw [hwords, List.append_assoc, hcount]
  exact hoperand (words ++ rest) Q P (m + 1) (hlead rest)
    fun e he => (h e rest he hrest).more hthen

/-- An operand is read by itself if nothing goes on with it. -/
theorem takes (h : operand.Read n) (hn : operand.links < n) {rest : List Word}
    (hrest : Separate rest) :
    Takes (Expr.parseOperand n (Expr.parse n)) (Facing fin (operand.words ++ rest))
      (·.unplaced = operand.expr) (Facing fin rest) := by
  apply (takes_peek _).bind
  intro token htoken
  have hkind : token.kind = (leadOf fin (operand.words ++ rest)).1 := congrArg Prod.fst htoken
  rw [hkind, if_neg (operand.leadOf_words rest).1]
  -- One turn is left after the links, and it finds that nothing more follows.
  obtain ⟨m, hm⟩ : ∃ m, n = m + 1 + operand.links := ⟨n - 1 - operand.links, by omega⟩
  have hthen : ∀ e, e.unplaced = operand.expr →
      Takes (iterate (Expr.parseLink n (Expr.parse n)) (m + 1) e) (Facing fin rest)
        (·.unplaced = operand.expr) (Facing fin rest) := by
    intro e he
    refine Takes.done ((Expr.takes_noLink hrest e).mono ?_)
    rintro _ ⟨e', rfl, rfl⟩
    exact ⟨e', rfl, he⟩
  have hall := h rest _ _ (m + 1) hrest.leadOf.1 hthen
  rw [← hm] at hall
  exact hall

end Operand.Read

end Stencil
