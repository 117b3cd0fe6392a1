import Stencil.Proofs.Expr.Word
import Stencil.Proofs.Token.Progress

/-!
The tokens of words.

The lexer makes of every word the tokens it should, and of words in a row the tokens of each with a
blank before them, in a print as well as in a tag.  Steps are chained with their places left out:
`Lexes` says that lexing gets from one text to another and which tokens it leaves behind.
-/

namespace Stencil

open Stencil.Text Stencil.Token

/-! ## §1. Chains of steps -/

/-- Lexing gets from one text to another, in these regions each, and leaves tokens of these shapes
behind.  Nothing is trimmed on the way. -/
def Lexes (cs : List Char) (regions : List Region) (shapes : List (TokenKind × String))
    (cs' : List Char) (regions' : List Region) : Prop :=
  ∀ position, ∃ position' tokens,
    Scan.Yields ⟨cs, position, regions, false⟩ tokens ⟨cs', position', regions', false⟩ ∧
      tokens.map Token.shape = shapes

namespace Lexes

variable {cs cs' cs'' : List Char} {rs rs' rs'' : List Region}
  {ks ks' : List (TokenKind × String)}

theorem refl (cs : List Char) (rs : List Region) : Lexes cs rs [] cs rs :=
  fun position => ⟨position, [], .refl _, rfl⟩

theorem trans (h : Lexes cs rs ks cs' rs') (h' : Lexes cs' rs' ks' cs'' rs'') :
    Lexes cs rs (ks ++ ks') cs'' rs'' := by
  intro position
  obtain ⟨position', tokens, hyields, rfl⟩ := h position
  obtain ⟨position'', tokens', hyields', rfl⟩ := h' position'
  exact ⟨position'', tokens ++ tokens', hyields.trans hyields', List.map_append⟩

/-- A step that emits a token. -/
theorem emit (span : List Char) {kind : TokenKind} {value : String}
    (h : ∀ position, Scan.next ⟨span ++ cs', position, rs, false⟩ =
      Scan.emit ⟨span ++ cs', position, rs, false⟩ kind value span.length rs') :
    Lexes (span ++ cs') rs [(kind, value)] cs' rs' := by
  intro position
  refine ⟨position.past span, [⟨kind, value, position⟩], ?_, rfl⟩
  have hnext := h position
  simp only [Scan.emit, Scan.move, List.take_left, List.drop_left] at hnext
  exact .step hnext (.refl _)

/-- A step that emits a token of the value it takes. -/
theorem take (span : List Char) {kind : TokenKind}
    (h : ∀ position, Scan.next ⟨span ++ cs', position, rs, false⟩ =
      Scan.take ⟨span ++ cs', position, rs, false⟩ kind span.length rs') :
    Lexes (span ++ cs') rs [(kind, .ofList span)] cs' rs' := by
  apply emit span
  intro position
  rw [h position, Scan.take, List.take_left]

end Lexes

/-! ## §2. Steps inside code -/

variable {fence : Fence} {brackets : List Bracket} {outer : List Region} {cs : List Char}

@[simp] theorem Fence.brackets_region : (fence.region brackets).brackets = brackets := by
  cases fence <;> rfl

theorem next_region (position : Position) (trims : Bool) :
    Scan.next ⟨cs, position, fence.region brackets :: outer, trims⟩ =
      Scan.nextInside ⟨cs, position, fence.region brackets :: outer, trims⟩
        (fence.region brackets) outer := by
  cases fence <;> rfl

/-- Whether a text before a space cannot be taken for a blank or for the end of its region. -/
def standsApart : List Char → Bool
  | [] => false
  | c :: cs => !isBlank c && (cs.isEmpty || c != '}' && c != '%' && c != '-')

theorem standsApart_of_isNameChar {c : Char} (hc : isNameChar c = true) (ds : List Char) :
    standsApart (c :: ds) := by
  have hprint : c ≠ '}' := ne_of_isNameChar hc (by decide)
  have htag : c ≠ '%' := ne_of_isNameChar hc (by decide)
  have htrim : c ≠ '-' := ne_of_isNameChar hc (by decide)
  simp [standsApart, isBlank_of_isNameChar hc, hprint, htag, htrim]

theorem standsApart_mark {c : Char} (hc : c ∈ punctuation) (ds : List Char) :
    standsApart (c :: ds) := by
  have hmarks : (punctuation.all fun c =>
      !isBlank c && (c != '}' && c != '%' && c != '-')) = true := by decide
  have hmark := List.all_eq_true.mp hmarks c hc
  simp only [Bool.and_eq_true] at hmark
  simp [standsApart, hmark]

theorem closing?_of_standsApart {ds : List Char} (h : standsApart ds) :
    (fence.region brackets).closing? (ds ++ ' ' :: cs) = none := by
  rcases ds with _ | ⟨c, _ | ⟨d, ds⟩⟩
  · cases h
  · -- A single character is followed by a space, and a delimiter has two without one.
    cases fence <;> cases brackets <;>
      simp [Fence.region, Region.closing?, Region.delimiter?, Region.brackets]
  · simp only [standsApart, List.isEmpty_cons, Bool.false_or, Bool.and_eq_true, bne_iff_ne] at h
    obtain ⟨-, ⟨hprint, htag⟩, htrim⟩ := h
    cases fence <;> cases brackets <;>
      simp [Fence.region, Region.closing?, Region.delimiter?, Region.brackets, hprint.symm,
        htag.symm, htrim.symm]

theorem unbalanced?_of_standsApart {ds : List Char} (h : standsApart ds) :
    (fence.region brackets).unbalanced? (ds ++ ' ' :: cs) = none := by
  rcases ds with _ | ⟨c, _ | ⟨d, ds⟩⟩
  · cases h
  · cases fence <;> cases brackets <;>
      simp [Fence.region, Region.unbalanced?, Region.delimiter?, Region.brackets]
  · simp only [standsApart, List.isEmpty_cons, Bool.false_or, Bool.and_eq_true, bne_iff_ne] at h
    obtain ⟨-, ⟨hprint, htag⟩, -⟩ := h
    cases fence <;> cases brackets <;>
      simp [Fence.region, Region.unbalanced?, Region.delimiter?, Region.brackets, hprint.symm,
        htag.symm]

/-- A step inside code at an operator. -/
theorem next_of_operator {ds : List Char} (h : standsApart ds) {n : Nat}
    (hn : operatorLength (ds ++ ' ' :: cs) = some n) (position : Position) :
    Scan.next ⟨ds ++ ' ' :: cs, position, fence.region brackets :: outer, false⟩ =
      Scan.emit ⟨ds ++ ' ' :: cs, position, fence.region brackets :: outer, false⟩ .operator
        (operatorValue ((ds ++ ' ' :: cs).take n)) n (fence.region brackets :: outer) := by
  have hclosing : (fence.region brackets).closing? (ds ++ ' ' :: cs) = none :=
    closing?_of_standsApart h
  have hunbalanced : (fence.region brackets).unbalanced? (ds ++ ' ' :: cs) = none :=
    unbalanced?_of_standsApart h
  cases ds with
  | nil => cases h
  | cons c ds =>
    simp only [standsApart, Bool.and_eq_true, Bool.not_eq_true'] at h
    rw [List.cons_append] at hclosing hunbalanced hn ⊢
    rw [next_region]
    simp only [Scan.nextInside, h.1, hclosing, hunbalanced, hn]
    rfl

/-- A step inside code at anything else that stands apart. -/
theorem next_of_plain {c : Char} {ds : List Char} (h : standsApart (c :: ds))
    (hnone : operatorLength (c :: ds ++ ' ' :: cs) = none) (position : Position) :
    Scan.next ⟨c :: ds ++ ' ' :: cs, position, fence.region brackets :: outer, false⟩ =
      Scan.nextPlain ⟨c :: ds ++ ' ' :: cs, position, fence.region brackets :: outer, false⟩ c
        (fence.region brackets) outer := by
  have hclosing : (fence.region brackets).closing? (c :: ds ++ ' ' :: cs) = none :=
    closing?_of_standsApart h
  have hunbalanced : (fence.region brackets).unbalanced? (c :: ds ++ ' ' :: cs) = none :=
    unbalanced?_of_standsApart h
  simp only [standsApart, Bool.and_eq_true, Bool.not_eq_true'] at h
  rw [List.cons_append] at hclosing hunbalanced hnone ⊢
  rw [next_region]
  simp only [Scan.nextInside, h.1, hclosing, hunbalanced, hnone]
  rfl

/-! ## §3. Blanks, operators, names and numbers -/

theorem lexes_blank {c : Char} (hc : isBlank c = false) :
    Lexes (' ' :: c :: cs) (fence.region brackets :: outer) [blankShape] (c :: cs)
      (fence.region brackets :: outer) := by
  apply Lexes.take [' ']
  intro position
  have hspace : isBlank ' ' = true := rfl
  simp [next_region, Scan.nextInside, hspace, hc]

/-- An operator that is as long as its spelling. -/
theorem lexes_operator {text : String} (h : standsApart text.toList)
    (hlength : operatorLength (text.toList ++ ' ' :: cs) = some text.toList.length)
    (hvalue : operatorValue text.toList = text) :
    Lexes (text.toList ++ ' ' :: cs) (fence.region brackets :: outer) [(.operator, text)]
      (' ' :: cs) (fence.region brackets :: outer) := by
  apply Lexes.emit text.toList
  intro position
  rw [next_of_operator h hlength, List.take_left, hvalue]

/-- Characters of a name are no brackets, quotes or marks. -/
theorem nextPlain_of_isNameChar {c : Char} (hc : isNameChar c = true) (s : Scan) (region : Region) :
    s.nextPlain c region outer =
      if c.isDigit then s.take .number (s.rest.takeWhile Char.isDigit).length s.regions
      else s.take .name (s.rest.takeWhile isNameChar).length s.regions := by
  -- Each of the tests before those for digits and names fails.
  have hopened : Bracket.opened? c = none := by
    unfold Bracket.opened?
    split <;> first | rfl | exact absurd hc (by decide)
  have hclosed : Bracket.closed? c = none := by
    unfold Bracket.closed?
    split <;> first | rfl | exact absurd hc (by decide)
  have hquote : (c == '\'' || c == '"') = false := by
    have hsingle : c ≠ '\'' := ne_of_isNameChar hc (by decide)
    have hdouble : c ≠ '"' := ne_of_isNameChar hc (by decide)
    simp [hsingle, hdouble]
  have hmark : punctuation.contains c = false := by
    have hmarks : (punctuation.all fun d => !isNameChar d) = true := by decide
    rw [List.contains_eq_any_beq, List.any_eq_false]
    intro d hd
    have hmark := List.all_eq_true.mp hmarks d hd
    simpa using ne_of_isNameChar hc (by simpa using hmark)
  simp only [Scan.nextPlain, hopened, hclosed, hquote, hmark, hc]
  rfl

theorem nextPlain_of_isDigit {c : Char} (hc : c.isDigit = true) (s : Scan) (region : Region) :
    s.nextPlain c region outer =
      s.take .number (s.rest.takeWhile Char.isDigit).length s.regions := by
  rw [nextPlain_of_isNameChar (isNameChar_of_isDigit hc), if_pos hc]

/-- A run of a class is taken whole where another character follows. -/
theorem takeWhile_append {p : Char → Bool} {ds : List Char} (hds : ds.all p)
    (hcs : cs.head?.all fun c => !p c) : (ds ++ cs).takeWhile p = ds := by
  rw [List.takeWhile_append_of_pos (List.all_eq_true.mp hds)]
  cases cs with
  | nil => simp
  | cons c cs =>
    have hc : p c = false := by simpa using hcs
    simp [hc]

/-- A plain word is one token, whether or not it is the first part of a name with dots. -/
theorem lexes_name (word : PlainWord) (more : List PlainWord) :
    Lexes (word.text.toList ++ DottedName.tail more ++ ' ' :: cs) (fence.region brackets :: outer)
      [(.name, word.text)] (DottedName.tail more ++ ' ' :: cs)
      (fence.region brackets :: outer) := by
  suffices h : Lexes (word.text.toList ++ (DottedName.tail more ++ ' ' :: cs))
      (fence.region brackets :: outer) [(.name, .ofList word.text.toList)]
      (DottedName.tail more ++ ' ' :: cs) (fence.region brackets :: outer) by
    rwa [String.ofList_toList, ← List.append_assoc] at h
  apply Lexes.take word.text.toList
  intro position
  -- A name is the last thing that is tried, so first that it is no operator.
  obtain ⟨after, es, hafter, hrest⟩ := DottedName.exists_tail_append more cs
  have hoperator := operatorLength_of_isPlain word.plain hafter es
  have hend : isNameChar after = false := by rcases hafter with rfl | rfl <;> decide
  obtain ⟨c, ds, htext, hdigit, hnames⟩ := word.exists_cons
  have hc : isNameChar c = true := List.all_eq_true.mp hnames c List.mem_cons_self
  rw [← hrest, ← List.append_assoc] at hoperator
  rw [← List.append_assoc]
  rw [htext, List.cons_append] at hoperator ⊢
  rw [next_of_plain (standsApart_of_isNameChar hc _) hoperator]
  rw [nextPlain_of_isNameChar hc, if_neg (by simp [hdigit])]
  rw [← List.cons_append, List.append_assoc, hrest, takeWhile_append hnames (by simp [hend])]

/-- Digits are one token, whether a space or a point follows. -/
theorem lexes_digits (digits : Digits) (ds : List Char) (hds : ds.head?.all fun c => !c.isDigit) :
    Lexes (digits.text.toList ++ ds ++ ' ' :: cs) (fence.region brackets :: outer)
      [(.number, digits.text)] (ds ++ ' ' :: cs) (fence.region brackets :: outer) := by
  suffices h : Lexes (digits.text.toList ++ (ds ++ ' ' :: cs)) (fence.region brackets :: outer)
      [(.number, .ofList digits.text.toList)] (ds ++ ' ' :: cs) (fence.region brackets :: outer) by
    rwa [String.ofList_toList, ← List.append_assoc] at h
  apply Lexes.take digits.text.toList
  intro position
  obtain ⟨c, es, htext, hdigits⟩ := digits.exists_cons
  have hc : c.isDigit = true := List.all_eq_true.mp hdigits c List.mem_cons_self
  have happart := standsApart_of_isNameChar (isNameChar_of_isDigit hc) (es ++ ds)
  have hrest : (ds ++ ' ' :: cs).head?.all fun c => !c.isDigit := by
    cases ds with
    | nil => rfl
    | cons d ds => exact hds
  rw [htext, ← List.append_assoc, List.cons_append,
    next_of_plain happart (operatorLength_of_isDigit hc _), nextPlain_of_isDigit hc,
    ← List.cons_append, List.append_assoc, takeWhile_append hdigits hrest]

/-! ## §4. Marks, names with dots and brackets -/

theorem lexes_mark {c : Char} (hc : c ∈ punctuation) {ds : List Char}
    (hnone : operatorLength (c :: ds ++ ' ' :: cs) = none) :
    Lexes (c :: ds ++ ' ' :: cs) (fence.region brackets :: outer) [(.punctuation, .singleton c)]
      (ds ++ ' ' :: cs) (fence.region brackets :: outer) := by
  apply Lexes.take [c]
  intro position
  have hplain : ∀ s : Scan, s.nextPlain c (fence.region brackets) outer =
      s.take .punctuation 1 s.regions := by
    intro s
    simp only [punctuation, List.mem_cons, List.not_mem_nil, or_false] at hc
    rcases hc with rfl | rfl | rfl | rfl | rfl | rfl <;> rfl
  show Scan.next ⟨c :: ds ++ ' ' :: cs, _, _, _⟩ = _
  rw [next_of_plain (standsApart_mark hc ds) hnone, hplain]
  rfl

/-- The parts of a name after the first one, each with a point before it. -/
theorem lexes_tail (more : List PlainWord) :
    Lexes (DottedName.tail more ++ ' ' :: cs) (fence.region brackets :: outer)
      (more.flatMap fun part => [(.punctuation, "."), (.name, part.text)]) (' ' :: cs)
      (fence.region brackets :: outer) := by
  induction more with
  | nil => exact Lexes.refl _ _
  | cons part more ih =>
    obtain ⟨c, ds, htext, -, hnames⟩ := part.exists_cons
    have hc : isNameChar c = true := List.all_eq_true.mp hnames c List.mem_cons_self
    have hpoint : operatorLength
        ('.' :: (part.text.toList ++ DottedName.tail more) ++ ' ' :: cs) = none := by
      rw [htext]
      exact operatorLength_point hc _
    exact ((lexes_mark (by decide) hpoint).trans (lexes_name part more)).trans ih

theorem lexes_opening (bracket : Bracket) :
    Lexes (bracket.opener :: ' ' :: cs) (fence.region brackets :: outer)
      [(bracket.openKind, .singleton bracket.opener)] (' ' :: cs)
      (fence.region (bracket :: brackets) :: outer) := by
  apply Lexes.take [bracket.opener]
  intro position
  have happart : standsApart [bracket.opener] := by cases bracket <;> rfl
  have hnone : operatorLength (bracket.opener :: ' ' :: cs) = none := by cases bracket <;> rfl
  show Scan.next ⟨[bracket.opener] ++ ' ' :: cs, _, _, _⟩ = _
  rw [next_of_plain happart hnone]
  cases fence <;> cases bracket <;> rfl

theorem lexes_closing (bracket : Bracket) :
    Lexes (bracket.closer :: ' ' :: cs) (fence.region (bracket :: brackets) :: outer)
      [(bracket.closeKind, .singleton bracket.closer)] (' ' :: cs)
      (fence.region brackets :: outer) := by
  apply Lexes.take [bracket.closer]
  intro position
  have happart : standsApart [bracket.closer] := by cases bracket <;> rfl
  have hnone : operatorLength (bracket.closer :: ' ' :: cs) = none := by cases bracket <;> rfl
  show Scan.next ⟨[bracket.closer] ++ ' ' :: cs, _, _, _⟩ = _
  rw [next_of_plain happart hnone]
  cases fence <;> cases bracket <;> rfl

/-! ## §5. Quoted text -/

/-- Text between quotes of some kind, with a backslash before every character that means something
there. -/
def escaped (quote : Char) (cs : List Char) : List Char :=
  cs.flatMap fun c => if c = '\\' ∨ c = quote ∨ c = '#' then ['\\', c] else [c]

section Quotes

variable {quote : Char}

/-- Escaped text runs on as what comes after it does. -/
theorem stringRunLength_escaped {n : Nat} (h : stringRunLength quote cs = some n)
    (ds : List Char) :
    stringRunLength quote (escaped quote ds ++ cs) = some ((escaped quote ds).length + n) := by
  induction ds with
  | nil => simpa [escaped] using h
  | cons c ds ih =>
    rw [escaped, List.flatMap_cons, List.append_assoc]
    change stringRunLength quote (_ ++ (escaped quote ds ++ cs)) =
      some ((_ ++ escaped quote ds).length + n)
    split
    · -- Behind a backslash a character is passed over, whatever it is.
      simp [stringRunLength, ih]
      omega
    · next hc =>
      simp only [not_or] at hc
      obtain ⟨hslash, hquote, hhash⟩ := hc
      rw [List.singleton_append, stringRunLength]
      · simp [hquote, hhash, ih]
        omega
      · intro h
        exact absurd h hslash
      · intro _ _ h
        exact absurd h hslash

/-- Escaped text does not begin with what ends it. -/
theorem head?_escaped (hquote : quote ≠ '\\') {ds : List Char} (hds : ds ≠ []) (cs : List Char) :
    ∃ c es, escaped quote ds ++ cs = c :: es ∧ c ≠ quote ∧ c ≠ '#' := by
  cases ds with
  | nil => exact absurd rfl hds
  | cons d ds =>
    rw [escaped, List.flatMap_cons, List.append_assoc]
    split
    · exact ⟨'\\', _, rfl, hquote.symm, by decide⟩
    · next h =>
      simp only [not_or] at h
      exact ⟨d, _, rfl, h.2⟩

theorem lexes_stringOpen (hquote : quote = '"' ∨ quote = '\'') (ds : List Char) :
    Lexes (quote :: ds ++ ' ' :: cs) (fence.region brackets :: outer)
      [(.stringOpen, .singleton quote)] (ds ++ ' ' :: cs)
      (.string quote :: fence.region brackets :: outer) := by
  apply Lexes.take [quote]
  intro position
  have happart : standsApart (quote :: ds) := by
    rcases hquote with rfl | rfl <;> simp [standsApart, isBlank]
  have hnone : operatorLength (quote :: ds ++ ' ' :: cs) = none := by
    rcases hquote with rfl | rfl <;> exact operatorLength_of_head (by decide) _
  show Scan.next ⟨quote :: ds ++ ' ' :: cs, _, _, _⟩ = _
  rw [next_of_plain happart hnone]
  rcases hquote with rfl | rfl <;> rfl

theorem lexes_stringText (hquote : quote ≠ '\\') {ds : List Char} (hds : ds ≠ [])
    (hend : stringRunLength quote cs = some 0) (outer : List Region) :
    Lexes (escaped quote ds ++ cs) (.string quote :: outer)
      [(.stringText, .ofList (escaped quote ds))] cs (.string quote :: outer) := by
  apply Lexes.take (escaped quote ds)
  intro position
  have hrun := stringRunLength_escaped hend ds
  obtain ⟨c, es, hhead, hquote, hhash⟩ := head?_escaped hquote hds cs
  rw [hhead] at hrun ⊢
  simp only [Scan.next, Scan.nextInString, hrun]
  simp [hquote, hhash.symm]

theorem lexes_stringClose (outer : List Region) :
    Lexes (quote :: cs) (.string quote :: outer) [(.stringClose, .singleton quote)] cs outer :=
  Lexes.take [quote] fun _ => by simp [Scan.next, Scan.nextInString]

end Quotes

theorem lexes_quoted (text : String) :
    Lexes ('"' :: protect text.toList ++ '"' :: ' ' :: cs) (fence.region brackets :: outer)
      (Word.quoted text).shapes (' ' :: cs) (fence.region brackets :: outer) := by
  have hopen : Lexes ('"' :: (protect text.toList ++ ['"']) ++ ' ' :: cs)
      (fence.region brackets :: outer) [(.stringOpen, "\"")]
      (protect text.toList ++ ['"'] ++ ' ' :: cs) (.string '"' :: fence.region brackets :: outer) :=
    lexes_stringOpen (.inl rfl) _
  have hclose : Lexes ('"' :: ' ' :: cs) (.string '"' :: fence.region brackets :: outer)
      [(.stringClose, "\"")] (' ' :: cs) (fence.region brackets :: outer) := lexes_stringClose _
  rw [List.cons_append, List.append_assoc] at hopen
  -- The lexer makes no token of an empty text between quotes.
  by_cases htext : text = ""
  · subst htext
    exact hopen.trans hclose
  · have hne : text.toList ≠ [] := fun h => htext (String.toList_eq_nil_iff.mp h)
    have hrun : Lexes (protect text.toList ++ '"' :: ' ' :: cs)
        (.string '"' :: fence.region brackets :: outer)
        [(.stringText, .ofList (protect text.toList))] ('"' :: ' ' :: cs)
        (.string '"' :: fence.region brackets :: outer) := lexes_stringText (by decide) hne rfl _
    have hall := (hopen.trans hrun).trans hclose
    simpa [Word.shapes, htext] using hall

/-! ## §6. Words -/

namespace Word

/-- Every word stands apart. -/
theorem standsApart_spelling (word : Word) : standsApart word.spelling := by
  cases word with
  | name word =>
    obtain ⟨c, ds, htext, -, hnames⟩ := word.exists_cons
    rw [spelling, htext]
    exact standsApart_of_isNameChar (List.all_eq_true.mp hnames c List.mem_cons_self) ds
  | dotted joined =>
    obtain ⟨c, ds, htext, -, hnames⟩ := joined.first.exists_cons
    rw [spelling, joined.toList_text, htext]
    exact standsApart_of_isNameChar (List.all_eq_true.mp hnames c List.mem_cons_self) _
  | number whole fraction =>
    obtain ⟨c, ds, hwhole, hdigits⟩ := whole.exists_cons
    have hc : c.isDigit = true := List.all_eq_true.mp hdigits c List.mem_cons_self
    cases fraction <;> simp only [spelling, hwhole] <;>
      exact standsApart_of_isNameChar (isNameChar_of_isDigit hc) _
  | quoted text => simp [spelling, standsApart, isBlank]
  | binary op => cases op <;> rfl
  | unary op => cases op <;> rfl
  | is => rfl
  | mark c isMark => exact standsApart_mark isMark []
  | opening bracket => cases bracket <;> rfl
  | closing bracket => cases bracket <;> rfl

/-- What may follow an operator: no blank and no operator. -/
def Clear (cs : List Char) : Prop :=
  ∃ c ds, cs = c :: ds ∧ isBlank c = false ∧ operatorLength cs = none

/-- A word begins what it begins with: no blank and, unless it is an operator, none. -/
theorem clear_spelling {word : Word} (h : word.isOperator = false) (cs : List Char) :
    Clear (word.spelling ++ ' ' :: cs) := by
  have happart := standsApart_spelling word
  have hnone := operatorLength_spelling h cs
  cases hspelling : word.spelling with
  | nil =>
    rw [hspelling] at happart
    cases happart
  | cons c ds =>
    rw [hspelling] at happart hnone
    simp only [standsApart, Bool.and_eq_true, Bool.not_eq_true'] at happart
    exact ⟨c, ds ++ ' ' :: cs, rfl, happart.1, hnone⟩

/-- The lexer makes of a word what it should, if the word fits what is open before it. -/
theorem lexes {word : Word} {afterOperator afterOperator' : Bool}
    (h : step (brackets, afterOperator) word = some (brackets', afterOperator'))
    (hclear : word.isOperator → Clear cs) :
    Lexes (word.spelling ++ ' ' :: cs) (fence.region brackets :: outer) word.shapes (' ' :: cs)
      (fence.region brackets' :: outer) := by
  have happart := standsApart_spelling word
  -- A word other than a bracket leaves the region as it is.
  cases word with
  | name word =>
    cases h
    rw [spelling, ← List.append_nil word.text.toList]
    exact lexes_name word []
  | dotted joined =>
    cases h
    rw [spelling, joined.toList_text]
    exact (lexes_name joined.first joined.more).trans (lexes_tail joined.more)
  | number whole fraction =>
    cases h
    cases fraction with
    | none =>
      show Lexes (whole.text.toList ++ ' ' :: cs) _ _ _ _
      rw [← List.append_nil whole.text.toList]
      exact lexes_digits whole [] rfl
    | some fraction =>
      obtain ⟨c, ds, hfraction, hdigits⟩ := fraction.exists_cons
      have hc : c.isDigit = true := List.all_eq_true.mp hdigits c List.mem_cons_self
      have hpoint : operatorLength ('.' :: fraction.text.toList ++ ' ' :: cs) = none := by
        rw [hfraction]
        exact operatorLength_point (isNameChar_of_isDigit hc) _
      -- The whole digits, the point right after them, and the digits of the fraction.
      have hrest : Lexes (fraction.text.toList ++ ' ' :: cs) (fence.region brackets :: outer)
          [(.number, fraction.text)] (' ' :: cs) (fence.region brackets :: outer) := by
        rw [← List.append_nil fraction.text.toList]
        exact lexes_digits fraction [] rfl
      exact ((lexes_digits whole ('.' :: fraction.text.toList) rfl).trans
        (lexes_mark (by decide) hpoint)).trans hrest
  | quoted text =>
    cases h
    have hquoted : Lexes ('"' :: protect text.toList ++ '"' :: ' ' :: cs)
        (fence.region brackets :: outer) (quoted text).shapes (' ' :: cs)
        (fence.region brackets :: outer) :=
      lexes_quoted text
    simpa [spelling] using hquoted
  | binary op =>
    obtain rfl : brackets' = brackets := (of_step h).2.2 rfl
    exact lexes_operator happart (operatorLength_binary op cs) (operatorValue_binary op)
  | unary op =>
    obtain rfl : brackets' = brackets := (of_step h).2.2 rfl
    obtain ⟨c, ds, rfl, hblank, hnone⟩ := hclear rfl
    exact lexes_operator happart (operatorLength_unary op hblank hnone) (operatorValue_unary op)
  | is =>
    obtain rfl : brackets' = brackets := (of_step h).2.2 rfl
    obtain ⟨c, ds, rfl, hblank, hnone⟩ := hclear rfl
    have happart : standsApart "is".toList := by decide
    exact lexes_operator happart (operatorLength_is hblank hnone) (by decide)
  | mark c isMark =>
    cases h
    exact lexes_mark isMark (operatorLength_mark isMark cs)
  | opening bracket =>
    cases h
    exact lexes_opening bracket
  | closing bracket =>
    cases brackets with
    | nil => cases h
    | cons top brackets =>
      simp only [step] at h
      split at h
      · next htop =>
        cases h
        rw [htop]
        exact lexes_closing bracket
      · cases h

end Word

/-- The lexer makes of words in a row what it should. -/
theorem lexes_spell {words : List Word} {brackets brackets' : List Bracket}
    {afterOperator : Bool} {outer : List Region} {cs : List Char}
    (h : steps words (brackets, afterOperator) = some (brackets', false)) :
    Lexes (spell words ++ ' ' :: cs) (fence.region brackets :: outer) (shapesOf words) (' ' :: cs)
      (fence.region brackets' :: outer) := by
  induction words generalizing brackets afterOperator with
  | nil =>
    cases h
    exact Lexes.refl _ _
  | cons word words ih =>
    rw [steps_cons] at h
    obtain ⟨⟨top, isOperator⟩, hstep, hmore⟩ := Option.bind_eq_some_iff.mp h
    obtain ⟨ds, hds⟩ := exists_spell_append words cs
    -- After an operator comes another word, and it is no operator.
    have hclear : word.isOperator → Word.Clear ds := by
      intro hword
      have hop : isOperator = true := (Word.of_step hstep).1.trans hword
      subst hop
      cases words with
      | nil => cases hmore
      | cons next words =>
        rw [steps_cons] at hmore
        obtain ⟨after, hnext, -⟩ := Option.bind_eq_some_iff.mp hmore
        have hnot := (Word.of_step hnext).2.1 rfl
        obtain ⟨es, hes⟩ := exists_spell_append words cs
        rw [spell_cons, List.cons_append, List.cons_append, List.append_assoc, hes] at hds
        cases hds
        exact Word.clear_spelling hnot es
    have hblank : Lexes (' ' :: (word.spelling ++ ' ' :: ds)) (fence.region brackets :: outer)
        [blankShape] (word.spelling ++ ' ' :: ds) (fence.region brackets :: outer) := by
      have happart := Word.standsApart_spelling word
      cases hspelling : word.spelling with
      | nil =>
        rw [hspelling] at happart
        cases happart
      | cons c es =>
        rw [hspelling] at happart
        simp only [standsApart, Bool.and_eq_true, Bool.not_eq_true'] at happart
        exact lexes_blank happart.1
    have hrest := ih hmore
    rw [hds] at hrest
    rw [spell_cons, List.append_assoc, hds, shapesOf_cons]
    exact (hblank.trans (Word.lexes hstep hclear)).trans hrest

theorem lexes_opener (fence : Fence) (cs : List Char) :
    Lexes (fence.opener ++ ' ' :: cs) [] [fence.openShape] (' ' :: cs) [fence.region []] := by
  cases fence <;> exact Lexes.emit ['{', _] fun _ => rfl

theorem lexes_closer (fence : Fence) (cs : List Char) :
    Lexes (fence.closer ++ cs) [fence.region []] [fence.closeShape] cs [] := by
  cases fence <;> exact Lexes.take [_, '}'] fun _ => rfl

/-- Code is the tokens of its words between those of its delimiters. -/
theorem lexes_code (fence : Fence) {words : List Word}
    (h : ∀ cs, Lexes (spell words ++ ' ' :: cs) [fence.region []] (shapesOf words) (' ' :: cs)
      [fence.region []]) (cs : List Char) :
    Lexes (fence.opener ++ spell words ++ ' ' :: fence.closer ++ cs) []
      (fence.openShape :: shapesOf words ++ [blankShape, fence.closeShape]) cs [] := by
  obtain ⟨ds, hds⟩ := exists_spell_append words (fence.closer ++ cs)
  have hwords := h (fence.closer ++ cs)
  have hblank : Lexes (' ' :: (fence.closer ++ cs)) [fence.region []] [blankShape]
      (fence.closer ++ cs) [fence.region []] := by
    cases fence <;> exact lexes_blank (by decide)
  have hopen := lexes_opener fence ds
  rw [hds] at hwords
  have hall := (hopen.trans hwords).trans (hblank.trans (lexes_closer fence cs))
  rw [← hds] at hall
  simpa using hall

/-- The tokens of a source are those that lexing leaves behind on its way through it. -/
theorem Lexes.lex_eq {source : String} {ks : List (TokenKind × String)}
    (h : Lexes source.toList [] ks [] []) :
    (lex source).tokens.map Token.shape = ks ∧ (lex source).final.kind = .eof := by
  obtain ⟨position, tokens, hyields, hshapes⟩ := h .start
  obtain ⟨htokens, hfinal⟩ :=
    hyields.lexemes_eq rfl (source.toList.length + 1) (Nat.lt_succ_self _)
  refine ⟨?_, ?_⟩
  · rw [← htokens] at hshapes
    rw [lex, lexemes]
    exact hshapes
  · rw [lex, lexemes]
    exact congrArg Token.kind hfinal

/-- The tokens of a source that is a single print of words in a row. -/
theorem lex_printed {words : List Word} (h : steps words ([], false) = some ([], false)) :
    (lex (printed words)).tokens.map Token.shape =
        (.printOpen, "\x7b\x7b") :: shapesOf words ++ [blankShape, (.printClose, "\x7d\x7d")] ∧
      (lex (printed words)).final.kind = .eof := by
  apply Lexes.lex_eq
  have hcode := lexes_code .print (fun _ => lexes_spell h) []
  simpa [printed, Fence.opener, Fence.closer, Fence.openShape, Fence.closeShape] using hcode

end Stencil
