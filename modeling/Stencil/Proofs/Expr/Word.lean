import Stencil.Proofs.Token.Operators
import Stencil.Token.Lexer

/-!
Words of expressions and tags.

An expression is written as a sequence of words, each after a single space, and so is a tag.  A word
is what a writer takes for one piece: a name, a name with dots in it, a number with its fraction, a
quoted text, an operator, a mark or a bracket.  The lexer makes one token of most words, but three
of a number with a fraction and of a quoted text, and of a name with dots as many as it has parts
and dots.

What a word becomes depends on two things outside of it.  A closing bracket must fit the innermost
bracket that is open, and an operator must not be followed by another one, since `not in` is a
single operator.  `Word.step` keeps track of both.
-/

namespace Stencil

open Stencil.Text Stencil.Token

/-! ## §1. Words and their tokens -/

/-- A word that can only be a name. -/
structure PlainWord where
  text : String
  plain : isPlain text

theorem PlainWord.exists_cons (word : PlainWord) :
    ∃ c ds, word.text.toList = c :: ds ∧ c.isDigit = false ∧ (c :: ds).all isNameChar := by
  have h := word.plain
  unfold isPlain at h
  split at h
  · cases h
  · next c ds htext =>
    simp only [Bool.and_eq_true, Bool.not_eq_true'] at h
    exact ⟨c, ds, htext, h.1.1, h.1.2⟩

/-- Plain words joined by dots. -/
structure DottedName where
  first : PlainWord
  more : List PlainWord

namespace DottedName

/-- A name with dots as one text. -/
def text (name : DottedName) : String :=
  name.more.foldl (fun joined part => joined ++ "." ++ part.text) name.first.text

/-- How parts of a name go on after the first one. -/
def tail (more : List PlainWord) : List Char :=
  more.flatMap fun part => '.' :: part.text.toList

theorem toList_text (name : DottedName) :
    name.text.toList = name.first.text.toList ++ tail name.more := by
  obtain ⟨first, more⟩ := name
  suffices h : ∀ joined : String,
      (more.foldl (fun joined part => joined ++ "." ++ part.text) joined).toList =
        joined.toList ++ tail more from h first.text
  induction more with
  | nil => intro joined; simp [tail]
  | cons part more ih => intro joined; simp [ih, tail]

/-- After the first part of a name comes a point or, if it is the only one, a space. -/
theorem exists_tail_append (more : List PlainWord) (cs : List Char) :
    ∃ after ds, (after = ' ' ∨ after = '.') ∧ tail more ++ ' ' :: cs = after :: ds := by
  cases more with
  | nil => exact ⟨_, _, .inl rfl, rfl⟩
  | cons part more => exact ⟨_, _, .inr rfl, rfl⟩

end DottedName

/-- A run of decimal digits. -/
structure Digits where
  text : String
  nonempty : text ≠ ""
  digits : text.toList.all Char.isDigit

theorem Digits.exists_cons (digits : Digits) :
    ∃ c ds, digits.text.toList = c :: ds ∧ (c :: ds).all Char.isDigit := by
  cases htext : digits.text.toList with
  | nil => exact absurd (String.toList_eq_nil_iff.mp htext) digits.nonempty
  | cons c ds => exact ⟨c, ds, rfl, htext ▸ digits.digits⟩

/-- A character of quoted text, behind a backslash where it would mean something else. -/
def protectChar (c : Char) : List Char :=
  if c = '\\' ∨ c = '"' ∨ c = '#' then ['\\', c] else [c]

/-- What stands between the quotes of a quoted text. -/
def protect (cs : List Char) : List Char :=
  cs.flatMap protectChar

/-- The character that opens a bracket. -/
def Bracket.opener : Bracket → Char
  | .parens => '('
  | .array => '['
  | .hash => '{'

/-- The character that closes a bracket. -/
def Bracket.closer : Bracket → Char
  | .parens => ')'
  | .array => ']'
  | .hash => '}'

/-- A word of an expression or of a tag. -/
inductive Word
  | name (word : PlainWord)
  | dotted (name : DottedName)
  | number (whole : Digits) (fraction : Option Digits)
  | quoted (text : String)
  | binary (op : BinaryOp)
  | unary (op : UnaryOp)
  /-- The word `is` of a test. -/
  | is
  | mark (c : Char) (isMark : c ∈ punctuation)
  | opening (bracket : Bracket)
  | closing (bracket : Bracket)

/-- What a parser looks at in a token: everything but its place. -/
def Token.shape (t : Token) : TokenKind × String :=
  (t.kind, t.value)

/-- The token that a space between two words becomes. -/
def blankShape : TokenKind × String :=
  (.whitespace, " ")

/-- What sets code off from literal text: the delimiters of a print or those of a tag. -/
inductive Fence
  | print
  | tag

namespace Fence

/-- The region between the delimiters. -/
def region : Fence → List Bracket → Region
  | .print, brackets => .print brackets
  | .tag, brackets => .tag brackets

/-- The delimiter that opens. -/
def opener : Fence → List Char
  | .print => ['{', '{']
  | .tag => ['{', '%']

/-- The delimiter that closes. -/
def closer : Fence → List Char
  | .print => ['}', '}']
  | .tag => ['%', '}']

/-- The token of the delimiter that opens. -/
def openShape : Fence → TokenKind × String
  | .print => (.printOpen, "\x7b\x7b")
  | .tag => (.tagOpen, "\x7b%")

/-- The token of the delimiter that closes. -/
def closeShape : Fence → TokenKind × String
  | .print => (.printClose, "\x7d\x7d")
  | .tag => (.tagClose, "%\x7d")

end Fence

namespace Word

/-- How a word is written. -/
def spelling : Word → List Char
  | .name word => word.text.toList
  | .dotted joined => joined.text.toList
  | .number whole none => whole.text.toList
  | .number whole (some fraction) => whole.text.toList ++ '.' :: fraction.text.toList
  | .quoted text => '"' :: protect text.toList ++ ['"']
  | .binary op => op.spelling.toList
  | .unary op => op.spelling.toList
  | .is => ['i', 's']
  | .mark c _ => [c]
  | .opening bracket => [bracket.opener]
  | .closing bracket => [bracket.closer]

/-- The tokens a word becomes. -/
def shapes : Word → List (TokenKind × String)
  | .name word => [(.name, word.text)]
  | .dotted joined =>
    (.name, joined.first.text) :: joined.more.flatMap fun part =>
      [(.punctuation, "."), (.name, part.text)]
  | .number whole none => [(.number, whole.text)]
  | .number whole (some fraction) =>
    [(.number, whole.text), (.punctuation, "."), (.number, fraction.text)]
  | .quoted text =>
    (.stringOpen, "\"") ::
      (if text = "" then [] else [(.stringText, .ofList (protect text.toList))]) ++
        [(.stringClose, "\"")]
  | .binary op => [(.operator, op.spelling)]
  | .unary op => [(.operator, op.spelling)]
  | .is => [(.operator, "is")]
  | .mark c _ => [(.punctuation, .singleton c)]
  | .opening bracket => [(bracket.openKind, .singleton bracket.opener)]
  | .closing bracket => [(bracket.closeKind, .singleton bracket.closer)]

end Word

/-! ## §2. What words leave open -/

namespace Word

/-- Whether a word is an operator. -/
def isOperator : Word → Bool
  | .binary _ | .unary _ | .is => true
  | _ => false

/-- No word but an operator begins with one. -/
theorem operatorLength_spelling {word : Word} (h : word.isOperator = false) (cs : List Char) :
    operatorLength (word.spelling ++ ' ' :: cs) = none := by
  cases word with
  | name word => exact operatorLength_of_isPlain word.plain (.inl rfl) cs
  | dotted joined =>
    rw [spelling, joined.toList_text, List.append_assoc]
    obtain ⟨after, ds, hafter, hcs⟩ := DottedName.exists_tail_append joined.more cs
    rw [hcs]
    exact operatorLength_of_isPlain joined.first.plain hafter ds
  | number whole fraction =>
    obtain ⟨c, ds, hwhole, hdigits⟩ := whole.exists_cons
    have hc : c.isDigit = true := List.all_eq_true.mp hdigits c List.mem_cons_self
    -- With a fraction or without one, the word begins with the same digit.
    cases fraction <;> simp only [spelling, hwhole] <;> exact operatorLength_of_isDigit hc _
  | quoted text => exact operatorLength_of_head (by decide) _
  | binary => cases h
  | unary => cases h
  | is => cases h
  | mark c isMark => exact operatorLength_mark isMark cs
  | opening bracket => cases bracket <;> rfl
  | closing bracket => cases bracket <;> rfl

/-- What the words so far leave open: the brackets, and whether an operator came last.  There is
none after a bracket that does not fit and after two operators in a row. -/
def step : List Bracket × Bool → Word → Option (List Bracket × Bool)
  | (brackets, _), .opening bracket => some (bracket :: brackets, false)
  | (top :: brackets, _), .closing bracket =>
    if top = bracket then some (brackets, false) else none
  | ([], _), .closing _ => none
  | (brackets, afterOperator), word =>
    if word.isOperator && afterOperator then none else some (brackets, word.isOperator)

/-- A step remembers whether the word was an operator; it is none after another one, and it leaves
the brackets alone if it is one. -/
theorem of_step {before after : List Bracket × Bool} {word : Word}
    (h : step before word = some after) :
    after.2 = word.isOperator ∧ (before.2 = true → word.isOperator = false) ∧
      (word.isOperator = true → after.1 = before.1) := by
  unfold step at h
  -- An opening bracket, a closing one, a closing one too many, and all other words.
  split at h
  · cases h
    exact ⟨rfl, fun _ => rfl, nofun⟩
  · split at h
    · cases h
      exact ⟨rfl, fun _ => rfl, nofun⟩
    · cases h
  · cases h
  · split at h
    · cases h
    · next hop =>
      cases h
      refine ⟨rfl, fun hafter => ?_, fun _ => rfl⟩
      dsimp only at hafter
      simpa [hafter] using hop

end Word

/-! ## §3. Words in a row -/

/-- Words in a row, each after a single space. -/
def spell (words : List Word) : List Char :=
  words.flatMap fun word => ' ' :: word.spelling

/-- The tokens of words in a row. -/
def shapesOf (words : List Word) : List (TokenKind × String) :=
  words.flatMap fun word => blankShape :: word.shapes

/-- What words in a row leave open. -/
def steps (words : List Word) (before : List Bracket × Bool) : Option (List Bracket × Bool) :=
  words.foldlM Word.step before

/-- Words in a row between the delimiters of a print. -/
def printed (words : List Word) : String :=
  .ofList ('{' :: '{' :: spell words ++ [' ', '}', '}'])

@[simp] theorem spell_nil : spell [] = [] := rfl

@[simp] theorem spell_cons (word : Word) (words : List Word) :
    spell (word :: words) = ' ' :: word.spelling ++ spell words := rfl

/-- Before words in a row, and before the space after them, there is a space. -/
theorem exists_spell_append (words : List Word) (cs : List Char) :
    ∃ ds, spell words ++ ' ' :: cs = ' ' :: ds := by
  cases words with
  | nil => exact ⟨cs, rfl⟩
  | cons word words => exact ⟨_, rfl⟩

@[simp] theorem shapesOf_nil : shapesOf [] = [] := rfl

@[simp] theorem shapesOf_cons (word : Word) (words : List Word) :
    shapesOf (word :: words) = blankShape :: word.shapes ++ shapesOf words := rfl

@[simp] theorem steps_nil (before : List Bracket × Bool) : steps [] before = some before := rfl

@[simp] theorem steps_cons (word : Word) (words : List Word) (before : List Bracket × Bool) :
    steps (word :: words) before = (Word.step before word).bind (steps words) :=
  List.foldlM_cons

@[simp] theorem steps_append (words words' : List Word) (before : List Bracket × Bool) :
    steps (words ++ words') before = (steps words before).bind (steps words') :=
  List.foldlM_append

end Stencil
