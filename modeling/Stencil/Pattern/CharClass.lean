import Stencil.Text.Blank
import Stencil.Text.Category
import Stencil.Pattern.Fold

/-!
Sets of characters in patterns.

A class is built from ranges and tables by the set operations that bracket expressions offer.  It is
kept as it is written, and membership is decided by going through it.
-/

namespace Stencil.Pattern

open Stencil.Text

/-- A set of characters. -/
inductive CharClass
  | none
  | range (low high : Nat)
  | table (ranges : CodeRanges)
  | blank
  | union (a b : CharClass)
  | inter (a b : CharClass)
  | diff (a b : CharClass)
  /-- The characters of exactly one of two classes. -/
  | symDiff (a b : CharClass)
  | compl (a : CharClass)
  /-- The characters equal to one of a class but for case. -/
  | folded (a : CharClass)

namespace CharClass

/-- Whether a class holds a character. -/
def has : CharClass → Char → Bool
  | .none, _ => false
  | .range low high, c => low ≤ c.toNat && c.toNat ≤ high
  | .table ranges, c => ranges.has c
  | .blank, c => isBlank c
  | .union a b, c => a.has c || b.has c
  | .inter a b, c => a.has c && b.has c
  | .diff a b, c => a.has c && !b.has c
  | .symDiff a b, c => a.has c != b.has c
  | .compl a, c => !a.has c
  | .folded a, c => (orbit c).any a.has

/-- The class of one character. -/
def single (c : Char) : CharClass := .range c.toNat c.toNat

/-- The class of the characters of a text. -/
def ofChars (cs : List Char) : CharClass :=
  cs.foldl (fun a c => .union a (single c)) .none

/-- All characters. -/
def any : CharClass := .compl .none

/-- The union of a list of classes. -/
def unions (classes : List CharClass) : CharClass :=
  classes.foldl .union .none

/-- The number of ranges a class is made of. -/
def weight : CharClass → Nat
  | .none => 0
  | .range .. => 1
  | .table ranges => ranges.length
  | .blank => 10
  | .union a b | .inter a b | .diff a b | .symDiff a b => a.weight + b.weight
  | .compl a | .folded a => a.weight + 1

/-! ## §1. Named classes -/

/-- Decimal digits. -/
def digit : CharClass := .table decimalDigits

/-- Characters of words. -/
def word : CharClass :=
  unions ([alphabeticRanges, nonspacingMarks, spacingMarks, enclosingMarks, decimalDigits,
    connectors].map .table ++ [.range 0x200C 0x200D])

/-- Digits of ASCII. -/
def asciiDigit : CharClass := .range 0x30 0x39

/-- Letters of ASCII. -/
def asciiLetter : CharClass := .union (.range 0x41 0x5A) (.range 0x61 0x7A)

/-- Blanks of ASCII. -/
def asciiBlank : CharClass := .union (.range 9 13) (single ' ')

/-- Characters of words of ASCII. -/
def asciiWord : CharClass := .union (.union asciiLetter asciiDigit) (single '_')

/-- The punctuation of ASCII. -/
def asciiPunctuation : CharClass :=
  .diff (.range 0x21 0x7E) (.union asciiLetter asciiDigit)

/-- The classes that a bracket expression may name, as in `[:alpha:]`. -/
def asciiNamed? : String → Option CharClass
  | "alnum" => some (.union asciiLetter asciiDigit)
  | "alpha" => some asciiLetter
  | "ascii" => some (.range 0 0x7F)
  | "blank" => some (ofChars [' ', '\t'])
  | "cntrl" => some (.union (.range 0 0x1F) (.range 0x7F 0x7F))
  | "digit" => some asciiDigit
  | "graph" => some (.range 0x21 0x7E)
  | "lower" => some (.range 0x61 0x7A)
  | "print" => some (.range 0x20 0x7E)
  | "punct" => some asciiPunctuation
  | "space" => some asciiBlank
  | "upper" => some (.range 0x41 0x5A)
  | "word" => some asciiWord
  | "xdigit" => some (unions [asciiDigit, .range 0x41 0x46, .range 0x61 0x66])
  | _ => Option.none

end CharClass

/-! ## §2. Properties -/

/-- A general category by its short or long name, in lower case and without separators. -/
def category? (name : String) : Option CharClass :=
  let tables (ts : List CodeRanges) : Option CharClass := some (.unions (ts.map .table))
  let letters := [upperLetters, lowerLetters, titleLetters, modifierLetters, otherLetters]
  let marks := [nonspacingMarks, spacingMarks, enclosingMarks]
  let numbers := [decimalDigits, letterNumbers, otherNumbers]
  let punctuation := [connectors, dashes, openingPunctuation, closingPunctuation, initialQuotes,
    finalQuotes, otherPunctuation]
  let symbols := [mathSymbols, currencySymbols, modifierSymbols, otherSymbols]
  let separators := [spaces, lineSeparators, paragraphSeparators]
  let assigned := letters ++ marks ++ numbers ++ punctuation ++ symbols ++ separators ++
    [controls, formats, privateUse]
  let unassigned : CharClass := .compl (.unions (assigned.map .table))
  match name with
  | "lu" | "uppercaseletter" => tables [upperLetters]
  | "ll" | "lowercaseletter" => tables [lowerLetters]
  | "lt" | "titlecaseletter" => tables [titleLetters]
  | "lc" | "casedletter" => tables [upperLetters, lowerLetters, titleLetters]
  | "lm" | "modifierletter" => tables [modifierLetters]
  | "lo" | "otherletter" => tables [otherLetters]
  | "l" | "letter" => tables letters
  | "mn" | "nonspacingmark" => tables [nonspacingMarks]
  | "mc" | "spacingmark" => tables [spacingMarks]
  | "me" | "enclosingmark" => tables [enclosingMarks]
  | "m" | "mark" | "combiningmark" => tables marks
  | "nd" | "decimalnumber" | "digit" => tables [decimalDigits]
  | "nl" | "letternumber" => tables [letterNumbers]
  | "no" | "othernumber" => tables [otherNumbers]
  | "n" | "number" => tables numbers
  | "pc" | "connectorpunctuation" => tables [connectors]
  | "pd" | "dashpunctuation" => tables [dashes]
  | "ps" | "openpunctuation" => tables [openingPunctuation]
  | "pe" | "closepunctuation" => tables [closingPunctuation]
  | "pi" | "initialpunctuation" => tables [initialQuotes]
  | "pf" | "finalpunctuation" => tables [finalQuotes]
  | "po" | "otherpunctuation" => tables [otherPunctuation]
  | "p" | "punctuation" | "punct" => tables punctuation
  | "sm" | "mathsymbol" => tables [mathSymbols]
  | "sc" | "currencysymbol" => tables [currencySymbols]
  | "sk" | "modifiersymbol" => tables [modifierSymbols]
  | "so" | "othersymbol" => tables [otherSymbols]
  | "s" | "symbol" => tables symbols
  | "zs" | "spaceseparator" => tables [spaces]
  | "zl" | "lineseparator" => tables [lineSeparators]
  | "zp" | "paragraphseparator" => tables [paragraphSeparators]
  | "z" | "separator" => tables separators
  | "cc" | "control" | "cntrl" => tables [controls]
  | "cf" | "format" => tables [formats]
  | "co" | "privateuse" => tables [privateUse]
  | "cn" | "unassigned" => some unassigned
  | "c" | "other" => some (.unions ([controls, formats, privateUse].map .table ++ [unassigned]))
  | "any" => some .any
  | "assigned" => some (.compl unassigned)
  | "ascii" => some (.range 0 0x7F)
  | _ => none

/-- A script by its name, in lower case. -/
def script? (name : String) : Option CharClass :=
  match name with
  | "latin" | "latn" => some (.table scriptLatin)
  | "greek" | "grek" => some (.table scriptGreek)
  | "cyrillic" | "cyrl" => some (.table scriptCyrillic)
  | "armenian" | "armn" => some (.table scriptArmenian)
  | "hebrew" | "hebr" => some (.table scriptHebrew)
  | "arabic" | "arab" => some (.table scriptArabic)
  | "devanagari" | "deva" => some (.table scriptDevanagari)
  | "thai" => some (.table scriptThai)
  | "georgian" | "geor" => some (.table scriptGeorgian)
  | "hangul" | "hang" => some (.table scriptHangul)
  | "hiragana" | "hira" => some (.table scriptHiragana)
  | "katakana" | "kana" => some (.table scriptKatakana)
  | "han" | "hani" => some (.table scriptHan)
  | "common" | "zyyy" => some (.table scriptCommon)
  | "inherited" | "zinh" | "qaai" => some (.table scriptInherited)
  | _ => none

/-- A property that characters have or have not, by its name. -/
def binaryProperty? (name : String) : Option CharClass :=
  match name with
  | "alphabetic" | "alpha" => some (.table alphabeticRanges)
  | "uppercase" | "upper" => some (.table uppercaseRanges)
  | "lowercase" | "lower" => some (.table lowercaseRanges)
  | "whitespace" | "wspace" | "space" => some .blank
  | "cased" => some (.table casedRanges)
  | "caseignorable" | "ci" => some (.table caseIgnorableRanges)
  | _ => none

/-- A name of a property without what does not count in it: case, blanks, hyphens, underscores and
a leading `is`. -/
def looseName (cs : List Char) : String :=
  let kept := (cs.filter fun c => !isBlank c && c != '-' && c != '_').map Char.toLower
  match kept with
  | 'i' :: 's' :: rest => .ofList (if rest.isEmpty then kept else rest)
  | _ => .ofList kept

/-- The class of a property given by its name alone, or by a property and a value. -/
def property? (cs : List Char) : Option CharClass :=
  let key := cs.takeWhile fun c => c != '=' && c != ':' && c != '!'
  match cs.drop key.length with
  | [] =>
    let name := looseName cs
    (binaryProperty? name).or ((category? name).or (script? name))
  | '!' :: '=' :: value => (valued? key value).map .compl
  | _ :: value => valued? key value
where
  /-- The class of the characters for which a property has a value. -/
  valued? (key value : List Char) : Option CharClass :=
    match looseName key with
    | "generalcategory" | "gc" => category? (looseName value)
    | "script" | "sc" | "scriptextensions" | "scx" => script? (looseName value)
    | _ => none

end Stencil.Pattern
