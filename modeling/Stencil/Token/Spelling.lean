import Stencil.Text.Blank
import Stencil.Text.Alphanumeric

/-!
How operators are spelt.

An operator is a symbol or a sequence of words with blanks between them.  At a given place the
longest spelling that matches is taken, and a spelling in words must end where a word ends, so that
a name may begin with one.
-/

namespace Stencil.Token

open Stencil.Text

/-- Operators written in symbols. -/
def symbolOperators : List String :=
  ["==", "!=", "<=", ">=", "<", ">", "+", "-", "~", "**", "*", "//", "/", "%", ".."]

/-- Operators written in words. -/
def wordOperators : List (List String) :=
  [["starts", "with"], ["ends", "with"], ["is", "not"], ["not", "in"], ["b-and"], ["b-xor"],
    ["b-or"], ["matches"], ["and"], ["or"], ["not"], ["in"], ["is"]]

/-- Characters that are tokens by themselves, without being operators or brackets. -/
def punctuation : List Char :=
  [',', '?', ':', '|', '.', '=']

/-- The number of characters a symbol takes at the head of a text, if it stands there. -/
def symbolLength (symbol : String) (cs : List Char) : Option Nat :=
  if symbol.toList.isPrefixOf cs then some symbol.toList.length else none

/-- Whether a text goes on with a character of a name. -/
def continuesName : List Char → Bool
  | [] => false
  | c :: _ => isNameChar c

/-- The number of characters a sequence of words takes at the head of a text, if it stands there:
each word after at least one blank, the last one not continued. -/
def wordsLength : List String → List Char → Option Nat
  | [], cs => if continuesName cs then none else some 0
  | word :: more, cs =>
    if word.toList.isPrefixOf cs then
      let rest := cs.drop word.toList.length
      let gap := if more.isEmpty then 0 else (rest.takeWhile isBlank).length
      if gap == 0 && !more.isEmpty then none
      else (wordsLength more (rest.drop gap)).map (word.toList.length + gap + ·)
    else none

/-- The length of the longest operator at the head of a text. -/
def operatorLength (cs : List Char) : Option Nat :=
  (symbolOperators.filterMap (symbolLength · cs) ++
    wordOperators.filterMap (wordsLength · cs)).max?

/-- The value of an operator token: its words joined by single spaces. -/
def operatorValue (span : List Char) : String :=
  if span.any isBlank then " ".intercalate ((words span).map String.ofList)
  else String.ofList span

end Stencil.Token
