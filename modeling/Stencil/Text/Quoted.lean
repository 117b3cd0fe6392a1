import Stencil.Text.Category

/-!
Quoted text.

A description of a program's state shows texts between double quotes.  Quotes, backslashes and line
ends are written with a backslash, and so is, by its number, every character that cannot be seen or
that would join the one before it.
-/

namespace Stencil.Text

/-- Characters that join the one before them without being nonspacing or enclosing marks. -/
def otherExtendRanges : CodeRanges :=
  [(2494, 2494), (2519, 2519), (2878, 2878), (2903, 2903), (3006, 3006), (3031, 3031),
    (3264, 3264), (3266, 3266), (3271, 3272), (3274, 3275), (3285, 3286), (3390, 3390),
    (3415, 3415), (3535, 3535), (3551, 3551), (5909, 5909), (5940, 5940), (6965, 6965),
    (6971, 6971), (6973, 6973), (6979, 6980), (7082, 7082), (7154, 7155), (8204, 8204),
    (12334, 12335), (43347, 43347), (43456, 43456), (65438, 65439), (70080, 70080),
    (70197, 70197), (70462, 70462), (70477, 70477), (70487, 70487), (70584, 70584),
    (70594, 70594), (70597, 70597), (70599, 70601), (70607, 70607), (70832, 70832),
    (70845, 70845), (71087, 71087), (71350, 71350), (71984, 71984), (71997, 71997),
    (73537, 73537), (94192, 94193), (119141, 119142), (119149, 119154), (917536, 917631)]

/-- The characters that stand for themselves: letters, numbers, punctuation, symbols, spacing marks
and the common space. -/
def visibleTables : List CodeRanges :=
  [[(0x20, 0x20)], lowerLetters, upperLetters, otherLetters, titleLetters, modifierLetters,
    spacingMarks, decimalDigits, letterNumbers, otherNumbers, connectors, dashes,
    openingPunctuation, closingPunctuation, initialQuotes, finalQuotes, otherPunctuation,
    mathSymbols, currencySymbols, modifierSymbols, otherSymbols]

/-- Whether a character can stand for itself between quotes. -/
def isVisible (c : Char) : Bool :=
  visibleTables.any (·.has c) && !otherExtendRanges.has c

/-- A character between quotes. -/
def quotedChar (c : Char) : List Char :=
  match c with
  | '"' => ['\\', '"']
  | '\\' => ['\\', '\\']
  | '\n' => ['\\', 'n']
  | '\r' => ['\\', 'r']
  | '\t' => ['\\', 't']
  | '\x00' => ['\\', '0']
  | c =>
    if isVisible c then [c]
    else ['\\', 'u', '\x7b'] ++ Nat.toDigits 16 c.toNat ++ ['\x7d']

/-- A text between quotes. -/
def quoted (s : String) : String :=
  .ofList ('"' :: s.toList.flatMap quotedChar ++ ['"'])

end Stencil.Text
