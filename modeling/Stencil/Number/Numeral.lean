import Stencil.Number.Dyadic
import Stencil.Number.Shortest
import Stencil.Text.Blank

/-!
Numbers as text, in both directions.

A number is printed with the fewest digits that read back and never with an exponent.  Whole
numbers below `10 ^ 15` are printed as integers, which only matters for the negative zero.  A text
reads as a number when, blanks at its ends aside, it is a decimal with an optional sign, point and
exponent, or one of the words for infinity and for the undefined number.
-/

namespace Stencil.Number

open Stencil.Text

/-! ## §1. Printing -/

/-- The decimal digits of a natural number. -/
def digits (n : Nat) : List Char :=
  Nat.toDigits 10 n

/-- The number `d * 10 ^ p` without an exponent. -/
def positional (d : Nat) (p : Int) : List Char :=
  let ds := digits d
  if 0 ≤ p then ds ++ List.replicate p.toNat '0'
  else
    let places := (-p).toNat
    let padded := List.replicate (places + 1 - ds.length) '0' ++ ds
    padded.take (padded.length - places) ++ '.' :: padded.drop (padded.length - places)

/-- A number with all of its digits, the sign of a negative zero included. -/
def plainText (x : Float) : String :=
  match decode x with
  | .notANumber => "NaN"
  | .infinite negative => if negative then "-inf" else "inf"
  | .finite negative m q =>
    let size := if m == 0 then ['0'] else let (d, p) := shortest m q; positional d p
    .ofList (if negative then '-' :: size else size)

/-- Below this bound whole numbers are printed as integers. -/
def integerBound : Nat := tenTo 15

/-- The printed form of a number. -/
def text (x : Float) : String :=
  match integer? x with
  | some n =>
    if n.natAbs < integerBound then
      .ofList (if n < 0 then '-' :: digits n.natAbs else digits n.natAbs)
    else plainText x
  | none => plainText x

/-! ## §2. Reading -/

/-- The number `± digits * 10 ^ exponent`, correctly rounded.  Exponents far outside of the range of
doubles are cut off first. -/
def ofDecimal (negative : Bool) (mantissa : Nat) (exponent : Int) : Float :=
  let top := Int.ofNat (digits mantissa).length + exponent
  let size :=
    if mantissa == 0 || top < -330 then 0.0
    else if 310 < top then 1.0 / 0.0
    else Float.ofScientific mantissa (exponent < 0) exponent.natAbs
  if negative then -size else size

/-- The value of a run of decimal digits. -/
def digitsValue (cs : List Char) : Nat :=
  cs.foldl (fun n c => 10 * n + (c.toNat - '0'.toNat)) 0

/-- A number written as whole digits and fraction digits. -/
def ofDigits (whole fraction : List Char) : Float :=
  ofDecimal false (digitsValue (whole ++ fraction)) (-Int.ofNat fraction.length)

/-- Splits a leading sign off: whether it is a minus, and the rest. -/
def splitSign : List Char → Bool × List Char
  | '-' :: cs => (true, cs)
  | '+' :: cs => (false, cs)
  | cs => (false, cs)

/-- Reads an exponent, with its letter, that takes up a whole text; an empty text is exponent
zero. -/
def readExponent? : List Char → Option Int
  | [] => some 0
  | c :: cs =>
    if c == 'e' || c == 'E' then
      let (negative, ds) := splitSign cs
      if ds.isEmpty || !ds.all Char.isDigit then none
      else some (if negative then -Int.ofNat (digitsValue ds) else Int.ofNat (digitsValue ds))
    else none

/-- Reads an unsigned decimal that takes up a whole text. -/
def readDecimal? (negative : Bool) (cs : List Char) : Option Float :=
  let whole := cs.takeWhile Char.isDigit
  let rest := cs.dropWhile Char.isDigit
  let (fraction, rest) :=
    match rest with
    | '.' :: rest => (rest.takeWhile Char.isDigit, rest.dropWhile Char.isDigit)
    | rest => ([], rest)
  if whole.isEmpty && fraction.isEmpty then none
  else (readExponent? rest).map fun exponent =>
    ofDecimal negative (digitsValue (whole ++ fraction)) (exponent - Int.ofNat fraction.length)

/-- Reads a number that takes up a whole text. -/
def readWhole? (text : List Char) : Option Float :=
  let (negative, cs) := splitSign text
  let word := String.ofList (cs.map Char.toLower)
  if word == "inf" || word == "infinity" then
    some (if negative then -1.0 / 0.0 else 1.0 / 0.0)
  else if word == "nan" then some (0.0 / 0.0)
  else readDecimal? negative cs

/-- Reads a text as a number. -/
def read? (source : String) : Option Float :=
  readWhole? (trim source.toList)

end Stencil.Number
