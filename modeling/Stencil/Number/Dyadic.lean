/-!
Floating-point numbers as exact quantities.

A finite double is an integer times a power of two.  What the library computes about numbers beyond
the arithmetic of doubles themselves is computed on that pair, in integers: the digits to print, the
remainder of a division, and whether a number is whole.
-/

namespace Stencil.Number

/-- A power of two. -/
def twoTo (n : Nat) : Nat := Nat.pow 2 n

/-- A power of ten. -/
def tenTo (n : Nat) : Nat := Nat.pow 10 n

/-- What a double stands for. -/
inductive Decoded
  | notANumber
  | infinite (negative : Bool)
  /-- The number `mantissa * 2 ^ exponent`, or its negation. -/
  | finite (negative : Bool) (mantissa : Nat) (exponent : Int)
deriving DecidableEq, Repr

/-- Takes a double apart. -/
def decode (x : Float) : Decoded :=
  let bits := x.toBits.toNat
  let negative := bits / twoTo 63 == 1
  let field := bits / twoTo 52 % twoTo 11
  let fraction := bits % twoTo 52
  if field == 2047 then
    if fraction == 0 then .infinite negative else .notANumber
  else if field == 0 then .finite negative fraction (-1074)
  else .finite negative (twoTo 52 + fraction) (Int.ofNat field - 1075)

/-- The whole number `mantissa * 2 ^ exponent`, if it is one. -/
def whole? (mantissa : Nat) (exponent : Int) : Option Nat :=
  if 0 ≤ exponent then some (mantissa * twoTo exponent.toNat)
  else if mantissa % twoTo (-exponent).toNat == 0 then some (mantissa / twoTo (-exponent).toNat)
  else none

/-- The integer a double is, if it is one. -/
def integer? (x : Float) : Option Int :=
  match decode x with
  | .finite negative m q => (whole? m q).map fun n => if negative then -Int.ofNat n else Int.ofNat n
  | _ => none

/-- The exact remainder of a division whose quotient is cut off toward zero; it has the sign of the
dividend.  There is none by zero or of an infinity, and a finite number is its own remainder by an
infinity. -/
def remainder (x y : Float) : Float :=
  match decode x, decode y with
  | .finite negative m q, .finite _ n r =>
    if n == 0 then 0.0 / 0.0
    else
      let low := min q r
      let rest := (m * twoTo (q - low).toNat) % (n * twoTo (r - low).toNat)
      let size := (Float.ofNat rest).scaleB low
      if negative then -size else size
  | .finite .., .infinite _ => x
  | _, _ => 0.0 / 0.0

end Stencil.Number
