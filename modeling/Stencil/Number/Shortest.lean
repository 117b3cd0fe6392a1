import Stencil.Number.Dyadic

/-!
The fewest digits that read back.

A positive double `m * 2 ^ q` is the rounding of every real number in an interval around it; the
ends belong to it exactly when `m` is even.  Its shortest decimals are those points of the coarsest
grid of powers of ten that lie in the interval, and of these the nearest one is wanted.  On each
grid only the two neighbours of the number itself need to be tried.  All comparisons are made in
natural numbers.
-/

namespace Stencil.Number

/-- The interval of a double in quarters of its unit: its lower end, the double, its upper end.
Below a power of two doubles lie twice as dense, so the lower end is nearer there. -/
def quarters (m : Nat) (q : Int) : Nat × Nat × Nat :=
  (if m == twoTo 52 && -1074 < q then 4 * m - 1 else 4 * m - 2, 4 * m, 4 * m + 2)

/-- The multiple `d` of `10 ^ p` that lies in the interval of `m * 2 ^ q` and is nearest to it, if
there is any; of two equally near the upper. -/
def onGrid (m : Nat) (q p : Int) : Option Nat :=
  let (low, value, high) := quarters m q
  let scale (n : Nat) := n * twoTo (q - 2).toNat * tenTo (-p).toNat
  let unit := twoTo (2 - q).toNat * tenTo p.toNat
  let d := scale value / unit
  let fits (c : Nat) : Bool :=
    if m % 2 == 0 then scale low ≤ c * unit && c * unit ≤ scale high
    else scale low < c * unit && c * unit < scale high
  match fits d, fits (d + 1) with
  | true, true => some (if 2 * scale value < (2 * d + 1) * unit then d else d + 1)
  | true, false => some d
  | false, true => some (d + 1)
  | false, false => none

/-- Whether `10 ^ k ≤ m * 2 ^ q`. -/
def reaches (m : Nat) (q k : Int) : Bool :=
  tenTo k.toNat * twoTo (-q).toNat ≤ m * twoTo q.toNat * tenTo (-k).toNat

/-- The exponent of the greatest power of ten up to `m * 2 ^ q`, from an estimate by the binary
logarithm that is at most one off. -/
def magnitude (m : Nat) (q : Int) : Int :=
  let estimate := (Int.ofNat m.log2 + q) * 30103 / 100000
  if reaches m q (estimate + 1) then estimate + 1
  else if reaches m q estimate then estimate
  else estimate - 1

/-- The shortest decimal of a positive double `m * 2 ^ q`, as digits and the power of ten of the
last one.  Seventeen digits always suffice. -/
def shortest (m : Nat) (q : Int) : Nat × Int :=
  let top := magnitude m q
  let found := (List.range 17).findSome? fun i =>
    (onGrid m q (top - Int.ofNat i)).map fun d =>
      if d == tenTo (i + 1) then (tenTo i, top - Int.ofNat i + 1) else (d, top - Int.ofNat i)
  found.getD (0, 0)

end Stencil.Number
