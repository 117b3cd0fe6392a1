import Stencil.Value.Basic

/-!
Equality and order of values.

There are two equalities.  The strict one is that of values of one kind with the same contents;
objects and macros are equal to themselves alone.  The loose one lets null equal all that is false,
truths equal all with that truth, and numbers equal the texts that read as them; it is the one that
the operator `==` and membership use.

The order compares two texts as texts unless both read as numbers, and all else as numbers.
-/

namespace Stencil.Value

variable {ω : Type}

/-! ## §1. Strict equality -/

mutual

/-- Strict equality. -/
def same : Value ω → Value ω → Bool
  | .null, .null => true
  | .bool a, .bool b => a == b
  | .number a, .number b => a == b
  | .string a, .string b => a == b
  | .safe a, .safe b => a == b
  | .array as, .array bs => sameAll as bs
  | .map as, .map bs => sameEntries as bs
  | .callable a, .callable b => a.same b
  | .object a _, .object b _ => a.same b
  | _, _ => false

/-- Strict equality of lists of values. -/
def sameAll : List (Value ω) → List (Value ω) → Bool
  | [], [] => true
  | a :: as, b :: bs => same a b && sameAll as bs
  | _, _ => false

/-- Strict equality of the entries of maps. -/
def sameEntries : List (String × Value ω) → List (String × Value ω) → Bool
  | [], [] => true
  | (k, a) :: as, (l, b) :: bs => k == l && same a b && sameEntries as bs
  | _, _ => false

end

/-! ## §2. Loose equality -/

variable [HostObject ω]

/-- Whether a value is a text that reads as a number. -/
def readsAs (v : Value ω) (x : Float) : Bool :=
  match v.text? with
  | some s => (Number.read? s).any (· == x)
  | none => false

/-- The loose equality of two values of which neither is null, a truth or a number, and which are
not both arrays or both maps: texts are compared as texts, all else strictly. -/
def sameText (a b : Value ω) : Bool :=
  match a.text?, b.text? with
  | some s, some t => s == t
  | _, _ => same a b

mutual

/-- Loose equality. -/
def looseEq : Value ω → Value ω → Bool
  | .null, b => !b.truthy
  | .bool x, b => x == b.truthy
  | .number x, b =>
    match b with
    | .null => !(number x : Value ω).truthy
    | .bool y => y == (number x : Value ω).truthy
    | .number y => x == y
    | b => b.readsAs x
  | .array as, b =>
    match b with
    | .null => as.isEmpty
    | .bool y => y == !as.isEmpty
    | .array bs => looseEqAll as bs
    | _ => false
  | .map as, b =>
    match b with
    | .null => as.isEmpty
    | .bool y => y == !as.isEmpty
    | .map bs => looseEqEntries as bs
    | _ => false
  | a, b =>
    match b with
    | .null => !a.truthy
    | .bool y => y == a.truthy
    | .number y => a.readsAs y
    | b => sameText a b

/-- Loose equality of lists of values. -/
def looseEqAll : List (Value ω) → List (Value ω) → Bool
  | [], [] => true
  | a :: as, b :: bs => looseEq a b && looseEqAll as bs
  | _, _ => false

/-- Loose equality of the entries of maps: equal names and loosely equal values. -/
def looseEqEntries : List (String × Value ω) → List (String × Value ω) → Bool
  | [], [] => true
  | (k, a) :: as, (l, b) :: bs => k == l && looseEq a b && looseEqEntries as bs
  | _, _ => false

end

/-! ## §3. Order -/

/-- The order of two numbers; there is none if one of them is not a number. -/
def compareNumbers (x y : Float) : Option Ordering :=
  if x < y then some .lt else if x == y then some .eq else if y < x then some .gt else none

/-- The order of two texts by code points. -/
def compareTexts (s t : String) : Ordering :=
  if s = t then .eq else if s < t then .lt else .gt

/-- The order of two values. -/
def compare (a b : Value ω) : Option Ordering :=
  match a.text?, b.text? with
  | some s, some t =>
    match Number.read? s, Number.read? t with
    | some x, some y => compareNumbers x y
    | _, _ => some (compareTexts s t)
  | _, _ => compareNumbers a.toNumber b.toNumber

/-! ## §4. Membership -/

/-- Whether a run of characters stands somewhere in a text. -/
def hasRun (run : List Char) : List Char → Bool
  | [] => run.isEmpty
  | c :: cs => run.isPrefixOf (c :: cs) || hasRun run cs

/-- Whether a text contains another one. -/
def textContains (s part : String) : Bool :=
  hasRun part.toList s.toList

/-- Whether a value contains another one: as an element, as a key, or as a part of its text. -/
def contains (v needle : Value ω) : Bool :=
  match v with
  | .array items => items.any (looseEq · needle)
  | .map entries => Table.has entries needle.output
  | .string s => textContains s needle.output
  | .safe s => textContains s.text needle.output
  | .object _ host => ((HostObject.items host).getD []).any (looseEq · needle)
  | _ => false

end Stencil.Value
