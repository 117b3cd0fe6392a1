import Stencil.Pattern.CharClass

/-!
Patterns and what they match.

A pattern describes runs of characters.  Whether one occurs in a text is decided on sets of places:
a pattern takes the places where a match may begin to the places where such a match may end.  For a
repetition this is a closure, which is reached after as many rounds as there are places, because
each round but the last adds one.  Which of several matches would be preferred does not matter.
-/

namespace Stencil

open Stencil.Text

/-- A condition on a place between two characters. -/
inductive PlaceTest
  | textStart
  | textEnd
  | lineStart
  | lineEnd
  /-- The start of a line where a carriage return may end one too. -/
  | lineStartCrlf
  | lineEndCrlf
  /-- A place with a character of a word, of the given class, on one side only. -/
  | wordBoundary (word : Pattern.CharClass)
  | notWordBoundary (word : Pattern.CharClass)
  | wordStart (word : Pattern.CharClass)
  | wordEnd (word : Pattern.CharClass)
  /-- A place without a character of a word before it. -/
  | wordStartHalf (word : Pattern.CharClass)
  | wordEndHalf (word : Pattern.CharClass)

/-- A description of runs of characters. -/
inductive Pattern
  | empty
  | char (set : Pattern.CharClass)
  | place (test : PlaceTest)
  | seq (p q : Pattern)
  | alt (p q : Pattern)
  /-- At least `least` and, if there is a limit, at most `most` runs one after the other. -/
  | repeated (p : Pattern) (least : Nat) (most : Option Nat)

/-! ## §1. Places -/

/-- A place between two characters: the one before it and the one after it. -/
structure Place where
  before : Option Char
  after : Option Char

namespace Place

/-- The places of a text, given the character before it. -/
def ofText (before : Option Char) : List Char → List Place
  | [] => [⟨before, none⟩]
  | c :: cs => ⟨before, some c⟩ :: ofText (some c) cs

/-- Whether a side of a place is a character of a word. -/
def isWord (word : Pattern.CharClass) (side : Option Char) : Bool :=
  side.any word.has

/-- Whether a place meets a condition. -/
def meets (p : Place) : PlaceTest → Bool
  | .textStart => p.before.isNone
  | .textEnd => p.after.isNone
  | .lineStart => p.before.isNone || p.before == some '\n'
  | .lineEnd => p.after.isNone || p.after == some '\n'
  | .lineStartCrlf =>
    p.before.isNone || p.before == some '\n' || (p.before == some '\r' && p.after != some '\n')
  | .lineEndCrlf =>
    p.after.isNone || p.after == some '\r' || (p.after == some '\n' && p.before != some '\r')
  | .wordBoundary word => isWord word p.before != isWord word p.after
  | .notWordBoundary word => isWord word p.before == isWord word p.after
  | .wordStart word => !isWord word p.before && isWord word p.after
  | .wordEnd word => isWord word p.before && !isWord word p.after
  | .wordStartHalf word => !isWord word p.before
  | .wordEndHalf word => !isWord word p.after

end Place

/-! ## §2. Sets of places -/

/-- A set of places of a text: for each place, from the first to the last, whether it is in. -/
abbrev PlaceSet := List Bool

namespace PlaceSet

/-- The places that are in one of two sets. -/
def union (a b : PlaceSet) : PlaceSet :=
  List.zipWith (· || ·) a b

/-- The places after a character of a class that begins at a place of a set. -/
def step (set : Pattern.CharClass) (text : List Char) (s : PlaceSet) : PlaceSet :=
  false :: List.zipWith (fun isIn c => isIn && set.has c) s text

/-- The places of a set that meet a condition. -/
def filter (test : PlaceTest) (places : List Place) (s : PlaceSet) : PlaceSet :=
  List.zipWith (fun isIn place => isIn && place.meets test) s places

/-- Applies a growing function up to `n` times, until nothing changes. -/
def close (f : PlaceSet → PlaceSet) : Nat → PlaceSet → PlaceSet
  | 0, s => s
  | n + 1, s =>
    let next := s.union (f s)
    if next == s then s else close f n next

/-- Applies a function `n` times, or until no place is left. -/
def iterate (f : PlaceSet → PlaceSet) : Nat → PlaceSet → PlaceSet
  | 0, s => s
  | n + 1, s => if s.any id then iterate f n (f s) else s

end PlaceSet

/-! ## §3. Matching -/

namespace Pattern

/-- The places of a text where a match may end that begins at a place of a set. -/
def ends (text : List Char) (places : List Place) : Pattern → PlaceSet → PlaceSet
  | .empty, s => s
  | .char set, s => s.step set text
  | .place test, s => s.filter test places
  | .seq p q, s => q.ends text places (p.ends text places s)
  | .alt p q, s => (p.ends text places s).union (q.ends text places s)
  | .repeated p least most, s =>
    let rounds := match most with
      | some most => min (most - least) places.length
      | none => places.length
    (s.iterate (p.ends text places) least).close (p.ends text places) rounds

/-- Whether a match occurs anywhere in a text. -/
def occursIn (p : Pattern) (text : List Char) : Bool :=
  let places := Place.ofText none text
  (p.ends text places (places.map fun _ => true)).any id

/-- A measure of the space a pattern takes once repetitions are written out. -/
def weight : Pattern → Nat
  | .empty => 0
  | .char set => set.weight
  | .place _ => 1
  | .seq p q => p.weight + q.weight
  | .alt p q => p.weight + q.weight + 1
  | .repeated p least most => (max (most.getD (least + 1)) 1) * (p.weight + 1)

/-- The largest pattern that is accepted. -/
def weightLimit : Nat := 10 * 1024 * 1024 / 32

end Pattern

end Stencil
