import Mathlib.Data.String.Basic

/-!
Texts by the bytes of their UTF-8 form.

A source is stored as UTF-8, and a program that cuts it names places by bytes.  Not every number of
bytes is a place to cut at: `dropBytes?` and `takeBytes?` have no result inside a character, nor
beyond the end.  Where a text is known to begin with a run of characters, the length of that run is
a place to cut at, and this is how all other lemmas get at results.
-/

namespace Stencil.Text

open String (utf8Len)

/-! ## §1. Cutting -/

/-- What is left of a text without its first `n` bytes. -/
def dropBytes? : Nat → List Char → Option (List Char)
  | 0, cs => some cs
  | _ + 1, [] => none
  | n + 1, c :: cs => if c.utf8Size ≤ n + 1 then dropBytes? (n + 1 - c.utf8Size) cs else none

/-- The first `n` bytes of a text. -/
def takeBytes? : Nat → List Char → Option (List Char)
  | 0, _ => some []
  | _ + 1, [] => none
  | n + 1, c :: cs =>
    if c.utf8Size ≤ n + 1 then (takeBytes? (n + 1 - c.utf8Size) cs).map (c :: ·) else none

theorem dropBytes?_append (run rest : List Char) :
    dropBytes? (utf8Len run) (run ++ rest) = some rest := by
  induction run with
  | nil => simp [dropBytes?]
  | cons c run ih =>
    obtain ⟨n, hn⟩ : ∃ n, c.utf8Size = n + 1 := Nat.exists_eq_succ_of_ne_zero c.utf8Size_pos.ne'
    have hrest : utf8Len run + n + 1 - (n + 1) = utf8Len run := by omega
    rw [String.utf8Len_cons, List.cons_append, hn, ← Nat.add_assoc, dropBytes?, hn,
      if_pos (by omega), hrest, ih]

theorem takeBytes?_append (run rest : List Char) :
    takeBytes? (utf8Len run) (run ++ rest) = some run := by
  induction run with
  | nil => simp [takeBytes?]
  | cons c run ih =>
    obtain ⟨n, hn⟩ : ∃ n, c.utf8Size = n + 1 := Nat.exists_eq_succ_of_ne_zero c.utf8Size_pos.ne'
    have hrest : utf8Len run + n + 1 - (n + 1) = utf8Len run := by omega
    rw [String.utf8Len_cons, List.cons_append, hn, ← Nat.add_assoc, takeBytes?, hn,
      if_pos (by omega), hrest, ih, Option.map_some]

theorem takeBytes?_take (n : Nat) (cs : List Char) :
    takeBytes? (utf8Len (cs.take n)) cs = some (cs.take n) := by
  have h := takeBytes?_append (cs.take n) (cs.drop n)
  rwa [List.take_append_drop] at h

theorem dropBytes?_take (n : Nat) (cs : List Char) :
    dropBytes? (utf8Len (cs.take n)) cs = some (cs.drop n) := by
  have h := dropBytes?_append (cs.take n) (cs.drop n)
  rwa [List.take_append_drop] at h

/-! ## §2. Measuring -/

/-- The number of bytes of the characters of a class at the head of a text. -/
def runBytes (p : Char → Bool) : List Char → Nat
  | [] => 0
  | c :: cs => if p c then c.utf8Size + runBytes p cs else 0

/-- The number of bytes before the first place where a text is found. -/
def findBytes? (needle : List Char) : List Char → Option Nat
  | [] => if needle.isEmpty then some 0 else none
  | c :: cs =>
    if needle.isPrefixOf (c :: cs) then some 0
    else (findBytes? needle cs).map (c.utf8Size + ·)

theorem runBytes_eq (p : Char → Bool) (cs : List Char) :
    runBytes p cs = utf8Len (cs.takeWhile p) := by
  induction cs with
  | nil => rfl
  | cons c cs ih =>
    rw [runBytes]
    by_cases h : p c = true
    · rw [if_pos h, ih, List.takeWhile_cons_of_pos h, String.utf8Len_cons, Nat.add_comm]
    · rw [if_neg h, List.takeWhile_cons_of_neg h, String.utf8Len_nil]

/-- A run of characters of a class, as the characters that it consists of. -/
theorem runBytes_eq_take (p : Char → Bool) (cs : List Char) :
    runBytes p cs = utf8Len (cs.take (cs.takeWhile p).length) := by
  rw [runBytes_eq]
  exact congrArg utf8Len (List.prefix_iff_eq_take.mp (List.takeWhile_prefix p))

end Stencil.Text
