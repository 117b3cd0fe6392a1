import Mathlib
import Stencil.Value.Operation

/-!
What the two equalities have to do with each other.

Loose equality looks at its operands by kind, and which of them decides depends on both: null goes
before a truth, a truth before a number, a number before a text, and arrays and maps are compared
item by item.  Seen from either side it comes to the same.  What is strictly equal is loosely equal
too, so that the operators `==` and `!=` have no first operand, and an array contains whatever is
the same as one of its items.
-/

namespace Stencil

/-! ## §1. Numbers and identities -/

/-- Equality of numbers has no first operand: it fails for what is not a number, and takes the two
zeros for one. -/
theorem Number.beq_comm (x y : Float) : (x == y) = (y == x) := by
  have swap : ∀ {x y : Float}, (x == y) = true → (y == x) = true := by
    intro x y h
    obtain ⟨hx, hy, hxy⟩ := Float.beq_iff_ne_nan_and_eq.mp h
    refine Float.beq_iff_ne_nan_and_eq.mpr ⟨hy, hx, ?_⟩
    rcases hxy with heq | ⟨hzero, hminus⟩ | ⟨hminus, hzero⟩
    · exact .inl heq.symm
    · exact .inr (.inr ⟨hminus, hzero⟩)
    · exact .inr (.inl ⟨hzero, hminus⟩)
  exact Bool.eq_iff_iff.mpr ⟨swap, swap⟩

theorem MacroRef.same_comm (m n : MacroRef) : m.same n = n.same m := by
  unfold same LiveTemplate.same
  rw [Bool.beq_comm (a := m.owner.origin), Bool.beq_comm (a := m.owner.name),
    Bool.beq_comm (a := m.id)]

/-- Two objects of which one is unknown are not known to be one, whichever comes first. -/
theorem Identity.same_comm (a b : Identity) : a.same b = b.same a := by
  unfold same
  by_cases h : a = b
  · rw [h]
  · have hab : (a == b) = false := beq_false_of_ne h
    have hba : (b == a) = false := beq_false_of_ne (Ne.symm h)
    rw [hab, hba]
    rfl

namespace Value

variable {ω : Type}

/-! ## §2. Strict equality -/

mutual

/-- Strict equality has no first operand. -/
theorem same_comm : ∀ v w : Value ω, v.same w = w.same v
  | .array items, w => by
    cases w with
    | array others =>
      rw [same, same]
      exact sameAll_comm items others
    | _ => rfl
  | .map entries, w => by
    cases w with
    | map others =>
      rw [same, same]
      exact sameEntries_comm entries others
    | _ => rfl
  | .number x, w => by
    cases w with
    | number y => exact Number.beq_comm x y
    | _ => rfl
  | .callable m, w => by
    cases w with
    | callable n => exact m.same_comm n
    | _ => rfl
  | .object a _, w => by
    cases w with
    | object b _ => exact a.same_comm b
    | _ => rfl
  | .null, w => by cases w <;> rfl
  | .bool x, w => by
    cases w with
    | bool y => exact Bool.beq_comm
    | _ => rfl
  | .string s, w => by
    cases w with
    | string t => exact Bool.beq_comm
    | _ => rfl
  | .safe s, w => by
    cases w with
    | safe t => exact Bool.beq_comm
    | _ => rfl

theorem sameAll_comm : ∀ vs ws : List (Value ω), sameAll vs ws = sameAll ws vs
  | [], ws => by cases ws <;> rfl
  | v :: vs, [] => rfl
  | v :: vs, w :: ws => by
    rw [sameAll, sameAll, same_comm v w, sameAll_comm vs ws]

theorem sameEntries_comm : ∀ es fs : List (String × Value ω), sameEntries es fs = sameEntries fs es
  | [], fs => by cases fs <;> rfl
  | (k, v) :: es, [] => rfl
  | (k, v) :: es, (l, w) :: fs => by
    rw [sameEntries, sameEntries, Bool.beq_comm (a := k), same_comm v w, sameEntries_comm es fs]

end

/-- What is the same as a text has the same text. -/
theorem text?_of_same {v w : Value ω} (h : v.same w = true) : v.text? = w.text? := by
  cases v <;> cases w <;> first | rfl | cases h | skip
  · rw [beq_iff_eq.mp h]
  · rw [beq_iff_eq.mp h]

theorem sameText_comm (v w : Value ω) : v.sameText w = w.sameText v := by
  unfold sameText
  cases v.text? <;> cases w.text?
  · exact same_comm v w
  · exact same_comm v w
  · exact same_comm v w
  · exact Bool.beq_comm

/-- Whether a value is compared as a whole: a text, a macro or an object. -/
def isWhole : Value ω → Bool
  | .string _ | .safe _ | .callable _ | .object _ _ => true
  | _ => false

/-- Values that are the same have the same text, if any. -/
theorem sameText_of_same {v w : Value ω} (h : v.same w = true) : v.sameText w = true := by
  unfold sameText
  rw [text?_of_same h]
  cases w.text? with
  | none => exact h
  | some t => exact beq_self_eq_true t

theorem isWhole_of_same {v w : Value ω} (h : v.same w = true) : v.isWhole = w.isWhole := by
  cases v <;> cases w <;> first | rfl | cases h

/-! ## §3. Loose equality -/

variable [HostObject ω]

/-- Null equals what is false, whatever stands on the other side. -/
theorem looseEq_null (v : Value ω) : v.looseEq .null = !v.truthy := by
  cases v <;> simp [looseEq, truthy]

/-- A truth equals what has it, whatever stands on the other side but null. -/
theorem looseEq_bool (v : Value ω) (b : Bool) : v.looseEq (.bool b) = (b == v.truthy) := by
  cases v with
  | null => cases b <;> rfl
  | bool c => cases b <;> cases c <;> rfl
  | _ => simp [looseEq, truthy]

/-- Two values that are compared as wholes are compared as texts, or else strictly. -/
theorem looseEq_of_isWhole {v w : Value ω} (hv : v.isWhole = true) (hw : w.isWhole = true) :
    v.looseEq w = v.sameText w := by
  cases v <;> simp only [isWhole, Bool.false_eq_true] at hv <;>
    cases w <;> simp only [isWhole, Bool.false_eq_true] at hw <;> simp only [looseEq]

theorem looseEq_comm_of_isWhole {v : Value ω} (hv : v.isWhole = true) (w : Value ω) :
    v.looseEq w = w.looseEq v := by
  by_cases hw : w.isWhole = true
  · rw [looseEq_of_isWhole hv hw, looseEq_of_isWhole hw hv]
    exact sameText_comm v w
  · cases w with
    | null => rw [looseEq_null, looseEq]
    | bool b => rw [looseEq_bool, looseEq]
    | number x => cases v <;> first | rfl | cases hv
    | array items => cases v <;> first | rfl | cases hv
    | map entries => cases v <;> first | rfl | cases hv
    | _ => exact absurd rfl hw

mutual

/-- Loose equality has no first operand. -/
theorem looseEq_comm : ∀ v w : Value ω, v.looseEq w = w.looseEq v
  | .null, w => by rw [looseEq, looseEq_null]
  | .bool b, w => by rw [looseEq, looseEq_bool]
  | .number x, w => by
    cases w with
    | null => rw [looseEq_null, looseEq]
    | bool b => rw [looseEq_bool, looseEq]
    | number y => exact Number.beq_comm x y
    | _ => rfl
  | .array items, w => by
    cases w with
    | null => rw [looseEq_null, looseEq]
    | bool b => rw [looseEq_bool, looseEq]
    | array others =>
      rw [looseEq, looseEq]
      exact looseEqAll_comm items others
    | _ => rfl
  | .map entries, w => by
    cases w with
    | null => rw [looseEq_null, looseEq]
    | bool b => rw [looseEq_bool, looseEq]
    | map others =>
      rw [looseEq, looseEq]
      exact looseEqEntries_comm entries others
    | _ => rfl
  | .string _, w => looseEq_comm_of_isWhole rfl w
  | .safe _, w => looseEq_comm_of_isWhole rfl w
  | .callable _, w => looseEq_comm_of_isWhole rfl w
  | .object _ _, w => looseEq_comm_of_isWhole rfl w

theorem looseEqAll_comm : ∀ vs ws : List (Value ω), looseEqAll vs ws = looseEqAll ws vs
  | [], ws => by cases ws <;> rfl
  | v :: vs, [] => rfl
  | v :: vs, w :: ws => by
    rw [looseEqAll, looseEqAll, looseEq_comm v w, looseEqAll_comm vs ws]

theorem looseEqEntries_comm : ∀ es fs : List (String × Value ω),
    looseEqEntries es fs = looseEqEntries fs es
  | [], fs => by cases fs <;> rfl
  | (k, v) :: es, [] => rfl
  | (k, v) :: es, (l, w) :: fs => by
    rw [looseEqEntries, looseEqEntries, Bool.beq_comm (a := k), looseEq_comm v w,
      looseEqEntries_comm es fs]

end

/-! ## §4. What is the same is loosely equal -/

mutual

/-- What is strictly equal is loosely equal. -/
theorem looseEq_of_same : ∀ {v w : Value ω}, v.same w = true → v.looseEq w = true
  | .null, w, h => by
    cases w with
    | null => rfl
    | _ => cases h
  | .bool b, w, h => by
    cases w with
    | bool c => exact h
    | _ => cases h
  | .number x, w, h => by
    cases w with
    | number y => exact h
    | _ => cases h
  | .array items, w, h => by
    cases w with
    | array others => exact looseEqAll_of_sameAll h
    | _ => cases h
  | .map entries, w, h => by
    cases w with
    | map others => exact looseEqEntries_of_sameEntries h
    | _ => cases h
  | .string _, _, h => by
    rw [looseEq_of_isWhole rfl (isWhole_of_same h).symm]
    exact sameText_of_same h
  | .safe _, _, h => by
    rw [looseEq_of_isWhole rfl (isWhole_of_same h).symm]
    exact sameText_of_same h
  | .callable _, _, h => by
    rw [looseEq_of_isWhole rfl (isWhole_of_same h).symm]
    exact sameText_of_same h
  | .object _ _, _, h => by
    rw [looseEq_of_isWhole rfl (isWhole_of_same h).symm]
    exact sameText_of_same h

theorem looseEqAll_of_sameAll :
    ∀ {vs ws : List (Value ω)}, sameAll vs ws = true → looseEqAll vs ws = true
  | [], [], _ => rfl
  | v :: vs, w :: ws, h => by
    rw [sameAll, Bool.and_eq_true] at h
    rw [looseEqAll, looseEq_of_same h.1, looseEqAll_of_sameAll h.2]
    rfl

theorem looseEqEntries_of_sameEntries :
    ∀ {es fs : List (String × Value ω)}, sameEntries es fs = true → looseEqEntries es fs = true
  | [], [], _ => rfl
  | (k, v) :: es, (l, w) :: fs, h => by
    rw [sameEntries, Bool.and_eq_true, Bool.and_eq_true] at h
    rw [looseEqEntries, h.1.1, looseEq_of_same h.1.2, looseEqEntries_of_sameEntries h.2]
    rfl

end

/-! ## §5. Operators and membership -/

/-- An array contains what is loosely equal to one of its items. -/
theorem contains_array (items : List (Value ω)) (v : Value ω) :
    (array items).contains v = true ↔ ∃ item ∈ items, item.looseEq v = true :=
  List.any_eq_true

/-- Loose equality has no first operand and holds of whatever is strictly equal.  So the operators
for it have none either, and an array contains what is the same as one of its items, whichever of
the two is compared with the other. -/
theorem looseEq_symmetric_and_coarser (v w : Value ω) :
    v.looseEq w = w.looseEq v ∧
      (v.same w = true → v.looseEq w = true) ∧
      binary .eq v w = binary .eq w v ∧
      binary .ne v w = binary .ne w v ∧
      ∀ items, (∃ item ∈ items, item.same v = true ∨ v.same item = true) →
        (array items).contains v = true ∧
          binary .isIn v (array items) = .ok (.bool true) ∧
          binary .notIn v (array items) = .ok (.bool false) := by
  refine ⟨looseEq_comm v w, looseEq_of_same, ?_, ?_, ?_⟩
  · rw [binary, binary, looseEq_comm v w]
  · rw [binary, binary, looseEq_comm v w]
  · intro items ⟨item, hmem, hsame⟩
    have hitem : item.same v = true := by
      rcases hsame with h | h
      · exact h
      · rwa [same_comm]
    have hin : (array items).contains v = true :=
      (contains_array items v).mpr ⟨item, hmem, looseEq_of_same hitem⟩
    refine ⟨hin, ?_, ?_⟩
    · rw [binary, hin]
    · rw [binary, hin]
      rfl

/-- An array in an array is found by a search for one with the same items. -/
theorem looseEq_symmetric_and_coarser_nested :
    same (.array [.number 1, .map [("k", .string "a")]] : Value Empty)
        (.array [.number 1, .map [("k", .string "a")]]) = true ∧
      contains (.array [.null, .array [.number 1, .map [("k", .string "a")]]] : Value Empty)
        (.array [.number 1, .map [("k", .string "a")]]) = true :=
  have hsame : same (.array [.number 1, .map [("k", .string "a")]] : Value Empty)
      (.array [.number 1, .map [("k", .string "a")]]) = true := by decide +kernel
  ⟨hsame, ((looseEq_symmetric_and_coarser _ (.array [.number 1, .map [("k", .string "a")]])).2.2.2.2
    _ ⟨_, .tail _ (.head _), .inl hsame⟩).1⟩

end Value

end Stencil
