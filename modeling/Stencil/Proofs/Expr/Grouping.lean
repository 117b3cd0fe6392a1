import Stencil.Template.Expr

/-!
How operators group.

A chain is an operand with operators and further operands after it.  Which tree it means can be said
of the whole chain at once: it is split at an operator that binds least, the last one or, among
powers, the first one, and so are both sides.  `grouped` is this tree.  A parser cannot see the
whole chain, and decides at each operator what belongs to it.  Both agree because of
`grouped_append`: a chain is split where no operator before binds less and none after binds as
little, as it is measured by the least precedences on either side.
-/

namespace Stencil

/-- An operator with its place, and the operand after it. -/
structure Infix where
  pos : Position
  op : BinaryOp
  operand : Expr

/-- A chain that is taken apart at one of its operators. -/
structure Infix.Split where
  before : List Infix
  root : Infix
  after : List Infix

/-! ## §1. Where a chain is split -/

namespace Infix

/-- The chain apart at the first of some operators. -/
def splitFirst (here : Infix → Bool) : List Infix → Option Split
  | [] => none
  | k :: ks =>
    if here k then some ⟨[], k, ks⟩
    else (splitFirst here ks).map fun s => { s with before := k :: s.before }

/-- The chain apart at the last of some operators. -/
def splitLast (here : Infix → Bool) : List Infix → Option Split
  | [] => none
  | k :: ks =>
    match splitLast here ks with
    | some s => some { s with before := k :: s.before }
    | none => if here k then some ⟨[], k, ks⟩ else none

/-- The lowest precedence in a chain. -/
def lowest (ks : List Infix) : Nat :=
  (ks.map fun k => k.op.precedence).min?.getD 0

/-- Whether an operator of a chain has the lowest precedence in it. -/
def isLowest (ks : List Infix) (k : Infix) : Bool :=
  k.op.precedence == lowest ks

/-- The chain apart at an operator of the lowest precedence: at the first one if these are powers,
and else at the last one. -/
def split (ks : List Infix) : Option Split :=
  if ks.any fun k => isLowest ks k && k.op == .pow then splitFirst (isLowest ks) ks
  else splitLast (isLowest ks) ks

variable {here : Infix → Bool} {ks before after : List Infix} {k : Infix} {s : Split}

theorem eq_of_splitFirst (h : splitFirst here ks = some s) :
    ks = s.before ++ s.root :: s.after := by
  induction ks generalizing s with
  | nil => cases h
  | cons k ks ih =>
    rw [splitFirst] at h
    by_cases hk : here k = true
    · rw [if_pos hk] at h
      cases h
      rfl
    · rw [if_neg hk] at h
      obtain ⟨s', hs', rfl⟩ := Option.map_eq_some_iff.mp h
      exact congrArg (k :: ·) (ih hs')

theorem eq_of_splitLast (h : splitLast here ks = some s) : ks = s.before ++ s.root :: s.after := by
  induction ks generalizing s with
  | nil => cases h
  | cons k ks ih =>
    rw [splitLast] at h
    cases hlast : splitLast here ks with
    | some s' =>
      rw [hlast] at h
      cases h
      exact congrArg (k :: ·) (ih hlast)
    | none =>
      rw [hlast] at h
      by_cases hk : here k = true
      · simp only [hk, if_true] at h
        cases h
        rfl
      · simp [hk] at h

/-- A chain is taken apart and not changed. -/
theorem eq_of_split (h : split ks = some s) : ks = s.before ++ s.root :: s.after := by
  unfold split at h
  split at h
  · exact eq_of_splitFirst h
  · exact eq_of_splitLast h

theorem splitFirst_append (hbefore : ∀ o ∈ before, here o = false) (hk : here k = true) :
    splitFirst here (before ++ k :: after) = some ⟨before, k, after⟩ := by
  induction before with
  | nil => simp [splitFirst, hk]
  | cons o before ih =>
    obtain ⟨ho, hbefore⟩ := List.forall_mem_cons.mp hbefore
    simp [splitFirst, ho, ih hbefore]

theorem splitLast_eq_none (h : ∀ o ∈ ks, here o = false) : splitLast here ks = none := by
  induction ks with
  | nil => rfl
  | cons o ks ih =>
    obtain ⟨ho, hks⟩ := List.forall_mem_cons.mp h
    simp [splitLast, ho, ih hks]

theorem splitLast_append (hafter : ∀ o ∈ after, here o = false) (hk : here k = true) :
    splitLast here (before ++ k :: after) = some ⟨before, k, after⟩ := by
  induction before with
  | nil => simp [splitLast, hk, splitLast_eq_none hafter]
  | cons o before ih => simp [splitLast, ih]

end Infix

/-- The tree of a chain that begins with an operand. -/
def grouped (x : Expr) (ks : List Infix) : Expr :=
  match _h : Infix.split ks with
  | none => x
  | some s => .binary s.root.pos s.root.op (grouped x s.before) (grouped s.root.operand s.after)
termination_by ks.length
decreasing_by
  all_goals
    rw [Infix.eq_of_split _h, List.length_append, List.length_cons]
    omega

/-! ## §2. The least precedences beside an operator -/

namespace BinaryOp

/-- The least precedence an operator on the left side may have to be part of the left operand. -/
def leftMinimum (op : BinaryOp) : Nat :=
  match op.associativity with
  | .left => op.precedence
  | .right => op.precedence + 1

/-- Only the power groups to the right, and it has a precedence of its own. -/
theorem minimums (op : BinaryOp) :
    (op = .pow ∧ op.precedence = 200 ∧ op.leftMinimum = 201 ∧ op.rightMinimum = 200) ∨
      (op ≠ .pow ∧ op.precedence < 200 ∧ op.leftMinimum = op.precedence ∧
        op.rightMinimum = op.precedence + 1) := by
  cases op <;> decide

/-- Where an operator does not go to the right side of the one before it, that one goes to its left
side, and so does all that is on the left side of that. -/
theorem leftMinimum_le {op next : BinaryOp} (h : next.precedence < op.rightMinimum) :
    next.leftMinimum ≤ op.precedence ∧ next.leftMinimum ≤ op.leftMinimum ∧
      next.leftMinimum ≤ op.rightMinimum := by
  have hop := op.minimums
  have hnext := next.minimums
  omega

end BinaryOp

/-! ## §3. The tree of a chain -/

theorem Infix.lowest_append {before after : List Infix} {k : Infix}
    (hbefore : ∀ o ∈ before, k.op.precedence ≤ o.op.precedence)
    (hafter : ∀ o ∈ after, k.op.precedence ≤ o.op.precedence) :
    Infix.lowest (before ++ k :: after) = k.op.precedence := by
  have hmin : ((before ++ k :: after).map fun k => k.op.precedence).min? =
      some k.op.precedence := by
    refine List.min?_eq_some_iff.mpr ⟨List.mem_map_of_mem (by simp), fun p hp => ?_⟩
    obtain ⟨o, ho, rfl⟩ := List.mem_map.mp hp
    rcases List.mem_append.mp ho with ho | ho
    · exact hbefore o ho
    · rcases List.mem_cons.mp ho with rfl | ho
      · exact Nat.le_refl _
      · exact hafter o ho
  rw [lowest, hmin]
  rfl

@[simp] theorem grouped_nil (x : Expr) : grouped x [] = x := by
  rw [grouped]
  rfl

/-- A chain is split at an operator that has everything before it on its left side and everything
after it on its right side. -/
theorem grouped_append (x : Expr) {before after : List Infix} {k : Infix}
    (hbefore : ∀ o ∈ before, k.op.leftMinimum ≤ o.op.precedence)
    (hafter : ∀ o ∈ after, k.op.rightMinimum ≤ o.op.precedence) :
    grouped x (before ++ k :: after) =
      .binary k.pos k.op (grouped x before) (grouped k.operand after) := by
  have hlowest : Infix.lowest (before ++ k :: after) = k.op.precedence := by
    apply Infix.lowest_append
    · intro o ho
      have := hbefore o ho
      have := k.op.minimums
      omega
    · intro o ho
      have := hafter o ho
      have := k.op.minimums
      omega
  have hk : Infix.isLowest (before ++ k :: after) k = true := by simp [Infix.isLowest, hlowest]
  have hsplit : Infix.split (before ++ k :: after) = some ⟨before, k, after⟩ := by
    unfold Infix.split
    rcases k.op.minimums with ⟨hpow, hprecedence, hleft, -⟩ | ⟨-, hprecedence, -, hright⟩
    · -- A power is split off at the first place, and none stands before it.
      have hany : (before ++ k :: after).any
          (fun o => Infix.isLowest (before ++ k :: after) o && o.op == .pow) = true :=
        List.any_eq_true.mpr ⟨k, by simp, by simp [hk, hpow]⟩
      rw [if_pos hany]
      refine Infix.splitFirst_append (fun o ho => ?_) hk
      have hgreater := hbefore o ho
      simp only [Infix.isLowest, hlowest, beq_eq_false_iff_ne]
      omega
    · -- Any other operator is split off at the last place, and none of its kind stands after it.
      have hnone : (before ++ k :: after).any
          (fun o => Infix.isLowest (before ++ k :: after) o && o.op == .pow) = false := by
        refine List.any_eq_false.mpr fun o _ ho => ?_
        simp only [Infix.isLowest, hlowest, Bool.and_eq_true, beq_iff_eq] at ho
        obtain ⟨hsame, hpow⟩ := ho
        rw [hpow] at hsame
        exact absurd hsame.symm (Nat.ne_of_lt hprecedence)
      rw [hnone, if_neg Bool.false_ne_true]
      refine Infix.splitLast_append (fun o ho => ?_) hk
      have hgreater := hafter o ho
      simp only [Infix.isLowest, hlowest, beq_eq_false_iff_ne]
      omega
  rw [grouped]
  split
  · next hnone =>
    rw [hsplit] at hnone
    cases hnone
  · next s hsome =>
    rw [hsplit] at hsome
    cases hsome
    rfl

end Stencil
