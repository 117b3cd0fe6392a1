import Stencil.Template.Visitor

/-!
Walks that change no expression.

The walk of an expression goes down to a depth that its size allows, and where the visitor leaves
every node of it alone the expression comes back as it was.
-/

namespace Stencil

/-! ## §1. Parts of an expression -/

namespace Expr

/-- The expressions directly inside an expression, in order. -/
def parts : Expr → List Expr
  | .name .. | .null _ | .bool .. | .number .. | .string .. => []
  | .call _ _ args | .filter _ _ args | .array _ args => args
  | .test _ _ subject args => subject :: args
  | .binary _ _ left right => [left, right]
  | .unary _ _ operand | .group _ operand => [operand]
  | .attribute _ object key => [object, key]
  | .method _ object key args => object :: key :: args
  | .conditional _ cond whenTrue whenFalse => [cond, whenTrue, whenFalse]
  | .hash _ entries => entries.flatMap fun entry => [entry.key, entry.value]

/-- What holds of an expression and of all expressions inside it. -/
inductive Everywhere (p : Expr → Prop) : Expr → Prop
  | node {e : Expr} : p e → (∀ part ∈ e.parts, Everywhere p part) → Everywhere p e

theorem size_le_sizes {e : Expr} {es : List Expr} (h : e ∈ es) : e.size ≤ sizes es := by
  induction es with
  | nil => cases h
  | cons e' es ih =>
    rw [sizes]
    rcases List.mem_cons.mp h with rfl | h
    · omega
    · have := ih h
      omega

theorem sizes_entries (entries : List (Entry Expr)) :
    sizes (entries.flatMap fun entry => [entry.key, entry.value]) = entrySizes entries := by
  induction entries with
  | nil => rfl
  | cons entry entries ih =>
    simp only [List.flatMap_cons, List.cons_append, List.nil_append, sizes, entrySizes, ih]
    omega

/-- An expression is one node more than its parts. -/
theorem size_eq_sizes_parts (e : Expr) : e.size = sizes e.parts + 1 := by
  cases e <;> simp only [size, parts, sizes, sizes_entries] <;> omega

theorem size_lt_of_mem_parts {e part : Expr} (h : part ∈ e.parts) : part.size < e.size := by
  have := size_le_sizes h
  rw [size_eq_sizes_parts e]
  omega

end Expr

theorem Stmt.size_pos (s : Stmt) : 0 < s.size := by
  cases s <;> simp only [size] <;> omega

/-! ## §2. Traversals without effect -/

section Pure

variable {m : Type → Type} [Monad m] [LawfulMonad m]

theorem mapM_eq_pure {α : Type} {f : α → m α} {as : List α} (h : ∀ a ∈ as, f a = pure a) :
    as.mapM f = pure as := by
  induction as with
  | nil => rfl
  | cons a as ih =>
    rw [List.mapM_cons, h a List.mem_cons_self, ih fun b hb => h b (List.mem_cons_of_mem a hb)]
    simp

/-- Where the parts come back as they were, so does the whole. -/
theorem Expr.traverse_eq_pure {f : Expr → m Expr} {e : Expr}
    (h : ∀ part ∈ e.parts, f part = pure part) : e.traverse f = pure e := by
  cases e with
  | name | null | bool | number | string => rfl
  | call pos word args | filter pos word args | array pos args =>
    have hargs : args.mapM f = pure args := mapM_eq_pure h
    simp [traverse, hargs]
  | test pos word subject args =>
    obtain ⟨hsubject, hargs⟩ := List.forall_mem_cons.mp h
    simp [traverse, hsubject, mapM_eq_pure hargs]
  | method pos object key args =>
    obtain ⟨hobject, hrest⟩ := List.forall_mem_cons.mp h
    obtain ⟨hkey, hargs⟩ := List.forall_mem_cons.mp hrest
    simp [traverse, hobject, hkey, mapM_eq_pure hargs]
  | hash pos entries =>
    -- Keys and values are parts like any others; they only come in pairs.
    have hentries : entries.mapM (Entry.traverse f) = pure entries := by
      apply mapM_eq_pure
      intro entry hentry
      have hpart : ∀ part ∈ [entry.key, entry.value], f part = pure part :=
        fun part hpart => h part (List.mem_flatMap.mpr ⟨entry, hentry, hpart⟩)
      simp [Entry.traverse, hpart]
    simp [traverse, hentries]
  | _ =>
    simp only [parts, List.forall_mem_cons] at h
    simp [traverse, h]

variable {f : Expr → m Expr} (h : ∀ e, f e = pure e)

include h

theorem Inclusion.traverse_eq_pure (i : Inclusion) : i.traverse f = pure i := by
  obtain ⟨pos, template, bindings, only, ignoreMissing⟩ := i
  cases bindings <;> simp [traverse, h]

theorem FilterCall.traverse_eq_pure (call : FilterCall) : call.traverse f = pure call := by
  simp [traverse, mapM_eq_pure fun e _ => h e]

theorem Param.traverse_eq_pure (param : Param) : param.traverse f = pure param := by
  obtain ⟨name, fallback⟩ := param
  cases fallback <;> simp [traverse, h]

end Pure

/-! ## §3. Walks of expressions -/

namespace Visitor

variable {σ : Type} {v : Visitor σ}

/-- A visitor that does nothing about expressions. -/
structure IgnoresExprs (v : Visitor σ) : Prop where
  enter : ∀ e, v.enterExpr e = pure e
  leave : ∀ e, v.leaveExpr e = pure e

theorem step_pure {α : Type} (a : α) : step (pure a : StateM σ α) = pure a := rfl

theorem walkExpr_eq_pure (hv : v.IgnoresExprs) {n : Nat} {e : Expr} (h : e.size ≤ n) :
    v.walkExpr n e = pure e := by
  -- The induction is on the depth that is allowed, which bounds the size of what is met there.
  induction n generalizing e with
  | zero =>
    have := e.size_eq_sizes_parts
    omega
  | succ n ih =>
    have hparts : e.traverse (v.walkExpr n) = pure e := by
      refine Expr.traverse_eq_pure fun part hpart => ih ?_
      have := Expr.size_lt_of_mem_parts hpart
      omega
    simp [walkExpr, hv.enter, hv.leave, step_pure, hparts]

/-- Expressions come back from the walk as they were. -/
theorem walkWhole_eq_pure (hv : v.IgnoresExprs) (e : Expr) : v.walkWhole e = pure e :=
  walkExpr_eq_pure hv (by unfold reach; omega)

end Visitor

end Stencil
