import Stencil.Environment
import Stencil.Proofs.Value.Rename

/-!
What callbacks may depend on.

An environment is free to provide any filters, functions, tests and objects.  Statements about two
renders need to know what these do not look at: the policy for undefined variables, or the numbers
under which objects were met.  The catalogs that are always there look at neither.
-/

namespace Stencil

/-! ## §1. Values of tables -/

namespace Table

variable {α : Type}

theorem mem_values_of_find? {t : Table α} {name : String} {a : α} (h : t.find? name = some a) :
    a ∈ t.values := by
  obtain ⟨entry, hentry, rfl⟩ := Option.map_eq_some_iff.mp h
  exact List.mem_map_of_mem (List.mem_of_find?_eq_some hentry)

theorem mem_values_insertAll {t : Table α} {entries : List (String × α)} {a : α}
    (h : a ∈ (t.insertAll entries).values) : a ∈ t.values ∨ a ∈ entries.map Prod.snd := by
  induction entries generalizing t with
  | nil => exact .inl h
  | cons entry entries ih =>
    rcases ih h with h | h
    · rcases mem_values_insert h with rfl | h
      · exact .inr (.head _)
      · exact .inl h
    · exact .inr (.tail _ h)

/-- The table of a list holds nothing else. -/
theorem mem_values_ofList {entries : List (String × α)} {a : α} (h : a ∈ (ofList entries).values) :
    a ∈ entries.map Prod.snd := by
  simpa [values] using mem_values_insertAll h

end Table

/-! ## §2. The policy for undefined variables -/

/-- The filters, functions and tests of an environment answer the same under each policy for
undefined variables. -/
structure Environment.IgnoresPolicy {ω : Type} (env : Environment ω) : Prop where
  filters : ∀ f ∈ env.filters.values, ∀ template p q v args,
    f ⟨template, p⟩ v args = f ⟨template, q⟩ v args
  functions : ∀ f ∈ env.functions.values, ∀ template p q args,
    f ⟨template, p⟩ args = f ⟨template, q⟩ args
  tests : ∀ f ∈ env.tests.values, ∀ template p q v args,
    f ⟨template, p⟩ v args = f ⟨template, q⟩ v args

/-- The catalogs that are always there do not ask for the policy. -/
theorem Environment.standard_ignoresPolicy {ω : Type} [HostObject ω] (source : TemplateSource)
    (patience : Nat) : (standard source patience : Environment ω).IgnoresPolicy := by
  constructor
  · intro f hf template p q v args
    simp only [Environment.standard, Catalog.filters] at hf
    have h := Table.mem_values_ofList hf
    simp only [List.map_cons, List.map_nil, List.mem_cons, List.not_mem_nil, or_false] at h
    rcases h with rfl | rfl | rfl | rfl | rfl | rfl | rfl | rfl | rfl <;> rfl
  · intro f hf template p q args
    simp only [Environment.standard, Catalog.functions] at hf
    have h := Table.mem_values_ofList hf
    simp only [List.map_cons, List.map_nil, List.mem_cons, List.not_mem_nil, or_false] at h
    subst h
    rfl
  · intro f hf template p q v args
    simp only [Environment.standard, Catalog.tests] at hf
    have h := Table.mem_values_ofList hf
    simp only [List.map_cons, List.map_nil, List.mem_cons, List.not_mem_nil, or_false] at h
    rcases h with rfl | rfl | rfl | rfl | rfl | rfl | rfl | rfl <;> rfl

/-! ## §3. The numbers of objects -/

variable {ω : Type}

/-- Something in which no met object has the number `n` or one after it. -/
def Known {α : Type} [Rename α] (n : Nat) (a : α) : Prop :=
  ∀ f : Nat → Nat, (∀ i < n, f i = i) → rename f a = a

/-- The callbacks of an environment treat the identities of objects as names, and none of the
objects that it provides has been met yet. -/
structure Environment.Opaque [HostObject ω] (env : Environment ω) : Prop where
  filters : ∀ {f : Nat → Nat}, Function.Injective f → ∀ g ∈ env.filters.values,
    ∀ state v args, g state (rename f v) (rename f args) = rename f (g state v args)
  functions : ∀ {f : Nat → Nat}, Function.Injective f → ∀ g ∈ env.functions.values,
    ∀ state args, g state (rename f args) = rename f (g state args)
  tests : ∀ {f : Nat → Nat}, Function.Injective f → ∀ g ∈ env.tests.values,
    ∀ state v args, g state (rename f v) (rename f args) = g state v args
  globals : Known 0 env.globals
  host : ∀ {f : Nat → Nat}, Function.Injective f → HostObject.Opaque ω f

/-- Numbers that stay the same are not seen by anyone. -/
theorem HostObject.opaque_id [HostObject ω] : HostObject.Opaque ω id where
  attr _ _ := Rename.rename_id _
  items _ := Rename.rename_id _
  call host name args := by rw [Rename.rename_id, Rename.rename_id]

theorem HostObject.opaque_empty (f : Nat → Nat) : HostObject.Opaque Empty f :=
  ⟨nofun, nofun, nofun⟩

namespace Catalog

variable [HostObject ω] {f : Nat → Nat}

theorem filter_rename (host : HostObject.Opaque ω f) {g : Filter ω}
    (hg : g ∈ Table.values (filters (ω := ω))) (state : CallState) (v : Value ω)
    (args : List (Value ω)) :
    g state (rename f v) (rename f args) = rename f (g state v args) := by
  have hitem : ∀ i : Nat, (rename f args)[i]?.map Value.output = args[i]?.map Value.output := by
    intro i
    rw [Rename.getElem?]
    cases args[i]? <;> simp
  have hhead : (rename f args).head?.map Value.output = args.head?.map Value.output := by
    cases args <;> simp
  rw [filters] at hg
  have h := Table.mem_values_ofList hg
  simp only [List.map_cons, List.map_nil, List.mem_cons, List.not_mem_nil, or_false] at h
  have hescape : escape state (rename f v) (rename f args) = rename f (escape state v args) := by
    simp only [escape, hhead]
    generalize (args.head?.map Value.output).getD "html" = context
    cases v with
    | safe s =>
      simp only [Value.rename_safe, Escape.value]
      split <;> rfl
    | array items => simp [Escape.value, Value.output]
    | map entries => simp [Escape.value, Value.output]
    | _ => rfl
  rcases h with rfl | rfl | rfl | rfl | rfl | rfl | rfl | rfl | rfl
  · exact hescape
  · exact hescape
  · simp [raw]
  · simp [upper]
  · simp [lower]
  · simp [length]
  · simp only [fallback, Value.isEmpty_rename]
    split
    · cases args <;> rfl
    · rfl
  · have hitems : (rename f v).items.map (fun item => item.2.output) =
        v.items.map fun item => item.2.output := by
      rw [Value.items_rename v host]
      simp [Rename.map]
    simp [join, hhead, hitem, hitems]
  · have hkeys : (rename f v).items.map Prod.fst = rename f (v.items.map Prod.fst) := by
      rw [Value.items_rename v host]
      simp [Rename.map]
    simp [keys, hkeys]

theorem function_rename {g : Function ω} (hg : g ∈ Table.values (functions (ω := ω)))
    (state : CallState) (args : List (Value ω)) :
    g state (rename f args) = rename f (g state args) := by
  rw [functions] at hg
  have h := Table.mem_values_ofList hg
  simp only [List.map_cons, List.map_nil, List.mem_cons, List.not_mem_nil, or_false] at h
  subst h
  have hnumbers : (rename f args).map Value.toNumber = args.map Value.toNumber := by
    simp [Rename.map]
  simp only [range, hnumbers]
  rcases args.map Value.toNumber with _ | ⟨start, _ | ⟨stop, more⟩⟩
  · rfl
  · rfl
  · have hrange := Value.range_rename (ω := ω) (f := f) start stop (more.headD 1.0)
    simp only
    cases hr : (Value.range start stop (more.headD 1.0) : Except OperationError (Value ω)) with
    | error e => rfl
    | ok v =>
      rw [hr] at hrange
      exact congrArg Except.ok (Except.ok.inj hrange).symm

theorem test_rename {g : Test ω} (hf : Function.Injective f)
    (hg : g ∈ Table.values (tests (ω := ω))) (state : CallState) (v : Value ω)
    (args : List (Value ω)) : g state (rename f v) (rename f args) = g state v args := by
  rw [tests] at hg
  have h := Table.mem_values_ofList hg
  simp only [List.map_cons, List.map_nil, List.mem_cons, List.not_mem_nil, or_false] at h
  rcases h with rfl | rfl | rfl | rfl | rfl | rfl | rfl | rfl
  · simp
  · simp
  · simp
  · simp [integer]
  · simp [integer]
  · simp
  · cases args <;> simp [divisibleBy]
  · cases args <;> simp [Value.same_rename hf]

end Catalog

/-- The catalogs that are always there treat identities as names, if the objects of the host do. -/
theorem Environment.standard_opaque [HostObject ω]
    (host : ∀ {f : Nat → Nat}, Function.Injective f → HostObject.Opaque ω f)
    (source : TemplateSource) (patience : Nat) :
    (standard source patience : Environment ω).Opaque := by
  refine ⟨fun hf g hg => ?_, fun _ g hg => ?_, fun hf g hg => ?_, fun _ _ => rfl, host⟩
  · simp only [standard] at hg
    exact Catalog.filter_rename (host hf) hg
  · simp only [standard] at hg
    exact Catalog.function_rename hg
  · simp only [standard] at hg
    exact Catalog.test_rename hf hg

end Stencil
