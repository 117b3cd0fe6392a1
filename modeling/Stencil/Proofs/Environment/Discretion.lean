import Stencil.Proofs.Environment.Callbacks
import Stencil.Proofs.Render.Agree

/-!
Callbacks that do not look into templates.

Callbacks are handed values, and a value may hold macros, which belong to templates.  Of a macro a
callback can see its name and the name of its template, but not what the template consists of.  So
it answers alike when the values are alike, which is what `Likeness.Discreet` says of all callbacks
of an environment.  The catalogs that are always there are discreet.
-/

namespace Stencil

variable {ω : Type} [HostObject ω]

/-- Callbacks that answer alike when they are handed values that are alike. -/
structure Likeness.Discreet (κ : Likeness) (env : Environment ω) : Prop where
  filters : ∀ f ∈ env.filters.values, ∀ state {v v' args args'},
    κ.Values v v' → κ.Lists args args' → Results κ.Values (f state v args) (f state v' args')
  functions : ∀ f ∈ env.functions.values, ∀ state {args args'},
    κ.Lists args args' → Results κ.Values (f state args) (f state args')
  tests : ∀ f ∈ env.tests.values, ∀ state {v v' args args'},
    κ.Values v v' → κ.Lists args args' → Results Eq (f state v args) (f state v' args')
  call : ∀ (host : ω) name {args args'}, κ.Lists args args' →
    Results κ.Values (HostObject.call host name args) (HostObject.call host name args')

namespace Catalog

open Likeness

variable {κ : Likeness} {v v' : Value ω} {args args' : List (Value ω)}

/-- The printed form of an argument. -/
theorem output_argument (h : κ.Lists args args') (i : Nat) :
    args'[i]?.map Value.output = args[i]?.map Value.output := by
  have harg := getElem?_of_forall₂ h i
  generalize args[i]? = a, args'[i]? = a' at harg
  cases harg with
  | none => rfl
  | some h => exact congrArg some h.output

theorem output_head (h : κ.Lists args args') :
    args'.head?.map Value.output = args.head?.map Value.output := by
  rw [List.head?_eq_getElem?, List.head?_eq_getElem?]
  exact output_argument h 0

theorem escape_value (h : κ.Values v v') (context : String) :
    Escape.value v' context = Escape.value v context := by
  cases h <;> rfl

omit [HostObject ω] in
/-- A function of items that does not tell alike values apart. -/
theorem items_eq {α : Type} {items items' : List (Value ω × Value ω)}
    (h : Values.Items κ items items') {f : Value ω × Value ω → α}
    (hf : ∀ k v v', κ.Values v v' → f (k, v') = f (k, v)) : items'.map f = items.map f := by
  induction h with
  | nil => rfl
  | @cons p p' _ _ hp _ ih =>
    obtain ⟨k, v⟩ := p
    obtain ⟨k', v'⟩ := p'
    obtain ⟨rfl, hv⟩ := hp
    exact congrArg₂ List.cons (hf _ _ _ hv) ih

theorem filter_discreet {f : Filter ω} (hf : f ∈ Table.values (filters (ω := ω)))
    (state : CallState) (hv : κ.Values v v') (hargs : κ.Lists args args') :
    Results κ.Values (f state v args) (f state v' args') := by
  rw [filters] at hf
  have h := Table.mem_values_ofList hf
  simp only [List.map_cons, List.map_nil, List.mem_cons, List.not_mem_nil, or_false] at h
  have hescape : Results κ.Values (escape state v args) (escape state v' args') := by
    unfold escape
    rw [output_head hargs, escape_value hv]
    exact .ok (.same _)
  -- All but `default` give back something that is made of printed forms, keys and lengths.
  rcases h with rfl | rfl | rfl | rfl | rfl | rfl | rfl | rfl | rfl
  · exact hescape
  · exact hescape
  · unfold raw
    rw [hv.output]
    exact .ok (.same _)
  · unfold upper
    rw [hv.output]
    exact .ok (.same _)
  · unfold lower
    rw [hv.output]
    exact .ok (.same _)
  · unfold length
    rw [hv.length?, hv.output]
    exact .ok (.same _)
  · unfold fallback
    rw [hv.isEmpty]
    by_cases hempty : v.isEmpty
    · simp only [hempty, if_true]
      cases hargs with
      | nil => exact .ok (.same _)
      | cons harg _ => exact .ok harg
    · simp only [hempty]
      exact .ok hv
  · unfold join
    rw [output_head hargs, output_argument hargs, items_eq hv.items fun _ _ _ h => h.output]
    exact .ok (.same _)
  · unfold keys
    rw [items_eq hv.items fun _ _ _ _ => rfl]
    exact .ok (.same _)

theorem function_discreet {f : Function ω} (hf : f ∈ Table.values (functions (ω := ω)))
    (state : CallState) (hargs : κ.Lists args args') :
    Results κ.Values (f state args) (f state args') := by
  rw [functions] at hf
  have h := Table.mem_values_ofList hf
  simp only [List.map_cons, List.map_nil, List.mem_cons, List.not_mem_nil, or_false] at h
  subst h
  have hnumbers : args'.map Value.toNumber = args.map Value.toNumber := by
    induction hargs with
    | nil => rfl
    | cons harg _ ih => exact congrArg₂ List.cons harg.toNumber ih
  unfold range
  rw [hnumbers]
  exact .refl .same _

theorem test_discreet {f : Test ω} (hf : f ∈ Table.values (tests (ω := ω))) (state : CallState)
    (hv : κ.Values v v') (hargs : κ.Lists args args') :
    Results Eq (f state v args) (f state v' args') := by
  rw [tests] at hf
  have h := Table.mem_values_ofList hf
  simp only [List.map_cons, List.map_nil, List.mem_cons, List.not_mem_nil, or_false] at h
  have hinteger : integer v' = integer v := by
    unfold integer
    rw [hv.toNumber]
  rcases h with rfl | rfl | rfl | rfl | rfl | rfl | rfl | rfl
  · exact .ok hv.isNull.symm
  · exact .ok hv.isNull.symm
  · exact .ok hv.isEmpty.symm
  · simp only [hinteger]
    exact .ok rfl
  · simp only [hinteger]
    exact .ok rfl
  · exact .ok hv.isIterable.symm
  · unfold divisibleBy
    cases hargs with
    | nil => exact .error _
    | cons harg _ =>
      simp only [hv.toNumber, harg.toNumber]
      exact .refl (fun _ => rfl) _
  · cases hargs with
    | nil => exact .ok rfl
    | cons harg _ =>
      simp only [List.head?_cons, Option.any_some, Values.same_eq hv harg]
      exact .ok rfl

end Catalog

/-- The catalogs that are always there are discreet, if the methods of objects are. -/
theorem Environment.standard_discreet {κ : Likeness}
    (call : ∀ (host : ω) name {args args'}, κ.Lists args args' →
      Results κ.Values (HostObject.call host name args) (HostObject.call host name args'))
    (source : TemplateSource) (patience : Nat) :
    κ.Discreet (standard source patience : Environment ω) := by
  refine ⟨?_, ?_, ?_, call⟩
  · intro f hf state v v' args args' hv hargs
    simp only [standard] at hf
    exact Catalog.filter_discreet hf state hv hargs
  · intro f hf state args args' hargs
    simp only [standard] at hf
    exact Catalog.function_discreet hf state hargs
  · intro f hf state v v' args args' hv hargs
    simp only [standard] at hf
    exact Catalog.test_discreet hf state hv hargs

end Stencil
