/-!
Finite maps from names.

A table is the list of its entries in the order of their names, each name once.  Names are ordered
by code points, which is also the order of their UTF-8 bytes.  Tables hold contexts, template maps,
scopes and the definitions of a template.
-/

namespace Stencil

/-- A finite map from names, as the list of its entries in the order of their names. -/
abbrev Table (α : Type) := List (String × α)

namespace Table

variable {α β : Type}

/-- The entry of a name. -/
def find? (t : Table α) (name : String) : Option α :=
  (List.find? (fun entry => entry.1 == name) t).map Prod.snd

/-- Whether a name has an entry. -/
def has (t : Table α) (name : String) : Bool :=
  List.any t fun entry => entry.1 == name

/-- Sets the entry of a name. -/
def insert : Table α → String → α → Table α
  | [], name, a => [(name, a)]
  | entry :: t, name, a =>
    if entry.1 == name then (name, a) :: t
    else if name < entry.1 then (name, a) :: entry :: t
    else entry :: insert t name a

/-- Sets the entries of a list of names one after the other. -/
def insertAll (t : Table α) (entries : List (String × α)) : Table α :=
  entries.foldl (fun t entry => t.insert entry.1 entry.2) t

/-- The table of a list of entries, of which later ones win. -/
def ofList (entries : List (String × α)) : Table α :=
  insertAll [] entries

/-- The names that have entries, in order. -/
def names (t : Table α) : List String :=
  t.map Prod.fst

/-- The entries without their names, in the order of the names. -/
def values (t : Table α) : List α :=
  t.map Prod.snd

/-- Names in strictly ascending order: the entries of a table are found by name and by order. -/
def Sorted (t : Table α) : Prop :=
  t.Pairwise fun a b => a.1 < b.1

@[simp] theorem find?_nil (name : String) : find? ([] : Table α) name = none := rfl

theorem find?_cons (entry : String × α) (t : Table α) (name : String) :
    find? (entry :: t) name = if entry.1 = name then some entry.2 else t.find? name := by
  by_cases h : entry.1 = name <;> simp [find?, h]

/-- What was set is found. -/
@[simp] theorem find?_insert_self (t : Table α) (name : String) (a : α) :
    (t.insert name a).find? name = some a := by
  induction t with
  | nil => simp [insert, find?_cons]
  | cons entry t ih =>
    by_cases h : entry.1 = name
    · simp [insert, find?_cons, h]
    · by_cases hlt : name < entry.1 <;> simp [insert, find?_cons, h, hlt, ih]

/-- Other names keep their entries. -/
theorem find?_insert_ne (t : Table α) {name other : String} (a : α) (h : name ≠ other) :
    (t.insert name a).find? other = t.find? other := by
  induction t with
  | nil => simp [insert, find?_cons, h]
  | cons entry t ih =>
    by_cases he : entry.1 = name
    · subst he; simp [insert, find?_cons, h]
    · by_cases hlt : name < entry.1
      · simp [insert, find?_cons, he, hlt, h]
      · simp [insert, find?_cons, he, hlt, ih]

/-- A name has an entry exactly when one is found. -/
theorem has_eq_isSome_find? (t : Table α) (name : String) : t.has name = (t.find? name).isSome := by
  induction t with
  | nil => rfl
  | cons entry t ih =>
    rw [find?_cons]
    by_cases h : entry.1 = name
    · simp [has, h]
    · simp only [has] at ih
      simp [has, h, ih]

/-- What a table holds after an entry was set is that entry or was there before. -/
theorem mem_values_insert {t : Table α} {name : String} {a b : α}
    (h : b ∈ (t.insert name a).values) : b = a ∨ b ∈ t.values := by
  induction t with
  | nil => simpa [insert, values] using h
  | cons entry t ih =>
    simp only [values, List.map_cons, List.mem_cons] at ih ⊢
    unfold insert at h
    split at h
    · exact (List.mem_cons.mp h).imp_right .inr
    · split at h
      · exact (List.mem_cons.mp h).imp_right List.mem_cons.mp
      · rcases List.mem_cons.mp h with h | h
        · exact .inr (.inl h)
        · exact (ih h).imp_right .inr

end Table

end Stencil
