import Stencil.Value.Basic

/-!
Values whose objects are told apart.

An object that the host has just handed out has no identity yet, and is given one before anything
else can get hold of it.  A value without such objects is settled.  Giving identities settles a
value and leaves a settled one alone, and what a settled value has inside is settled.
-/

namespace Stencil.Value

variable {ω : Type}

mutual

/-- Whether every object in a value has an identity. -/
def Settled : Value ω → Prop
  | .array items => SettledAll items
  | .map entries => SettledEntries entries
  | .object identity _ => identity ≠ .unknown
  | _ => True

/-- Whether every object in a list of values has an identity. -/
def SettledAll : List (Value ω) → Prop
  | [] => True
  | v :: vs => v.Settled ∧ SettledAll vs

/-- Whether every object in the entries of a map has an identity. -/
def SettledEntries : List (String × Value ω) → Prop
  | [] => True
  | (_, v) :: entries => v.Settled ∧ SettledEntries entries

end

theorem settledAll_iff {vs : List (Value ω)} : SettledAll vs ↔ ∀ v ∈ vs, v.Settled := by
  induction vs with
  | nil => exact ⟨fun _ => nofun, fun _ => trivial⟩
  | cons v vs ih => rw [SettledAll, ih, List.forall_mem_cons]

theorem settledEntries_iff {entries : List (String × Value ω)} :
    SettledEntries entries ↔ ∀ entry ∈ entries, entry.2.Settled := by
  induction entries with
  | nil => exact ⟨fun _ => nofun, fun _ => trivial⟩
  | cons entry entries ih => rw [SettledEntries, ih, List.forall_mem_cons]

/-! ## §1. Giving identities -/

mutual

/-- There is nothing to do in a settled value. -/
theorem Settled.identify_eq {v : Value ω} (name : Nat → Identity) (n : Nat) (h : v.Settled) :
    v.identify name n = (v, n) := by
  match v with
  | .array items =>
    rw [Settled] at h
    rw [identify, SettledAll.identifyAll_eq name n h]
  | .map entries =>
    rw [Settled] at h
    rw [identify, SettledEntries.identifyEntries_eq name n h]
  | .object identity host =>
    rw [Settled] at h
    cases identity with
    | unknown => exact absurd rfl h
    | given | met => rfl
  | .null | .bool _ | .number _ | .string _ | .safe _ | .callable _ => rfl

theorem SettledAll.identifyAll_eq {vs : List (Value ω)} (name : Nat → Identity) (n : Nat)
    (h : SettledAll vs) : identifyAll name vs n = (vs, n) := by
  match vs with
  | [] => rfl
  | v :: vs =>
    simp only [identifyAll, h.1.identify_eq name n, SettledAll.identifyAll_eq name n h.2]

theorem SettledEntries.identifyEntries_eq {entries : List (String × Value ω)}
    (name : Nat → Identity) (n : Nat) (h : SettledEntries entries) :
    identifyEntries name entries n = (entries, n) := by
  match entries with
  | [] => rfl
  | (_, v) :: entries =>
    simp only [identifyEntries, h.1.identify_eq name n,
      SettledEntries.identifyEntries_eq name n h.2]

end

mutual

/-- Values that were given identities are settled. -/
theorem settled_identify {name : Nat → Identity} (hname : ∀ n, name n ≠ .unknown) (v : Value ω)
    (n : Nat) : (v.identify name n).1.Settled := by
  match v with
  | .array items =>
    rw [identify, Settled]
    exact settledAll_identifyAll hname items n
  | .map entries =>
    rw [identify, Settled]
    exact settledEntries_identifyEntries hname entries n
  | .object identity host =>
    cases identity with
    | unknown => exact hname n
    | given | met => exact nofun
  | .null | .bool _ | .number _ | .string _ | .safe _ | .callable _ => trivial

theorem settledAll_identifyAll {name : Nat → Identity} (hname : ∀ n, name n ≠ .unknown)
    (vs : List (Value ω)) (n : Nat) : SettledAll (identifyAll name vs n).1 := by
  match vs with
  | [] => trivial
  | v :: vs => exact ⟨settled_identify hname v n, settledAll_identifyAll hname vs _⟩

theorem settledEntries_identifyEntries {name : Nat → Identity} (hname : ∀ n, name n ≠ .unknown)
    (entries : List (String × Value ω)) (n : Nat) :
    SettledEntries (identifyEntries name entries n).1 := by
  match entries with
  | [] => trivial
  | (_, v) :: entries =>
    exact ⟨settled_identify hname v n, settledEntries_identifyEntries hname entries _⟩

end

/-! ## §2. Inside a value -/

variable [HostObject ω]

/-- The attributes of a settled value are settled, apart from those that an object hands out. -/
theorem Settled.attribute {v key w : Value ω} (h : v.Settled)
    (hobject : ∀ identity host, v ≠ .object identity host) (hw : v.attribute? key = some w) :
    w.Settled := by
  cases v with
  | array items =>
    rw [Settled] at h
    obtain ⟨i, -, hi⟩ := Option.bind_eq_some_iff.mp hw
    exact settledAll_iff.mp h w (List.mem_of_getElem? hi)
  | map entries =>
    rw [Settled] at h
    obtain ⟨entry, hentry, rfl⟩ := Option.map_eq_some_iff.mp hw
    exact settledEntries_iff.mp h entry (List.mem_of_find?_eq_some hentry)
  | string s | safe s =>
    -- The characters of a text are texts.
    obtain ⟨i, -, hi⟩ := Option.bind_eq_some_iff.mp hw
    obtain ⟨c, -, rfl⟩ := Option.map_eq_some_iff.mp hi
    trivial
  | object identity host => exact absurd rfl (hobject identity host)
  | null | bool | number | callable => cases hw

end Stencil.Value
