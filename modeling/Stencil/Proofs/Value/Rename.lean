import Stencil.Catalog
import Stencil.Render.Scope

/-!
Identities of objects are names.

The objects that a host hands out during a render are numbered as they are met.  Nothing that values
are used for looks at these numbers, other than to tell whether two objects are one: renaming them,
different numbers to different ones, goes through every operation.  What the host itself computes is
not ours to see; `HostObject.Opaque` and its likes for callbacks say that it does not look at the
numbers either.
-/

namespace Stencil

/-! ## §1. Things with identities in them -/

/-- Things in which the numbers of met objects can be replaced. -/
class Rename (α : Type) where
  rename : (Nat → Nat) → α → α
  rename_id : ∀ a, rename id a = a

export Rename (rename)

attribute [simp] Rename.rename_id

namespace Rename

variable {α β ε : Type}

/-- Renaming for things without identities. -/
@[reducible]
def trivial (α : Type) : Rename α where
  rename := fun _ a => a
  rename_id := fun _ => rfl

instance : Rename Unit := trivial Unit
instance : Rename Bool := trivial Bool
instance : Rename String := trivial String
instance : Rename LiveTemplate := trivial LiveTemplate

instance [Rename α] : Rename (Option α) where
  rename f a := a.map (rename f)
  rename_id a := by cases a <;> simp

instance [Rename α] : Rename (List α) where
  rename f as := as.map (rename f)
  rename_id as := by induction as <;> simp_all

instance [Rename α] [Rename β] : Rename (α × β) where
  rename f p := (rename f p.1, rename f p.2)
  rename_id p := by simp

instance [Rename α] : Rename (Except ε α) where
  rename f r := r.map (rename f)
  rename_id r := by cases r <;> simp [Except.map]

variable (f : Nat → Nat)

@[simp] theorem unit (a : Unit) : rename f a = a := rfl

@[simp] theorem bool (b : Bool) : rename f b = b := rfl

@[simp] theorem string (s : String) : rename f s = s := rfl

@[simp] theorem template (t : LiveTemplate) : rename f t = t := rfl

variable [Rename α] [Rename β]

@[simp] theorem none : rename f (none : Option α) = .none := rfl

@[simp] theorem some (a : α) : rename f (some a) = .some (rename f a) := rfl

@[simp] theorem nil : rename f ([] : List α) = [] := rfl

@[simp] theorem cons (a : α) (as : List α) : rename f (a :: as) = rename f a :: rename f as := rfl

@[simp] theorem pair (a : α) (b : β) : rename f (a, b) = (rename f a, rename f b) := rfl

@[simp] theorem ok (a : α) : rename f (Except.ok a : Except ε α) = .ok (rename f a) := rfl

@[simp] theorem error (e : ε) : rename f (Except.error e : Except ε α) = .error e := rfl

theorem map (as : List α) : rename f as = as.map (rename f) := rfl

@[simp] theorem append (as bs : List α) : rename f (as ++ bs) = rename f as ++ rename f bs :=
  List.map_append

@[simp] theorem length (as : List α) : (rename f as).length = as.length :=
  List.length_map _

@[simp] theorem isEmpty (as : List α) : (rename f as).isEmpty = as.isEmpty := by
  cases as <;> rfl

theorem getElem? (as : List α) (i : Nat) : (rename f as)[i]? = rename f as[i]? :=
  List.getElem?_map

theorem head? (as : List α) : (rename f as).head? = rename f as.head? :=
  List.head?_map

end Rename

/-- The identity with another number for a met object. -/
def Identity.rename (f : Nat → Nat) : Identity → Identity
  | .met n => .met (f n)
  | i => i

/-- Different numbers to different ones: the renamed objects are one exactly when the objects
are. -/
theorem Identity.same_rename {f : Nat → Nat} (hf : Function.Injective f) (a b : Identity) :
    (a.rename f).same (b.rename f) = a.same b := by
  have heq : (a.rename f == b.rename f) = (a == b) := by
    rw [Bool.eq_iff_iff, beq_iff_eq, beq_iff_eq]
    cases a <;> cases b <;> simp [rename, hf.eq_iff]
  have hunknown : (a.rename f != .unknown) = (a != .unknown) := by
    cases a <;> rfl
  rw [same, heq, hunknown, same]

namespace Value

variable {ω : Type}

mutual

/-- The value with other numbers for the objects met. -/
def rename (f : Nat → Nat) : Value ω → Value ω
  | .array items => .array (renameAll f items)
  | .map entries => .map (renameEntries f entries)
  | .object identity host => .object (identity.rename f) host
  | v => v

/-- Renames in each of a list of values. -/
def renameAll (f : Nat → Nat) : List (Value ω) → List (Value ω)
  | [] => []
  | v :: vs => rename f v :: renameAll f vs

/-- Renames in each of the entries of a map. -/
def renameEntries (f : Nat → Nat) : List (String × Value ω) → List (String × Value ω)
  | [] => []
  | (key, v) :: entries => (key, rename f v) :: renameEntries f entries

end

mutual

theorem rename_id : ∀ v : Value ω, v.rename id = v
  | .array items => by rw [rename, renameAll_id items]
  | .map entries => by rw [rename, renameEntries_id entries]
  | .object identity host => by cases identity <;> rfl
  | .null | .bool _ | .number _ | .string _ | .safe _ | .callable _ => rfl

theorem renameAll_id : ∀ vs : List (Value ω), renameAll id vs = vs
  | [] => rfl
  | v :: vs => by rw [renameAll, rename_id v, renameAll_id vs]

theorem renameEntries_id : ∀ es : List (String × Value ω), renameEntries id es = es
  | [] => rfl
  | (key, v) :: es => by rw [renameEntries, rename_id v, renameEntries_id es]

end

instance : Rename (Value ω) := ⟨rename, rename_id⟩

variable (f : Nat → Nat)

theorem renameAll_eq (vs : List (Value ω)) : renameAll f vs = Stencil.rename f vs := by
  induction vs with
  | nil => rfl
  | cons v vs ih => rw [renameAll, ih]; rfl

theorem renameEntries_eq (es : List (String × Value ω)) :
    renameEntries f es = Stencil.rename f es := by
  induction es with
  | nil => rfl
  | cons e es ih => rw [renameEntries, ih]; rfl

@[simp] theorem rename_null : Stencil.rename f (null : Value ω) = .null := rfl

@[simp] theorem rename_bool (b : Bool) : Stencil.rename f (bool b : Value ω) = .bool b := rfl

@[simp] theorem rename_number (x : Float) : Stencil.rename f (number x : Value ω) = .number x := rfl

@[simp] theorem rename_ofNat (n : Nat) : Stencil.rename f (ofNat n : Value ω) = ofNat n := rfl

@[simp] theorem rename_string (s : String) : Stencil.rename f (string s : Value ω) = .string s :=
  rfl

@[simp] theorem rename_safe (s : SafeText) : Stencil.rename f (safe s : Value ω) = .safe s := rfl

@[simp] theorem rename_callable (m : MacroRef) :
    Stencil.rename f (callable m : Value ω) = .callable m := rfl

@[simp] theorem rename_object (i : Identity) (host : ω) :
    Stencil.rename f (object i host) = .object (i.rename f) host := rfl

@[simp] theorem rename_array (items : List (Value ω)) :
    Stencil.rename f (array items) = .array (Stencil.rename f items) :=
  congrArg array (renameAll_eq f items)

@[simp] theorem rename_map (entries : List (String × Value ω)) :
    Stencil.rename f (map entries) = .map (Stencil.rename f entries) :=
  congrArg map (renameEntries_eq f entries)

end Value

/-! ## §2. Tables and scopes -/

namespace Table

variable {α : Type} [Rename α] (f : Nat → Nat)

theorem find?_rename (t : Table α) (name : String) :
    (rename f t : Table α).find? name = rename f (t.find? name) := by
  induction t with
  | nil => rfl
  | cons entry t ih =>
    rw [Rename.cons, find?_cons, find?_cons, ih]
    by_cases h : entry.1 = name <;> simp [rename, h]

theorem has_rename (t : Table α) (name : String) :
    (rename f t : Table α).has name = t.has name := by
  rw [has_eq_isSome_find?, has_eq_isSome_find?, find?_rename]
  cases t.find? name <;> rfl

theorem insert_rename (t : Table α) (name : String) (a : α) :
    (rename f t : Table α).insert name (rename f a) = rename f (t.insert name a) := by
  induction t with
  | nil => rfl
  | cons entry t ih =>
    rw [Rename.cons, insert, insert, ih]
    -- The name of the entry, which decides where the new one goes, is not renamed.
    show (if entry.1 == name then _ else _) = _
    split
    · rfl
    · show (if name < entry.1 then _ else _) = _
      split <;> rfl

theorem insertAll_rename (t : Table α) (entries : List (String × α)) :
    (rename f t : Table α).insertAll (rename f entries) = rename f (t.insertAll entries) := by
  induction entries generalizing t with
  | nil => rfl
  | cons entry entries ih =>
    show ((rename f t : Table α).insert entry.1 (rename f entry.2)).insertAll (rename f entries) = _
    rw [insert_rename, ih]
    rfl

theorem ofList_rename (entries : List (String × α)) :
    ofList (rename f entries) = (rename f (ofList entries) : Table α) :=
  insertAll_rename f [] entries

end Table

namespace Scope

variable {ω : Type}

instance : Rename (Scope ω) where
  rename f s := ⟨rename f s.root, rename f s.innermost, rename f s.below⟩
  rename_id s := by simp

variable (f : Nat → Nat) (s : Scope ω)

@[simp] theorem root_rename : (rename f s).root = rename f s.root := rfl

@[simp] theorem layers_rename : (rename f s).layers = rename f s.layers := rfl

@[simp] theorem rename_ofLayer (root : Option (Table (Value ω))) (layer : Table (Value ω)) :
    rename f (ofLayer root layer) = ofLayer (rename f root) (rename f layer) := rfl

@[simp] theorem rename_assign (name : String) (v : Value ω) :
    rename f (s.assign name v) = (rename f s).assign name (rename f v) := by
  have h := Table.insert_rename f s.innermost name v
  show Scope.mk (rename f s.root) (rename f (s.innermost.insert name v)) (rename f s.below) = _
  rw [← h]
  rfl

@[simp] theorem rename_push (layer : Table (Value ω)) :
    rename f (s.push layer) = (rename f s).push (rename f layer) := rfl

@[simp] theorem rename_pop : rename f s.pop = (rename f s).pop := by
  obtain ⟨root, innermost, below⟩ := s
  cases below <;> rfl

theorem find?_rename (name : String) : (rename f s).find? name = rename f (s.find? name) := by
  have hlayers : ∀ layers : List (Table (Value ω)),
      List.findSome? (Table.find? · name) (rename f layers) =
        rename f (layers.findSome? (Table.find? · name)) := by
    intro layers
    induction layers with
    | nil => rfl
    | cons layer layers ih =>
      rw [Rename.cons, List.findSome?_cons, List.findSome?_cons, Table.find?_rename, ih]
      cases Table.find? layer name <;> rfl
  have hroot : (rename f s.root).bind (Table.find? · name) =
      rename f (s.root.bind (Table.find? · name)) := by
    cases s.root with
    | none => rfl
    | some root => exact Table.find?_rename f root name
  rw [find?, layers_rename, root_rename, hlayers, hroot, find?]
  cases s.layers.findSome? (Table.find? · name) <;> rfl

@[simp] theorem flatten_rename : (rename f s).flatten = rename f s.flatten := by
  rw [flatten, flatten, layers_rename]
  induction s.layers with
  | nil => rfl
  | cons layer layers ih =>
    rw [Rename.cons, List.foldr_cons, List.foldr_cons, ih, Table.insertAll_rename]

end Scope

/-! ## §3. What values count as -/

namespace HostObject

/-- Objects of the host hand out nothing that has been met already, and their methods treat the
identities in what they are given as names. -/
structure Opaque (ω : Type) [HostObject ω] (f : Nat → Nat) : Prop where
  attr : ∀ (host : ω) name, rename f (attr host name) = attr host name
  items : ∀ host : ω, rename f (items host) = items host
  call : ∀ (host : ω) name args, call host name (rename f args) = rename f (call host name args)

end HostObject

namespace Value

variable {ω : Type} (f : Nat → Nat) (v : Value ω)

@[simp] theorem kind_rename : (Stencil.rename f v).kind = v.kind := by
  cases v <;> simp [kind]

@[simp] theorem text?_rename : (Stencil.rename f v).text? = v.text? := by
  cases v <;> simp [text?]

@[simp] theorem isNull_rename : (Stencil.rename f v).isNull = v.isNull := by
  cases v <;> simp [isNull]

theorem indexed_rename (items : List (Value ω)) :
    indexed (Stencil.rename f items) = Stencil.rename f (indexed items) := by
  simp [indexed, Rename.map, List.zipIdx_map]

@[simp] theorem index?_rename (length : Nat) :
    (Stencil.rename f v).index? length = v.index? length := by
  cases v <;> simp [index?]

variable [HostObject ω]

@[simp] theorem truthy_rename : (Stencil.rename f v).truthy = v.truthy := by
  cases v <;> simp [truthy]

@[simp] theorem toNumber_rename : (Stencil.rename f v).toNumber = v.toNumber := by
  cases v <;> simp [toNumber]

@[simp] theorem output_rename : (Stencil.rename f v).output = v.output := by
  cases v <;> simp [output]

@[simp] theorem length?_rename : (Stencil.rename f v).length? = v.length? := by
  cases v <;> simp [length?]

@[simp] theorem isEmpty_rename : (Stencil.rename f v).isEmpty = v.isEmpty := by
  simp [isEmpty]

@[simp] theorem isIterable_rename : (Stencil.rename f v).isIterable = v.isIterable := by
  cases v <;> simp [isIterable]

variable {f}

theorem items_rename (host : HostObject.Opaque ω f) :
    (Stencil.rename f v).items = Stencil.rename f v.items := by
  cases v with
  | array items =>
    exact (congrArg Value.items (rename_array f items)).trans (indexed_rename f items)
  | map entries =>
    rw [rename_map]
    simp [items, Rename.map]
  | object i o =>
    rw [rename_object, items, items, ← indexed_rename]
    congr 1
    have h := host.items o
    cases ho : HostObject.items o with
    | none => rfl
    | some items =>
      rw [ho] at h
      exact (Option.some.inj h).symm
  | _ => rfl

theorem attribute?_rename (host : HostObject.Opaque ω f) (key : Value ω) :
    (Stencil.rename f v).attribute? (Stencil.rename f key) =
      Stencil.rename f (v.attribute? key) := by
  cases v with
  | map entries => simp [attribute?, Table.find?_rename]
  | array items =>
    simp only [rename_array, attribute?, index?_rename, Rename.length]
    cases key.index? items.length with
    | none => rfl
    | some i => exact Rename.getElem? f items i
  | string s =>
    simp only [rename_string, attribute?, index?_rename]
    rcases key.index? s.length with _ | i
    · rfl
    · simp only [Option.bind_some]
      cases s.toList[i]? <;> rfl
  | safe s =>
    simp only [rename_safe, attribute?, index?_rename]
    rcases key.index? s.text.length with _ | i
    · rfl
    · simp only [Option.bind_some]
      cases s.text.toList[i]? <;> rfl
  | object i o =>
    simp only [rename_object, attribute?, output_rename]
    exact (host.attr o key.output).symm
  | _ => rfl

/-! ## §4. New identities -/

omit [HostObject ω] in
set_option linter.unusedSectionVars false in
mutual

/-- Objects met from a number on are those met from another number on, when renaming takes the one
range of numbers to the other. -/
theorem identify_rename : ∀ (v : Value ω) {m n : Nat}, (∀ i, f (m + i) = n + i) →
    identify .met (Stencil.rename f v) n =
        (Stencil.rename f (identify .met v m).1, n + ((identify .met v m).2 - m)) ∧
      m ≤ (identify .met v m).2
  | .array items, m, n, h => by
    obtain ⟨heq, hle⟩ := identifyAll_rename items h
    simp [identify, heq, hle]
  | .map entries, m, n, h => by
    obtain ⟨heq, hle⟩ := identifyEntries_rename entries h
    simp [identify, heq, hle]
  | .object .unknown host, m, n, h => by
    have h0 : f m = n := h 0
    simp [identify, Identity.rename, h0]
  | .object (.given _) _, m, n, h | .object (.met _) _, m, n, h => by
    simp [identify, Identity.rename]
  | .null, m, n, h | .bool _, m, n, h | .number _, m, n, h | .string _, m, n, h
  | .safe _, m, n, h | .callable _, m, n, h => by simp [identify]

theorem identifyAll_rename : ∀ (vs : List (Value ω)) {m n : Nat}, (∀ i, f (m + i) = n + i) →
    identifyAll .met (Stencil.rename f vs) n =
        (Stencil.rename f (identifyAll .met vs m).1, n + ((identifyAll .met vs m).2 - m)) ∧
      m ≤ (identifyAll .met vs m).2
  | [], m, n, h => by simp [identifyAll]
  | v :: vs, m, n, h => by
    obtain ⟨heq, hle⟩ := identify_rename v h
    -- The numbers after those of `v` still correspond.
    have hrest : ∀ i, f ((identify .met v m).2 + i) = n + ((identify .met v m).2 - m) + i := by
      intro i
      have := h ((identify .met v m).2 - m + i)
      rwa [← Nat.add_assoc, Nat.add_sub_cancel' hle, ← Nat.add_assoc] at this
    obtain ⟨heqs, hles⟩ := identifyAll_rename vs hrest
    refine ⟨?_, Nat.le_trans hle (by simpa [identifyAll] using hles)⟩
    simp only [Rename.cons, identifyAll, heq, heqs]
    congr 1
    omega

theorem identifyEntries_rename : ∀ (es : List (String × Value ω)) {m n : Nat},
    (∀ i, f (m + i) = n + i) →
    identifyEntries .met (Stencil.rename f es) n =
        (Stencil.rename f (identifyEntries .met es m).1, n + ((identifyEntries .met es m).2 - m)) ∧
      m ≤ (identifyEntries .met es m).2
  | [], m, n, h => by simp [identifyEntries]
  | (key, v) :: es, m, n, h => by
    obtain ⟨heq, hle⟩ := identify_rename v h
    have hrest : ∀ i, f ((identify .met v m).2 + i) = n + ((identify .met v m).2 - m) + i := by
      intro i
      have := h ((identify .met v m).2 - m + i)
      rwa [← Nat.add_assoc, Nat.add_sub_cancel' hle, ← Nat.add_assoc] at this
    obtain ⟨heqs, hles⟩ := identifyEntries_rename es hrest
    refine ⟨?_, Nat.le_trans hle (by simpa [identifyEntries] using hles)⟩
    simp only [Rename.cons, Rename.pair, Rename.string, identifyEntries, heq, heqs]
    congr 1
    omega

end

/-! ## §5. Comparing -/

section Compare

variable (hf : Function.Injective f)
include hf

omit [HostObject ω] in
set_option linter.unusedSectionVars false in
mutual

theorem same_rename : ∀ v w : Value ω,
    (Stencil.rename f v).same (Stencil.rename f w) = v.same w
  | .array as, w => by
    cases w with
    | array bs => simpa [same] using sameAll_rename as bs
    | _ => simp [same]
  | .map as, w => by
    cases w with
    | map bs => simpa [same] using sameEntries_rename as bs
    | _ => simp [same]
  | .object i _, w => by
    cases w with
    | object j _ => simpa [same] using Identity.same_rename hf i j
    | _ => simp [same]
  | .null, w | .bool _, w | .number _, w | .string _, w | .safe _, w | .callable _, w => by
    cases w <;> simp [same]

theorem sameAll_rename : ∀ vs ws : List (Value ω),
    sameAll (Stencil.rename f vs) (Stencil.rename f ws) = sameAll vs ws
  | [], [] | [], _ :: _ | _ :: _, [] => by simp [sameAll]
  | v :: vs, w :: ws => by simp [sameAll, same_rename v w, sameAll_rename vs ws]

theorem sameEntries_rename : ∀ vs ws : List (String × Value ω),
    sameEntries (Stencil.rename f vs) (Stencil.rename f ws) = sameEntries vs ws
  | [], [] | [], _ :: _ | _ :: _, [] => by simp [sameEntries]
  | (k, v) :: vs, (l, w) :: ws => by
    simp [sameEntries, same_rename v w, sameEntries_rename vs ws]

end

omit [HostObject ω] in
theorem sameText_rename (v w : Value ω) :
    (Stencil.rename f v).sameText (Stencil.rename f w) = v.sameText w := by
  simp only [sameText, text?_rename, same_rename hf]

omit [HostObject ω] hf in
theorem readsAs_rename (v : Value ω) (x : Float) :
    (Stencil.rename f v).readsAs x = v.readsAs x := by
  simp only [readsAs, text?_rename]

set_option linter.unusedSectionVars false in
mutual

theorem looseEq_rename : ∀ v w : Value ω,
    (Stencil.rename f v).looseEq (Stencil.rename f w) = v.looseEq w
  | .array as, w => by
    cases w with
    | array bs => simpa [looseEq] using looseEqAll_rename as bs
    | _ => simp [looseEq]
  | .map as, w => by
    cases w with
    | map bs => simpa [looseEq] using looseEqEntries_rename as bs
    | _ => simp [looseEq]
  | .null, w | .bool _, w => by simp [looseEq]
  | .number x, w => by
    have h := readsAs_rename (f := f) w x
    cases w <;> simp_all [looseEq]
  | .string s, w => by
    have h := sameText_rename hf (.string s) w
    cases w <;> simp_all [looseEq]
  | .safe s, w => by
    have h := sameText_rename hf (.safe s) w
    cases w <;> simp_all [looseEq]
  | .callable m, w => by
    have h := sameText_rename hf (.callable m) w
    cases w <;> simp_all [looseEq]
  | .object i host, w => by
    have h := sameText_rename hf (.object i host) w
    have ht := truthy_rename f (.object i host)
    have hr := fun x => readsAs_rename (f := f) (.object i host) x
    cases w <;> simp_all [looseEq]

theorem looseEqAll_rename : ∀ vs ws : List (Value ω),
    looseEqAll (Stencil.rename f vs) (Stencil.rename f ws) = looseEqAll vs ws
  | [], [] | [], _ :: _ | _ :: _, [] => by simp [looseEqAll]
  | v :: vs, w :: ws => by simp [looseEqAll, looseEq_rename v w, looseEqAll_rename vs ws]

theorem looseEqEntries_rename : ∀ vs ws : List (String × Value ω),
    looseEqEntries (Stencil.rename f vs) (Stencil.rename f ws) = looseEqEntries vs ws
  | [], [] | [], _ :: _ | _ :: _, [] => by simp [looseEqEntries]
  | (k, v) :: vs, (l, w) :: ws => by
    simp [looseEqEntries, looseEq_rename v w, looseEqEntries_rename vs ws]

end

omit hf in
theorem compare_rename (v w : Value ω) :
    (Stencil.rename f v).compare (Stencil.rename f w) = v.compare w := by
  simp only [compare, text?_rename, toNumber_rename]

theorem any_looseEq_rename (items : List (Value ω)) (needle : Value ω) :
    List.any (Stencil.rename f items) (looseEq · (Stencil.rename f needle)) =
      items.any (looseEq · needle) := by
  induction items with
  | nil => rfl
  | cons item items ih => simp only [Rename.cons, List.any_cons, ih, looseEq_rename hf]

theorem contains_rename (host : HostObject.Opaque ω f) (v needle : Value ω) :
    (Stencil.rename f v).contains (Stencil.rename f needle) = v.contains needle := by
  cases v with
  | array items => simpa [contains] using any_looseEq_rename hf items needle
  | map entries => simp [contains, Table.has_rename]
  | object i o =>
    -- The items of the object are handed out anew, so that nothing in them is renamed.
    have hitems : Stencil.rename f ((HostObject.items o).getD []) =
        (HostObject.items o).getD [] := by
      have h := host.items o
      cases ho : HostObject.items o with
      | none => rfl
      | some items =>
        rw [ho] at h
        exact Option.some.inj h
    have h := any_looseEq_rename hf ((HostObject.items o).getD []) needle
    rw [hitems] at h
    simpa [contains] using h
  | _ => simp [contains]

/-! ## §6. Operators -/

omit hf [HostObject ω] in
theorem range_rename (start stop step : Float) :
    Stencil.rename f (range start stop step : Except OperationError (Value ω)) =
      range start stop step := by
  unfold range
  cases Number.range start stop step with
  | error e => rfl
  | ok xs => simp [Except.map, Rename.map]

omit hf in
theorem divide_rename (onZero : OperationError) (g : Float → Float → Float) (v w : Value ω) :
    divide onZero g (Stencil.rename f v) (Stencil.rename f w) =
      Stencil.rename f (divide onZero g v w) := by
  simp only [divide, toNumber_rename]
  split <;> rfl

omit hf in
theorem matches?_rename (v w : Value ω) :
    matches? (Stencil.rename f v) (Stencil.rename f w) = Stencil.rename f (matches? v w) := by
  simp only [matches?, output_rename]
  cases Pattern.parseDelimited? w.output <;> rfl

/-- Binary operators treat identities as names. -/
theorem binary_rename (host : HostObject.Opaque ω f) (op : BinaryOp) (v w : Value ω) :
    binary op (Stencil.rename f v) (Stencil.rename f w) = Stencil.rename f (binary op v w) := by
  cases op <;> simp [binary, looseEq_rename hf, compare_rename, contains_rename hf host,
    divide_rename, matches?_rename, range_rename]

omit hf in
theorem unary_rename (op : UnaryOp) (v : Value ω) :
    unary op (Stencil.rename f v) = Stencil.rename f (unary op v) := by
  cases op <;> simp [unary]

end Compare

end Value

end Stencil
