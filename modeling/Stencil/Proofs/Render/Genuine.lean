import Stencil.Proofs.Environment.Callbacks
import Stencil.Proofs.Template.Ownership
import Stencil.Render

/-!
Genuine references.

A render keeps numbers of blocks and macros together with the template that is to look them up: in
macros that are values, in compositions, in the levels of a chain.  Such a reference is genuine if
the number was issued by that very template, and the template is grounded.  Renders make genuine
references and no others, and values, tables and scopes hand on what was put into them.  What the
host does with macros that it is given is not ours to see: `Environment.HandsOn` says that it makes
up none.
-/

namespace Stencil

/-! ## §1. Things with references in them -/

/-- An error that is raised by code. -/
def Error.isOfCode : Error → Prop
  | .render .. => True
  | _ => False

/-- Things that may refer to templates and their definitions. -/
class HasReferences (α : Type) where
  /-- Whether all references are to grounded templates and to numbers that these issued. -/
  Genuine : α → Prop

export HasReferences (Genuine)

namespace Genuine

variable {α β ε : Type}

/-- Things without references. -/
@[reducible]
def trivially (α : Type) : HasReferences α := ⟨fun _ => True⟩

instance : HasReferences Unit := trivially Unit
instance : HasReferences Bool := trivially Bool
instance : HasReferences String := trivially String

instance : HasReferences Template := ⟨Template.Grounded⟩

instance : HasReferences LiveTemplate := ⟨fun t => t.template.Grounded⟩

instance : HasReferences MacroRef :=
  ⟨fun m => m.owner.template.Grounded ∧ m.owner.template.Issues (.macroDef m.id)⟩

instance : HasReferences BlockRef :=
  ⟨fun r => r.owner.template.Grounded ∧ r.owner.template.Issues (.block r.id)⟩

instance : HasReferences UsedTemplate := ⟨fun u => u.template.template.Grounded⟩

instance [HasReferences α] : HasReferences (Option α) := ⟨fun a => ∀ x ∈ a, Genuine x⟩

instance [HasReferences α] : HasReferences (List α) := ⟨fun as => ∀ a ∈ as, Genuine a⟩

instance [HasReferences α] [HasReferences β] : HasReferences (α × β) :=
  ⟨fun p => Genuine p.1 ∧ Genuine p.2⟩

/-- What is handed around as a result is no error of code. -/
instance : HasReferences Error := ⟨fun e => ¬ e.isOfCode⟩

instance : HasReferences Failure where
  Genuine
    | .error e => Genuine e
    | .exhausted => True

instance [HasReferences ε] [HasReferences α] : HasReferences (Except ε α) where
  Genuine
    | .ok a => Genuine a
    | .error e => Genuine e

instance : HasReferences Level := ⟨fun l => Genuine l.template ∧ Genuine l.uses⟩

@[simp] theorem unit (a : Unit) : Genuine a := True.intro

@[simp] theorem bool (b : Bool) : Genuine b := True.intro

@[simp] theorem string (s : String) : Genuine s := True.intro

variable [HasReferences α] [HasReferences β] {a : α} {as bs : List α}

@[simp] theorem none : Genuine (none : Option α) := nofun

@[simp] theorem some : Genuine (some a) ↔ Genuine a := by
  simp [Genuine]

@[simp] theorem nil : Genuine ([] : List α) := nofun

@[simp] theorem cons : Genuine (a :: as) ↔ Genuine a ∧ Genuine as :=
  List.forall_mem_cons

@[simp] theorem append : Genuine (as ++ bs) ↔ Genuine as ∧ Genuine bs :=
  List.forall_mem_append

@[simp] theorem ok [HasReferences ε] : Genuine (.ok a : Except ε α) ↔ Genuine a := .rfl

@[simp] theorem error [HasReferences ε] {e : ε} : Genuine (.error e : Except ε α) ↔ Genuine e :=
  .rfl

@[simp] theorem pair {b : β} : Genuine (a, b) ↔ Genuine a ∧ Genuine b := .rfl

theorem map {f : α → β} (h : Genuine as) (hf : ∀ a, Genuine a → Genuine (f a)) :
    Genuine (as.map f) := by
  intro b hb
  obtain ⟨a, ha, rfl⟩ := List.mem_map.mp hb
  exact hf a (h a ha)

theorem flatMap {f : α → List β} (h : Genuine as) (hf : ∀ a, Genuine a → Genuine (f a)) :
    Genuine (as.flatMap f) := by
  intro b hb
  obtain ⟨a, ha, hb⟩ := List.mem_flatMap.mp hb
  exact hf a (h a ha) b hb

theorem reverse (h : Genuine as) : Genuine as.reverse :=
  fun a ha => h a (List.mem_reverse.mp ha)

theorem filter {p : α → Bool} (h : Genuine as) : Genuine (as.filter p) :=
  fun a ha => h a (List.mem_filter.mp ha).1

theorem getElem? (h : Genuine as) (i : Nat) : Genuine as[i]? :=
  fun a ha => h a (List.mem_of_getElem? ha)

theorem getD {o : Option α} (ho : Genuine o) (ha : Genuine a) : Genuine (o.getD a) := by
  cases o with
  | none => exact ha
  | some b => exact some.mp ho

theorem or {o p : Option α} (ho : Genuine o) (hp : Genuine p) : Genuine (o.or p) := by
  cases o with
  | none => exact hp
  | some a => exact ho

end Genuine

/-! ## §2. Values -/

namespace Value

variable {ω : Type}

mutual

/-- The macros in a value. -/
def macros : Value ω → List MacroRef
  | .callable m => [m]
  | .array items => macrosAll items
  | .map entries => macrosEntries entries
  | .null | .bool _ | .number _ | .string _ | .safe _ | .object .. => []

/-- The macros in a list of values. -/
def macrosAll : List (Value ω) → List MacroRef
  | [] => []
  | v :: vs => v.macros ++ macrosAll vs

/-- The macros in the entries of a map. -/
def macrosEntries : List (String × Value ω) → List MacroRef
  | [] => []
  | (_, v) :: entries => v.macros ++ macrosEntries entries

end

instance : HasReferences (Value ω) := ⟨fun v => Genuine v.macros⟩

@[simp] theorem genuine_null : Genuine (null : Value ω) := nofun

@[simp] theorem genuine_bool (b : Bool) : Genuine (bool b : Value ω) := nofun

@[simp] theorem genuine_number (x : Float) : Genuine (number x : Value ω) := nofun

@[simp] theorem genuine_ofNat (n : Nat) : Genuine (ofNat n : Value ω) := nofun

@[simp] theorem genuine_string (s : String) : Genuine (string s : Value ω) := nofun

@[simp] theorem genuine_safe (s : SafeText) : Genuine (safe s : Value ω) := nofun

@[simp] theorem genuine_object (i : Identity) (host : ω) : Genuine (object i host) := nofun

@[simp] theorem genuine_callable {m : MacroRef} :
    Genuine (callable m : Value ω) ↔ Genuine m :=
  List.forall_mem_singleton

@[simp] theorem genuine_array {items : List (Value ω)} :
    Genuine (array items) ↔ Genuine items := by
  show Genuine (macrosAll items) ↔ _
  induction items with
  | nil => simp [macrosAll]
  | cons v vs ih =>
    rw [macrosAll, Genuine.append, Genuine.cons, ih]
    rfl

@[simp] theorem genuine_map {entries : List (String × Value ω)} :
    Genuine (map entries) ↔ Genuine entries := by
  show Genuine (macrosEntries entries) ↔ _
  induction entries with
  | nil => simp [macrosEntries]
  | cons entry entries ih =>
    rw [macrosEntries, Genuine.append, Genuine.cons, ih]
    exact and_congr_left fun _ => (iff_of_eq (true_and (Genuine entry.2))).symm

end Value

/-! ## §3. Tables and scopes -/

namespace Table

variable {α : Type} [HasReferences α] {t : Table α} {name : String} {a : α}

theorem genuine_iff : Genuine t ↔ Genuine t.values := by
  induction t with
  | nil => exact iff_of_true Genuine.nil Genuine.nil
  | cons entry t ih =>
    rw [values] at ih
    rw [values, List.map_cons, Genuine.cons, Genuine.cons, ih]
    exact and_congr_left fun _ => iff_of_eq (true_and (Genuine entry.2))

theorem genuine_find? (h : Genuine t) (name : String) : Genuine (t.find? name) :=
  fun a ha => genuine_iff.mp h a (mem_values_of_find? ha)

theorem genuine_insert (h : Genuine t) (ha : Genuine a) : Genuine (t.insert name a) := by
  refine genuine_iff.mpr fun b hb => ?_
  rcases mem_values_insert hb with rfl | hb
  · exact ha
  · exact genuine_iff.mp h b hb

theorem genuine_insertAll {entries : List (String × α)} (h : Genuine t) (he : Genuine entries) :
    Genuine (t.insertAll entries) := by
  refine genuine_iff.mpr fun b hb => ?_
  rcases mem_values_insertAll hb with hb | hb
  · exact genuine_iff.mp h b hb
  · exact genuine_iff.mp he b hb

theorem genuine_ofList {entries : List (String × α)} (he : Genuine entries) :
    Genuine (ofList entries) :=
  genuine_insertAll Genuine.nil he

end Table

namespace Scope

variable {ω : Type} {s : Scope ω} {v : Value ω} {root : Option (Table (Value ω))}
  {layer : Table (Value ω)}

instance : HasReferences (Scope ω) :=
  ⟨fun s => Genuine s.root ∧ Genuine s.layers⟩

theorem genuine_ofLayer (hroot : Genuine root) (hlayer : Genuine layer) :
    Genuine (ofLayer root layer) :=
  ⟨hroot, Genuine.cons.mpr ⟨hlayer, Genuine.nil⟩⟩

theorem genuine_find? (h : Genuine s) (name : String) : Genuine (s.find? name) := by
  refine Genuine.or (fun v hv => ?_) fun v hv => ?_
  · obtain ⟨layer, hlayer, hv⟩ := List.exists_of_findSome?_eq_some hv
    exact Table.genuine_find? (h.2 layer hlayer) name v hv
  · obtain ⟨root, hroot, hv⟩ := Option.bind_eq_some_iff.mp hv
    exact Table.genuine_find? (h.1 root hroot) name v hv

theorem genuine_assign (h : Genuine s) (hv : Genuine v) (name : String) :
    Genuine (s.assign name v) := by
  obtain ⟨hroot, hlayers⟩ := h
  obtain ⟨hinnermost, hbelow⟩ := Genuine.cons.mp hlayers
  exact ⟨hroot, Genuine.cons.mpr ⟨Table.genuine_insert hinnermost hv, hbelow⟩⟩

theorem genuine_push (h : Genuine s) (hlayer : Genuine layer) : Genuine (s.push layer) :=
  ⟨h.1, Genuine.cons.mpr ⟨hlayer, h.2⟩⟩

theorem genuine_pop (h : Genuine s) : Genuine s.pop := by
  obtain ⟨root, innermost, below⟩ := s
  cases below with
  | nil => exact h
  | cons layer below => exact ⟨h.1, (Genuine.cons.mp h.2).2⟩

theorem genuine_flatten (h : Genuine s) : Genuine s.flatten := by
  have hlayers : Genuine s.layers := h.2
  rw [flatten]
  clear h
  generalize s.layers = layers at hlayers ⊢
  induction layers with
  | nil => exact Genuine.nil
  | cons layer layers ih =>
    obtain ⟨hlayer, hlayers⟩ := Genuine.cons.mp hlayers
    exact Table.genuine_insertAll (ih hlayers) hlayer

end Scope

/-! ## §4. What values give -/

/-- Objects of the host hand out no macros but genuine ones, if they were given no others. -/
structure HostObject.HandsOn (ω : Type) [HostObject ω] : Prop where
  attr : ∀ (host : ω) name, Genuine (HostObject.attr host name)
  items : ∀ host : ω, Genuine (HostObject.items host)
  call : ∀ (host : ω) name args, Genuine args → Genuine (HostObject.call host name args)

theorem HostObject.handsOn_empty : HostObject.HandsOn Empty :=
  ⟨nofun, nofun, nofun⟩

namespace Value

variable {ω : Type} {v : Value ω}

theorem genuine_indexed {items : List (Value ω)} (h : Genuine items) : Genuine (indexed items) := by
  intro p hp
  obtain ⟨⟨item, i⟩, hitem, rfl⟩ := List.mem_map.mp hp
  have hmem : item ∈ items := by
    have := List.mem_zipIdx hitem
    exact this.2.2 ▸ List.getElem_mem _
  exact Genuine.pair.mpr ⟨genuine_ofNat i, h item hmem⟩

mutual

theorem genuine_identify (name : Nat → Identity) :
    ∀ (v : Value ω) (n : Nat), Genuine v → Genuine (v.identify name n).1
  | .array items, n, h => by
    rw [identify]
    exact genuine_array.mpr (genuine_identifyAll name items n (genuine_array.mp h))
  | .map entries, n, h => by
    rw [identify]
    exact genuine_map.mpr (genuine_identifyEntries name entries n (genuine_map.mp h))
  | .object i host, n, h => by
    unfold identify
    split <;> simp_all
  | .null, n, h | .bool _, n, h | .number _, n, h | .string _, n, h | .safe _, n, h
  | .callable _, n, h => h

theorem genuine_identifyAll (name : Nat → Identity) :
    ∀ (vs : List (Value ω)) (n : Nat), Genuine vs → Genuine (identifyAll name vs n).1
  | [], _, _ => Genuine.nil
  | v :: vs, n, h => by
    obtain ⟨hv, hvs⟩ := Genuine.cons.mp h
    rw [identifyAll]
    exact Genuine.cons.mpr ⟨genuine_identify name v n hv, genuine_identifyAll name vs _ hvs⟩

theorem genuine_identifyEntries (name : Nat → Identity) :
    ∀ (es : List (String × Value ω)) (n : Nat), Genuine es →
      Genuine (identifyEntries name es n).1
  | [], _, _ => Genuine.nil
  | (key, v) :: es, n, h => by
    obtain ⟨hv, hes⟩ := Genuine.cons.mp h
    rw [identifyEntries]
    exact Genuine.cons.mpr
      ⟨⟨True.intro, genuine_identify name v n hv.2⟩, genuine_identifyEntries name es _ hes⟩

end

variable [HostObject ω]

theorem genuine_items (host : HostObject.HandsOn ω) (h : Genuine v) : Genuine v.items := by
  cases v with
  | array items => exact genuine_indexed (genuine_array.mp h)
  | map entries =>
    exact Genuine.map (genuine_map.mp h) fun entry hentry =>
      Genuine.pair.mpr ⟨genuine_string _, hentry.2⟩
  | object i o =>
    have hitems := host.items o
    rw [items]
    cases ho : HostObject.items o with
    | none => exact genuine_indexed Genuine.nil
    | some items =>
      rw [ho] at hitems
      exact genuine_indexed (Genuine.some.mp hitems)
  | _ => exact Genuine.nil

theorem genuine_attribute? (host : HostObject.HandsOn ω) (h : Genuine v) (key : Value ω) :
    Genuine (v.attribute? key) := by
  cases v with
  | map entries => exact Table.genuine_find? (genuine_map.mp h) _
  | array items =>
    rw [attribute?]
    cases key.index? items.length with
    | none => exact Genuine.none
    | some i => exact Genuine.getElem? (genuine_array.mp h) i
  | object i o => exact host.attr o _
  | string s =>
    rw [attribute?]
    cases key.index? s.length with
    | none => exact Genuine.none
    | some i =>
      simp only [Option.bind_some]
      cases s.toList[i]? <;> simp
  | safe s =>
    rw [attribute?]
    cases key.index? s.text.length with
    | none => exact Genuine.none
    | some i =>
      simp only [Option.bind_some]
      cases s.text.toList[i]? <;> simp
  | _ => exact Genuine.none

instance : HasReferences OperationError := Genuine.trivially OperationError

omit [HostObject ω] in
theorem genuine_range (start stop step : Float) :
    Genuine (range start stop step : Except OperationError (Value ω)) := by
  unfold range
  cases Number.range start stop step with
  | error e => exact True.intro
  | ok xs =>
    refine genuine_array.mpr fun v hv => ?_
    obtain ⟨x, -, rfl⟩ := List.mem_map.mp hv
    exact genuine_number x

/-- Operators compute no macros. -/
theorem genuine_binary (op : BinaryOp) (a b : Value ω) : Genuine (binary op a b) := by
  have hdivide : ∀ e f, Genuine (divide e f a b) := by
    intro e f
    unfold divide
    split
    · exact True.intro
    · exact genuine_number _
  cases op with
  | range => exact genuine_range _ _ _
  | div => exact hdivide _ _
  | floorDiv => exact hdivide .divisionByZero fun x y => (x / y).floor
  | mod => exact hdivide _ _
  | «matches» =>
    simp only [binary, matches?]
    split
    · exact True.intro
    · exact genuine_bool _
  | _ => simp [binary]

theorem genuine_unary (op : UnaryOp) (a : Value ω) : Genuine (a.unary op) := by
  cases op <;> simp [unary]

end Value

/-! ## §5. Environments -/

/-- What an environment provides makes up no references and no errors of code: its templates are
grounded once prepared, its callbacks and objects hand on genuine macros alone, if they were given
no others, and where there is no template its source says so in other words. -/
structure Environment.HandsOn {ω : Type} [HostObject ω] (env : Environment ω) : Prop where
  source : ∀ requests name template pos kind,
    env.source requests name ≠ .error (.render template pos kind)
  passes : ∀ pass ∈ env.passes, Pass.Grounds pass
  filters : ∀ f ∈ env.filters.values, ∀ state v args, Genuine v → Genuine args →
    Genuine (f state v args)
  functions : ∀ f ∈ env.functions.values, ∀ state args, Genuine args → Genuine (f state args)
  globals : Genuine env.globals
  host : HostObject.HandsOn ω

namespace Environment.HandsOn

variable {ω : Type} [HostObject ω] {env : Environment ω}

/-- What is prepared is grounded, and parsing and passes end with errors of their own. -/
theorem genuine_prepare (handsOn : env.HandsOn) (name source : String) :
    Genuine (env.prepare name source) := by
  cases h : env.prepare name source with
  | ok t => exact grounded_of_prepare handsOn.passes h
  | error failure =>
    unfold prepare at h
    split at h
    · cases h
      exact True.intro
    · cases h
      exact id
    · split at h <;> cases h
      exact True.intro

theorem genuine_source (handsOn : env.HandsOn) {requests : List String} {name : String} {e : Error}
    (h : env.source requests name = .error e) : Genuine e := by
  intro hcode
  cases e with
  | render template pos kind => exact handsOn.source _ _ _ _ _ h
  | _ => exact hcode

end Environment.HandsOn

namespace Catalog

variable {ω : Type} [HostObject ω]

theorem filter_handsOn (host : HostObject.HandsOn ω) {f : Filter ω}
    (hf : f ∈ Table.values (filters (ω := ω))) (state : CallState) {v : Value ω}
    {args : List (Value ω)} (hv : Genuine v) (hargs : Genuine args) : Genuine (f state v args) := by
  rw [filters] at hf
  have h := Table.mem_values_ofList hf
  simp only [List.map_cons, List.map_nil, List.mem_cons, List.not_mem_nil, or_false] at h
  have hescape : Genuine (escape state v args) := by
    show Genuine (Escape.value v _)
    unfold Escape.value
    split
    · split <;> exact Value.genuine_safe _
    · exact Value.genuine_safe _
  rcases h with rfl | rfl | rfl | rfl | rfl | rfl | rfl | rfl | rfl
  · exact hescape
  · exact hescape
  · exact Value.genuine_safe _
  · exact Value.genuine_string _
  · exact Value.genuine_string _
  · exact Value.genuine_ofNat _
  · show Genuine (if v.isEmpty then args.head?.getD (.string "") else v)
    split
    · cases args with
      | nil => exact Value.genuine_string _
      | cons arg args => exact (Genuine.cons.mp hargs).1
    · exact hv
  · exact Value.genuine_string _
  · exact Value.genuine_array.mpr
      (Genuine.map (Value.genuine_items host hv) fun item hitem => hitem.1)

theorem function_handsOn {f : Function ω} (hf : f ∈ Table.values (functions (ω := ω)))
    (state : CallState) (args : List (Value ω)) : Genuine (f state args) := by
  rw [functions] at hf
  have h := Table.mem_values_ofList hf
  simp only [List.map_cons, List.map_nil, List.mem_cons, List.not_mem_nil, or_false] at h
  subst h
  unfold range
  split
  · next start stop more _ =>
    have hrange := Value.genuine_range (ω := ω) start stop (more.headD 1.0)
    cases hv : (Value.range start stop (more.headD 1.0) : Except OperationError (Value ω)) with
    | error e => exact True.intro
    | ok v =>
      rw [hv] at hrange
      exact hrange
  · exact True.intro

end Catalog

/-- The catalogs that are always there hand on what they are given. -/
theorem Environment.standard_handsOn {ω : Type} [HostObject ω] (host : HostObject.HandsOn ω)
    {source : TemplateSource}
    (hsource : ∀ requests name template pos kind,
      source requests name ≠ .error (.render template pos kind))
    (patience : Nat) : (standard source patience : Environment ω).HandsOn := by
  refine ⟨hsource, nofun, fun f hf state v args hv hargs => ?_, fun f hf state args _ => ?_, nofun,
    host⟩
  · simp only [standard] at hf
    exact Catalog.filter_handsOn host hf state hv hargs
  · simp only [standard] at hf
    exact Catalog.function_handsOn hf state args

end Stencil
