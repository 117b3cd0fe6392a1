import Mathlib.Data.List.Forall2
import Stencil.Catalog
import Stencil.Render.Chain

/-!
Templates that are alike.

Two renders may work with different templates under the same names.  Code cannot look into a
template other than by what it is rendered for: its name, what it extends, its blocks and macros by
number and by name, and the statements that are run.  A `Likeness` says of two templates that there
is no difference in any of this, up to a relation between the bodies that are run.

Values hold macros, and macros belong to templates.  Values are alike if they are the same but for
alike templates in the place of each other.  No operation on values tells them apart.
-/

namespace Stencil

/-! ## §1. Lists and tables, entry by entry -/

section Lists

variable {α β : Type} {R : α → β → Prop} {as : List α} {bs : List β}

theorem getElem?_of_forall₂ (h : List.Forall₂ R as bs) (i : Nat) : Option.Rel R as[i]? bs[i]? := by
  induction h generalizing i with
  | nil => exact .none
  | cons h _ ih =>
    cases i with
    | zero => exact .some h
    | succ i => simpa using ih i

theorem isEmpty_of_forall₂ (h : List.Forall₂ R as bs) : bs.isEmpty = as.isEmpty := by
  cases h <;> rfl

theorem optionRel_of_refl {S : α → α → Prop} (h : ∀ a, S a a) (a : Option α) :
    Option.Rel S a a := by
  cases a with
  | none => exact .none
  | some a => exact .some (h a)

end Lists

namespace Table

variable {α β : Type} {R : α → β → Prop}

/-- Entries of one name, with contents that are related. -/
def EntryRel (R : α → β → Prop) (e : String × α) (e' : String × β) : Prop :=
  e'.1 = e.1 ∧ R e.2 e'.2

/-- Tables of the same names, with contents that are related name by name. -/
abbrev Rel (R : α → β → Prop) (t : List (String × α)) (t' : List (String × β)) : Prop :=
  List.Forall₂ (EntryRel R) t t'

variable {t : Table α} {t' : Table β} (h : Rel R t t')
include h

theorem find?_rel (name : String) : Option.Rel R (t.find? name) (t'.find? name) := by
  induction h with
  | nil => exact .none
  | @cons e e' t t' hentry _ ih =>
    rw [find?_cons, find?_cons, hentry.1]
    by_cases hname : e.1 = name
    · simp only [hname, if_true]
      exact .some hentry.2
    · simp only [hname, if_false]
      exact ih

theorem has_rel (name : String) : t'.has name = t.has name := by
  rw [has_eq_isSome_find?, has_eq_isSome_find?]
  have hfind := find?_rel h name
  generalize t.find? name = a, t'.find? name = b at hfind
  cases hfind <;> rfl

theorem insert_rel (name : String) {a : α} {b : β} (hab : R a b) :
    Rel R (t.insert name a) (t'.insert name b) := by
  induction h with
  | nil => exact .cons ⟨rfl, hab⟩ .nil
  | @cons e e' t t' hentry hrest ih =>
    unfold insert
    rw [hentry.1]
    by_cases hname : (e.1 == name) = true
    · simp only [hname, if_true]
      exact .cons ⟨rfl, hab⟩ hrest
    · simp only [hname]
      by_cases hlt : name < e.1
      · simp only [hlt, if_true]
        exact .cons ⟨rfl, hab⟩ (.cons hentry hrest)
      · simp only [hlt, if_false]
        exact .cons hentry ih

theorem insertAll_rel {entries : List (String × α)} {entries' : List (String × β)}
    (hentries : Rel R entries entries') :
    Rel R (t.insertAll entries) (t'.insertAll entries') := by
  induction hentries generalizing t t' with
  | nil => exact h
  | @cons e e' entries entries' hentry _ ih =>
    have hinsert := insert_rel h e.1 hentry.2
    rw [← hentry.1] at hinsert
    unfold insertAll
    rw [List.foldl_cons, List.foldl_cons]
    rw [hentry.1] at hinsert ⊢
    exact ih hinsert

omit h in
theorem ofList_rel {entries : List (String × α)} {entries' : List (String × β)}
    (hentries : Rel R entries entries') : Rel R (ofList entries) (ofList entries') :=
  insertAll_rel .nil hentries

end Table

/-! ## §2. Templates and values -/

/-- Which templates may stand for each other, and which bodies of code. -/
structure Likeness where
  template : Template → Template → Prop
  code : List Stmt → List Stmt → Prop
  refl : ∀ t, template t t
  name : ∀ {t t'}, template t t' → t'.name = t.name
  parent : ∀ {t t'}, template t t' → t'.parent = t.parent
  reuses : ∀ {t t'}, template t t' → t'.reuses = t.reuses
  blockTable : ∀ {t t'}, template t t' → t'.blockTable = t.blockTable
  macroTable : ∀ {t t'}, template t t' → t'.macroTable = t.macroTable
  block : ∀ {t t'}, template t t' → ∀ id, Option.Rel
    (fun b b' => b'.name = b.name ∧ code b.body b'.body) (t.blockAt? id) (t'.blockAt? id)
  definition : ∀ {t t'}, template t t' → ∀ id, Option.Rel
    (fun m m' => m'.name = m.name ∧ m'.params = m.params ∧ code m.body m'.body)
    (t.macroAt? id) (t'.macroAt? id)
  /-- What takes effect of a template that extends another one. -/
  preamble : ∀ {t t'}, template t t' → t.parent ≠ none →
    code (t.body.filter Render.isPreamble) (t'.body.filter Render.isPreamble)
  /-- The whole of a template that extends nothing. -/
  root : ∀ {t t'}, template t t' → t.parent = none → code t.body t'.body

namespace Likeness

variable {ω : Type} (κ : Likeness)

/-- Templates of two renders that came into them in the same way. -/
structure Live (t t' : LiveTemplate) : Prop where
  origin : t'.origin = t.origin
  template : κ.template t.template t'.template

/-- Macros of the same number, of templates that are alike. -/
structure Macros (m m' : MacroRef) : Prop where
  owner : κ.Live m.owner m'.owner
  id : m'.id = m.id

/-- Values that are the same but for the templates of the macros in them. -/
inductive Values : Value ω → Value ω → Prop
  | same (v : Value ω) : Values v v
  | callable {m m' : MacroRef} : κ.Macros m m' → Values (.callable m) (.callable m')
  | array {items items' : List (Value ω)} :
    List.Forall₂ Values items items' → Values (.array items) (.array items')
  | entries {entries entries' : List (String × Value ω)} :
    Table.names entries' = Table.names entries →
    List.Forall₂ Values (Table.values entries) (Table.values entries') →
    Values (.map entries) (.map entries')

variable {κ}

theorem Live.refl (t : LiveTemplate) : κ.Live t t := ⟨rfl, κ.refl t.template⟩

theorem Live.name {t t' : LiveTemplate} (h : κ.Live t t') : t'.name = t.name :=
  κ.name h.template

theorem Macros.refl (m : MacroRef) : κ.Macros m m := ⟨.refl m.owner, rfl⟩

theorem Macros.name {m m' : MacroRef} (h : κ.Macros m m') : m'.name = m.name := by
  have hdefinition := κ.definition h.owner.template m.id
  unfold MacroRef.name
  rw [h.id]
  generalize m.owner.template.macroAt? m.id = d, m'.owner.template.macroAt? m.id = d'
    at hdefinition
  cases hdefinition with
  | none => rfl
  | some h => simp [h.1]

/-- Whether two macros are the same one does not depend on what their templates are like. -/
theorem Macros.same {m m' n n' : MacroRef} (h : κ.Macros m m') (h' : κ.Macros n n') :
    m'.same n' = m.same n := by
  unfold MacroRef.same LiveTemplate.same
  rw [h.owner.origin, h'.owner.origin, h.owner.name, h'.owner.name, h.id, h'.id]

variable (κ) in
/-- Values of two renders, in order. -/
abbrev Lists (vs vs' : List (Value ω)) : Prop := List.Forall₂ κ.Values vs vs'

variable (κ) in
/-- Values of two renders, by name. -/
abbrev Tables (t t' : Table (Value ω)) : Prop := Table.Rel κ.Values t t'

namespace Values

/-- Maps of the same names with values that are alike. -/
theorem map {entries entries' : Table (Value ω)} (h : κ.Tables entries entries') :
    κ.Values (.map entries) (.map entries') := by
  refine .entries ?_ ?_
  · induction h with
    | nil => rfl
    | cons hentry _ ih => exact congrArg₂ List.cons hentry.1 ih
  · induction h with
    | nil => exact .nil
    | cons hentry _ ih => exact .cons hentry.2 ih

theorem lists_refl (vs : List (Value ω)) : κ.Lists vs vs := List.forall₂_same.mpr fun v _ => .same v

theorem tables_refl (t : Table (Value ω)) : κ.Tables t t :=
  List.forall₂_same.mpr fun e _ => ⟨rfl, .same e.2⟩

theorem tables_of_entries {entries entries' : Table (Value ω)}
    (hnames : Table.names entries' = Table.names entries)
    (hvalues : κ.Lists (Table.values entries) (Table.values entries')) :
    κ.Tables entries entries' := by
  induction entries generalizing entries' with
  | nil =>
    cases entries' with
    | nil => exact .nil
    | cons e' entries' => cases hnames
  | cons e entries ih =>
    cases entries' with
    | nil => cases hnames
    | cons e' entries' =>
      injection hnames with hname hnames
      cases hvalues with
      | cons hvalue hvalues => exact .cons ⟨hname, hvalue⟩ (ih hnames hvalues)

/-- What is like an array is one. -/
theorem of_array {items : List (Value ω)} {w : Value ω} (h : κ.Values (.array items) w) :
    ∃ items', w = .array items' ∧ κ.Lists items items' := by
  cases h with
  | same => exact ⟨items, rfl, lists_refl items⟩
  | array h => exact ⟨_, rfl, h⟩

/-- What is like a map is one. -/
theorem of_map {entries : Table (Value ω)} {w : Value ω} (h : κ.Values (.map entries) w) :
    ∃ entries', w = .map entries' ∧ κ.Tables entries entries' := by
  cases h with
  | same => exact ⟨entries, rfl, tables_refl entries⟩
  | entries hnames hvalues => exact ⟨_, rfl, tables_of_entries hnames hvalues⟩

/-- What is like a macro is one. -/
theorem of_callable {m : MacroRef} {w : Value ω} (h : κ.Values (.callable m) w) :
    ∃ m', w = .callable m' ∧ κ.Macros m m' := by
  cases h with
  | same => exact ⟨m, rfl, .refl m⟩
  | callable h => exact ⟨_, rfl, h⟩

/-- Where there is a macro in one render there is one in the other. -/
theorem callable_or {v? v?' : Option (Value ω)} (h : Option.Rel κ.Values v? v?') :
    (∃ m m', v? = some (.callable m) ∧ v?' = some (.callable m') ∧ κ.Macros m m') ∨
      (∀ m, v? ≠ some (.callable m)) ∧ ∀ m, v?' ≠ some (.callable m) := by
  cases h with
  | none => exact .inr ⟨nofun, nofun⟩
  | @some v v' h =>
    cases v with
    | callable m =>
      obtain ⟨m', rfl, hm⟩ := h.of_callable
      exact .inl ⟨m, m', rfl, rfl, hm⟩
    | _ =>
      right
      cases h <;> exact ⟨nofun, nofun⟩

/-! ## §3. What values count as -/

section Observing

variable {v v' w w' : Value ω} (h : κ.Values v v')
include h

theorem text? : v'.text? = v.text? := by
  cases h <;> rfl

theorem isNull : v'.isNull = v.isNull := by
  cases h <;> rfl

theorem index? (length : Nat) : v'.index? length = v.index? length := by
  cases h <;> rfl

variable [HostObject ω]

theorem toNumber : v'.toNumber = v.toNumber := by
  cases h <;> rfl

theorem output : v'.output = v.output := by
  cases h <;> rfl

theorem isIterable : v'.isIterable = v.isIterable := by
  cases h <;> rfl

theorem length? : v'.length? = v.length? := by
  cases h with
  | same | callable => rfl
  | array hitems => exact congrArg some hitems.length_eq.symm
  | entries hnames _ =>
    have hlength := congrArg List.length hnames
    rw [Table.names, Table.names, List.length_map, List.length_map] at hlength
    exact congrArg some hlength

theorem isEmpty : v'.isEmpty = v.isEmpty := by
  unfold Value.isEmpty
  rw [h.isNull, h.length?]

theorem truthy : v'.truthy = v.truthy := by
  cases h with
  | same | callable => rfl
  | array hitems => exact congrArg not (isEmpty_of_forall₂ hitems)
  | entries hnames hvalues =>
    exact congrArg not (isEmpty_of_forall₂ (tables_of_entries hnames hvalues))

end Observing

/-! ## §4. Comparing -/

mutual

/-- Strict equality does not tell values apart that are alike. -/
theorem same_eq : ∀ {v v' w w' : Value ω}, κ.Values v v' → κ.Values w w' → v'.same w' = v.same w
  | .array items, _, w, _, h, h' => by
    obtain ⟨items', rfl, hitems⟩ := h.of_array
    cases w with
    | array others =>
      obtain ⟨others', rfl, hothers⟩ := h'.of_array
      rw [Value.same, Value.same]
      exact sameAll_eq hitems hothers
    | _ => cases h' <;> rfl
  | .map es, _, w, _, h, h' => by
    obtain ⟨es', rfl, hes⟩ := h.of_map
    cases w with
    | map fs =>
      obtain ⟨fs', rfl, hfs⟩ := h'.of_map
      rw [Value.same, Value.same]
      exact sameEntries_eq hes hfs
    | _ => cases h' <;> rfl
  | .callable m, _, w, _, h, h' => by
    obtain ⟨m', rfl, hm⟩ := h.of_callable
    cases w with
    | callable n =>
      obtain ⟨n', rfl, hn⟩ := h'.of_callable
      rw [Value.same, Value.same]
      exact hm.same hn
    | _ => cases h' <;> rfl
  | .null, _, _, _, h, h' | .bool _, _, _, _, h, h' | .number _, _, _, _, h, h'
  | .string _, _, _, _, h, h' | .safe _, _, _, _, h, h' | .object .., _, _, _, h, h' => by
    cases h
    cases h' <;> rfl

theorem sameAll_eq : ∀ {vs vs' ws ws' : List (Value ω)}, κ.Lists vs vs' → κ.Lists ws ws' →
    Value.sameAll vs' ws' = Value.sameAll vs ws
  | [], _, _, _, h, h' => by
    cases h
    cases h' <;> rfl
  | v :: vs, _, _, _, h, h' => by
    cases h with
    | cons hv hvs =>
      cases h' with
      | nil => rfl
      | cons hw hws =>
        rw [Value.sameAll, Value.sameAll, same_eq hv hw, sameAll_eq hvs hws]

theorem sameEntries_eq : ∀ {es es' fs fs' : Table (Value ω)}, κ.Tables es es' →
    κ.Tables fs fs' → Value.sameEntries es' fs' = Value.sameEntries es fs
  | [], _, _, _, h, h' => by
    cases h
    cases h' <;> rfl
  | (name, v) :: es, _, _, _, h, h' => by
    cases h with
    | @cons _ e' _ _ he hes =>
      cases h' with
      | nil => rfl
      | @cons f f' _ _ hf hfs =>
        obtain ⟨name', v'⟩ := e'
        obtain ⟨other, w⟩ := f
        obtain ⟨other', w'⟩ := f'
        obtain ⟨rfl, hv⟩ := he
        obtain ⟨rfl, hw⟩ := hf
        rw [Value.sameEntries, Value.sameEntries, same_eq hv hw, sameEntries_eq hes hfs]

end

theorem sameText_eq {v v' w w' : Value ω} (h : κ.Values v v') (h' : κ.Values w w') :
    v'.sameText w' = v.sameText w := by
  unfold Value.sameText
  rw [h.text?, h'.text?, same_eq h h']

variable [HostObject ω]

mutual

/-- Loose equality does not tell values apart that are alike. -/
theorem looseEq_eq : ∀ {v v' w w' : Value ω}, κ.Values v v' → κ.Values w w' →
    v'.looseEq w' = v.looseEq w
  | .array items, _, w, _, h, h' => by
    obtain ⟨items', rfl, hitems⟩ := h.of_array
    have hempty := isEmpty_of_forall₂ hitems
    cases w with
    | array others =>
      obtain ⟨others', rfl, hothers⟩ := h'.of_array
      rw [Value.looseEq, Value.looseEq]
      exact looseEqAll_eq hitems hothers
    | _ => cases h' <;> simp [Value.looseEq, hempty]
  | .map es, _, w, _, h, h' => by
    obtain ⟨es', rfl, hes⟩ := h.of_map
    have hempty := isEmpty_of_forall₂ hes
    cases w with
    | map fs =>
      obtain ⟨fs', rfl, hfs⟩ := h'.of_map
      rw [Value.looseEq, Value.looseEq]
      exact looseEqEntries_eq hes hfs
    | _ => cases h' <;> simp [Value.looseEq, hempty]
  | .null, _, _, _, h, h' | .bool _, _, _, _, h, h' => by
    cases h
    rw [Value.looseEq, Value.looseEq, h'.truthy]
  | .number _, _, _, _, h, h' => by
    cases h
    cases h' <;> rfl
  | .callable m, _, w, _, h, h' => by
    -- A macro counts as true whichever it is, and with another one it is compared strictly.
    have htext := sameText_eq h h'
    obtain ⟨m', rfl, _⟩ := h.of_callable
    cases w with
    | callable n =>
      obtain ⟨n', rfl, _⟩ := h'.of_callable
      simpa [Value.looseEq] using htext
    | _ => cases h' <;> rfl
  | .string _, _, _, _, h, h' | .safe _, _, _, _, h, h' | .object .., _, _, _, h, h' => by
    cases h
    cases h' <;> rfl

theorem looseEqAll_eq : ∀ {vs vs' ws ws' : List (Value ω)}, κ.Lists vs vs' → κ.Lists ws ws' →
    Value.looseEqAll vs' ws' = Value.looseEqAll vs ws
  | [], _, _, _, h, h' => by
    cases h
    cases h' <;> rfl
  | v :: vs, _, _, _, h, h' => by
    cases h with
    | cons hv hvs =>
      cases h' with
      | nil => rfl
      | cons hw hws =>
        rw [Value.looseEqAll, Value.looseEqAll, looseEq_eq hv hw, looseEqAll_eq hvs hws]

theorem looseEqEntries_eq : ∀ {es es' fs fs' : Table (Value ω)}, κ.Tables es es' →
    κ.Tables fs fs' → Value.looseEqEntries es' fs' = Value.looseEqEntries es fs
  | [], _, _, _, h, h' => by
    cases h
    cases h' <;> rfl
  | (name, v) :: es, _, _, _, h, h' => by
    cases h with
    | @cons _ e' _ _ he hes =>
      cases h' with
      | nil => rfl
      | @cons f f' _ _ hf hfs =>
        obtain ⟨name', v'⟩ := e'
        obtain ⟨other, w⟩ := f
        obtain ⟨other', w'⟩ := f'
        obtain ⟨rfl, hv⟩ := he
        obtain ⟨rfl, hw⟩ := hf
        rw [Value.looseEqEntries, Value.looseEqEntries, looseEq_eq hv hw,
          looseEqEntries_eq hes hfs]

end

theorem any_looseEq {items items' : List (Value ω)} {w w' : Value ω} (h : κ.Lists items items')
    (h' : κ.Values w w') : items'.any (Value.looseEq · w') = items.any (Value.looseEq · w) := by
  induction h with
  | nil => rfl
  | cons hv _ ih => rw [List.any_cons, List.any_cons, ih, looseEq_eq hv h']

section Operations

variable {v v' w w' : Value ω} (h : κ.Values v v') (h' : κ.Values w w')
include h h'

theorem compare_eq : v'.compare w' = v.compare w := by
  unfold Value.compare
  rw [h.text?, h'.text?, h.toNumber, h'.toNumber]

theorem contains_eq : v'.contains w' = v.contains w := by
  have hobject : ∀ items : List (Value ω),
      items.any (Value.looseEq · w') = items.any (Value.looseEq · w) :=
    fun items => any_looseEq (lists_refl items) h'
  have hhas : ∀ {es es' : Table (Value ω)}, κ.Tables es es' →
      Table.has es' w'.output = Table.has es w.output := by
    intro es es' hes
    rw [h'.output, Table.has_rel hes]
  cases h with
  | same v =>
    cases v with
    | array items => exact hobject items
    | map es => exact hhas (tables_refl es)
    | object i host => exact hobject _
    | string s => exact congrArg (Value.textContains s) h'.output
    | safe s => exact congrArg (Value.textContains s.text) h'.output
    | _ => rfl
  | callable _ => rfl
  | array hitems => exact any_looseEq hitems h'
  | entries hnames hvalues => exact hhas (tables_of_entries hnames hvalues)

/-- No binary operator tells values apart that are alike, and none gives back what it was given. -/
theorem binary_eq (op : BinaryOp) : Value.binary op v' w' = Value.binary op v w := by
  have hdivide : ∀ (onZero : OperationError) (f : Float → Float → Float),
      Value.divide onZero f v' w' = Value.divide onZero f v w := by
    intro onZero f
    unfold Value.divide
    rw [h.toNumber, h'.toNumber]
  have hmatches : Value.matches? v' w' = Value.matches? v w := by
    unfold Value.matches?
    rw [h.output, h'.output]
  have hcontains := contains_eq h' h
  cases op <;> simp only [Value.binary, h.truthy, h'.truthy, h.toNumber, h'.toNumber, h.output,
    h'.output, looseEq_eq h h', compare_eq h h', hcontains, hdivide, hmatches]

omit h' in
theorem unary_eq (op : UnaryOp) : Value.unary op v' = Value.unary op v := by
  cases op <;> simp only [Value.unary, h.truthy, h.toNumber]

end Operations

/-! ## §5. What is in a value -/

variable (κ) in
/-- Items of two renders: the same keys, with values that are alike. -/
abbrev Items (items items' : List (Value ω × Value ω)) : Prop :=
  List.Forall₂ (fun p p' => p'.1 = p.1 ∧ κ.Values p.2 p'.2) items items'

omit [HostObject ω] in
theorem items_refl (items : List (Value ω × Value ω)) : Items κ items items :=
  List.forall₂_same.mpr fun p _ => ⟨rfl, .same p.2⟩

omit [HostObject ω] in
theorem indexed {vs vs' : List (Value ω)} (h : κ.Lists vs vs') :
    Items κ (Value.indexed vs) (Value.indexed vs') := by
  -- The indexes go on from any number on.
  suffices hfrom : ∀ n, Items κ ((vs.zipIdx n).map fun entry => (Value.ofNat entry.2, entry.1))
      ((vs'.zipIdx n).map fun entry => (Value.ofNat entry.2, entry.1)) from hfrom 0
  induction h with
  | nil => exact fun _ => .nil
  | cons hv _ ih =>
    intro n
    rw [List.zipIdx_cons, List.zipIdx_cons]
    exact .cons ⟨rfl, hv⟩ (ih (n + 1))

theorem items {v v' : Value ω} (h : κ.Values v v') : Items κ v.items v'.items := by
  cases h with
  | same v => exact items_refl _
  | callable _ => exact .nil
  | array hitems => exact indexed hitems
  | entries hnames hvalues =>
    have hentries := tables_of_entries hnames hvalues
    refine List.forall₂_map_left_iff.mpr (List.forall₂_map_right_iff.mpr ?_)
    exact hentries.imp fun e e' hentry => ⟨congrArg Value.string hentry.1, hentry.2⟩

/-- The attributes of values that are alike are alike, and the same keys have one. -/
theorem attribute? {v v' k k' : Value ω} (h : κ.Values v v') (hk : κ.Values k k') :
    Option.Rel κ.Values (v.attribute? k) (v'.attribute? k') := by
  cases h with
  | same v =>
    have hsame : v.attribute? k' = v.attribute? k := by
      cases v <;> simp only [Value.attribute?, hk.output, hk.index?]
    rw [hsame]
    exact optionRel_of_refl .same _
  | callable _ => exact .none
  | @array items items' hitems =>
    show Option.Rel _ ((k.index? items.length).bind (items[·]?))
      ((k'.index? items'.length).bind (items'[·]?))
    rw [hk.index?, ← hitems.length_eq]
    cases k.index? items.length with
    | none => exact .none
    | some i => exact getElem?_of_forall₂ hitems i
  | @entries entries entries' hnames hvalues =>
    show Option.Rel _ (Table.find? entries k.output) (Table.find? entries' k'.output)
    rw [hk.output]
    exact Table.find?_rel (tables_of_entries hnames hvalues) _

/-! ## §6. Giving identities -/

omit [HostObject ω]

mutual

/-- In values that are alike there are the same objects, so that they are given the same
identities. -/
theorem identify (name : Nat → Identity) : ∀ {v v' : Value ω} (n : Nat), κ.Values v v' →
    κ.Values (v.identify name n).1 (v'.identify name n).1 ∧
      (v'.identify name n).2 = (v.identify name n).2
  | .array items, _, n, h => by
    obtain ⟨items', rfl, hitems⟩ := h.of_array
    rw [Value.identify, Value.identify]
    obtain ⟨hvalues, hnext⟩ := identifyAll name n hitems
    exact ⟨.array hvalues, hnext⟩
  | .map es, _, n, h => by
    obtain ⟨es', rfl, hes⟩ := h.of_map
    rw [Value.identify, Value.identify]
    obtain ⟨hvalues, hnext⟩ := identifyEntries name n hes
    exact ⟨.map hvalues, hnext⟩
  | .callable m, _, n, h => by
    obtain ⟨m', rfl, hm⟩ := h.of_callable
    exact ⟨.callable hm, rfl⟩
  | .null, _, _, h | .bool _, _, _, h | .number _, _, _, h | .string _, _, _, h
  | .safe _, _, _, h | .object .., _, _, h => by
    cases h
    exact ⟨.same _, rfl⟩

theorem identifyAll (name : Nat → Identity) : ∀ {vs vs' : List (Value ω)} (n : Nat),
    κ.Lists vs vs' →
    κ.Lists (Value.identifyAll name vs n).1 (Value.identifyAll name vs' n).1 ∧
      (Value.identifyAll name vs' n).2 = (Value.identifyAll name vs n).2
  | [], _, _, h => by
    cases h
    exact ⟨.nil, rfl⟩
  | v :: vs, _, n, h => by
    cases h with
    | cons hv hvs =>
      rw [Value.identifyAll, Value.identifyAll]
      obtain ⟨hvalue, hnext⟩ := identify name n hv
      obtain ⟨hvalues, hlast⟩ := identifyAll name (v.identify name n).2 hvs
      simp only [hnext]
      exact ⟨.cons hvalue hvalues, hlast⟩

theorem identifyEntries (name : Nat → Identity) : ∀ {es es' : Table (Value ω)} (n : Nat),
    κ.Tables es es' →
    κ.Tables (Value.identifyEntries name es n).1 (Value.identifyEntries name es' n).1 ∧
      (Value.identifyEntries name es' n).2 = (Value.identifyEntries name es n).2
  | [], _, _, h => by
    cases h
    exact ⟨.nil, rfl⟩
  | (key, v) :: es, _, n, h => by
    cases h with
    | @cons _ e' _ _ he hes =>
      obtain ⟨key', v'⟩ := e'
      obtain ⟨rfl, hv⟩ := he
      rw [Value.identifyEntries, Value.identifyEntries]
      obtain ⟨hvalue, hnext⟩ := identify name n hv
      obtain ⟨hvalues, hlast⟩ := identifyEntries name (v.identify name n).2 hes
      simp only [hnext]
      exact ⟨.cons ⟨rfl, hvalue⟩ hvalues, hlast⟩

end

end Values

end Likeness

end Stencil
