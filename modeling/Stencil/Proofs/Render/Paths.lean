import Stencil.Proofs.Render.Keeps
import Stencil.Proofs.Value.Settled

/-!
What access paths mean, and when.

A path starts at a name and goes on by attributes whose keys are literals.  Where undefined names
and attributes are errors, three parts of the renderer have a say in what becomes of a path: its
strict evaluation, the test `defined`, and the lenient evaluation under the filter `default`.  They
agree, and `exists_finds` says how: either the path finds a value, which is the same whichever way
it is evaluated, or it finds nothing, which is an error where that is not allowed, null where it is,
and not defined.

The induction is on the path.  A path that has found nothing is null to the next step, and null has
no attributes, so that the step finds nothing either.
-/

namespace Stencil

/-! ## §1. Literals and paths -/

namespace Expr

mutual

/-- Whether an expression is a literal: a constant, perhaps with a sign, or a collection of
literals. -/
def isLiteral : Expr → Bool
  | .null _ | .bool .. | .number .. | .string .. => true
  | .group _ e | .unary _ _ e => isLiteral e
  | .array _ items => areLiterals items
  | .hash _ entries => areLiteralEntries entries
  | _ => false

/-- Whether all of some expressions are literals. -/
def areLiterals : List Expr → Bool
  | [] => true
  | e :: es => isLiteral e && areLiterals es

/-- Whether all keys and values of some entries are literals. -/
def areLiteralEntries : List (Entry Expr) → Bool
  | [] => true
  | ⟨_, key, value⟩ :: entries => isLiteral key && isLiteral value && areLiteralEntries entries

end

/-- An access path: a name with attributes of literal keys, and parentheses. -/
inductive IsPath : Expr → Prop
  | name (pos : Position) (name : String) : IsPath (.name pos name)
  | step (pos : Position) {object key : Expr} : IsPath object → key.isLiteral = true →
    IsPath (.attribute pos object key)
  | group (pos : Position) {e : Expr} : IsPath e → IsPath (.group pos e)

end Expr

/-- The filter `default` of the catalog that is always there. -/
theorem Catalog.find?_default {ω : Type} [HostObject ω] :
    (Catalog.filters : Table (Filter ω)).find? "default" = some Catalog.fallback := by
  simp [Catalog.filters, Table.ofList, Table.insertAll, Table.find?_insert_ne]

namespace Render

variable {ω : Type}

/-! ## §2. Runs -/

theorem run_leniently {α : Type} (x : Render ω α) (s : RenderState ω) :
    (leniently x).run s = ((x.run { s with lenient := true }).1,
      { (x.run { s with lenient := true }).2 with lenient := s.lenient }) := by
  rw [leniently, run_bind_ok (run_get s), run_bind_ok (run_modify _ s), run_ending]

theorem run_meet (v : Value ω) (s : RenderState ω) :
    (meet v).run s =
      (.ok (v.identify .met s.met).1, { s with met := (v.identify .met s.met).2 }) := by
  rw [meet, run_bind_ok (run_get s)]
  rfl

/-- Something undefined is an error where it must not be used. -/
theorem run_undefined_strict {env : Environment ω} (strict : env.undefined = .strict)
    (pos : Position) (name : String) {s : RenderState ω} (h : s.lenient = false) :
    (undefined env pos name).run s =
      (.error (.error (.render s.frame.template.name pos (.undefinedVariable name))), s) := by
  rw [undefined, run_bind_ok (run_get s)]
  simp [h, strict, run_failAt]

theorem run_undefined_lenient (env : Environment ω) (pos : Position) (name : String)
    {s : RenderState ω} (h : s.lenient = true) :
    (undefined env pos name).run s = (.ok .null, s) := by
  rw [undefined, run_bind_ok (run_get s)]
  simp [h]

theorem run_lookup_some {env : Environment ω} (pos : Position) {name : String} {v : Value ω}
    {s : RenderState ω} (h : find? env s.frame name = some v) :
    (lookup env pos name).run s = (.ok v, s) := by
  rw [lookup, run_bind_ok (run_frame s), h, run_pure]

theorem run_lookup_none {env : Environment ω} (pos : Position) {name : String}
    {s : RenderState ω} (h : find? env s.frame name = none) :
    (lookup env pos name).run s = (undefined env pos name).run s := by
  rw [lookup, run_bind_ok (run_frame s), h]

variable [HostObject ω] {env : Environment ω} {inner : Option (Runner ω)}

theorem run_attributeOf_none (env : Environment ω) (pos : Position) {object key : Value ω}
    (h : object.attribute? key = none) :
    attributeOf env pos object key = undefined env pos key.output := by
  rw [attributeOf, h]

/-! ## §3. Literals -/

mutual

/-- A literal has a value of its own, whatever the state, and changes nothing. -/
theorem eval_literal : ∀ {e : Expr}, e.isLiteral = true →
    ∃ v : Value ω, v.Settled ∧ ∀ s, (eval env inner e).run s = (.ok v, s)
  | .null _, _ => ⟨.null, trivial, fun s => by rw [eval, run_pure]⟩
  | .bool _ b, _ => ⟨.bool b, trivial, fun s => by rw [eval, run_pure]⟩
  | .number _ x, _ => ⟨.number x, trivial, fun s => by rw [eval, run_pure]⟩
  | .string _ text, _ => ⟨.string text, trivial, fun s => by rw [eval, run_pure]⟩
  | .group _ e, h => by
    obtain ⟨v, hv, hrun⟩ := eval_literal (e := e) (by simpa [Expr.isLiteral] using h)
    exact ⟨v, hv, fun s => by rw [eval, hrun]⟩
  | .unary _ op e, h => by
    obtain ⟨v, -, hrun⟩ := eval_literal (e := e) (by simpa [Expr.isLiteral] using h)
    refine ⟨v.unary op, ?_, fun s => by rw [eval, run_bind_ok (hrun s), run_pure]⟩
    cases op <;> trivial
  | .array _ items, h => by
    obtain ⟨vs, hvs, hrun⟩ := evalAll_literals
      (show Expr.areLiterals items = true by simpa [Expr.isLiteral] using h)
    exact ⟨.array vs, by rwa [Value.Settled],
      fun s => by rw [eval, run_bind_ok (hrun s), run_pure]⟩
  | .hash _ entries, h => by
    obtain ⟨table, htable, hrun⟩ := evalEntries_literals
      (show Expr.areLiteralEntries entries = true by simpa [Expr.isLiteral] using h) [] trivial
    exact ⟨.map table, by rwa [Value.Settled],
      fun s => by rw [eval, run_bind_ok (hrun s), run_pure]⟩

theorem evalAll_literals : ∀ {es : List Expr}, Expr.areLiterals es = true →
    ∃ vs : List (Value ω), Value.SettledAll vs ∧ ∀ s, (evalAll env inner es).run s = (.ok vs, s)
  | [], _ => ⟨[], trivial, fun s => by rw [evalAll, run_pure]⟩
  | e :: es, h => by
    rw [Expr.areLiterals, Bool.and_eq_true] at h
    obtain ⟨v, hv, hrun⟩ := eval_literal h.1
    obtain ⟨vs, hvs, hruns⟩ := evalAll_literals h.2
    exact ⟨v :: vs, ⟨hv, hvs⟩,
      fun s => by rw [evalAll, run_bind_ok (hrun s), run_bind_ok (hruns s), run_pure]⟩

theorem evalEntries_literals : ∀ {entries : List (Entry Expr)},
    Expr.areLiteralEntries entries = true →
    ∀ table : Table (Value ω), Value.SettledEntries table →
      ∃ table' : Table (Value ω), Value.SettledEntries table' ∧
        ∀ s, (evalEntries env inner entries table).run s = (.ok table', s)
  | [], _, table, htable => ⟨table, htable, fun s => by rw [evalEntries, run_pure]⟩
  | ⟨_, key, value⟩ :: entries, h, table, htable => by
    rw [Expr.areLiteralEntries, Bool.and_eq_true, Bool.and_eq_true] at h
    obtain ⟨⟨hkey, hvalue⟩, hentries⟩ := h
    obtain ⟨k, -, hrunKey⟩ := eval_literal hkey
    obtain ⟨v, hv, hrunValue⟩ := eval_literal hvalue
    have hinsert : Value.SettledEntries (table.insert k.output v) := by
      refine Value.settledEntries_iff.mpr fun entry hentry => ?_
      rcases Table.mem_values_insert (List.mem_map_of_mem hentry) with heq | hmem
      · exact heq ▸ hv
      · obtain ⟨other, hother, heq⟩ := List.mem_map.mp hmem
        exact heq ▸ Value.settledEntries_iff.mp htable other hother
    obtain ⟨table', htable', hrun⟩ := evalEntries_literals hentries _ hinsert
    exact ⟨table', htable', fun s => by
      rw [evalEntries, run_bind_ok (hrunKey s), run_bind_ok (hrunValue s), hrun s]⟩

end

/-! ## §4. What a path finds -/

/-- What a path comes to from a state: a value, however undefined names and attributes are treated,
or nothing, which is an error where they are errors and null where they are null. -/
def Finds (env : Environment ω) (inner : Option (Runner ω)) (p : Expr) (s : RenderState ω) :
    Option (Value ω) → Prop
  | some v => ∃ n, ∀ lenient, (eval env inner p).run { s with lenient := lenient } =
      (.ok v, { s with lenient := lenient, met := n })
  | none =>
    (∃ e t, (eval env inner p).run { s with lenient := false } = (.error e, t)) ∧
      ∃ n, (eval env inner p).run { s with lenient := true } =
        (.ok .null, { s with lenient := true, met := n })

/-- A name finds what it means. -/
theorem finds_name (strict : env.undefined = .strict) (pos : Position) (name : String)
    (s : RenderState ω) : Finds env inner (.name pos name) s (find? env s.frame name) := by
  cases hfound : find? env s.frame name with
  | some v =>
    refine ⟨s.met, fun lenient => ?_⟩
    rw [eval, run_lookup_some (s := { s with lenient := lenient }) pos hfound]
  | none =>
    have hrun : ∀ lenient, (eval env inner (.name pos name)).run { s with lenient := lenient } =
        (undefined env pos name).run { s with lenient := lenient } := by
      intro lenient
      rw [eval, run_lookup_none (s := { s with lenient := lenient }) pos hfound]
    refine ⟨⟨_, _, (hrun false).trans (run_undefined_strict strict pos name rfl)⟩, s.met, ?_⟩
    exact (hrun true).trans (run_undefined_lenient env pos name rfl)

/-- A step from nothing finds nothing. -/
theorem Finds.attribute_none (pos : Position) {object key : Expr} (hkey : key.isLiteral = true)
    {s : RenderState ω} (h : Finds env inner object s none) :
    Finds env inner (.attribute pos object key) s none := by
  obtain ⟨⟨e, t, hstrict⟩, n, hlenient⟩ := h
  obtain ⟨k, -, hk⟩ := @eval_literal _ _ env inner _ hkey
  refine ⟨⟨e, t, by rw [eval, run_bind_error hstrict]⟩, n, ?_⟩
  -- The object is null here, and null has no attributes.
  rw [eval, run_bind_ok hlenient, run_bind_ok (hk _), run_attributeOf_none env pos rfl,
    run_undefined_lenient env pos _ rfl]

/-- A step from a value without the attribute finds nothing. -/
theorem Finds.attribute_missing (strict : env.undefined = .strict) (pos : Position)
    {object key : Expr} {s : RenderState ω} {v k : Value ω} (h : Finds env inner object s (some v))
    (hkey : ∀ s, (eval env inner key).run s = (.ok k, s)) (hmissing : v.attribute? k = none) :
    Finds env inner (.attribute pos object key) s none := by
  obtain ⟨n, hrun⟩ := h
  have hstep : ∀ lenient,
      (eval env inner (.attribute pos object key)).run { s with lenient := lenient } =
        (undefined env pos k.output).run { s with lenient := lenient, met := n } := by
    intro lenient
    rw [eval, run_bind_ok (hrun lenient), run_bind_ok (hkey _),
      run_attributeOf_none env pos hmissing]
  refine ⟨⟨_, _, (hstep false).trans (run_undefined_strict strict pos _ rfl)⟩, n, ?_⟩
  exact (hstep true).trans (run_undefined_lenient env pos _ rfl)

/-- A step from a value with the attribute finds it, and gives identities to what an object has
handed out. -/
theorem Finds.attribute_some (pos : Position) {object key : Expr} {s : RenderState ω}
    {v k w : Value ω} (h : Finds env inner object s (some v))
    (hkey : ∀ s, (eval env inner key).run s = (.ok k, s)) (hfound : v.attribute? k = some w) :
    ∃ w', Finds env inner (.attribute pos object key) s (some w') ∧ (v.Settled → w'.Settled) := by
  obtain ⟨n, hrun⟩ := h
  have hstep : ∀ lenient,
      (eval env inner (.attribute pos object key)).run { s with lenient := lenient } =
        (attributeOf env pos v k).run { s with lenient := lenient, met := n } := by
    intro lenient
    rw [eval, run_bind_ok (hrun lenient), run_bind_ok (hkey _)]
  by_cases hobject : ∃ identity host, v = .object identity host
  · obtain ⟨identity, host, rfl⟩ := hobject
    have hmet : ∀ n, Identity.met n ≠ .unknown := fun _ => by simp
    refine ⟨(w.identify .met n).1, ⟨(w.identify .met n).2, fun lenient => ?_⟩,
      fun _ => Value.settled_identify hmet w n⟩
    rw [hstep, attributeOf, hfound]
    exact run_meet w _
  · have hpure : attributeOf env pos v k = pure w := by
      rw [attributeOf, hfound]
      cases v with
      | object identity host => exact absurd ⟨identity, host, rfl⟩ hobject
      | _ => rfl
    refine ⟨w, ⟨n, fun lenient => ?_⟩, fun hv => ?_⟩
    · rw [hstep, hpure, run_pure]
    · exact hv.attribute (fun identity host heq => hobject ⟨identity, host, heq⟩) hfound

/-- The test `defined` looks for the attribute in what the object of a step comes to leniently. -/
theorem run_isDefined_attribute (pos : Position) {object key : Expr} {s : RenderState ω}
    {k : Value ω} {found : Option (Value ω)} (h : Finds env inner object s found)
    (hkey : ∀ s, (eval env inner key).run s = (.ok k, s)) :
    ∃ n, (isDefined env inner (.attribute pos object key)).run s =
      (.ok (found.bind (·.attribute? k)).isSome, { s with met := n }) := by
  -- What is not found is null, which has no attributes.
  obtain ⟨v, n, hrun, hv⟩ : ∃ v n, (eval env inner object).run { s with lenient := true } =
      (.ok v, { s with lenient := true, met := n }) ∧
        v.attribute? k = found.bind (·.attribute? k) := by
    cases found with
    | none =>
      obtain ⟨-, n, hrun⟩ := h
      exact ⟨.null, n, hrun, rfl⟩
    | some v =>
      obtain ⟨n, hrun⟩ := h
      exact ⟨v, n, hrun true, rfl⟩
  have hobject : (leniently (eval env inner object)).run s = (.ok v, { s with met := n }) := by
    rw [run_leniently, hrun]
  exact ⟨n, by rw [isDefined, run_bind_ok hobject, run_bind_ok (hkey _), run_pure, hv]⟩

/-- Whether the objects in the values that names mean have identities. -/
def NamesSettled (env : Environment ω) (s : RenderState ω) : Prop :=
  ∀ name v, find? env s.frame name = some v → v.Settled

/-- A path finds something or nothing, and the test `defined` says which. -/
theorem exists_finds (strict : env.undefined = .strict) {p : Expr} (hp : p.IsPath)
    (s : RenderState ω) :
    ∃ found, Finds env inner p s found ∧
      (∃ n, (isDefined env inner p).run s = (.ok found.isSome, { s with met := n })) ∧
      (NamesSettled env s → ∀ v ∈ found, v.Settled) := by
  induction hp with
  | name pos name =>
    refine ⟨find? env s.frame name, finds_name strict pos name s, ⟨s.met, ?_⟩, fun h => h name⟩
    rw [isDefined, run_bind_ok (run_frame s), run_pure]
  | @step pos object key _ hliteral ih =>
    obtain ⟨found, hfinds, -, hsettled⟩ := ih
    obtain ⟨k, -, hkey⟩ := @eval_literal _ _ env inner _ hliteral
    have hdefined := run_isDefined_attribute pos hfinds hkey
    cases found with
    | none => exact ⟨none, hfinds.attribute_none pos hliteral, hdefined, fun _ => nofun⟩
    | some v =>
      cases hw : v.attribute? k with
      | none =>
        refine ⟨none, hfinds.attribute_missing strict pos hkey hw, ?_, fun _ => nofun⟩
        simpa [hw] using hdefined
      | some w =>
        obtain ⟨w', hfinds', hw'⟩ := hfinds.attribute_some pos hkey hw
        refine ⟨some w', hfinds', by simpa [hw] using hdefined, ?_⟩
        rintro hs _ ⟨⟩
        exact hw' (hsettled hs v rfl)
  | @group pos e _ ih =>
    obtain ⟨found, hfinds, hdefined, hsettled⟩ := ih
    refine ⟨found, ?_, by simpa only [isDefined] using hdefined, hsettled⟩
    cases found <;> simpa only [Finds, eval] using hfinds

/-! ## §5. Agreement -/

/-- What an outcome stands for that has a default: its value, unless there is none or an empty
one. -/
def defaulted (outcome : Except Failure (Value ω)) (d : Value ω) : Value ω :=
  match outcome with
  | .ok v => if v.isEmpty then d else v
  | .error _ => d

/-- The filter `default` takes the value of its subject, evaluated leniently, or the default in
place of an empty one. -/
theorem run_default (fallback : env.filters.find? "default" = some Catalog.fallback)
    (pos : Position) {p d : Expr} {s : RenderState ω} {v dv : Value ω} {n : Nat}
    (hp : (eval env inner p).run { s with lenient := true } =
      (.ok v, { s with lenient := true, met := n }))
    (hd : ∀ t, (eval env inner d).run t = (.ok dv, t)) :
    (eval env inner (.filter pos "default" [p, d])).run s =
      (.ok ((if v.isEmpty then dv else v).identify .met n).1,
        { s with met := ((if v.isEmpty then dv else v).identify .met n).2 }) := by
  have hsubject : (leniently (eval env inner p)).run s = (.ok v, { s with met := n }) := by
    rw [run_leniently, hp]
  have hargs : (evalAll env inner [d]).run { s with met := n } =
      (.ok [dv], { s with met := n }) := by
    rw [evalAll, run_bind_ok (hd _), evalAll, run_bind_ok (run_pure _ _), run_pure]
  rw [eval, if_pos rfl, run_bind_ok hsubject]
  simp only [applyFilter, fallback]
  rw [run_bind_ok hargs, run_bind_ok (run_frame _)]
  exact run_meet _ _

/-- **Strict evaluation, the test `defined` and the filter `default` agree on access paths.**  Where
undefined variables are errors, the test does not fail and says whether the path can be evaluated.
The filter does not fail either: it gives the value of the path, or the default where that is
missing or empty.  Both leave the state as it was, up to the number of objects met.  Objects that
have no identity when the filter gets hold of them are given one by it; there are none if all that
names mean is settled. -/
theorem defined_and_default_of_isPath (strict : env.undefined = .strict)
    (fallback : env.filters.find? "default" = some Catalog.fallback) (inner : Option (Runner ω))
    {p d : Expr} (hp : p.IsPath) (hd : d.isLiteral = true) (pos : Position) (args : List Expr)
    (s : RenderState ω) :
    let outcome := ((eval env inner p).run { s with lenient := false }).1
    ∃ dv : Value ω, (∀ t, (eval env inner d).run t = (.ok dv, t)) ∧
      (∃ n, (eval env inner (.test pos "defined" p args)).run s =
        (.ok (.bool outcome.isOk), { s with met := n })) ∧
      ∃ w m n, (eval env inner (.filter pos "default" [p, d])).run s =
          (.ok w, { s with met := n }) ∧
        w = ((defaulted outcome dv).identify .met m).1 ∧
        (NamesSettled env s → w = defaulted outcome dv) := by
  intro outcome
  obtain ⟨dv, hdsettled, hdrun⟩ := @eval_literal _ _ env inner _ hd
  obtain ⟨found, hfinds, ⟨m, hdefined⟩, hsettled⟩ := @exists_finds _ _ env inner strict _ hp s
  have htest : (eval env inner (.test pos "defined" p args)).run s =
      (.ok (.bool found.isSome), { s with met := m }) := by
    rw [eval, if_pos rfl, run_bind_ok hdefined, run_pure]
  refine ⟨dv, hdrun, ?_⟩
  cases found with
  | none =>
    obtain ⟨⟨e, t, hstrict⟩, n, hlenient⟩ := hfinds
    have houtcome : outcome = .error e := congrArg Prod.fst hstrict
    rw [houtcome]
    have hrun := run_default fallback pos hlenient hdrun
    refine ⟨⟨m, htest⟩, _, n, _, hrun, rfl, fun _ => ?_⟩
    exact congrArg Prod.fst (hdsettled.identify_eq .met n)
  | some v =>
    obtain ⟨n, hlenient⟩ := hfinds
    have houtcome : outcome = .ok v := congrArg Prod.fst (hlenient false)
    rw [houtcome]
    have hrun := run_default fallback pos (hlenient true) hdrun
    refine ⟨⟨m, htest⟩, _, n, _, hrun, rfl, fun hnames => ?_⟩
    have hboth : (defaulted (.ok v) dv).Settled := by
      unfold defaulted
      dsimp only
      split
      · exact hdsettled
      · exact hsettled hnames v rfl
    exact congrArg Prod.fst (hboth.identify_eq .met n)

/-- A city that nobody knows: `user` is there, but has no address to look it up in. -/
theorem defined_and_default_of_isPath_city :
    let env : Environment Empty :=
      { Environment.standard (fun _ _ => .ok "") 1 with undefined := .strict }
    let pos : Position := ⟨1, 0⟩
    let address : Expr := .group pos (.attribute pos (.name pos "user") (.string pos "address"))
    let city : Expr := .attribute pos address (.string pos "city")
    let s : RenderState Empty :=
      Environment.startState ⟨⟨"t", none, [], [], [], [], []⟩, .entry⟩ [("user", .map [])] none []
    (∃ n, (eval env none (.test pos "defined" city [])).run s =
        (.ok (.bool false), { s with met := n })) ∧
      ∃ n, (eval env none (.filter pos "default" [city, .string pos "nowhere"])).run s =
        (.ok (.string "nowhere"), { s with met := n }) := by
  intro env pos address city s
  have hcity : city.IsPath := .step pos (.group pos (.step pos (.name pos "user") rfl)) rfl
  obtain ⟨dv, hdv, hdefined, w, -, n, hdefault, -, hw⟩ :=
    defined_and_default_of_isPath (show env.undefined = .strict from rfl) Catalog.find?_default
      none hcity (d := .string pos "nowhere") rfl pos [] s
  have hnowhere : dv = .string "nowhere" := by
    have hrun := congrArg Prod.fst (hdv s)
    exact (Except.ok.inj hrun).symm
  have hnames : NamesSettled env s := by
    intro name v hv
    by_cases huser : name = "user"
    · subst huser
      cases hv
      trivial
    · obtain ⟨-, rfl⟩ : name = selfName ∧ Value.string "t" = v := by
        simpa [find?, Scope.find?, Scope.layers, s, env, Environment.startState, Scope.ofLayer,
          Environment.standard, Environment.empty, Table.find?_cons, LiveTemplate.name,
          Ne.symm huser] using hv
      trivial
  refine ⟨hdefined, n, ?_⟩
  rw [hdefault, hw hnames, hnowhere]
  rfl

end Render

end Stencil
