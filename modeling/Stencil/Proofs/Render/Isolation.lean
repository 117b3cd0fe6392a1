import Stencil.Proofs.Environment.Callbacks
import Stencil.Proofs.Render.Lockstep

/-!
Macros are isolated.

What a call of a macro gives is a function of the macro, its arguments, the root variables, the
templates loaded so far, the depth and the policy in force: the variables of the caller, its running
block, its composition and its template do not matter, and neither does the way by which the macro
was reached.

The two calls that are compared may be made at different moments, at which different numbers of
objects have been met.  Objects met during the calls then get other numbers, but the same ones up to
renaming, and the text that comes out has none in it.
-/

namespace Stencil

/-! ## §1. Calls that are alike -/

/-- What two calls of a macro have in common that were made in these states: all that the macro can
see or run into.  Requests, outputs and the rest of the frames may differ. -/
structure RenderState.SameForMacros {ω : Type} (s t : RenderState ω) : Prop where
  root : t.frame.scope.root = s.frame.scope.root
  loaded : t.loaded = s.loaded
  depth : t.depth = s.depth
  lenient : t.lenient = s.lenient

theorem RenderState.SameForMacros.symm {ω : Type} {s t : RenderState ω} (h : s.SameForMacros t) :
    t.SameForMacros s :=
  ⟨h.root.symm, h.loaded.symm, h.depth.symm, h.lenient.symm⟩

/-- The objects met that occur in arguments or in root variables were met before this state. -/
structure RenderState.Knows {ω : Type} (s : RenderState ω) (args : List (Value ω)) : Prop where
  args : Known s.met args
  root : Known s.met s.frame.scope.root

/-- Two renders in tandem that have met `m` and `n` objects so far: those met before both have the
same numbers, and those met from now on have corresponding ones.  They do not part. -/
def Tandem.shifted (m n : Nat) : Tandem where
  number i := if i < m then i else i + (n - m)
  number_injective := by
    intro i j hij
    simp only at hij
    split at hij <;> split at hij <;> omega
  parts _ := False
  number_of_parts := False.elim
  found_of_parts := False.elim
  requests _ _ := True
  requests_cons _ _ := trivial

namespace Render

variable {ω : Type} [HostObject ω] {env : Environment ω}

/-- An environment and itself, in which two renders have the same numbers, or the callbacks treat
them as names. -/
theorem twins_self {τ : Tandem} (numbers : τ.number = id ∨ env.Opaque)
    (source : ∀ {q r} name, τ.requests q r → env.source r name = env.source q name) :
    τ.Twins env env := by
  have hf := τ.number_injective
  constructor
  · exact source
  · exact fun name source => rfl
  · intro name
    rcases hg : env.filters.find? name with _ | g
    · exact .none
    · refine .some fun template v args => ?_
      rcases numbers with hid | opaqueEnv
      · simp only [hid, Rename.rename_id]
      · exact opaqueEnv.filters hf g (Table.mem_values_of_find? hg) _ v args
  · intro name
    rcases hg : env.functions.find? name with _ | g
    · exact .none
    · refine .some fun template args => ?_
      rcases numbers with hid | opaqueEnv
      · simp only [hid, Rename.rename_id]
      · exact opaqueEnv.functions hf g (Table.mem_values_of_find? hg) _ args
  · intro name
    rcases hg : env.tests.find? name with _ | g
    · exact .none
    · refine .some fun template v args => ?_
      rcases numbers with hid | opaqueEnv
      · simp only [hid, Rename.rename_id]
      · exact opaqueEnv.tests hf g (Table.mem_values_of_find? hg) _ v args
  · rcases numbers with hid | opaqueEnv
    · rw [hid, Rename.rename_id]
    · exact (opaqueEnv.globals _ nofun).symm
  · rfl
  · exact .inl rfl
  · rcases numbers with hid | opaqueEnv
    · exact hid ▸ HostObject.opaque_id
    · exact opaqueEnv.host hf

theorem twins_shifted (opaqueEnv : env.Opaque)
    (source : ∀ q r name, env.source q name = env.source r name) (m n : Nat) :
    (Tandem.shifted m n).Twins env env :=
  twins_self (.inr opaqueEnv) fun name _ => source _ _ name

omit [HostObject ω] in
/-- What comes of a macro is a text that is safe for all kinds of output. -/
theorem run_macroBody_ok {runner : Runner ω} {definition : MacroDef} {args : List (Value ω)}
    {s t : RenderState ω} {v : Value ω}
    (h : (macroBody runner definition args).run s = (.ok v, t)) :
    ∃ text, v = .safe ⟨text, .all⟩ := by
  unfold macroBody at h
  rcases hbind : (bindParams runner.eval definition.params args).run s with ⟨e | extra, u⟩
  · rw [run_bind_error hbind] at h
    cases h
  · rw [run_bind_ok hbind] at h
    simp only [assign, run_bind_ok (run_changeFrame _ _), run_map] at h
    generalize (capture (runner.body definition.body)).run _ = captured at h
    obtain ⟨e | text, w⟩ := captured
    · cases h
    · cases h
      exact ⟨text, rfl⟩

/-- The outcome of a macro, called one level below the limit, for two callers that are alike; the
first one has met no more objects than the second. -/
theorem outcome_callMacro_of_le (opaqueEnv : env.Opaque)
    (source : ∀ q r name, env.source q name = env.source r name) (n : Nat) {m : MacroRef}
    {definition : MacroDef} (defined : m.owner.template.macroAt? m.id = some definition)
    {args : List (Value ω)} (pos pos' : Position) {s t : RenderState ω} (same : s.SameForMacros t)
    (hle : s.met ≤ t.met) (known : s.Knows args) (below : s.depth < maxDepth) :
    ((callMacro (innerRunner env n) pos m args).run s).1 =
        ((callMacro (innerRunner env n) pos' m args).run t).1 ∧
      ∀ v, ((callMacro (innerRunner env n) pos m args).run s).1 = .ok v →
        ∃ text, v = .safe ⟨text, .all⟩ := by
  let τ := Tandem.shifted s.met t.met
  have hnumber : ∀ i < s.met, τ.number i = i := fun i hi => if_pos hi
  have below' : t.depth < maxDepth := same.depth ▸ below
  simp only [callMacro, defined, run_deeper_of_lt _ _ _ below, run_deeper_of_lt _ _ _ below',
    run_ending]
  have hinner := inStep_innerRunner (twins_shifted opaqueEnv source s.met t.met) n
  rcases hr : innerRunner env n with _ | runner
  · exact ⟨rfl, nofun⟩
  · rw [hr] at hinner
    obtain ⟨hrun⟩ := hinner
    -- The two frames of the macro match, although those of the callers need not.
    let s' : RenderState ω := { s with depth := s.depth + 1, frame := Frame.forMacro s.frame m }
    let t' : RenderState ω := { t with depth := t.depth + 1, frame := Frame.forMacro t.frame m }
    have matched : τ.Matched (fun _ _ => True) s' t' := by
      refine ⟨?_, congrArg (· + 1) same.depth, same.lenient, same.loaded, trivial, trivial, ?_⟩
      · have hroot : t.frame.scope.root = rename τ.number s.frame.scope.root :=
          same.root.trans (known.root _ hnumber).symm
        show Frame.mk _ (Scope.ofLayer t.frame.scope.root []) none none = _
        rw [hroot]
        rfl
      · intro i
        show (if s.met + i < s.met then _ else s.met + i + (t.met - s.met)) = t.met + i
        rw [if_neg (by omega)]
        omega
    have hends := (inStep_macroBody hrun definition args).ends matched
    rw [known.args _ hnumber] at hends
    show ((macroBody runner definition args).run s').1 =
        ((macroBody runner definition args).run t').1 ∧
      ∀ v, ((macroBody runner definition args).run s').1 = .ok v → ∃ text, v = .safe ⟨text, .all⟩
    rcases hs : (macroBody runner definition args).run s' with ⟨r, u⟩
    rcases ht : (macroBody runner definition args).run t' with ⟨r', u'⟩
    rw [hs, ht] at hends
    cases hends with
    | apart parts _ => exact parts.elim
    | both result _ =>
      subst result
      cases r with
      | error e => exact ⟨rfl, nofun⟩
      | ok v =>
        obtain ⟨text, rfl⟩ := run_macroBody_ok hs
        exact ⟨rfl, fun w hw => ⟨text, (Except.ok.inj hw).symm⟩⟩

/-! ## §2. Reaching a macro -/

/-- Evaluating an expression from a state comes to calling a macro, in another state and with
arguments: by a name that means the macro, be it its own or one it was imported under, or as an
attribute of a value, such as the map that an import binds. -/
inductive Reaches (env : Environment ω) (inner : Option (Runner ω)) (m : MacroRef)
    (args : List (Value ω)) (t : RenderState ω) : Expr → RenderState ω → Prop
  | byName {pos name es s} (notParent : name ≠ "parent") (notBlock : name ≠ "block")
    (meant : macroNamed? s.frame name = some m)
    (evaluated : (evalAll env inner es).run s = (.ok args, t)) :
    Reaches env inner m args t (.call pos name es) s
  | asAttribute {pos object key es s s' s'' o k}
    (evaluatedObject : (eval env inner object).run s = (.ok o, s'))
    (evaluatedKey : (eval env inner key).run s' = (.ok k, s''))
    (evaluated : (evalAll env inner es).run s'' = (.ok args, t))
    (meant : o.attribute? k = some (.callable m)) :
    Reaches env inner m args t (.method pos object key es) s

theorem Reaches.run_eval {inner : Option (Runner ω)} {m : MacroRef} {args : List (Value ω)}
    {s t : RenderState ω} {e : Expr} (h : Reaches env inner m args t e s) :
    (eval env inner e).run s = (callMacro inner e.pos m args).run t := by
  cases h with
  | byName notParent notBlock meant evaluated =>
    rw [eval, callFunction, if_neg notParent, if_neg notBlock, run_bind_ok (run_frame s), meant]
    exact run_bind_ok evaluated _
  | asAttribute evaluatedObject evaluatedKey evaluated meant =>
    rw [eval, run_bind_ok evaluatedObject, run_bind_ok evaluatedKey, run_bind_ok evaluated]
    simp only [callMethod, meant, Expr.pos]

/-- The map that an import binds has the macros of the template as attributes. -/
theorem attribute?_macrosOf (t : LiveTemplate) (key : Value ω) :
    (macrosOf t : Value ω).attribute? key =
      (t.template.macroTable.find? key.output).map fun id => .callable ⟨t, id⟩ := by
  rw [macrosOf, Value.attribute?]
  induction t.template.macroTable with
  | nil => rfl
  | cons entry entries ih =>
    rw [List.map_cons, Table.find?_cons, Table.find?_cons, ih]
    show (if entry.1 = key.output then _ else _) = _
    split <;> rfl

/-! ## §3. Isolation -/

theorem outcome_callMacro (opaqueEnv : env.Opaque)
    (source : ∀ q r name, env.source q name = env.source r name) (n : Nat) {m : MacroRef}
    {definition : MacroDef} (defined : m.owner.template.macroAt? m.id = some definition)
    {args : List (Value ω)} (pos pos' : Position) {s t : RenderState ω} (same : s.SameForMacros t)
    (known : s.Knows args) (known' : t.Knows args) (below : s.depth < maxDepth) :
    ((callMacro (innerRunner env n) pos m args).run s).1 =
        ((callMacro (innerRunner env n) pos' m args).run t).1 ∧
      ∀ v, ((callMacro (innerRunner env n) pos m args).run s).1 = .ok v →
        ∃ text, v = .safe ⟨text, .all⟩ := by
  -- The numbers of the caller that has met fewer objects are the ones to be renamed.
  rcases Nat.le_total s.met t.met with hle | hle
  · exact outcome_callMacro_of_le opaqueEnv source n defined pos pos' same hle known below
  · obtain ⟨heq, hsafe⟩ := outcome_callMacro_of_le opaqueEnv source n defined pos' pos same.symm hle
      known' (same.depth ▸ below)
    exact ⟨heq.symm, fun v hv => hsafe v (heq.trans hv)⟩

end Render

end Stencil
