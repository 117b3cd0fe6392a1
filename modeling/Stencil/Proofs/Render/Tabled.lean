import Stencil.Loader.Source
import Stencil.Proofs.Render.Moves
import Stencil.Proofs.Template.Escaping
import Stencil.Proofs.Template.Termination

/-!
Renders of templates from a table.

With templates from a table, a request is answered with a template that has the name it was asked
for by, or with an error that there is none or that it cannot be parsed; it never leads nowhere.
`Plain` is about the parts of renders that open no construct: they keep the count of open ones, and
the reasons for which they fail have nothing to do with the limit.
-/

namespace Stencil

open Render

variable {ω α β : Type}

/-! ## §1. Environments and failures -/

theorem Table.mem_names_of_find? {t : Table α} {name : String} {a : α}
    (h : t.find? name = some a) : name ∈ t.names := by
  obtain ⟨entry, hentry, -⟩ := Option.map_eq_some_iff.mp h
  have hname : entry.1 = name := by simpa using List.find?_some hentry
  exact hname ▸ List.mem_map_of_mem (List.mem_of_find?_eq_some hentry)

/-- An environment whose templates are those of a table, without passes but escaping by default.
A chain is followed for as long as it goes on: patience for a chain through all templates is enough
for every chain. -/
structure Environment.Tabled (env : Environment ω) (sources : Table String) : Prop where
  source : env.source = .ofTable sources
  passes : env.passes = []
  patience : sources.length < env.patience

/-- A failure that has nothing to do with the limit, or with steps running out. -/
structure Failure.Ordinary (f : Failure) : Prop where
  ne_exhausted : f ≠ .exhausted
  ne_limit : ∀ name pos k, f ≠ .error (.render name pos (.recursionLimit k))

namespace Failure

theorem ordinary_render {kind : RenderErrorKind} (h : ∀ k, kind ≠ .recursionLimit k)
    (name : String) (pos : Position) : Ordinary (.error (.render name pos kind)) where
  ne_exhausted := nofun
  ne_limit _ _ k heq := by
    cases heq
    exact h k rfl

theorem ordinary_parse (name : String) (e : ParseError) : Ordinary (.error (.parse name e)) :=
  ⟨nofun, nofun⟩

theorem ordinary_notFound (name : String) (reason : NotFound) :
    Ordinary (.error (.notFound name reason)) :=
  ⟨nofun, nofun⟩

theorem ordinary_extendsCycle (names : List String) : Ordinary (.error (.extendsCycle names)) :=
  ⟨nofun, nofun⟩

theorem ordinary_outputClosed : Ordinary (.error .outputClosed) :=
  ⟨nofun, nofun⟩

end Failure

variable {env : Environment ω} {sources : Table String}

namespace Environment.Tabled

/-- Preparing a template comes to an end, with the template of the name or with a parse error. -/
theorem prepare (henv : env.Tabled sources) (name source : String) :
    (∃ t, env.prepare name source = .ok t ∧ t.name = name) ∨
      ∃ e, env.prepare name source = .error (.error (.parse name e)) := by
  have hparse := Template.parse_ne_exhausted name source
  unfold Environment.prepare
  cases hr : Template.parse name source with
  | error e =>
    cases e with
    | error e => exact .inr ⟨e, rfl⟩
    | exhausted => exact absurd hr hparse
  | ok t =>
    left
    have hname : t.name = name :=
      (Template.parse_derives (fun n => Expr.quiet_parse n .any) hr).1
    obtain ⟨t', hrun, -⟩ := AutoEscape.run_escapes t
    by_cases hescape : env.autoEscape = true
    · refine ⟨t', ?_, (AutoEscape.name_run hrun).trans hname⟩
      simp [allPasses, henv.passes, hescape, hrun]
    · refine ⟨t, ?_, hname⟩
      simp [allPasses, henv.passes, hescape]

/-- A template that is requested first is there under its name, or its request fails. -/
theorem template (henv : env.Tabled sources) (name : String) :
    (∃ t, env.template name = .ok t ∧ t.name = name) ∨
      ∃ f, env.template name = .error f ∧ f.Ordinary := by
  unfold Environment.template
  simp only [henv.source, TemplateSource.ofTable]
  cases sources.find? name with
  | none => exact .inr ⟨_, rfl, Failure.ordinary_notFound _ _⟩
  | some source =>
    rcases henv.prepare name source with ⟨t, ht, hname⟩ | ⟨e, he⟩
    · exact .inl ⟨t, ht, hname⟩
    · exact .inr ⟨_, he, Failure.ordinary_parse _ _⟩

end Environment.Tabled

/-! ## §2. Plain parts of renders -/

/-- What was loaded has the name that it was asked for by, which is a name of the table. -/
def RenderState.Cached (sources : Table String) (s : RenderState ω) : Prop :=
  ∀ name t, s.loaded.find? name = some t → t.name = name ∧ name ∈ sources.names

/-- A part of a render that opens no construct: it keeps the count of open ones, and fails for
ordinary reasons. -/
def Plain (sources : Table String) (x : Render ω α) (Q : α → Prop) : Prop :=
  ∀ s : RenderState ω, s.Cached sources →
    (x.run s).2.depth = s.depth ∧ (x.run s).2.Cached sources ∧
      match (x.run s).1 with
      | .ok a => Q a
      | .error f => f.Ordinary

namespace Plain

variable {Q : α → Prop} {R : β → Prop}

theorem bind {x : Render ω α} {f : α → Render ω β} (hx : Plain sources x Q)
    (hf : ∀ a, Q a → Plain sources (f a) R) : Plain sources (x >>= f) R := by
  intro s hs
  obtain ⟨hdepth, hcached, hresult⟩ := hx s hs
  rcases hr : x.run s with ⟨e | a, t⟩
  · rw [hr] at hdepth hcached hresult
    rw [run_bind_error hr]
    exact ⟨hdepth, hcached, hresult⟩
  · rw [hr] at hdepth hcached hresult
    rw [run_bind_ok hr]
    obtain ⟨hdepth', hcached', hresult'⟩ := hf a hresult t hcached
    exact ⟨hdepth'.trans hdepth, hcached', hresult'⟩

theorem pure {a : α} (h : Q a) : Plain sources (Pure.pure a : Render ω α) Q :=
  fun _ hs => ⟨rfl, hs, h⟩

theorem throw {f : Failure} (h : f.Ordinary) : Plain sources (MonadExcept.throw f : Render ω α) Q :=
  fun _ hs => ⟨rfl, hs, h⟩

theorem frame : Plain sources (Render.frame : Render ω (Frame ω)) fun _ => True :=
  fun _ hs => ⟨rfl, hs, trivial⟩

theorem changeFrame (f : Frame ω → Frame ω) :
    Plain sources (Render.changeFrame f) fun _ => True :=
  fun _ hs => ⟨rfl, hs, trivial⟩

theorem meet (v : Value ω) : Plain sources (Render.meet v) fun _ => True :=
  fun _ hs => ⟨rfl, hs, trivial⟩

theorem failAt (pos : Position) {kind : RenderErrorKind} (h : ∀ k, kind ≠ .recursionLimit k) :
    Plain sources (Render.failAt pos kind : Render ω α) Q :=
  frame.bind fun _ _ => throw (Failure.ordinary_render h _ _)

theorem get_bind {f : RenderState ω → Render ω α} (h : ∀ s, Plain sources (f s) Q) :
    Plain sources (get >>= f) Q := by
  intro s hs
  rw [run_bind_ok (run_get s)]
  exact h s s hs

theorem undefined (pos : Position) (name : String) :
    Plain sources (Render.undefined env pos name) fun _ => True := by
  apply get_bind
  intro s
  split
  · exact failAt pos nofun
  · exact pure trivial

theorem write (text : String) :
    Plain sources (Render.write text : Render ω Unit) fun _ => True := by
  intro s hs
  rw [Render.write, run_bind_ok (run_get s)]
  by_cases hempty : text.isEmpty
  · rw [if_pos hempty]
    exact ⟨rfl, hs, trivial⟩
  · rw [if_neg hempty]
    rcases s.output.room with _ | _ | n
    · exact ⟨rfl, hs, trivial⟩
    · exact ⟨rfl, hs, Failure.ordinary_outputClosed⟩
    · exact ⟨rfl, hs, trivial⟩

/-- What is loaded is the template of the name in the table. -/
theorem load (henv : env.Tabled sources) (name : String) :
    Plain sources (Render.load env name) fun t => t.name = name ∧ name ∈ sources.names := by
  intro s hs
  rw [run_load]
  cases hfind : s.loaded.find? name with
  | some t => exact ⟨rfl, hs, hs name t hfind⟩
  | none =>
    simp only [henv.source, TemplateSource.ofTable]
    cases hsource : sources.find? name with
    | none => exact ⟨rfl, hs, Failure.ordinary_notFound _ _⟩
    | some source =>
      simp only
      have hmem : name ∈ sources.names := Table.mem_names_of_find? hsource
      rcases henv.prepare name source with ⟨t, ht, hname⟩ | ⟨e, he⟩
      · rw [ht]
        refine ⟨rfl, fun name' t' hfind' => ?_, hname, hmem⟩
        by_cases heq : name = name'
        · subst heq
          simp only [Table.find?_insert_self, Option.some.injEq] at hfind'
          subst hfind'
          exact ⟨hname, hmem⟩
        · simp only [Table.find?_insert_ne _ _ heq] at hfind'
          exact hs name' t' hfind'
      · rw [he]
        exact ⟨rfl, hs, Failure.ordinary_parse _ _⟩

theorem loadFirst (henv : env.Tabled sources) (missing : Option Error) (names : List String)
    (hmissing : ∀ e ∈ missing, Failure.Ordinary (.error e)) :
    Plain sources (Render.loadFirst env missing names) fun r =>
      ∀ e, r = .error (some e) → Failure.Ordinary (.error e) := by
  induction names generalizing missing with
  | nil =>
    apply pure
    rintro e ⟨⟩
    exact hmissing e rfl
  | cons name names ih =>
    have hname : Plain sources (loadIfThere env name) fun r =>
        ∀ e, r = .error e → Failure.Ordinary (.error e) := by
      intro s hs
      obtain ⟨hdepth, hcached, hresult⟩ := load henv name s hs
      rw [run_loadIfThere]
      refine ⟨hdepth, hcached, ?_⟩
      -- An error that there is none is passed on as a result, any other is one.
      rcases hr : ((Render.load env name).run s).1 with (e | _) | t
      · rw [hr] at hresult
        by_cases he : e.isNotFound
        · simp only [orMissing, he, if_true]
          rintro _ ⟨⟩
          exact hresult
        · simp only [orMissing, he]
          exact hresult
      · rw [hr] at hresult
        exact hresult
      · rintro _ ⟨⟩
    apply hname.bind
    intro r hr
    cases r with
    | error e => exact ih (some e) fun e' he' => by cases he'; exact hr _ rfl
    | ok t => exact pure (by simp)

theorem seek (henv : env.Tabled sources) (optional : Bool) (names : List String) :
    Plain sources (Render.seek env optional names) fun _ => True := by
  apply (loadFirst henv none names nofun).bind
  intro r hr
  split
  · exact pure trivial
  · exact pure trivial
  · split
    · exact pure trivial
    · exact throw (hr _ rfl)

end Plain

/-! ## §3. Steps of chains -/

/-- A chain goes on to a template of the table whose name it has not met, or fails. -/
theorem run_stepChain (henv : env.Tabled sources) {names : List String} {s : RenderState ω}
    (hs : s.Cached sources) (hrunning : s.frame.template.name ∈ names) (r : Reference) :
    (∃ name t, (stepChain env names r).run s = (.ok (name :: names), t) ∧ name ∉ names ∧
      name ∈ sources.names ∧ t.frame.template.name = name ∧ t.depth = s.depth ∧
      t.Cached sources) ∨
    ∃ f t, (stepChain env names r).run s = (.error f, t) ∧ f.Ordinary ∧ t.depth = s.depth ∧
      t.Cached sources := by
  cases r with
  | running =>
    -- The running template has been met.
    have hcontains : names.contains s.frame.template.name = true :=
      List.contains_iff_mem.mpr hrunning
    refine .inr ⟨_, s, ?_, Failure.ordinary_extendsCycle (s.frame.template.name :: names).reverse,
      rfl, hs⟩
    rw [stepChain, resolve, bind_assoc, run_bind_ok (run_frame s)]
    simp only [pure_bind, hcontains, if_true]
    rfl
  | named name =>
    obtain ⟨hdepth, hcached, hresult⟩ := Plain.load henv name s hs
    rw [stepChain, resolve]
    rcases hr : (load env name).run s with ⟨f | parent, t⟩
    · rw [hr] at hdepth hcached hresult
      exact .inr ⟨f, t, run_bind_error hr _, hresult, hdepth, hcached⟩
    · rw [hr] at hdepth hcached hresult
      obtain ⟨rfl, hmem⟩ := hresult
      rw [run_bind_ok hr]
      by_cases hmet : parent.name ∈ names
      · refine .inr ⟨_, t, ?_, Failure.ordinary_extendsCycle (parent.name :: names).reverse,
          hdepth, hcached⟩
        simp only [List.contains_iff_mem.mpr hmet, if_true]
        rfl
      · refine .inl ⟨parent.name, { t with frame := { t.frame with template := parent } }, ?_, hmet,
          hmem, rfl, hdepth, hcached⟩
        have hcontains : ¬names.contains parent.name = true :=
          fun h => hmet (List.contains_iff_mem.mp h)
        simp only [hcontains]
        rfl

/-- In a turn of a chain its template stays the running one. -/
theorem keeps_followTurn [HostObject ω] {runner : Runner ω} (hrun : runner.Restores)
    (levels : List Level) : Keeps RenderState.surroundings (followTurn env runner levels) := by
  refine Keeps.bind Keeps.frame fun f => ?_
  refine Keeps.bind (keeps_usedTemplates env hrun.eval _).toSurroundings fun uses => ?_
  split
  · exact Keeps.pure _
  · next extended _ =>
    have hreference : Keeps RenderState.standing (reference runner.eval extended.template) := by
      unfold reference
      split
      · exact Keeps.pure _
      · exact Keeps.bind (hrun.eval _) fun v => Keeps.pure _
    refine Keeps.bind (hrun.body _) fun _ => ?_
    exact Keeps.bind hreference.toSurroundings fun r => Keeps.pure _

end Stencil
