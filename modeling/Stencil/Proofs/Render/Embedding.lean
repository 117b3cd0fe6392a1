import Mathlib.Data.List.Nodup
import Mathlib.Data.List.Perm.Subperm
import Stencil.Proofs.Render.Copies
import Stencil.Proofs.Render.Tabled

/-!
To embed a template is to include a child of it.

An `embed` renders a template under blocks of its own.  A child is a template that extends the same
one and has the same blocks, and nothing else.  Including the child leads through its turn of the
chain, in which nothing takes effect, to the template that is embedded.  From there on the two
renders go side by side: the chain of the child has met one more name, and has one more level, whose
blocks are copies of those that the embedded template is rendered under.

If the chain comes back to the child, both fail.  The one has met the child before; the other one
goes on to it, and from there to the template that the chain began with.
-/

namespace Stencil

open Render

variable {ω α β γ : Type}

/-! ## §1. Templates from a table -/

/-- An environment whose templates are those of a table, and keep their names when they are
prepared.  There is patience for a chain through all of them. -/
structure Environment.Shelved (env : Environment ω) (sources : Table String) : Prop where
  source : env.source = .ofTable sources
  names : ∀ name t, env.template name = .ok t → t.name = name
  patience : sources.length < env.patience

namespace Environment

variable {env : Environment ω} {sources : Table String}

theorem Tabled.shelved (henv : env.Tabled sources) : env.Shelved sources where
  source := henv.source
  names name t ht := by
    rcases henv.template name with ⟨t', ht', hname⟩ | ⟨f, hf, -⟩
    · rw [ht] at ht'
      cases ht'
      exact hname
    · rw [ht] at hf
      cases hf
  patience := henv.patience

namespace Shelved

theorem steady (henv : env.Shelved sources) : env.Steady := fun _ _ => by
  rw [henv.source]
  rfl

/-- A request is answered with a template of the table that has the name it was asked for by. -/
theorem of_answer (henv : env.Shelved sources) {name : String} {t : LiveTemplate}
    (h : env.answer name = .ok t) :
    t.name = name ∧ name ∈ sources.names := by
  unfold answer at h
  cases htemplate : env.template name with
  | error e =>
    rw [htemplate] at h
    cases h
  | ok template =>
    rw [htemplate] at h
    cases h
    refine ⟨henv.names name template htemplate, ?_⟩
    unfold Environment.template at htemplate
    rw [henv.source] at htemplate
    cases hfind : sources.find? name with
    | some source => exact Table.mem_names_of_find? hfind
    | none =>
      simp only [TemplateSource.ofTable, hfind] at htemplate
      cases htemplate

end Shelved

end Environment

/-- Names of a table that are met but once are no more than there are. -/
theorem Table.length_le_of_nodup {sources : Table String} {names : List String}
    (hnodup : names.Nodup) (hnames : names ⊆ sources.names) : names.length ≤ sources.length := by
  have hlength := (hnodup.subperm hnames).length_le
  rwa [Table.names, List.length_map] at hlength

/-! ## §2. Parts of renders that fail -/

variable {env : Environment ω} {ρ : Relocation} {π : Pairing}

theorem Relocation.Frames.refl (f : Frame ω) : ρ.Frames .same f f := by
  refine ⟨rfl, rfl, ?_, rfl⟩
  cases f.blocks with
  | none => exact .none
  | some c => exact .some (.refl c)

theorem Relocation.Matched.refl {s : RenderState ω} (hs : s.Answered env)
    {out : Output → Output → Prop} (hout : out s.output s.output) :
    ρ.Matched env .same out s s where
  frame := .refl s.frame
  depth := rfl
  lenient := rfl
  met := rfl
  output := hout
  left := hs
  right := hs

/-- Whether a part of a render fails, with nothing written to an output. -/
def Render.Fails (env : Environment ω) (o : Output) (x : Render ω α) : Prop :=
  ∀ s : RenderState ω, s.Answered env → s.output = o →
    ∃ e t, x.run s = (.error e, t) ∧ t.output = o

namespace Render.Fails

variable {o : Output} {x : Render ω α}

/-- What comes first may be anything that writes to no output. -/
theorem bind {f : α → Render ω β} (hx : ∀ {out}, ρ.Alike env .same out x x)
    (hf : ∀ a, Fails env o (f a)) : Fails env o (x >>= f) := by
  intro s hs ho
  have h := @hx (fun a _ => a = o) s s (.refl hs ho)
  rcases hr : x.run s with ⟨e | a, t⟩
  · rw [hr] at h
    rw [run_bind_error hr]
    cases h with
    | failed output => exact ⟨e, t, rfl, output⟩
  · rw [hr] at h
    rw [run_bind_ok hr]
    cases h with
    | both _ states => exact hf a t states.left states.output

theorem frame_bind {f : Frame ω → Render ω α} (hf : ∀ fr, Fails env o (f fr)) :
    Fails env o (Render.frame >>= f) := by
  intro s hs ho
  rw [run_bind_ok (run_frame s)]
  exact hf s.frame s hs ho

theorem deeper {inner : Option (Runner ω)} {pos : Position} {k : Runner ω → Render ω α}
    (hk : ∀ r ∈ inner, Fails env o (k r)) : Fails env o (Render.deeper inner pos k) := by
  intro s hs ho
  by_cases hlimit : maxDepth ≤ s.depth
  · exact ⟨_, s, run_deeper_of_limit _ _ _ hlimit, ho⟩
  · rw [run_deeper_of_lt _ _ _ (Nat.lt_of_not_le hlimit), run_ending]
    cases inner with
    | none => exact ⟨.exhausted, leave _, rfl, ho⟩
    | some r =>
      obtain ⟨e, t, hrun, hout⟩ := hk r rfl { s with depth := s.depth + 1 } hs ho
      exact ⟨e, leave t, by simp only [hrun], hout⟩

end Render.Fails

/-! ## §3. Steps of a chain -/

/-- What comes after two parts that end in the same way. -/
theorem Render.run_bind_congr {x y : Render ω α} {s t : RenderState ω} (h : x.run s = y.run t)
    (f : α → Render ω β) : (x >>= f).run s = (y >>= f).run t := by
  rw [run_bind, run_bind, h]

section Steps

variable {runner : Runner ω} {names : List String} {levels levels' : List Level}
  {s t : RenderState ω} {r : Reference} {e : Failure}

theorem run_stepChain_of_error (h : (resolve env r).run s = (.error e, t)) :
    (stepChain env names r).run s = (.error e, t) :=
  run_bind_error h _

theorem run_stepChain_of_met {parent : LiveTemplate}
    (h : (resolve env r).run s = (.ok parent, t)) (hmet : parent.name ∈ names) :
    (stepChain env names r).run s =
      (.error (.error (.extendsCycle (parent.name :: names).reverse)), t) := by
  rw [stepChain, run_bind_ok h]
  simp only [List.contains_iff_mem.mpr hmet, if_true]
  rfl

theorem run_stepChain_of_new {parent : LiveTemplate}
    (h : (resolve env r).run s = (.ok parent, t)) (hnew : parent.name ∉ names) :
    (stepChain env names r).run s =
      (.ok (parent.name :: names), { t with frame := { t.frame with template := parent } }) := by
  have hcontains : ¬names.contains parent.name = true := fun h => hnew (List.contains_iff_mem.mp h)
  rw [stepChain, run_bind_ok h]
  simp only [hcontains]
  rfl

variable [HostObject ω]

theorem run_chainTurn_of_error
    (h : (followTurn env runner levels).run s = (.error e, t)) :
    (chainTurn env runner names levels).run s = (.error e, t) :=
  run_bind_error h _

theorem run_chainTurn_of_end
    (h : (followTurn env runner levels).run s = (.ok (levels', none), t)) :
    (chainTurn env runner names levels).run s = (.ok (levels', none), t) := by
  rw [chainTurn, run_bind_ok h]
  rfl

theorem run_chainTurn_of_step
    (h : (followTurn env runner levels).run s = (.ok (levels', some r), t)) :
    (chainTurn env runner names levels).run s =
      (((stepChain env names r).run t).1.map fun names' => (levels', some names'),
        ((stepChain env names r).run t).2) := by
  rw [chainTurn, run_bind_ok h]
  exact run_map _ _ t

/-- A level more at the front is there after a turn as well. -/
theorem followTurn_append (env : Environment ω) (runner : Runner ω) (levels : List Level)
    (l : Level) :
    followTurn env runner (levels ++ [l]) =
      (fun p => (p.1 ++ [l], p.2)) <$> followTurn env runner levels := by
  unfold followTurn
  rw [map_bind]
  congr 1
  funext f
  rw [map_bind]
  refine bind_congr fun uses => ?_
  cases f.template.template.parent with
  | none => simp
  | some extended => simp

end Steps

/-! ## §4. The chain of a child -/

/-- What a runner does with the code of a child at its turn. -/
structure Render.Runner.Literal (runner : Runner ω) : Prop where
  body : runner.body [] = pure ()
  eval : ∀ pos text, runner.eval (.string pos text) = pure (.string text)

theorem Render.literal_innerRunner [HostObject ω] (n : Nat) :
    ∀ r ∈ innerRunner env n, r.Literal := by
  cases n with
  | zero => exact fun r hr => nomatch hr
  | succ n =>
    rintro r ⟨⟩
    constructor
    · show runBody env (innerRunner env n) [] = _
      rw [runBody]
    · intro pos text
      show Render.eval env (innerRunner env n) (.string pos text) = _
      rw [Render.eval]

namespace Relocation

/-- The target of a relocation is a child of a template: there is a request that it is the answer
to, it extends that template, and its blocks are copies of those in a table.  At its top level
there is nothing but blocks and texts. -/
structure Child (ρ : Relocation) (env : Environment ω) (name parent : String)
    (blocks : Table DefinitionId) : Prop where
  answer : env.answer name = .ok ρ.target
  extending : ∃ pos pos', ρ.target.template.parent = some ⟨pos, .string pos' parent⟩
  body : ∀ s ∈ ρ.target.template.body,
    (∃ pos content, s = .text pos content) ∨ ∃ pos id, s = .block pos id
  blockTable : ρ.target.template.blockTable = renumber ρ.number blocks
  copied : ∀ id ∈ blocks.values, ρ.copied id

/-- The level that the target of a relocation adds to a chain. -/
def childLevel (ρ : Relocation) : Level :=
  ⟨ρ.target, []⟩

namespace Child

variable {name parent : String} {blocks : Table DefinitionId}
  (child : ρ.Child env name parent blocks)
include child

theorem preamble : ρ.target.template.body.filter isPreamble = [] := by
  refine List.filter_eq_nil_iff.mpr fun s hs => ?_
  rcases child.body s hs with ⟨pos, content, rfl⟩ | ⟨pos, id, rfl⟩ <;> exact Bool.false_ne_true

theorem reuses : ρ.target.template.reuses = [] := by
  refine List.filterMap_eq_nil_iff.mpr fun s hs => ?_
  rcases child.body s hs with ⟨pos, content, rfl⟩ | ⟨pos, id, rfl⟩ <;> rfl

/-- The blocks of an embedding statement, and those that the child adds. -/
theorem compositions :
    ρ.Compositions (ρ.source.blocks blocks) (Level.blocks ρ.childLevel) := by
  unfold Level.blocks childLevel
  rw [List.reverse_nil, List.flatMap_nil, List.append_nil, child.blockTable]
  exact .copies child.copied

variable [HostObject ω] {runner : Runner ω} (literal : runner.Literal)
include literal

/-- At the turn of a child nothing happens. -/
theorem run_followTurn (levels : List Level) {s : RenderState ω}
    (hs : s.frame.template = ρ.target) :
    (followTurn env runner levels).run s =
      (.ok (ρ.childLevel :: levels, some (.named parent)), s) := by
  obtain ⟨pos, pos', hparent⟩ := child.extending
  rw [followTurn, run_bind_ok (run_frame s), hs]
  simp only [child.reuses, child.preamble, usedTemplates, hparent, literal.body, reference, isSelf,
    literal.eval, pure_bind]
  rfl

/-- A chain that comes to a child fails if it has met the template that the child extends. -/
theorem run_followChain_of_met {sources : Table String} (henv : env.Shelved sources) (n : Nat)
    {names : List String} (levels : List Level) {s : RenderState ω} (hs : s.Answered env)
    (hchild : s.frame.template = ρ.target)
    (hmet : ∀ t, env.answer parent = .ok t → parent ∈ names) :
    ∃ e t, (followChain env runner n names levels).run s = (.error e, t) ∧
      t.output = s.output := by
  cases n with
  | zero => exact ⟨.exhausted, s, rfl, rfl⟩
  | succ n =>
    obtain ⟨loaded, requests, hrun, -⟩ := run_load_of_steady henv.steady parent hs
    have hload : (resolve env (.named parent)).run s = _ := hrun
    have hturn : (chainTurn env runner names levels).run s = _ :=
      run_chainTurn_of_step (child.run_followTurn literal levels hchild)
    rw [followChain_succ]
    cases hanswer : env.answer parent with
    | error e =>
      rw [hanswer] at hload
      rw [run_stepChain_of_error hload] at hturn
      exact ⟨e, _, run_bind_error hturn _, rfl⟩
    | ok t =>
      rw [hanswer] at hload
      have hname : t.name ∈ names := by
        rw [(henv.of_answer hanswer).1]
        exact hmet t hanswer
      rw [run_stepChain_of_met hload hname] at hturn
      exact ⟨_, _, run_bind_error hturn _, rfl⟩

end Child

/-! ## §5. Two chains -/

/-- How a turn of a chain ends, and the same turn of a chain that began with a child. -/
inductive Turned (ρ : Relocation) (env : Environment ω) (name : String) (met known : List String) :
    Except Failure (List Level × Option (List String)) × RenderState ω →
    Except Failure (List Level × Option (List String)) × RenderState ω → Prop
  | failed {s t : RenderState ω} {e e' : Failure} : t.output = s.output →
    Turned ρ env name met known (.error e, s) (.error e', t)
  | root {s t : RenderState ω} (levels : List Level) : ρ.Matched env .same Eq s t →
    Turned ρ env name met known (.ok (levels, none), s) (.ok (levels ++ [ρ.childLevel], none), t)
  | next {s t : RenderState ω} (levels : List Level) : ρ.Matched env .same Eq s t →
    s.frame.template.name ∉ met ++ [name] → s.frame.template.name ∈ known →
    Turned ρ env name met known (.ok (levels, some (s.frame.template.name :: met)), s)
      (.ok (levels ++ [ρ.childLevel], some (s.frame.template.name :: (met ++ [name]))), t)
  /-- The first chain goes on to the child, which the second one has met. -/
  | child {s t : RenderState ω} (levels : List Level) {names : List String} {e : Failure} :
    s.Answered env → s.frame.template = ρ.target → met ⊆ names → t.output = s.output →
    Turned ρ env name met known (.ok (levels, some names), s) (.error e, t)

section Chains

variable [HostObject ω] {sources : Table String} (henv : env.Shelved sources)
  {runner : Runner ω} (hrun : ρ.Runs env runner) (hrestores : runner.Restores)
  {name parent : String} {blocks : Table DefinitionId} (child : ρ.Child env name parent blocks)
include henv hrun hrestores child

omit [HostObject ω] hrun hrestores in
theorem turned_stepChain {met : List String} (levels : List Level) (r : Reference)
    {s t : RenderState ω} (m : ρ.Matched env .same Eq s t)
    (hrunning : s.frame.template.name ∈ met) :
    ρ.Turned env name met sources.names
      (((stepChain env met r).run s).1.map fun names => (levels, some names),
        ((stepChain env met r).run s).2)
      (((stepChain env (met ++ [name]) r).run t).1.map
          fun names => (levels ++ [ρ.childLevel], some names),
        ((stepChain env (met ++ [name]) r).run t).2) := by
  cases r with
  | running =>
    -- Both have met the template that is running.
    have htemplate : t.frame.template = s.frame.template := m.frame.templates
    have hmet : t.frame.template.name ∈ met ++ [name] := by
      rw [htemplate]
      exact List.mem_append_left _ hrunning
    have hs : (resolve env .running).run s = (.ok s.frame.template, s) := rfl
    have ht : (resolve env .running).run t = (.ok t.frame.template, t) := rfl
    rw [run_stepChain_of_met hs hrunning, run_stepChain_of_met ht hmet]
    exact .failed m.output.symm
  | named next =>
    obtain ⟨u, u', hu, hu', m'⟩ := Alike.run_load henv.steady next m
    have hs : (resolve env (.named next)).run s = _ := hu
    have ht : (resolve env (.named next)).run t = _ := hu'
    cases hanswer : env.answer next with
    | error e =>
      rw [hanswer] at hs ht
      rw [run_stepChain_of_error hs, run_stepChain_of_error ht]
      exact .failed m'.output.symm
    | ok live =>
      rw [hanswer] at hs ht
      obtain ⟨rfl, hknown⟩ := henv.of_answer hanswer
      by_cases hmet : live.name ∈ met
      · rw [run_stepChain_of_met hs hmet,
          run_stepChain_of_met ht (List.mem_append_left _ hmet)]
        exact .failed m'.output.symm
      · rw [run_stepChain_of_new hs hmet]
        by_cases hchild : live.name = name
        · have hlive : live = ρ.target := by
            rw [hchild, child.answer] at hanswer
            cases hanswer
            rfl
          rw [run_stepChain_of_met ht (by rw [hchild]; exact List.mem_append_right _ (.head _))]
          exact .child levels m'.left hlive (List.subset_cons_self _ _) m'.output.symm
        · have hnew : live.name ∉ met ++ [name] := by simp [hmet, hchild]
          rw [run_stepChain_of_new ht hnew]
          have m'' : ρ.Matched env .same Eq { u with frame := { u.frame with template := live } }
              { u' with frame := { u'.frame with template := live } } :=
            ⟨⟨rfl, m'.frame.scope, m'.frame.blocks, m'.frame.current⟩, m'.depth, m'.lenient, m'.met,
              m'.output, m'.left, m'.right⟩
          exact .next levels m'' hnew hknown

theorem turned_chainTurn {met : List String} (levels : List Level) {s t : RenderState ω}
    (m : ρ.Matched env .same Eq s t) (hrunning : s.frame.template.name ∈ met) :
    ρ.Turned env name met sources.names ((chainTurn env runner met levels).run s)
      ((chainTurn env runner (met ++ [name]) (levels ++ [ρ.childLevel])).run t) := by
  have hturn := alike_followTurn henv.steady hrun levels s t m
  have hright := run_map (fun p => (p.1 ++ [ρ.childLevel], p.2)) (followTurn env runner levels) t
  have hkeeps : Keeps RenderState.surroundings (followTurn env runner levels) :=
    keeps_followTurn hrestores levels
  have hkept := hkeeps s
  rw [← followTurn_append] at hright
  rcases hr : (followTurn env runner levels).run s with ⟨r, u⟩
  rcases hr' : (followTurn env runner levels).run t with ⟨r', u'⟩
  rw [hr, hr'] at hturn
  rw [hr'] at hright
  rw [hr] at hkept
  have htemplate : u.frame.template = s.frame.template :=
    (RenderState.surroundings_eq_iff.mp hkept).1
  cases hturn with
  | failed houtput =>
    rw [run_chainTurn_of_error hr, run_chainTurn_of_error hright]
    exact .failed houtput.symm
  | both turn states =>
    obtain ⟨levels', reference⟩ := turn
    cases reference with
    | none =>
      rw [run_chainTurn_of_end hr, run_chainTurn_of_end hright]
      exact .root levels' states
    | some reference =>
      rw [run_chainTurn_of_step hr, run_chainTurn_of_step hright]
      exact turned_stepChain henv child levels' reference states (htemplate ▸ hrunning)

/-- A chain, and the same chain below a child: they come to the same root, with the level of the
child in front of the others, or both fail. -/
theorem ends_followChain (literal : runner.Literal) (n : Nat) (met : List String)
    (levels : List Level) (k : Nat) {s t : RenderState ω} (m : ρ.Matched env .same Eq s t)
    (hrunning : s.frame.template.name ∈ met) (hnodup : (met ++ [name]).Nodup)
    (hknown : met ⊆ sources.names) (hparent : parent ∈ met)
    (hn : sources.length < n + met.length) (hk : sources.length ≤ k + met.length) :
    ρ.Ends env .same Eq
      (((ρ.childLevel :: ·) <$> followChain env runner n met levels).run s)
      ((followChain env runner k (met ++ [name]) (levels ++ [ρ.childLevel])).run t) := by
  -- Names are met once, so the counts do not run out before the table does.
  have hcount : ∀ met : List String, (met ++ [name]).Nodup → met ⊆ sources.names →
      met.length + 1 ≤ sources.length := by
    intro met hnodup hknown
    have hname : name ∈ sources.names := (henv.of_answer child.answer).2
    have hlength := Table.length_le_of_nodup hnodup
      (List.append_subset.mpr ⟨hknown, List.cons_subset.mpr ⟨hname, List.nil_subset _⟩⟩)
    rwa [List.length_append, List.length_singleton] at hlength
  induction n generalizing met levels k s t with
  | zero =>
    have hlength := hcount met hnodup hknown
    omega
  | succ n ih =>
    have hlength := hcount met hnodup hknown
    obtain ⟨k, rfl⟩ : ∃ k', k = k' + 1 := Nat.exists_eq_succ_of_ne_zero (by omega)
    have hturn := turned_chainTurn henv hrun hrestores child levels m hrunning
    rcases hr : (chainTurn env runner met levels).run s with ⟨p, u⟩
    rcases hr' : (chainTurn env runner (met ++ [name]) (levels ++ [ρ.childLevel])).run t with
      ⟨p', u'⟩
    rw [hr, hr'] at hturn
    rw [run_map, followChain_succ, followChain_succ]
    cases hturn with
    | failed houtput =>
      rw [run_bind_error hr, run_bind_error hr']
      exact .failed houtput.symm
    | root levels' states =>
      rw [run_bind_ok hr, run_bind_ok hr']
      have hreverse : (levels' ++ [ρ.childLevel]).reverse = ρ.childLevel :: levels'.reverse :=
        List.reverse_append
      simp only [hreverse]
      exact .both _ states
    | next levels' states hnew hmem =>
      rw [run_bind_ok hr, run_bind_ok hr']
      rw [← run_map]
      exact ih _ levels' k states List.mem_cons_self (List.nodup_cons.mpr ⟨hnew, hnodup⟩)
        (List.cons_subset.mpr ⟨hmem, hknown⟩) (.tail _ hparent)
        (by rw [List.length_cons]; omega) (by rw [List.length_cons]; omega)
    | child levels' hanswered hlive hsub houtput =>
      obtain ⟨e, v, hfails, hv⟩ :=
        child.run_followChain_of_met literal henv n levels' hanswered hlive fun _ _ => hsub hparent
      rw [run_bind_ok hr, run_bind_error hr']
      simp only [hfails]
      exact .failed (hv.trans houtput.symm)

end Chains

/-! ## §6. Embedding and including -/

/-- What comes after results that belong together. -/
theorem Ends.bind_map {out : Output → Output → Prop} {x : Render ω α} {y : Render ω β}
    {s t : RenderState ω} {h : α → β} {f : α → Render ω γ} {g : β → Render ω γ}
    (hx : ρ.Ends env π out ((h <$> x).run s) (y.run t))
    (hf : ∀ a, ρ.Alike env π out (f a) (g (h a))) :
    ρ.Ends env π out ((x >>= f).run s) ((y >>= g).run t) := by
  rw [run_map] at hx
  rw [run_bind, run_bind]
  rcases hr : x.run s with ⟨e | a, u⟩ <;> rcases hr' : y.run t with ⟨e' | b, u'⟩ <;>
    rw [hr, hr'] at hx
  · cases hx with
    | failed output => exact .failed output
  · cases hx
  · cases hx
  · cases hx with
    | both _ states => exact hf a u u' states

section Rendering

variable [HostObject ω]

theorem run_renderTemplate (runner : Runner ω) (t : LiveTemplate) (scope : Scope ω)
    (overrides : List (String × BlockRef)) (s : RenderState ω) :
    (renderTemplate env runner t scope overrides).run s =
      let (result, u) :=
        (followChain env runner env.patience [t.name] [] >>= fun levels =>
          renderRoot runner (.ofLevels overrides levels)).run
            { s with frame := Frame.forTemplate t scope }
      (result, { u with frame := s.frame }) := rfl

variable {sources : Table String} (henv : env.Shelved sources)
  {runner : Runner ω} (literal : runner.Literal) {name parent : String}
  {blocks : Table DefinitionId} (child : ρ.Child env name parent blocks)
include henv literal child

/-- A child cannot be rendered if what it extends is not there, or is itself. -/
theorem Child.fails_renderTemplate (scope : Scope ω) (overrides : List (String × BlockRef))
    (o : Output) (hself : ∀ t, env.answer parent = .ok t → parent = name) :
    Fails env o (renderTemplate env runner ρ.target scope overrides) := by
  intro s hs ho
  have hmet : ∀ t, env.answer parent = .ok t → parent ∈ [ρ.target.name] := by
    intro t ht
    rw [(henv.of_answer child.answer).1, hself t ht]
    exact .head _
  obtain ⟨e, t, hchain, hout⟩ := child.run_followChain_of_met literal henv env.patience
    (s := { s with frame := Frame.forTemplate ρ.target scope }) [] hs rfl hmet
  refine ⟨e, { t with frame := s.frame }, ?_, hout.trans ho⟩
  rw [run_renderTemplate, run_bind_error hchain]

/-- The chain of a child goes on to the template that the child extends. -/
theorem Child.run_followChain_of_new {t : LiveTemplate} (ht : env.answer parent = .ok t)
    (hne : parent ≠ name) (k : Nat) {s : RenderState ω} (hs : s.Answered env)
    (hchild : s.frame.template = ρ.target) :
    ∃ loaded requests, (followChain env runner (k + 1) [ρ.target.name] []).run s =
        (followChain env runner k [parent, name] [ρ.childLevel]).run
          { s with
            frame := { s.frame with template := t }
            loaded := loaded
            requests := requests } ∧
      ({ s with
        frame := { s.frame with template := t }
        loaded := loaded
        requests := requests } : RenderState ω).Answered env := by
  have hname : ρ.target.name = name := (henv.of_answer child.answer).1
  have htname : t.name = parent := (henv.of_answer ht).1
  obtain ⟨loaded, requests, hrun, hanswered⟩ := run_load_of_steady henv.steady parent hs
  rw [ht] at hrun
  have hload : (resolve env (.named parent)).run s = _ := hrun
  have hturn : (chainTurn env runner [name] []).run s = _ :=
    run_chainTurn_of_step (child.run_followTurn literal [] hchild)
  rw [run_stepChain_of_new hload (by simp [htname, hne]), htname] at hturn
  refine ⟨loaded, requests, ?_, hanswered⟩
  rw [followChain_succ, hname, run_bind_ok hturn]

/-- A template under the blocks of an embedding statement, and a child of it. -/
theorem Child.alike_renderTemplate (hrun : ρ.Runs env runner) (hrestores : runner.Restores)
    {t : LiveTemplate} (ht : env.answer parent = .ok t) (hne : parent ≠ name) (scope : Scope ω) :
    ρ.Alike env .same Eq (renderTemplate env runner t scope (ρ.source.blocks blocks))
      (renderTemplate env runner ρ.target scope []) := by
  obtain ⟨k, hk⟩ : ∃ k, env.patience = k + 1 :=
    Nat.exists_eq_succ_of_ne_zero (Nat.ne_zero_of_lt henv.patience)
  have hpatience := henv.patience
  obtain ⟨rfl, hknown⟩ := henv.of_answer ht
  intro s s' m
  obtain ⟨loaded, requests, hchild, hanswered⟩ := child.run_followChain_of_new henv literal ht hne k
    (s := { s' with frame := Frame.forTemplate ρ.target scope }) m.right rfl
  have states : ρ.Matched env .same Eq { s with frame := Frame.forTemplate t scope }
      { s' with
        frame := { Frame.forTemplate ρ.target scope with template := t }
        loaded := loaded
        requests := requests } :=
    ⟨⟨rfl, rfl, .none, rfl⟩, m.depth, m.lenient, m.met, m.output, m.left, hanswered⟩
  have hchains := ends_followChain henv hrun hrestores child literal env.patience [t.name] [] k
    states (.head _) (by simp [hne]) (by simp [hknown]) (.head _) (by simp; omega)
    (by simp; omega)
  have hroots := Ends.bind_map hchains
    (f := fun levels => renderRoot runner (.ofLevels (ρ.source.blocks blocks) levels))
    (g := fun levels => renderRoot runner (.ofLevels [] levels)) fun levels => ?_
  · have hright := run_bind_congr hchild fun levels => renderRoot runner (.ofLevels [] levels)
    rw [← hk] at hright
    rw [run_renderTemplate, run_renderTemplate, hright]
    exact hroots.after (f := fun u => { u with frame := s.frame })
      (g := fun u => { u with frame := s'.frame })
      (fun m' => ⟨m.frame, m'.depth, m'.lenient, m'.met, m'.output, m'.left, m'.right⟩) id
  · -- The blocks of the child stand where those of the embedding statement do.
    refine alike_root hrun ?_
    show ρ.Compositions (ρ.source.blocks blocks ++ levels.flatMap Level.blocks)
      (Level.blocks ρ.childLevel ++ levels.flatMap Level.blocks)
    exact List.rel_append child.compositions (Compositions.refl _)

end Rendering

/-! ## §7. Inclusions of one name -/

theorem run_loadFirst_single (steady : env.Steady) (name : String) {s : RenderState ω}
    (hs : s.Answered env) :
    ∃ loaded requests,
      ({ s with loaded := loaded, requests := requests } : RenderState ω).Answered env ∧
      (loadFirst env none [name]).run s =
        ((orMissing (env.answer name)).map fun r => r.mapError some,
          { s with loaded := loaded, requests := requests }) := by
  obtain ⟨loaded, requests, hload, hanswered⟩ := run_load_of_steady steady name hs
  refine ⟨loaded, requests, hanswered, ?_⟩
  rw [loadFirst, run_bind, run_loadIfThere, hload]
  rcases orMissing (env.answer name) with e | (e | t) <;> rfl

variable [HostObject ω]

theorem run_inclusionTarget (steady : env.Steady) {eval : Expr → Render ω (Value ω)}
    {i : Inclusion} {pos : Position} {name : String} (hi : i.template = .string pos name)
    (heval : eval (.string pos name) = pure (.string name)) {s : RenderState ω}
    (hs : s.Answered env) :
    ∃ loaded requests,
      ({ s with loaded := loaded, requests := requests } : RenderState ω).Answered env ∧
      (∀ t, env.answer name = .ok t → (inclusionTarget env eval i).run s =
        (.ok (some t), { s with loaded := loaded, requests := requests })) ∧
      ∀ e, env.answer name = .error e → i.ignoreMissing = false →
        ∃ e', (inclusionTarget env eval i).run s =
          (.error e', { s with loaded := loaded, requests := requests }) := by
  obtain ⟨loaded, requests, hanswered, hload⟩ := run_loadFirst_single steady name hs
  refine ⟨loaded, requests, hanswered, fun t ht => ?_, fun e he hignore => ?_⟩
  · rw [ht] at hload
    unfold inclusionTarget
    rw [hi, heval]
    exact run_bind_ok hload _
  · rw [he] at hload
    unfold inclusionTarget
    rw [hi, heval]
    rcases horMissing : orMissing (.error e : Except Failure LiveTemplate) with e' | (e' | t)
    · rw [horMissing] at hload
      exact ⟨e', run_bind_error hload _⟩
    · rw [horMissing] at hload
      refine ⟨.error e', (run_bind_ok hload _).trans ?_⟩
      simp only [Except.mapError, hignore]
      rfl
    · -- An error does not stand for a template.
      rcases e with e | _ <;> simp only [orMissing] at horMissing
      · split at horMissing <;> cases horMissing
      · cases horMissing

theorem alike_bindings_same {inner : Option (Runner ω)} (sound : ρ.Sound env)
    (hinner : ∀ r ∈ inner, ρ.Runs env r) (i : Inclusion) {out : Output → Output → Prop} :
    ρ.Alike env .same out (inclusionBindings (eval env inner) i)
      (inclusionBindings (eval env inner) i) := by
  have hbindings : ρ.Alike env .same out (inclusionBindings (eval env inner) i)
      (inclusionBindings (eval env inner) (i.relocate (ρ.place .same))) :=
    alike_inclusionBindings fun e _ => alike_eval sound hinner e (.same e)
  rwa [show ρ.place .same = id from rfl, Inclusion.relocate_id] at hbindings

section Main

variable {sources : Table String} (henv : env.Shelved sources) (sound : ρ.Sound env)
  {name parent : String} {blocks : Table DefinitionId} (child : ρ.Child env name parent blocks)
include henv sound child

/-- Once it is loaded, a child that extends itself, or what is not there, fails. -/
theorem Child.fails_inclusion (n : Nat) (i : Inclusion) (overrides : List (String × BlockRef))
    (o : Output) (hself : ∀ t, env.answer parent = .ok t → parent = name) :
    Fails env o (do
      let bindings ← inclusionBindings (eval env (innerRunner env n)) i
      let scope := inclusionScope i.only bindings (← frame).scope
      deeper (innerRunner env n) i.position fun runner =>
        renderTemplate env runner ρ.target scope overrides) := by
  refine Fails.bind (alike_bindings_same sound (runs_innerRunner henv.steady sound n) i)
    fun bindings => Fails.frame_bind fun fr => Fails.deeper fun r hr => ?_
  exact child.fails_renderTemplate henv (literal_innerRunner n r hr) _ overrides o hself

theorem Child.ends_embed_include (n : Nat) {i : Inclusion} {pos : Position} (pos' : Position)
    (hi : i.template = .string pos parent)
    (hmissing : i.ignoreMissing = true → ∃ t, env.answer parent = .ok t) {s : RenderState ω}
    (hs : s.Answered env) (hrunning : s.frame.template = ρ.source) :
    ρ.Ends env .same Eq ((runStmt env (innerRunner env n) (.embeds i blocks)).run s)
      ((runStmt env (innerRunner env n) (.includes { i with template := .string pos' name })).run
        s) := by
  have heval : ∀ pos text, eval env (innerRunner env n) (.string pos text) = pure (.string text) :=
    fun pos text => by rw [eval]
  have hruns := runs_innerRunner (ρ := ρ) henv.steady sound n
  rw [runStmt, runStmt, run_bind_ok (run_frame s), hrunning, renderInclusion, renderInclusion]
  obtain ⟨loaded, requests, hanswered, htarget, hmissed⟩ :=
    run_inclusionTarget henv.steady hi (heval pos parent) hs
  obtain ⟨loaded', requests', hanswered', htarget', -⟩ :=
    run_inclusionTarget (i := { i with template := .string pos' name }) henv.steady rfl
      (heval pos' name) hs
  rw [run_bind_ok (htarget' _ child.answer)]
  cases hanswer : env.answer parent with
  | error e =>
    have hignore : i.ignoreMissing = false := by
      by_contra h
      obtain ⟨t, ht⟩ := hmissing (eq_true_of_ne_false h)
      rw [ht] at hanswer
      cases hanswer
    obtain ⟨e', hleft⟩ := hmissed e hanswer hignore
    obtain ⟨f, u, hright, hout⟩ := child.fails_inclusion henv sound n i [] s.output
      (fun t ht => by rw [ht] at hanswer; cases hanswer)
      { s with loaded := loaded', requests := requests' } hanswered' rfl
    rw [run_bind_error hleft]
    have hfailed : ρ.Ends env .same Eq
        ((.error e' : Except Failure Unit), { s with loaded := loaded, requests := requests })
        (.error f, u) := .failed hout.symm
    rw [← hright] at hfailed
    exact hfailed
  | ok t =>
    rw [run_bind_ok (htarget t hanswer)]
    by_cases hself : parent = name
    · -- The template that is embedded is the child itself.
      have ht : t = ρ.target := by
        rw [hself, child.answer] at hanswer
        cases hanswer
        rfl
      obtain ⟨e, u, hleft, hout⟩ := child.fails_inclusion henv sound n i (ρ.source.blocks blocks)
        s.output (fun _ _ => hself) { s with loaded := loaded, requests := requests } hanswered rfl
      obtain ⟨f, u', hright, hout'⟩ := child.fails_inclusion henv sound n i [] s.output
        (fun _ _ => hself) { s with loaded := loaded', requests := requests' } hanswered' rfl
      have hfailed : ρ.Ends env .same Eq ((.error e : Except Failure Unit), u) (.error f, u') :=
        .failed (hout.trans hout'.symm)
      rw [← hleft, ← hright] at hfailed
      rw [ht]
      exact hfailed
    · have states : ρ.Matched env .same Eq { s with loaded := loaded, requests := requests }
          { s with loaded := loaded', requests := requests' } :=
        ⟨.refl s.frame, rfl, rfl, rfl, rfl, hanswered, hanswered'⟩
      refine (Alike.bind (alike_bindings_same sound hruns i) fun bindings =>
        Alike.frame_bind fun fr fr' hfr => ?_) _ _ states
      rw [hfr.scope]
      refine Alike.deeper fun r hr => ?_
      exact child.alike_renderTemplate henv (literal_innerRunner n r hr) (hruns r hr)
        (innerRunner_restores env n r hr) hanswer hself _

end Main

theorem Child.parse_embedding :
    (match Template.parse "p"
        ("\x7b% embed 't' %\x7d\x7b% block b %\x7d\x7b\x7b parent() \x7d\x7dx" ++
          "\x7b% endblock %\x7d\x7b% endembed %\x7d") with
      | .ok ⟨_, none, [.embeds ⟨_, .string pos parent, none, false, false⟩ [(b, id)]],
          [⟨b', q, [.print r (.call r' f []), .text r'' x]⟩], [], [], []⟩ =>
        decide (parent = "t" ∧ b = "b" ∧ id = 0 ∧ b' = "b" ∧ f = "parent" ∧ x = "x" ∧
          pos = ⟨1, 10⟩ ∧ q = ⟨1, 16⟩ ∧ r = ⟨1, 29⟩ ∧ r' = ⟨1, 32⟩ ∧ r'' = ⟨1, 43⟩)
      | _ => false) = true := by
  decide +kernel

theorem Child.parse_extending :
    (match Template.parse "c"
        ("\x7b% extends 't' %\x7d\x7b% block b %\x7d\x7b\x7b parent() \x7d\x7dx" ++
          "\x7b% endblock %\x7d") with
      | .ok ⟨_, some ⟨_, .string _ parent⟩, [.block _ _],
          [⟨b', q, [.print r (.call r' f []), .text r'' x]⟩], [(b, id)], [], []⟩ =>
        decide (parent = "t" ∧ b = "b" ∧ id = 0 ∧ b' = "b" ∧ f = "parent" ∧ x = "x" ∧
          q = ⟨1, 18⟩ ∧ r = ⟨1, 31⟩ ∧ r' = ⟨1, 34⟩ ∧ r'' = ⟨1, 45⟩)
      | _ => false) = true := by
  decide +kernel

end Relocation

end Stencil
