import Stencil.Proofs.Render.Nesting
import Stencil.Proofs.Render.Search

/-!
A name means one template throughout a render.

All references to templates come to looking a name up, and a name that has been looked up with
success is remembered for the rest of the render: the template that was found then is the answer
from then on, and the source is not asked again.  So it does not matter that a source may answer
differently each time.  Failures are not remembered, and neither is the template that the render was
started with.

The instants of a render are the states that it comes through, with the names that are looked up in
them.  From the instants of the parts of a render those of the whole are put together, and with them
what is remembered at each.
-/

namespace Stencil

open Render

variable {ω α β : Type}

/-! ## §1. What is remembered -/

/-- What a render knows of the templates it has looked up. -/
def RenderState.memory (s : RenderState ω) : Table LiveTemplate × List String :=
  (s.loaded, s.requests)

/-- Whether all templates are loaded in this state that are loaded in another one. -/
def RenderState.Remembers (t s : RenderState ω) : Prop :=
  ∀ name live, s.loaded.find? name = some live → t.loaded.find? name = some live

theorem RenderState.Remembers.refl (s : RenderState ω) : s.Remembers s :=
  fun _ _ h => h

theorem RenderState.Remembers.trans {s t u : RenderState ω} (h : u.Remembers t)
    (h' : t.Remembers s) : u.Remembers s :=
  fun name live hs => h name live (h' name live hs)

section Load

variable {env : Environment ω} {s t : RenderState ω} {name : String} {live : LiveTemplate}

theorem run_load_of_loaded (h : s.loaded.find? name = some live) :
    (load env name).run s = (.ok live, s) := by
  rw [run_load, h]

/-- A name that is not loaded is asked for, and loaded if there is a template of it in order. -/
theorem run_load_of_not_loaded (env : Environment ω) (h : s.loaded.find? name = none) :
    (∃ f, (load env name).run s = (.error f, asking s [name])) ∨
      ∃ live, (load env name).run s =
        (.ok live, { asking s [name] with loaded := s.loaded.insert name live }) := by
  rw [run_load, h]
  simp only
  cases env.source s.requests name with
  | error e => exact .inl ⟨_, rfl⟩
  | ok source =>
    simp only
    cases env.prepare name source with
    | error f => exact .inl ⟨_, rfl⟩
    | ok template => exact .inr ⟨_, rfl⟩

/-- What is looked up with success is loaded from then on. -/
theorem loaded_of_load (h : ((load env name).run s).1 = .ok live) :
    ((load env name).run s).2.loaded.find? name = some live := by
  cases hs : s.loaded.find? name with
  | some known =>
    rw [run_load_of_loaded hs] at h ⊢
    cases h
    exact hs
  | none =>
    rcases run_load_of_not_loaded env hs with ⟨f, hrun⟩ | ⟨known, hrun⟩
    · rw [hrun] at h
      cases h
    · rw [hrun] at h ⊢
      cases h
      exact Table.find?_insert_self _ _ _

/-- Looking a name up takes nothing away from what is loaded. -/
theorem remembers_load (env : Environment ω) (name : String) (s : RenderState ω) :
    ((load env name).run s).2.Remembers s := by
  cases hs : s.loaded.find? name with
  | some known =>
    rw [run_load_of_loaded hs]
    exact .refl s
  | none =>
    rcases run_load_of_not_loaded env hs with ⟨f, hrun⟩ | ⟨live, hrun⟩
    · rw [hrun]
      exact .refl s
    · rw [hrun]
      intro other known hother
      have hne : name ≠ other := by
        rintro rfl
        rw [hs] at hother
        cases hother
      exact (Table.find?_insert_ne _ _ hne).trans hother

/-- The source is asked for a name that is not loaded, and for no other. -/
theorem requests_load (env : Environment ω) (name : String) (s : RenderState ω) :
    ((load env name).run s).2.requests =
      if (s.loaded.find? name).isNone then name :: s.requests else s.requests := by
  cases hs : s.loaded.find? name with
  | some known =>
    rw [run_load_of_loaded hs]
    rfl
  | none => rcases run_load_of_not_loaded env hs with ⟨f, hrun⟩ | ⟨live, hrun⟩ <;> rw [hrun] <;> rfl

end Load

/-! ## §2. Instants -/

/-- An instant of a render, and the name that is looked up at it, if there is one. -/
structure Instant (ω : Type) where
  state : RenderState ω
  name : Option String

/-- The name that the source is asked for. -/
def Instant.asked (m : Instant ω) : Option String :=
  m.name.filter fun name => (m.state.loaded.find? name).isNone

theorem Instant.asked_none (s : RenderState ω) : (⟨s, none⟩ : Instant ω).asked = none := rfl

theorem Instant.asked_some (s : RenderState ω) (name : String) :
    (⟨s, some name⟩ : Instant ω).asked =
      if (s.loaded.find? name).isNone then some name else none := rfl

/-- The instants of a part of a render that leads from one state to another. -/
structure Records (env : Environment ω) (s : RenderState ω) (instants : List (Instant ω))
    (t : RenderState ω) : Prop where
  remembers : t.Remembers s
  since : ∀ m ∈ instants, m.state.Remembers s
  /-- What was looked up with success is loaded in the end. -/
  kept : ∀ m ∈ instants, ∀ name live, m.name = some name →
    ((load env name).run m.state).1 = .ok live → t.loaded.find? name = some live
  /-- And at each later instant. -/
  between : instants.Pairwise fun a b => ∀ name live, a.name = some name →
    ((load env name).run a.state).1 = .ok live → b.state.loaded.find? name = some live
  requests : t.requests = (instants.filterMap Instant.asked).reverse ++ s.requests

namespace Records

variable {env : Environment ω} {s s' t t' u : RenderState ω} {instants instants' : List (Instant ω)}

/-- Only the memory of the states matters. -/
theorem of_memory (h : Records env s' instants t') (hs : s'.memory = s.memory)
    (ht : t.memory = t'.memory) : Records env s instants t := by
  simp only [RenderState.memory, Prod.mk.injEq] at hs ht
  obtain ⟨hsloaded, hsrequests⟩ := hs
  obtain ⟨htloaded, htrequests⟩ := ht
  refine ⟨?_, ?_, ?_, h.between, ?_⟩
  · intro name live hname
    rw [htloaded]
    exact h.remembers name live (hsloaded ▸ hname)
  · intro m hm name live hname
    exact h.since m hm name live (hsloaded ▸ hname)
  · intro m hm name live hname hok
    rw [htloaded]
    exact h.kept m hm name live hname hok
  · rw [htrequests, h.requests, hsrequests]

theorem nil (h : t.memory = s.memory) : Records env s [] t := by
  have hself : Records env s [] s :=
    ⟨.refl s, List.forall_mem_nil _, List.forall_mem_nil _, .nil, rfl⟩
  exact hself.of_memory rfl h

/-- Parts that follow each other. -/
theorem append (h : Records env s instants t) (h' : Records env t instants' u) :
    Records env s (instants ++ instants') u := by
  refine ⟨h'.remembers.trans h.remembers, ?_, ?_, ?_, ?_⟩
  · refine List.forall_mem_append.mpr ⟨h.since, fun m hm => ?_⟩
    exact (h'.since m hm).trans h.remembers
  · refine List.forall_mem_append.mpr ⟨fun m hm name live hname hok => ?_, h'.kept⟩
    exact h'.remembers name live (h.kept m hm name live hname hok)
  · refine List.pairwise_append.mpr ⟨h.between, h'.between, ?_⟩
    intro a ha b hb name live hname hok
    exact h'.since b hb name live (h.kept a ha name live hname hok)
  · rw [h'.requests, h.requests, List.filterMap_append, List.reverse_append, List.append_assoc]

/-- An instant at which nothing is looked up. -/
theorem cons (h : Records env s instants t) : Records env s (⟨s, none⟩ :: instants) t := by
  have hself : Records env s [⟨s, none⟩] s := by
    refine ⟨.refl s, ?_, ?_, List.pairwise_singleton _ _, ?_⟩
    · exact List.forall_mem_singleton.mpr (.refl s)
    · exact List.forall_mem_singleton.mpr nofun
    · rw [List.filterMap_cons, Instant.asked_none]
      rfl
  exact hself.append h

/-- An instant at which a name is looked up. -/
theorem lookup (env : Environment ω) (name : String) (s : RenderState ω) :
    Records env s [⟨s, some name⟩] ((load env name).run s).2 := by
  refine ⟨remembers_load env name s, ?_, ?_, List.pairwise_singleton _ _, ?_⟩
  · exact List.forall_mem_singleton.mpr (.refl s)
  · rintro m hm _ live hname hok
    rw [List.mem_singleton.mp hm] at hname hok
    cases hname
    exact loaded_of_load hok
  · rw [requests_load, List.filterMap_cons, Instant.asked_some]
    split <;> rfl

end Records

/-- The instants of what follows a success. -/
def afterSuccess (more : α → RenderState ω → List (Instant ω)) :
    Except Failure α × RenderState ω → List (Instant ω)
  | (.ok a, t) => more a t
  | (.error _, _) => []

namespace Records

variable {env : Environment ω} {s : RenderState ω} {instants : List (Instant ω)}
  {x : Render ω α} {f : α → Render ω β}

/-- The second part begins only where the first one has ended well. -/
theorem bind {more : α → RenderState ω → List (Instant ω)}
    (hx : Records env s instants (x.run s).2)
    (hf : ∀ a t, Records env t (more a t) ((f a).run t).2) :
    Records env s (instants ++ afterSuccess more (x.run s)) ((x >>= f).run s).2 := by
  rcases hr : x.run s with ⟨e | a, t⟩
  · rw [run_bind_error hr]
    rw [hr] at hx
    simpa [afterSuccess] using hx
  · rw [run_bind_ok hr]
    rw [hr] at hx
    exact hx.append (hf a t)

/-- Nothing is looked up in the second part. -/
theorem bind_keeps (hx : Records env s instants (x.run s).2)
    (hf : ∀ a, Keeps RenderState.memory (f a)) : Records env s instants ((x >>= f).run s).2 := by
  rcases hr : x.run s with ⟨e | a, t⟩
  · rw [run_bind_error hr]
    rwa [hr] at hx
  · rw [run_bind_ok hr]
    rw [hr] at hx
    exact hx.of_memory rfl (hf a t)

end Records

/-! ## §3. The instants of a render -/

/-- The instants of a search for the first of several templates. -/
def seekInstants (env : Environment ω) : List String → RenderState ω → List (Instant ω)
  | [], _ => []
  | name :: names, s =>
    ⟨s, some name⟩ ::
      afterSuccess
        (fun found t =>
          match found with
          | .ok _ => []
          | .error _ => seekInstants env names t)
        ((loadIfThere env name).run s)

/-- The instant at which a reference is looked up. -/
def resolveInstants (r : Reference) (s : RenderState ω) : List (Instant ω) :=
  match r with
  | .running => []
  | .named name => [⟨s, some name⟩]

theorem records_loadIfThere (env : Environment ω) (name : String) (s : RenderState ω) :
    Records env s [⟨s, some name⟩] ((loadIfThere env name).run s).2 := by
  rw [run_loadIfThere]
  exact .lookup env name s

theorem records_loadFirst (env : Environment ω) (missing : Option Error) (names : List String)
    (s : RenderState ω) :
    Records env s (seekInstants env names s) ((loadFirst env missing names).run s).2 := by
  induction names generalizing missing s with
  | nil => exact .nil rfl
  | cons name names ih =>
    refine (records_loadIfThere env name s).bind fun found t => ?_
    cases found with
    | ok live => exact .nil rfl
    | error e => exact ih (some e) t

theorem records_seek (env : Environment ω) (optional : Bool) (names : List String)
    (s : RenderState ω) :
    Records env s (seekInstants env names s) ((seek env optional names).run s).2 := by
  apply (records_loadFirst env none names s).bind_keeps
  intro r
  split
  · exact .pure _
  · exact .pure _
  · split
    · exact .pure _
    · exact .fail _

theorem records_resolve (env : Environment ω) (r : Reference) (s : RenderState ω) :
    Records env s (resolveInstants r s) ((resolve env r).run s).2 := by
  cases r with
  | running => exact .nil rfl
  | named name => exact .lookup env name s

theorem records_stepChain (env : Environment ω) (names : List String) (r : Reference)
    (s : RenderState ω) :
    Records env s (resolveInstants r s) ((stepChain env names r).run s).2 := by
  apply (records_resolve env r s).bind_keeps
  intro parent
  dsimp only
  split
  · exact .fail _
  · exact .bind (fun _ => rfl) fun _ => .pure _

variable [HostObject ω] {env : Environment ω} {n : Nat}

/-- The instants of a turn of a chain, from those of what the turn runs. -/
def turnInstants (env : Environment ω) (runner : Runner ω)
    (inside : List Level → RenderState ω → List (Instant ω)) (levels : List Level)
    (s : RenderState ω) : List (Instant ω) :=
  inside levels s ++
    afterSuccess
      (fun (_, r) t =>
        match r with
        | none => []
        | some r => resolveInstants r t)
      ((followTurn env runner levels).run s)

/-- The instants of the turns of a chain. -/
def chainInstants (env : Environment ω) (runner : Runner ω)
    (inside : List Level → RenderState ω → List (Instant ω)) :
    Nat → List String → List Level → RenderState ω → List (Instant ω)
  | 0, _, _, _ => []
  | n + 1, names, levels, s =>
    ⟨s, none⟩ :: turnInstants env runner inside levels s ++
      afterSuccess
        (fun (levels, more) t =>
          match more with
          | none => []
          | some names => chainInstants env runner inside n names levels t)
        ((chainTurn env runner names levels).run s)

namespace Render.Moves

/-- The instants that a part of a render comes through, run from a state, after the first one. -/
def instants : ∀ {n : Nat} {α : Type} {x : Render ω α}, Moves env n x → RenderState ω →
    List (Instant ω)
  | _, _, _, .bind (x := x) hx hf, s =>
    hx.instants s ++ afterSuccess (fun a t => ⟨t, none⟩ :: (hf a).instants t) (x.run s)
  | _, _, _, .load name, s => [⟨s, some name⟩]
  | _, _, _, .seek _ names, s => seekInstants env names s
  | _, _, _, .capture hx, s =>
    let s' := { s with output := ⟨[], none⟩ }
    ⟨s', none⟩ :: hx.instants s'
  | _, _, _, .leniently hx, s =>
    let s' := { s with lenient := true }
    ⟨s', none⟩ :: hx.instants s'
  | _, _, _, .inFrame enter _ hx, s =>
    let s' := { s with frame := enter s.frame }
    ⟨s', none⟩ :: hx.instants s'
  | _, _, _, @chain _ _ _ _ runner _ hturn, s =>
    chainInstants env runner (fun levels t => (hturn levels).instants t) env.patience
      [s.frame.template.name] [] s
  | _, _, _, .deeper _ _ hx, s =>
    if s.depth < maxDepth then
      let s' := { s with depth := s.depth + 1 }
      ⟨s', none⟩ :: hx.instants s'
    else []
  | _, _, _, _, _ => []

end Render.Moves

/-! ## §4. What is remembered along a render -/

theorem records_chainTurn {runner : Runner ω}
    {inside : List Level → RenderState ω → List (Instant ω)}
    (hturn : ∀ levels s, Records env s (inside levels s) ((followTurn env runner levels).run s).2)
    (names : List String) (levels : List Level) (s : RenderState ω) :
    Records env s (turnInstants env runner inside levels s)
      ((chainTurn env runner names levels).run s).2 := by
  refine (hturn levels s).bind fun (levels', r) t => ?_
  cases r with
  | none => exact .nil rfl
  | some r => exact (records_stepChain env names r t).bind_keeps fun _ => .pure _

theorem records_followChain {runner : Runner ω}
    {inside : List Level → RenderState ω → List (Instant ω)}
    (hturn : ∀ levels s, Records env s (inside levels s) ((followTurn env runner levels).run s).2)
    (n : Nat) (names : List String) (levels : List Level) (s : RenderState ω) :
    Records env s (chainInstants env runner inside n names levels s)
      ((followChain env runner n names levels).run s).2 := by
  induction n generalizing names levels s with
  | zero => exact .nil rfl
  | succ n ih =>
    rw [followChain_succ]
    refine (records_chainTurn hturn names levels s).cons.bind fun (levels', more) t => ?_
    cases more with
    | none => exact .nil rfl
    | some names' => exact ih names' levels' t

/-- By induction over the moves: names are looked up by two of them and in the turns of chains, and
the others leave alone what is remembered. -/
theorem Render.Moves.records {x : Render ω α} (h : Moves env n x) (s : RenderState ω) :
    Records env s (h.instants s) (x.run s).2 := by
  induction h generalizing s with
  | pure a => exact .nil rfl
  | bind hx hf ihx ihf => exact (ihx s).bind fun a t => (ihf a t).cons
  | frame => exact .nil rfl
  | changeFrame f => exact .nil rfl
  | failAt pos kind _ => exact .nil rfl
  | undefined pos name => exact .nil (keeps_undefined env pos name s)
  | write text => exact .nil (Keeps.write text (fun _ _ => rfl) s)
  | meet v => exact .nil rfl
  | load name => exact .lookup env name s
  | seek optional names => exact records_seek env optional names s
  | capture hx ih => exact (ih { s with output := ⟨[], none⟩ }).cons.of_memory rfl rfl
  | leniently hx ih => exact (ih { s with lenient := true }).cons.of_memory rfl rfl
  | inFrame enter leave hx ih =>
    exact (ih { s with frame := enter s.frame }).cons.of_memory rfl rfl
  | @chain n runner hrun hturn ih =>
    unfold Render.chain
    rw [run_bind_ok (run_frame s)]
    exact records_followChain (fun levels t => ih levels t) _ _ _ s
  | @deeper n α runner pos o hx ih =>
    by_cases hdepth : s.depth < maxDepth
    · rw [run_deeper_of_lt _ _ _ hdepth, Moves.instants, if_pos hdepth, run_ending]
      exact (ih { s with depth := s.depth + 1 }).cons.of_memory rfl rfl
    · rw [run_deeper_of_limit _ _ _ (Nat.le_of_not_lt hdepth), Moves.instants, if_neg hdepth]
      exact .nil rfl
  | lowest pos o =>
    by_cases hdepth : s.depth < maxDepth
    · rw [run_deeper_of_lt _ _ _ hdepth]
      exact .nil rfl
    · rw [run_deeper_of_limit _ _ _ (Nat.le_of_not_lt hdepth)]
      exact .nil rfl

/-! ## §5. Renders -/

/-- In this state a name means a template: whoever looks it up, or refers to it by an expression,
gets this template, and the source is not asked for it. -/
structure Means (env : Environment ω) (s : RenderState ω) (name : String)
    (live : LiveTemplate) : Prop where
  lookup : (load env name).run s = (.ok live, s)
  /-- As what is extended, used or imported from. -/
  reference : ∀ n e v t, isSelf e = false → (eval env (innerRunner env n) e).run s = (.ok v, t) →
    v.output = name → (templateOf env (eval env (innerRunner env n)) e).run s = (.ok live, t)
  /-- As what is included or embedded, where it may come after others that are missing. -/
  target : ∀ n i v t before after, isSelf i.template = false →
    (eval env (innerRunner env n) i.template).run s = (.ok v, t) →
    candidateNames v = before ++ name :: after → AllMissing env t.loaded t.requests before →
    (inclusionTarget env (eval env (innerRunner env n)) i).run s =
      (.ok (some live), asking t before)

theorem means_of_loaded {s : RenderState ω} {name : String} {live : LiveTemplate}
    (h : s.loaded.find? name = some live) : Means env s name live := by
  -- What is evaluated first may load other templates, but this one stays.
  have hstays : ∀ {n e v t}, (eval env (innerRunner env n) e).run s = (.ok v, t) →
      t.loaded.find? name = some live := by
    intro n e v t hv
    have hrecords := (evalMoves (innerRunnerMoves env n) e).records s
    rw [hv] at hrecords
    exact hrecords.remembers name live h
  refine ⟨run_load_of_loaded h, ?_, ?_⟩
  · intro n e v t hself hv hname
    unfold templateOf
    rw [hself, if_neg Bool.false_ne_true, run_bind_ok hv, hname]
    exact run_load_of_loaded (hstays hv)
  · intro n i v t before after hself hv hnames hmissing
    have hsearch : Search env t (candidateNames v) (.template live) (asking t before) :=
      hnames ▸ .known before hmissing (hstays hv)
    exact run_inclusionTarget_of_search hself hv hsearch

/-- Whether a name that is looked up with success at one of some instants means the template that it
came to at all later ones, at which the source is not asked for it. -/
def OneMeaning (env : Environment ω) (instants : List (Instant ω)) : Prop :=
  instants.Pairwise fun a b => ∀ name live, a.name = some name →
    ((load env name).run a.state).1 = .ok live → Means env b.state name live ∧ b.asked ≠ some name

theorem Records.oneMeaning {s t : RenderState ω} {instants : List (Instant ω)}
    (h : Records env s instants t) : OneMeaning env instants := by
  refine h.between.imp fun {a b} hbetween name live hname hok => ?_
  have hloaded := hbetween name live hname hok
  refine ⟨means_of_loaded hloaded, fun hasked => ?_⟩
  obtain ⟨-, hnone⟩ := Option.filter_eq_some_iff.mp hasked
  rw [hloaded] at hnone
  cases hnone

namespace Environment

theorem requests_renderFrom (env : Environment ω) (t : LiveTemplate) (context : Context ω)
    (room : Option Nat) (requests : List String) (course : env.Course t context) :
    let s := startState t context room requests
    OneMeaning env (course.instants s) ∧
      (env.renderFrom t s).requests =
        requests.reverse ++ (course.instants s).filterMap Instant.asked := by
  intro s
  have hrecords := course.records s
  refine ⟨hrecords.oneMeaning, ?_⟩
  show ((Render.renderTemplate env (runner env maxDepth) t (.ofLayer (some context) []) []).run
    s).2.requests.reverse = _
  rw [hrecords.requests, List.reverse_append, List.reverse_reverse]
  rfl

/-- A source of a page that refers to one name three times, which answers for that name differently
if it is asked again. -/
def changingSource : TemplateSource := fun requests name =>
  if name = "page" then
    .ok "\x7b% include 'x' %\x7d\x7b% import 'x' as m %\x7d\x7b% embed 'x' %\x7d\x7b% endembed %\x7d"
  else .ok (if requests.length = 1 then "a" else "b")

theorem report_changingSource :
    let report := (Environment.empty changingSource 4 : Environment Empty).render "page" [] none
    report.written = ["a", "a"] ∧ report.requests = ["page", "x"] := by
  decide +kernel

end Environment

end Stencil
