import Mathlib.Data.List.Nodup
import Mathlib.Data.List.Perm.Subperm
import Stencil.Proofs.Render.Tabled

/-!
How deep renders nest, and that they come to an end.

The moments of a render show which constructs are open and the state it is in.  With templates from
a table, the depth that the renderer counts is the number of open constructs, at every moment, and
the render ends with the error about the limit exactly if, at some moment, a construct is about to
be opened while as many are open as the limit allows.

Three things make for an end.  Code one level deeper has one level less left, and code is finite.  A
chain of `extends` does not count as nesting, but it only goes on to names that it has not met, and
all of them after the first are names of the table.  And parsing comes to an end, for every source.
-/

namespace Stencil

open Render

variable {ω α β : Type}

/-! ## §1. Moments -/

/-- A moment of a render. -/
structure Moment (ω : Type) where
  /-- The constructs that are open, the innermost first. -/
  opened : List Construct
  state : RenderState ω
  /-- The construct that is about to be opened, and where, if there is one. -/
  attempt : Option (Construct × Position)

namespace Moment

/-- Whether the count of open constructs is right, and within the limit. -/
def Counted (m : Moment ω) : Prop :=
  m.state.depth = m.opened.length ∧ m.opened.length ≤ maxDepth

/-- Whether a construct is about to be opened at a place of a template, while as many are open as
the limit allows. -/
def Exceeds (m : Moment ω) (name : String) (pos : Position) : Prop :=
  (∃ construct, m.attempt = some (construct, pos)) ∧ m.opened.length = maxDepth ∧
    m.state.frame.template.name = name

theorem not_exceeds {m : Moment ω} (h : m.attempt = none) (name : String) (pos : Position) :
    ¬m.Exceeds name pos := by
  rintro ⟨⟨_, hattempt⟩, -⟩
  rw [h] at hattempt
  cases hattempt

end Moment

/-- The moments from a first one to a last one, with the same constructs open at both. -/
def momentsBetween (opened : List Construct) (s t : RenderState ω) (inside : List (Moment ω)) :
    List (Moment ω) :=
  ⟨opened, s, none⟩ :: (inside ++ [⟨opened, t, none⟩])

/-- The moments of what follows a success. -/
def onSuccess (more : α → RenderState ω → List (Moment ω)) :
    Except Failure α × RenderState ω → List (Moment ω)
  | (.ok a, t) => more a t
  | (.error _, _) => []

/-! ## §2. Nesting -/

/-- What is to be known of how a part of a render ends that came through some moments: it does come
to an end, the open constructs were counted all the time, and the end is the error about the limit
exactly if the limit was about to be exceeded, and by the construct at that place. -/
structure Limited (r : Except Failure α) (moments : List (Moment ω)) : Prop where
  ends : r ≠ .error .exhausted
  counted : ∀ m ∈ moments, m.Counted
  limit : ∀ name pos k, r = .error (.error (.render name pos (.recursionLimit k))) ↔
    k = maxDepth ∧ ∃ m ∈ moments, m.Exceeds name pos

/-- An ordinary way to end, without moments at which a construct is about to be opened. -/
theorem limited_of_ordinary {r : Except Failure α} (hr : ∀ f, r = .error f → f.Ordinary) :
    Limited r ([] : List (Moment ω)) := by
  refine ⟨fun h => (hr _ h).ne_exhausted rfl, List.forall_mem_nil _, fun name pos k => ?_⟩
  constructor
  · exact fun h => absurd rfl ((hr _ h).ne_limit name pos k)
  · rintro ⟨-, m, hm, -⟩
    cases hm

/-- The same with the state that is left, for a part that is run while some constructs are open. -/
structure Nests (sources : Table String) (opened : List Construct) (r : Except Failure α)
    (t : RenderState ω) (inside : List (Moment ω)) : Prop extends Limited r inside where
  depth : t.depth = opened.length
  cached : t.Cached sources

namespace Nests

variable {sources : Table String} {opened : List Construct} {s t : RenderState ω}
  {r : Except Failure α} {inside : List (Moment ω)}

theorem of_plain {x : Render ω α} {Q : α → Prop} (hx : Plain sources x Q)
    (hs : s.Cached sources) (hdepth : s.depth = opened.length) :
    Nests sources opened (x.run s).1 (x.run s).2 [] := by
  obtain ⟨hdepth', hcached, hresult⟩ := hx s hs
  refine ⟨limited_of_ordinary fun f hf => ?_, hdepth'.trans hdepth, hcached⟩
  rw [hf] at hresult
  exact hresult

/-- More moments do not matter for the limit if it is not exceeded at them. -/
theorem more (h : Nests sources opened r t inside) {inside' : List (Moment ω)}
    (hsub : inside ⊆ inside')
    (hnew : ∀ m ∈ inside', m ∈ inside ∨ m.Counted ∧ ∀ name pos, ¬m.Exceeds name pos) :
    Nests sources opened r t inside' := by
  refine ⟨⟨h.ends, fun m hm => ?_, fun name pos k => ?_⟩, h.depth, h.cached⟩
  · rcases hnew m hm with hm | ⟨hcounted, -⟩
    · exact h.counted m hm
    · exact hcounted
  · rw [h.limit name pos k]
    refine and_congr_right fun _ => ⟨?_, ?_⟩
    · rintro ⟨m, hm, hexceeds⟩
      exact ⟨m, hsub hm, hexceeds⟩
    · rintro ⟨m, hm, hexceeds⟩
      rcases hnew m hm with hm | ⟨-, hnot⟩
      · exact ⟨m, hm, hexceeds⟩
      · exact absurd hexceeds (hnot name pos)

theorem cons (h : Nests sources opened r t inside) {m : Moment ω} (hm : m.Counted)
    (hnot : ∀ name pos, ¬m.Exceeds name pos) : Nests sources opened r t (m :: inside) := by
  refine h.more (List.subset_cons_self _ _) fun m' hm' => ?_
  rcases List.mem_cons.mp hm' with rfl | hm'
  · exact .inr ⟨hm, hnot⟩
  · exact .inl hm'

theorem between (h : Nests sources opened r t inside) (hs : s.depth = opened.length)
    (hle : opened.length ≤ maxDepth) :
    Nests sources opened r t (momentsBetween opened s t inside) := by
  refine cons (h.more (List.subset_append_left _ _) fun m hm => ?_) ⟨hs, hle⟩
    (Moment.not_exceeds rfl)
  rcases List.mem_append.mp hm with hm | hm
  · exact .inl hm
  · obtain rfl := List.mem_singleton.mp hm
    exact .inr ⟨⟨h.depth, hle⟩, Moment.not_exceeds rfl⟩

/-- Another result of a success and another state, with the count that belongs to it. -/
theorem change (h : Nests sources opened r t inside) {r' : Except Failure β}
    {t' : RenderState ω} {opened' : List Construct} (hr : ∀ f, r' = .error f ↔ r = .error f)
    (hdepth : t'.depth = opened'.length) (hcached : t'.Cached sources) :
    Nests sources opened' r' t' inside := by
  refine ⟨⟨fun he => h.ends ((hr _).mp he), h.counted, fun name pos k => ?_⟩, hdepth, hcached⟩
  rw [← h.limit name pos k]
  exact hr _

/-- After a success, whatever ends for ordinary reasons. -/
theorem change_ok {a : α} (h : Nests sources opened (.ok a) t inside) {r' : Except Failure β}
    {t' : RenderState ω} (hr : ∀ f, r' = .error f → f.Ordinary)
    (hdepth : t'.depth = opened.length) (hcached : t'.Cached sources) :
    Nests sources opened r' t' inside := by
  refine ⟨⟨fun he => (hr _ he).ne_exhausted rfl, h.counted, fun name pos k => ?_⟩, hdepth, hcached⟩
  rw [← h.limit name pos k]
  constructor
  · exact fun he => absurd rfl ((hr _ he).ne_limit name pos k)
  · nofun

/-- What has ended well has not met the limit, so only what comes after it counts. -/
theorem after {a : α} (hx : Nests sources opened (.ok a) s inside) {r : Except Failure β}
    {inside' : List (Moment ω)} (h : Nests sources opened r t inside') :
    Nests sources opened r t (inside ++ inside') := by
  refine ⟨⟨h.ends, List.forall_mem_append.mpr ⟨hx.counted, h.counted⟩, fun name pos k => ?_⟩,
    h.depth, h.cached⟩
  rw [h.limit name pos k]
  have hx := hx.limit name pos k
  simp only [reduceCtorEq, false_iff, not_and, not_exists] at hx
  refine and_congr_right fun hk => ⟨?_, ?_⟩
  · rintro ⟨m, hm, hexceeds⟩
    exact ⟨m, List.mem_append_right _ hm, hexceeds⟩
  · rintro ⟨m, hm, hexceeds⟩
    rcases List.mem_append.mp hm with hm | hm
    · exact absurd hexceeds (hx hk m hm)
    · exact ⟨m, hm, hexceeds⟩

/-- A failure of the first part is the failure of both, and the second part begins only where the
first one has ended well. -/
theorem bind {x : Render ω α} {f : α → Render ω β} {more : α → RenderState ω → List (Moment ω)}
    (hx : Nests sources opened (x.run s).1 (x.run s).2 inside)
    (hf : ∀ a t, x.run s = (.ok a, t) → t.depth = opened.length → t.Cached sources →
      Nests sources opened ((f a).run t).1 ((f a).run t).2 (more a t)) :
    Nests sources opened ((x >>= f).run s).1 ((x >>= f).run s).2
      (inside ++ onSuccess more (x.run s)) := by
  rcases hr : x.run s with ⟨e | a, t⟩
  · rw [run_bind_error hr]
    rw [hr] at hx
    simpa [onSuccess] using hx.change (fun f => by simp) hx.depth hx.cached
  · rw [run_bind_ok hr]
    rw [hr] at hx
    exact hx.after (hf a t hr hx.depth hx.cached)

end Nests

/-! ## §3. The moments of a render -/

variable [HostObject ω] {env : Environment ω} {n : Nat}

/-- The moments of the turns of a chain, from those inside one. -/
def chainMoments (env : Environment ω) (runner : Runner ω) (opened : List Construct)
    (inside : List Level → RenderState ω → List (Moment ω)) :
    Nat → List String → List Level → RenderState ω → List (Moment ω)
  | 0, _, _, _ => []
  | n + 1, names, levels, s =>
    momentsBetween opened s ((followTurn env runner levels).run s).2 (inside levels s) ++
      onSuccess
        (fun (levels, more) t =>
          match more with
          | none => []
          | some names => chainMoments env runner opened inside n names levels t)
        ((chainTurn env runner names levels).run s)

namespace Render.Moves

/-- The moments that a part of a render comes through, run from a state while some constructs are
open, after its first moment and before its last one. -/
def inside : ∀ {n : Nat} {α : Type} {x : Render ω α}, Moves env n x → List Construct →
    RenderState ω → List (Moment ω)
  | _, _, _, .bind (x := x) hx hf, opened, s =>
    hx.inside opened s ++
      onSuccess (fun a t => ⟨opened, t, none⟩ :: (hf a).inside opened t) (x.run s)
  | _, _, _, .capture (x := x) hx, opened, s =>
    let s' := { s with output := ⟨[], none⟩ }
    momentsBetween opened s' (x.run s').2 (hx.inside opened s')
  | _, _, _, .leniently (x := x) hx, opened, s =>
    let s' := { s with lenient := true }
    momentsBetween opened s' (x.run s').2 (hx.inside opened s')
  | _, _, _, .inFrame (x := x) enter _ hx, opened, s =>
    let s' := { s with frame := enter s.frame }
    momentsBetween opened s' (x.run s').2 (hx.inside opened s')
  | _, _, _, @chain _ _ _ _ runner _ hturn, opened, s =>
    chainMoments env runner opened (fun levels t => (hturn levels).inside opened t) env.patience
      [s.frame.template.name] [] s
  | _, _, _, @deeper _ _ _ _ _ runner pos o hx, opened, s =>
    let s' := { s with depth := s.depth + 1 }
    ⟨opened, s, some (o.construct, pos)⟩ ::
      if s.depth < maxDepth then
        momentsBetween (o.construct :: opened) s' ((o.code env runner).run s').2
          (hx.inside (o.construct :: opened) s')
      else []
  | _, _, _, .lowest pos o, opened, s => [⟨opened, s, some (o.construct, pos)⟩]
  | _, _, _, _, _, _ => []

/-- All moments that a part of a render comes through. -/
def moments {x : Render ω α} (h : Moves env n x) (opened : List Construct) (s : RenderState ω) :
    List (Moment ω) :=
  momentsBetween opened s (x.run s).2 (h.inside opened s)

end Render.Moves

/-! ## §4. What nests -/

section Nesting

variable {sources : Table String} (henv : env.Tabled sources)
include henv

variable {opened : List Construct}

/-- A turn of a chain nests as what it runs does, and the chain goes on to a name of the table that
it has not met. -/
theorem nests_chainTurn {runner : Runner ω} (hrun : runner.Restores) {names : List String}
    {levels : List Level} {s : RenderState ω} {inside : List (Moment ω)}
    (hrunning : s.frame.template.name ∈ names)
    (hturn : Nests sources opened ((followTurn env runner levels).run s).1
      ((followTurn env runner levels).run s).2 inside) :
    Nests sources opened ((chainTurn env runner names levels).run s).1
      ((chainTurn env runner names levels).run s).2 inside ∧
    ∀ levels' names' t,
      (chainTurn env runner names levels).run s = (.ok (levels', some names'), t) →
      ∃ name, names' = name :: names ∧ name ∉ names ∧ name ∈ sources.names ∧
        t.frame.template.name = name := by
  have hkeeps : (((followTurn env runner levels).run s).2).surroundings = s.surroundings :=
    keeps_followTurn hrun levels s
  unfold chainTurn
  rcases hr : (followTurn env runner levels).run s with ⟨e | ⟨levels', r⟩, t⟩
  · rw [run_bind_error hr]
    rw [hr] at hturn
    exact ⟨hturn.change (fun f => by simp) hturn.depth hturn.cached, nofun⟩
  · rw [run_bind_ok hr]
    rw [hr] at hturn hkeeps
    cases r with
    | none => exact ⟨hturn.change (fun f => by simp) hturn.depth hturn.cached, nofun⟩
    | some r =>
      have htemplate : t.frame.template = s.frame.template :=
        (RenderState.surroundings_eq_iff.mp hkeeps).1
      rw [← htemplate] at hrunning
      rcases run_stepChain henv hturn.cached hrunning r with
        ⟨name, u, hu, hnew, hmem, hname, hdepth, hcached⟩ | ⟨f, u, hu, hf, hdepth, hcached⟩
      · rw [run_bind_ok hu]
        refine ⟨hturn.change_ok nofun (hdepth.trans hturn.depth) hcached, ?_⟩
        rintro _ _ _ ⟨⟩
        exact ⟨name, rfl, hnew, hmem, hname⟩
      · rw [run_bind_error hu]
        refine ⟨hturn.change_ok ?_ (hdepth.trans hturn.depth) hcached, nofun⟩
        rintro _ ⟨⟩
        exact hf

/-- A chain has an end: it meets no name twice, and all names that it goes on to are in the
table. -/
theorem nests_followChain {runner : Runner ω} (hrun : runner.Restores)
    {inside : List Level → RenderState ω → List (Moment ω)}
    (hturn : ∀ levels s, s.Cached sources → s.depth = opened.length →
      Nests sources opened ((followTurn env runner levels).run s).1
        ((followTurn env runner levels).run s).2 (inside levels s))
    (hle : opened.length ≤ maxDepth) (first : String) (n : Nat) {names : List String}
    (levels : List Level) {s : RenderState ω} (hs : s.Cached sources)
    (hdepth : s.depth = opened.length) (hnodup : names.Nodup)
    (hnames : names ⊆ first :: sources.names) (hrunning : s.frame.template.name ∈ names)
    (hlength : sources.length + 2 ≤ n + names.length) :
    Nests sources opened ((followChain env runner n names levels).run s).1
      ((followChain env runner n names levels).run s).2
      (chainMoments env runner opened inside n names levels s) := by
  induction n generalizing names levels s with
  | zero =>
    -- More names would have been met than there are.
    have hcount : names.length ≤ (first :: sources.names).length :=
      (hnodup.subperm hnames).length_le
    simp only [List.length_cons, Table.names, List.length_map] at hcount
    omega
  | succ n ih =>
    obtain ⟨hthis, hnext⟩ := nests_chainTurn henv hrun hrunning
      ((hturn levels s hs hdepth).between hdepth hle)
    rw [followChain_succ]
    refine hthis.bind fun (levels', more) t hr hdepth' hcached => ?_
    cases more with
    | none => exact .of_plain (Plain.pure (Q := fun _ => True) trivial) hcached hdepth'
    | some names' =>
      obtain ⟨name, rfl, hnew, hmem, hname⟩ := hnext _ _ _ hr
      apply ih
      · exact hcached
      · exact hdepth'
      · exact List.nodup_cons.mpr ⟨hnew, hnodup⟩
      · exact List.cons_subset.mpr ⟨List.mem_cons_of_mem _ hmem, hnames⟩
      · exact hname ▸ List.mem_cons_self
      · rw [List.length_cons]
        omega

/-- **Nesting.**  By induction over the moves: what opens a construct counts it for exactly as long
as the code in it runs, and fails on account of the limit exactly at the lowest level. -/
theorem Render.Moves.nests {x : Render ω α} (h : Moves env n x)
    (hlevel : opened.length + n = maxDepth) {s : RenderState ω} (hs : s.Cached sources)
    (hdepth : s.depth = opened.length) :
    Nests sources opened (x.run s).1 (x.run s).2 (h.inside opened s) := by
  induction h generalizing opened s with
  | pure a => exact .of_plain (Plain.pure (Q := fun _ => True) trivial) hs hdepth
  | bind hx hf ihx ihf =>
    refine (ihx hlevel hs hdepth).bind fun a t _ hdepth' hcached => ?_
    have hle : opened.length ≤ maxDepth := by omega
    exact (ihf a hlevel hcached hdepth').cons ⟨hdepth', hle⟩ (Moment.not_exceeds rfl)
  | frame => exact .of_plain Plain.frame hs hdepth
  | changeFrame f => exact .of_plain (Plain.changeFrame f) hs hdepth
  | failAt pos kind h =>
    exact .of_plain (Plain.failAt (Q := fun _ => True) pos h) hs hdepth
  | undefined pos name => exact .of_plain (Plain.undefined pos name) hs hdepth
  | write text => exact .of_plain (Plain.write text) hs hdepth
  | meet v => exact .of_plain (Plain.meet v) hs hdepth
  | load name => exact .of_plain (Plain.load henv name) hs hdepth
  | seek optional names => exact .of_plain (Plain.seek henv optional names) hs hdepth
  | @capture n x hx ih =>
    let s' := { s with output := ⟨[], none⟩ }
    have hinside := (ih hlevel (s := s') hs hdepth).between (s := s') hdepth (by omega)
    refine hinside.change (fun f => ?_) hinside.depth hinside.cached
    rw [run_capture]
    cases (x.run s').1 <;> simp [Except.map]
  | leniently hx ih =>
    let s' := { s with lenient := true }
    have hinside := (ih hlevel (s := s') hs hdepth).between (s := s') hdepth (by omega)
    exact hinside.change (fun f => Iff.rfl) hinside.depth hinside.cached
  | inFrame enter leave hx ih =>
    let s' := { s with frame := enter s.frame }
    have hinside := (ih hlevel (s := s') hs hdepth).between (s := s') hdepth (by omega)
    exact hinside.change (fun f => Iff.rfl) hinside.depth hinside.cached
  | chain hrun hturn ih =>
    unfold Render.chain
    rw [run_bind_ok (run_frame s)]
    refine nests_followChain henv hrun (fun levels t ht hdepth' => ih levels hlevel ht hdepth')
      (by omega) s.frame.template.name _ _ hs hdepth (List.nodup_singleton _) ?_
      List.mem_cons_self ?_
    · exact List.cons_subset.mpr ⟨List.mem_cons_self, List.nil_subset _⟩
    · have := henv.patience
      rw [List.length_singleton]
      omega
  | @deeper n α runner pos o hx ih =>
    have hlt : opened.length < maxDepth := by omega
    let s' := { s with depth := s.depth + 1 }
    have hlevel' : (o.construct :: opened).length + n = maxDepth :=
      (Nat.succ_add_eq_add_succ _ _).trans hlevel
    have hdepth' : s'.depth = (o.construct :: opened).length := congrArg (· + 1) hdepth
    have hinside := (ih hlevel' (s := s') hs hdepth').between hdepth' (by omega)
    rw [run_deeper_of_lt _ pos _ (hdepth ▸ hlt), run_ending, Moves.inside, if_pos (hdepth ▸ hlt)]
    have hafter : (leave ((o.code env runner).run s').2).depth = opened.length := by
      rw [leave, hinside.depth]
      rfl
    refine (hinside.change (fun f => Iff.rfl) hafter hinside.cached).cons
      ⟨hdepth, Nat.le_of_lt hlt⟩ ?_
    rintro name pos ⟨-, hlength, -⟩
    exact Nat.ne_of_lt hlt hlength
  | lowest pos o =>
    have hlength : opened.length = maxDepth := hlevel
    rw [run_deeper_of_limit none pos (o.code env) (Nat.le_of_eq (hdepth.trans hlength).symm)]
    refine ⟨⟨by simp, ?_, fun name pos k => ?_⟩, hdepth, hs⟩
    · rintro m hm
      obtain rfl := List.mem_singleton.mp hm
      exact ⟨hdepth, Nat.le_of_eq hlength⟩
    · constructor
      · rintro ⟨⟩
        exact ⟨rfl, _, List.mem_singleton_self _, ⟨_, rfl⟩, hlength, rfl⟩
      · rintro ⟨rfl, m, hm, ⟨_, hattempt⟩, -, hname⟩
        obtain rfl := List.mem_singleton.mp hm
        cases hattempt
        cases hname
        rfl

end Nesting

/-! ## §5. Renders -/

/-- How the render of a template in a context is made of moves; `renderMoves` is one way to take it
apart. -/
abbrev Environment.Course (env : Environment ω) (t : LiveTemplate) (context : Context ω) :=
  Moves env maxDepth
    (Render.renderTemplate env (runner env maxDepth) t (.ofLayer (some context) []) [])

namespace Environment.Tabled

variable {sources : Table String}

theorem limited_renderFrom (henv : env.Tabled sources) (t : LiveTemplate) (context : Context ω)
    (room : Option Nat) (requests : List String) (course : env.Course t context) :
    Limited (env.renderFrom t (startState t context room requests)).outcome
      (course.moments [] (startState t context room requests)) := by
  let s := startState t context room requests
  have hlevel : ([] : List Construct).length + maxDepth = maxDepth := Nat.zero_add _
  have h := course.nests henv hlevel (s := s) nofun rfl
  exact (h.between (s := s) rfl (Nat.zero_le _)).toLimited

theorem outcome_mutual_inclusion :
    let sources : Table String :=
      [("a", "\x7b% include 'b' %\x7d"), ("b", "\x7b% include 'a' %\x7d")]
    let env : Environment Empty := .standard (.ofTable sources) 3
    (match (env.render "a" [] none).outcome with
      | .error (.error (.render name _ (.recursionLimit _))) => name == "a"
      | _ => false) = true := by
  decide +kernel

end Environment.Tabled

end Stencil
