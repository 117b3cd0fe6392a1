import Stencil.Proofs.Render.Embedding

/-!
Where a chain of `extends` leads.

The template that another one extends is named by an expression, which is evaluated in the frame of
the chain when the assignments at the top level of the extending template have been made.  A trail
is what comes of this turn after turn, whether a name comes back or not.  A chain is followed along
the trail as long as its names differ: it fails at the first name that comes back, with the names up
to that one, and if none does, it ends at a template that extends nothing.

Following a chain writes nothing.  Two renders of the same code do the same whatever outputs they
have, so the output may be asked to be any one, and is that one in the end.
-/

namespace Stencil

open Render

variable {ω α β : Type}

/-! ## §1. Writing nothing -/

/-- Whether a part of a render writes nothing, and loads what a request is answered with. -/
def Render.Quiet (env : Environment ω) (x : Render ω α) : Prop :=
  ∀ s : RenderState ω, s.Answered env →
    (x.run s).2.output = s.output ∧ ∀ a t, x.run s = (.ok a, t) → t.Answered env

/-- The relocation that moves nothing. -/
def Relocation.still : Relocation where
  source := ⟨⟨"", none, [], [], [], [], []⟩, .entry⟩
  target := ⟨⟨"", none, [], [], [], [], []⟩, .entry⟩
  move := id
  number := id
  copied := fun _ => False

theorem Relocation.sound_still (env : Environment ω) : Relocation.still.Sound env :=
  ⟨fun _ h => h.elim, rfl⟩

variable {env : Environment ω} {ρ : Relocation}

theorem Render.Quiet.of_ok {x : Render ω α} (h : Quiet env x) {s t : RenderState ω} {a : α}
    (hs : s.Answered env) (hrun : x.run s = (.ok a, t)) : t.Answered env ∧ t.output = s.output := by
  obtain ⟨hout, hanswered⟩ := h s hs
  rw [hrun] at hout
  exact ⟨hanswered a t hrun, hout⟩

/-- What does the same with any two outputs writes nothing. -/
theorem Render.Quiet.of_alike {x : Render ω α} (h : ∀ {out}, ρ.Alike env .same out x x) :
    Quiet env x := by
  intro s hs
  -- The outputs are related if both are the one of this state.
  let out : Output → Output → Prop := fun o o' => o = s.output ∧ o' = s.output
  have hends : ρ.Ends env .same out (x.run s) (x.run s) := h s s (.refl hs ⟨rfl, rfl⟩)
  generalize x.run s = p at hends
  cases hends with
  | both a states =>
    refine ⟨states.output.1, ?_⟩
    rintro _ _ ⟨⟩
    exact states.left
  | failed hout => exact ⟨hout.1, nofun⟩

section Preamble

variable [HostObject ω] (steady : env.Steady) (sound : ρ.Sound env) (n : Nat)
  {out : Output → Output → Prop}
include steady sound

/-- The code of a runner is alike, whatever number of levels is left. -/
theorem Relocation.runs_runner : ρ.Runs env (runner env n) :=
  Relocation.runs_innerRunner steady sound (n + 1) _ rfl

theorem Relocation.alike_templateOf_same (e : Expr) :
    ρ.Alike env .same out (templateOf env (runner env n).eval e)
      (templateOf env (runner env n).eval e) := by
  have h : ρ.Alike env .same out _ _ := Relocation.alike_templateOf steady (.same e)
    (by rw [show ρ.place .same = id from rfl, Expr.relocate_id]
        exact (Relocation.runs_runner steady sound n).eval_same e)
  rwa [show ρ.place .same = id from rfl, Expr.relocate_id] at h

/-- A statement that takes effect in an extending template writes nothing itself. -/
theorem Relocation.alike_preambleStmt {stmt : Stmt} (h : isPreamble stmt = true) :
    ρ.Alike env .same out (runStmt env (innerRunner env n) stmt)
      (runStmt env (innerRunner env n) stmt) := by
  have hruns := Relocation.runs_runner steady sound n
  have htemplate : ∀ e, ρ.Alike env .same out _ _ :=
    Relocation.alike_templateOf_same steady sound n
  cases stmt with
  | assign pos targets values =>
    have hvalues : ρ.Alike env .same out _ _ := Relocation.alike_evalAll sound
      (Relocation.runs_innerRunner steady sound n) values fun e _ => .same e
    rw [show ρ.place .same = id from rfl, Expr.relocateAll_id] at hvalues
    rw [runStmt]
    exact hvalues.bind fun vs => Relocation.alike_assignAll targets vs
  | capture pos name body =>
    rw [runStmt]
    exact Relocation.Alike.bind (.capture (hruns.body_same body)) fun text => .assign name _
  | perform pos e =>
    rw [runStmt]
    exact (hruns.eval_same e).bind fun v => .pure _
  | importAll pos template newName =>
    rw [runStmt]
    exact (htemplate template).bind fun t => .assign newName _
  | importSome pos template names =>
    rw [runStmt]
    exact (htemplate template).bind fun t => Relocation.alike_importMacros pos pos t names
  | _ => cases h

theorem Relocation.alike_preamble (ss : List Stmt) :
    ρ.Alike env .same out ((runner env n).body (ss.filter isPreamble))
      ((runner env n).body (ss.filter isPreamble)) := by
  show ρ.Alike env .same out (runBody env (innerRunner env n) _) (runBody env (innerRunner env n) _)
  induction ss with
  | nil =>
    rw [List.filter_nil, runBody]
    exact .pure ()
  | cons stmt ss ih =>
    rw [List.filter_cons]
    split
    · next h =>
      rw [runBody]
      exact (Relocation.alike_preambleStmt steady sound n h).bind fun _ => ih
    · exact ih

end Preamble

section Quiet

variable [HostObject ω] (steady : env.Steady) (n : Nat)
include steady

theorem quiet_usedTemplates (reuses : List Reuse) :
    Quiet env (usedTemplates env (runner env n).eval reuses) :=
  .of_alike (Relocation.alike_usedTemplates steady
    (Relocation.runs_runner steady (Relocation.sound_still env) n).eval_same reuses)

theorem quiet_preamble (ss : List Stmt) :
    Quiet env ((runner env n).body (ss.filter isPreamble)) :=
  .of_alike (Relocation.alike_preamble steady (Relocation.sound_still env) n ss)

theorem quiet_reference (e : Expr) : Quiet env (reference (runner env n).eval e) := by
  apply Quiet.of_alike (ρ := .still)
  intro out
  unfold reference
  split
  · exact .pure _
  · exact ((Relocation.runs_runner steady (Relocation.sound_still env) n).eval_same e).bind
      fun v => .pure _

omit [HostObject ω] in
theorem quiet_resolve (r : Reference) : Quiet env (resolve env r) := by
  apply Quiet.of_alike (ρ := .still)
  intro out
  cases r with
  | named name => exact .load steady name
  | running =>
    refine Relocation.Alike.frame_bind fun fr fr' hfr => ?_
    have htemplate : fr'.template = fr.template := hfr.templates
    rw [htemplate]
    exact .pure _

end Quiet

/-! ## §2. Trails -/

/-- The name of the template that a reference in a template stands for. -/
def Render.Reference.nameIn (running : LiveTemplate) : Reference → String
  | .running => running.name
  | .named name => name

namespace Render

variable [HostObject ω]

/-- The name that a reference stands for is what its expression evaluates to, unless there is a
variable in the place of the name that means the running template. -/
theorem run_reference_of_eval {n : Nat} {e : Expr} {s t : RenderState ω} {v : Value ω}
    (h : ((Render.runner env n).eval e).run s = (.ok v, t))
    (hself : isSelf e = true → find? env s.frame selfName = some (.string s.frame.template.name)) :
    ∃ r u, (reference (Render.runner env n).eval e).run s = (.ok r, u) ∧
      r.nameIn s.frame.template = v.output := by
  unfold reference
  split
  · next he =>
    refine ⟨.running, s, rfl, ?_⟩
    have hfind := hself he
    have heval : ((Render.runner env n).eval e).run s =
        (.ok (.string s.frame.template.name), s) := by
      show (eval env (innerRunner env n) e).run s = _
      cases e with
      | name pos name =>
        obtain rfl : name = selfName := by simpa [isSelf] using he
        rw [eval, lookup, run_bind_ok (run_frame s)]
        simp only [hfind]
        rfl
      | _ => cases he
    rw [h] at heval
    cases heval
    rfl
  · exact ⟨.named v.output, t, run_bind_ok h _, rfl⟩

/-- A turn of a chain, from a template that extends another one to that one.  All its parts are
evaluated without an error, and the template that is named is there. -/
inductive Turn (env : Environment ω) (runner : Runner ω) (s : RenderState ω) :
    String → RenderState ω → Prop
  | turn {extended : Extends} {uses : List UsedTemplate} {r : Reference} {parent : LiveTemplate}
      {u₁ u₂ u₃ u₄ : RenderState ω} :
    s.frame.template.template.parent = some extended →
    (usedTemplates env runner.eval s.frame.template.template.reuses).run s = (.ok uses, u₁) →
    (runner.body (s.frame.template.template.body.filter isPreamble)).run u₁ = (.ok (), u₂) →
    (reference runner.eval extended.template).run u₂ = (.ok r, u₃) →
    (resolve env r).run u₃ = (.ok parent, u₄) →
    Turn env runner s (r.nameIn s.frame.template)
      { u₄ with frame := { u₄.frame with template := parent } }

/-- The names that a chain comes by from the running template of a state on, and the state in which
the last one of them runs. -/
inductive Trail (env : Environment ω) (runner : Runner ω) (s : RenderState ω) :
    List String → RenderState ω → Prop
  | start : Trail env runner s [s.frame.template.name] s
  | step {names : List String} {t u : RenderState ω} {name : String} :
    Trail env runner s names t → Turn env runner t name u → Trail env runner s (names ++ [name]) u

/-- Whether the running template of a state extends nothing and the templates it takes blocks from
are there, or its turn leads on. -/
inductive Proceeds (env : Environment ω) (runner : Runner ω) (s : RenderState ω) : Prop
  | root {uses : List UsedTemplate} {u : RenderState ω} :
    s.frame.template.template.parent = none →
    (usedTemplates env runner.eval s.frame.template.template.reuses).run s = (.ok uses, u) →
    Proceeds env runner s
  | extending {name : String} {u : RenderState ω} :
    Turn env runner s name u → Proceeds env runner s

variable {runner : Runner ω} {s t u u' : RenderState ω} {name name' : String}
  {names names' : List String}

/-- There is no more than one way to go on. -/
theorem Turn.unique (h : Turn env runner s name u) (h' : Turn env runner s name' u') :
    name = name' ∧ u = u' := by
  obtain ⟨hparent, huses, hpreamble, hreference, hresolve⟩ := h
  obtain ⟨hparent', huses', hpreamble', hreference', hresolve'⟩ := h'
  rw [hparent] at hparent'
  cases hparent'
  rw [huses] at huses'
  cases huses'
  rw [hpreamble] at hpreamble'
  cases hpreamble'
  rw [hreference] at hreference'
  cases hreference'
  rw [hresolve] at hresolve'
  cases hresolve'
  exact ⟨rfl, rfl⟩

theorem Turn.extending (h : Turn env runner s name u) :
    s.frame.template.template.parent ≠ none := by
  obtain ⟨hparent⟩ := h
  rw [hparent]
  nofun

/-- A turn up to the template that it leads to, which takes the place of the running one. -/
theorem Turn.exists_reference (h : Turn env runner s name u) (levels : List Level) :
    ∃ uses r t v, (followTurn env runner levels).run s =
        (.ok (⟨s.frame.template, uses⟩ :: levels, some r), t) ∧
      (resolve env r).run t = (.ok u.frame.template, v) ∧
      u = { v with frame := { v.frame with template := u.frame.template } } := by
  obtain ⟨hparent, huses, hpreamble, hreference, hresolve⟩ := h
  rename_i extended uses r parent u₁ u₂ u₃ u₄
  refine ⟨uses, r, u₃, u₄, ?_, hresolve, rfl⟩
  rw [followTurn, run_bind_ok (run_frame s), run_bind_ok huses]
  simp only [hparent]
  rw [run_bind_ok hpreamble, run_bind_ok hreference]
  rfl

namespace Trail

theorem length_pos (h : Trail env runner s names t) : 0 < names.length := by
  cases h <;> simp

/-- Of two trails from the same state the shorter one is where the longer one begins. -/
theorem linear (h : Trail env runner s names t) (h' : Trail env runner s names' u)
    (hle : names.length ≤ names'.length) :
    names <+: names' ∧ (names.length = names'.length → t = u) := by
  induction h' generalizing names t with
  | start =>
    cases h with
    | start => exact ⟨List.prefix_refl _, fun _ => rfl⟩
    | step h _ =>
      have hpos := h.length_pos
      simp only [List.length_append, List.length_singleton] at hle
      omega
  | @step names' v u name' h' hturn' ih =>
    rw [List.length_append, List.length_singleton] at hle
    rcases Nat.lt_or_eq_of_le hle with hlt | heq
    · obtain ⟨hbegins, -⟩ := ih h (Nat.le_of_lt_succ hlt)
      refine ⟨hbegins.trans (List.prefix_append _ _), fun heq => ?_⟩
      rw [List.length_append, List.length_singleton] at heq
      omega
    · -- Both have come to the same state a turn before.
      cases h with
      | start =>
        have hpos := h'.length_pos
        rw [List.length_singleton] at heq
        omega
      | @step names w _ name h hturn =>
        rw [List.length_append, List.length_singleton] at heq
        have heq : names.length = names'.length := by omega
        obtain ⟨hbegins, hstate⟩ := ih h heq.le
        obtain rfl := hbegins.eq_of_length heq
        obtain rfl := hstate heq
        obtain ⟨rfl, rfl⟩ := hturn.unique hturn'
        exact ⟨List.prefix_refl _, fun _ => rfl⟩

/-- Where another trail goes further there is a turn. -/
theorem turn_of_lt (h : Trail env runner s names t) (h' : Trail env runner s names' u)
    (hlt : names.length < names'.length) : ∃ name v, Turn env runner t name v := by
  induction h' with
  | start =>
    have hpos := h.length_pos
    rw [List.length_singleton] at hlt
    omega
  | @step names' v u name' h' hturn' ih =>
    rw [List.length_append, List.length_singleton] at hlt
    rcases Nat.lt_or_eq_of_le (Nat.le_of_lt_succ hlt) with hlt | heq
    · exact ih hlt
    · obtain rfl := (h.linear h' heq.le).2 heq
      exact ⟨name', u, hturn'⟩

end Trail

/-! ## §3. Templates on the way -/

section Shelved

variable {sources : Table String} (henv : env.Shelved sources) {n : Nat}
include henv

omit [HostObject ω] in
/-- A reference stands for the template of its name, and that is in the table unless it runs. -/
theorem name_of_resolve {r : Reference} {parent : LiveTemplate} (hs : s.Answered env)
    (h : (resolve env r).run s = (.ok parent, u)) :
    parent.name = r.nameIn s.frame.template ∧
      (parent = s.frame.template ∨ parent.name ∈ sources.names) := by
  cases r with
  | running =>
    cases h
    exact ⟨rfl, .inl rfl⟩
  | named name =>
    obtain ⟨loaded, requests, hload, -⟩ := run_load_of_steady henv.steady name hs
    rw [show (resolve env (.named name)).run s = _ from hload] at h
    injection h with hanswer _
    obtain ⟨hname, hmem⟩ := henv.of_answer hanswer
    exact ⟨hname, .inr (hname ▸ hmem)⟩

/-- What is known of a state and of its running template, on the way of a chain. -/
structure OnShelf (env : Environment ω) (sources : Table String) (o : Output)
    (s : RenderState ω) : Prop where
  answered : s.Answered env
  known : s.frame.template.name ∈ sources.names
  output : s.output = o

variable {o : Output}

omit [HostObject ω] henv in
theorem OnShelf.of_ok {x : Render ω α} {a : α} (hs : OnShelf env sources o s) (hquiet : Quiet env x)
    (hkeeps : Keeps (fun s => s.frame.template) x) (hrun : x.run s = (.ok a, t)) :
    OnShelf env sources o t ∧ t.frame.template = s.frame.template := by
  obtain ⟨hanswered, hout⟩ := hquiet.of_ok hs.answered hrun
  have hrunning := hkeeps s
  rw [hrun] at hrunning
  refine ⟨⟨hanswered, ?_, hout.trans hs.output⟩, hrunning⟩
  exact (show t.frame.template = s.frame.template from hrunning) ▸ hs.known

/-- The templates that blocks are taken from are loaded where a chain comes by. -/
theorem OnShelf.usedTemplates {reuses : List Reuse} {uses : List UsedTemplate}
    (hs : OnShelf env sources o s)
    (hrun : (Render.usedTemplates env (Render.runner env n).eval reuses).run s = (.ok uses, t)) :
    OnShelf env sources o t ∧ t.frame.template = s.frame.template :=
  hs.of_ok (quiet_usedTemplates henv.steady n reuses)
    ((keeps_usedTemplates env (runnerMoves env n).restores.eval reuses).mono fun p =>
      p.frame.template) hrun

theorem OnShelf.preamble {ss : List Stmt} {a : Unit} (hs : OnShelf env sources o s)
    (hrun : ((Render.runner env n).body (ss.filter isPreamble)).run s = (.ok a, t)) :
    OnShelf env sources o t ∧ t.frame.template = s.frame.template :=
  hs.of_ok (quiet_preamble henv.steady n ss)
    (((runnerMoves env n).restores.body _).mono fun p => p.frame.template) hrun

theorem OnShelf.reference {e : Expr} {r : Reference} (hs : OnShelf env sources o s)
    (hrun : (Render.reference (Render.runner env n).eval e).run s = (.ok r, t)) :
    OnShelf env sources o t ∧ t.frame.template = s.frame.template := by
  have hkeeps : Keeps RenderState.standing (Render.reference (Render.runner env n).eval e) := by
    unfold Render.reference
    split
    · exact Keeps.pure _
    · exact Keeps.bind ((runnerMoves env n).restores.eval _) fun v => Keeps.pure _
  exact hs.of_ok (quiet_reference henv.steady n e) (hkeeps.mono fun p => p.frame.template) hrun

/-- A turn leads to the template of its name, from the table, and writes nothing. -/
theorem Turn.onShelf (h : Turn env (Render.runner env n) s name u)
    (hs : OnShelf env sources o s) :
    OnShelf env sources o u ∧ u.frame.template.name = name := by
  obtain ⟨-, huses, hpreamble, hreference, hresolve⟩ := h
  obtain ⟨hs₁, hrunning₁⟩ := hs.usedTemplates henv huses
  obtain ⟨hs₂, hrunning₂⟩ := hs₁.preamble henv hpreamble
  obtain ⟨hs₃, hrunning₃⟩ := hs₂.reference henv hreference
  obtain ⟨hname, hknown⟩ := name_of_resolve henv hs₃.answered hresolve
  obtain ⟨hanswered, hout⟩ := (quiet_resolve henv.steady _).of_ok hs₃.answered hresolve
  rw [(hrunning₃.trans hrunning₂).trans hrunning₁] at hname
  refine ⟨⟨hanswered, ?_, hout.trans hs₃.output⟩, hname⟩
  rcases hknown with rfl | hknown
  · exact hs₃.known
  · exact hknown

/-- So does a trail.  Its names are those of templates of the table, and the last one runs. -/
theorem Trail.onShelf (h : Trail env (Render.runner env n) s names t)
    (hs : OnShelf env sources o s) :
    OnShelf env sources o t ∧ names.getLast? = some t.frame.template.name ∧
      names ⊆ sources.names := by
  induction h with
  | start => exact ⟨hs, rfl, List.cons_subset.mpr ⟨hs.known, List.nil_subset _⟩⟩
  | @step names t u name h hturn ih =>
    obtain ⟨ht, -, hnames⟩ := ih
    obtain ⟨hu, hname⟩ := hturn.onShelf henv ht
    have hlast : [name] ⊆ sources.names :=
      List.cons_subset.mpr ⟨hname ▸ hu.known, List.nil_subset _⟩
    exact ⟨hu, by rw [List.getLast?_concat, hname], List.append_subset.mpr ⟨hnames, hlast⟩⟩

/-! ## §4. Chains along trails -/

/-- A turn of a chain fails if it leads to a name that has been met, and goes on there if not. -/
theorem Turn.run_chainTurn (h : Turn env (Render.runner env n) s name t)
    (hs : OnShelf env sources o s) (names : List String) (levels : List Level) :
    ∃ uses,
      (name ∈ names → ∃ u, (chainTurn env (Render.runner env n) names levels).run s =
        (.error (.error (.extendsCycle (name :: names).reverse)), u) ∧ u.output = o) ∧
      (name ∉ names → (chainTurn env (Render.runner env n) names levels).run s =
        (.ok (⟨s.frame.template, uses⟩ :: levels, some (name :: names)), t)) := by
  obtain ⟨ht, hname⟩ := h.onShelf henv hs
  obtain ⟨uses, r, u, v, hturn, hresolve, hstate⟩ := h.exists_reference levels
  have hout : v.output = t.output := by rw [hstate]
  refine ⟨uses, fun hmet => ⟨v, ?_, hout.trans ht.output⟩, fun hnew => ?_⟩
  · rw [run_chainTurn_of_step hturn, run_stepChain_of_met hresolve (hname ▸ hmet), hname]
    rfl
  · rw [run_chainTurn_of_step hturn, run_stepChain_of_new hresolve (hname ▸ hnew), hname, ← hstate]
    rfl

/-- The turn of a template that extends nothing is the last one. -/
theorem OnShelf.run_last (hs : OnShelf env sources o s)
    (hparent : s.frame.template.template.parent = none) {uses : List UsedTemplate}
    (huses : (Render.usedTemplates env (Render.runner env n).eval
      s.frame.template.template.reuses).run s = (.ok uses, t))
    (names : List String) (levels : List Level) :
    (chainTurn env (Render.runner env n) names levels).run s =
      (.ok (⟨s.frame.template, uses⟩ :: levels, none), t) ∧ t.output = o := by
  refine ⟨run_chainTurn_of_end ?_, (hs.usedTemplates henv huses).1.output⟩
  rw [followTurn, run_bind_ok (run_frame s), run_bind_ok huses]
  simp only [hparent]
  rfl

/-- How a chain ends that is followed along a trail. -/
inductive Followed (env : Environment ω) (runner : Runner ω) (s : RenderState ω) (o : Output) :
    Except Failure (List Level) × RenderState ω → Prop
  /-- A name comes back. -/
  | met {names : List String} {name : String} {t u : RenderState ω} :
    Trail env runner s (names ++ [name]) t → names.Nodup → name ∈ names → u.output = o →
    Followed env runner s o (.error (.error (.extendsCycle (names ++ [name]))), u)
  /-- It comes to a template that extends nothing. -/
  | root {levels : List Level} {t u : RenderState ω} :
    Trail env runner s (levels.map (·.template.name)) t →
    (levels.map (·.template.name)).Nodup → t.frame.template.template.parent = none →
    u.output = o → Followed env runner s o (.ok levels, u)

/-- A chain is followed along the trail, from any template on it. -/
theorem Trail.followed (hs : OnShelf env sources o s)
    (hproceeds : ∀ names t, Trail env (Render.runner env n) s names t → names.Nodup →
      Proceeds env (Render.runner env n) t)
    (k : Nat) (levels : List Level) (h : Trail env (Render.runner env n) s names t)
    (hnames : names = (levels.map (·.template.name)).reverse ++ [t.frame.template.name])
    (hnodup : names.Nodup) (hk : sources.length + 1 < names.length + k) :
    Followed env (Render.runner env n) s o
      ((followChain env (Render.runner env n) k names.reverse levels).run t) := by
  -- The names are those of templates of the table, and each turn adds one.  So the chain comes to
  -- its end, or to a name that it has met, before the count of turns does.
  induction k generalizing names t levels with
  | zero =>
    have hlength := Table.length_le_of_nodup hnodup (h.onShelf henv hs).2.2
    omega
  | succ k ih =>
    obtain ⟨ht, -, -⟩ := h.onShelf henv hs
    rw [followChain_succ]
    cases hproceeds names t h hnodup with
    | @root uses u hparent huses =>
      obtain ⟨hturn, hout⟩ := ht.run_last henv hparent huses names.reverse levels
      rw [run_bind_ok hturn]
      have hlevels : ((⟨t.frame.template, uses⟩ :: levels).reverse.map (·.template.name)) =
          names := by
        rw [hnames, List.reverse_cons, List.map_append, List.map_reverse]
        rfl
      exact .root (by rwa [hlevels]) (by rwa [hlevels]) hparent hout
    | @extending name u hturn =>
      obtain ⟨uses, hmet, hnew⟩ := hturn.run_chainTurn henv ht names.reverse levels
      by_cases hname : name ∈ names
      · obtain ⟨v, hrun, hout⟩ := hmet (List.mem_reverse.mpr hname)
        rw [run_bind_error hrun, List.reverse_cons, List.reverse_reverse]
        exact .met (h.step hturn) hnodup hname hout
      · rw [run_bind_ok (hnew (mt List.mem_reverse.mp hname))]
        have hu := (hturn.onShelf henv ht).2
        have hnames' : names ++ [name] =
            ((⟨t.frame.template, uses⟩ :: levels).map (·.template.name)).reverse ++
              [u.frame.template.name] := by
          rw [List.map_cons, List.reverse_cons, hu, ← hnames]
        have hnodup' : (names ++ [name]).Nodup :=
          List.nodup_append.mpr ⟨hnodup, List.nodup_singleton _, by
            rintro a ha b hb rfl
            exact hname (List.mem_singleton.mp hb ▸ ha)⟩
        have hk' : sources.length + 1 < (names ++ [name]).length + k := by
          rw [List.length_append, List.length_singleton]
          omega
        have hrest := ih _ (h.step hturn) hnames' hnodup' hk'
        rw [List.reverse_append, List.reverse_singleton] at hrest
        exact hrest

end Shelved

/-! ## §5. Cycles -/

/-- Whether the last of some names is one of those before it, which differ from each other. -/
def ComesBack (names : List String) : Prop :=
  ∃ before last, names = before ++ [last] ∧ before.Nodup ∧ last ∈ before

omit [HostObject ω] in
theorem ComesBack.not_nodup (h : ComesBack names) : ¬names.Nodup := by
  obtain ⟨before, last, rfl, -, hmem⟩ := h
  intro hnodup
  exact (List.nodup_append.mp hnodup).2.2 last hmem last (.head _) rfl

/-- A name comes back for the first time only once. -/
theorem ComesBack.eq_of_prefix (h : ComesBack names) (h' : ComesBack names')
    (hbegins : names <+: names') : names = names' := by
  obtain ⟨before, last, rfl, hnodup, -⟩ := h'
  rcases List.prefix_concat_iff.mp hbegins with heq | hbefore
  · exact heq
  · exact absurd (hnodup.sublist hbefore.sublist) h.not_nodup

/-- Where two names of a trail are the same, a name comes back. -/
theorem Trail.exists_comesBack (h : Trail env runner s names t) (hrepeat : ¬names.Nodup) :
    ∃ names' t', Trail env runner s names' t' ∧ ComesBack names' := by
  induction h with
  | start => exact absurd (List.nodup_singleton _) hrepeat
  | @step names t u name h hturn ih =>
    by_cases hnodup : names.Nodup
    · refine ⟨names ++ [name], u, h.step hturn, names, name, rfl, hnodup, ?_⟩
      by_contra hnew
      apply hrepeat
      refine List.nodup_append.mpr ⟨hnodup, List.nodup_singleton _, ?_⟩
      rintro a ha b hb rfl
      exact hnew (List.mem_singleton.mp hb ▸ ha)
    · exact ih hnodup

/-- Where a name comes back is determined by the state that the chain starts from. -/
theorem Trail.eq_of_comesBack (h : Trail env runner s names t) (h' : Trail env runner s names' u)
    (hback : ComesBack names) (hback' : ComesBack names') : names = names' := by
  rcases Nat.le_total names.length names'.length with hle | hle
  · exact hback.eq_of_prefix hback' (h.linear h' hle).1
  · exact (hback'.eq_of_prefix hback (h'.linear h hle).1).symm

/-- No trail goes further than to a template that extends nothing. -/
theorem Trail.prefix_of_root (h : Trail env runner s names t)
    (h' : Trail env runner s names' u) (hroot : u.frame.template.template.parent = none) :
    names <+: names' := by
  rcases Nat.lt_or_ge names'.length names.length with hlt | hge
  · obtain ⟨name, v, hturn⟩ := h'.turn_of_lt h hlt
    exact absurd hroot hturn.extending
  · exact (h.linear h' hge).1

/-- A render whose chain cannot be resolved fails with that, and has written what the chain has. -/
theorem renderFrom_of_chain_error {t : LiveTemplate} {context : Context ω} {room : Option Nat}
    {requests : List String} {e : Failure}
    (h : (chain env (Render.runner env maxDepth)).run
      (Environment.startState t context room requests) = (.error e, u)) :
    env.renderFrom t (Environment.startState t context room requests) =
      ⟨.error e, u.output.written.reverse, u.requests.reverse⟩ := by
  have hrun : (renderTemplate env (Render.runner env maxDepth) t
      (Environment.startState t context room requests).frame.scope []).run
        (Environment.startState t context room requests) =
      (.error e, { u with frame := (Environment.startState t context room requests).frame }) := by
    rw [Relocation.run_renderTemplate]
    -- The frame of a start is the frame in which its template is rendered.
    exact congrArg (fun p : Except Failure Unit × RenderState ω => (p.1, { p.2 with
      frame := (Environment.startState t context room requests).frame })) (run_bind_error h _)
  rw [Environment.renderFrom, hrun]

theorem parse_extending :
    (match Template.parse "a" "\x7b% extends 'b' %\x7d" with
      | .ok ⟨name, some ⟨_, .string _ parent⟩, [], [], [], [], []⟩ =>
        decide (name = "a" ∧ parent = "b")
      | _ => false) = true := by
  decide +kernel

theorem parse_extending_itself :
    (match Template.parse "b" "\x7b% extends _self %\x7d" with
      | .ok ⟨name, some ⟨_, .name _ parent⟩, [], [], [], [], []⟩ =>
        decide (name = "b" ∧ parent = "_self")
      | _ => false) = true := by
  decide +kernel

end Render

end Stencil
