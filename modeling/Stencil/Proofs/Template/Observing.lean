import Stencil.Proofs.Template.Calls

/-!
Walks of visitors that change nothing.

Such a visitor only hears of the nodes.  Its walk gives the template back, and all that the visitor
learns is the calls of the template, in order: `walk_once_iff` says this of every such visitor, and
says when these calls enter and leave no node twice.  They do so exactly when no block that an
`embed` overrides has its slot in another definition that is visited, such as another block of the
same `embed`.
-/

namespace Stencil

/-- What is done about a definition, by its kind. -/
def Definition.elim {α : Type} (block macroDef : DefinitionId → α) : Definition → α
  | .block id => block id
  | .macroDef id => macroDef id

namespace Visitor

variable {σ α β : Type}

/-! ## §1. Hearing calls -/

/-- A visitor that gives every node back as it was. -/
structure ChangesNothing (v : Visitor σ) : Prop where
  enterTemplate : ∀ t s, ((v.enterTemplate t).run s).1 = t
  leaveTemplate : ∀ t s, ((v.leaveTemplate t).run s).1 = t
  enterBlock : ∀ b s, ((v.enterBlock b).run s).1 = b
  leaveBlock : ∀ b s, ((v.leaveBlock b).run s).1 = b
  enterStmt : ∀ stmt s, ((v.enterStmt stmt).run s).1 = stmt
  leaveStmt : ∀ stmt s, ((v.leaveStmt stmt).run s).1 = stmt
  enterExpr : ∀ e s, ((v.enterExpr e).run s).1 = e
  leaveExpr : ∀ e s, ((v.leaveExpr e).run s).1 = e

/-- The state of a visitor after a call. -/
def hear (v : Visitor σ) (s : σ) : Call → σ
  | .enter (.template t) => ((v.enterTemplate t).run s).2
  | .leave (.template t) => ((v.leaveTemplate t).run s).2
  | .enter (.block _ b) => ((v.enterBlock b).run s).2
  | .leave (.block _ b) => ((v.leaveBlock b).run s).2
  | .enter (.stmt _ _ stmt) => ((v.enterStmt stmt).run s).2
  | .leave (.stmt _ _ stmt) => ((v.leaveStmt stmt).run s).2
  | .enter (.expr _ _ e) => ((v.enterExpr e).run s).2
  | .leave (.expr _ _ e) => ((v.leaveExpr e).run s).2

/-- A part of the walk that makes certain calls and has a certain result, whatever the visitor has
heard before, and that leaves the definitions as they are. -/
def Plays (v : Visitor σ) (blocks : List Block) (macros : List MacroDef) (x : Walk σ α)
    (calls : List Call) (a : α) : Prop :=
  ∀ s, x.run ⟨s, blocks, macros⟩ = some (a, ⟨calls.foldl v.hear s, blocks, macros⟩)

namespace Plays

variable {v : Visitor σ} {blocks : List Block} {macros : List MacroDef} {calls more : List Call}
  {a : α} {b : β}

theorem pure (a : α) : v.Plays blocks macros (Pure.pure a) [] a :=
  fun _ => rfl

theorem bind {x : Walk σ α} {f : α → Walk σ β} (hx : v.Plays blocks macros x calls a)
    (hf : v.Plays blocks macros (f a) more b) :
    v.Plays blocks macros (x >>= f) (calls ++ more) b := by
  intro s
  rw [StateT.run_bind, hx s, List.foldl_append]
  exact hf _

theorem bindPure {x : Walk σ α} (hx : v.Plays blocks macros x calls a) (f : α → β) :
    v.Plays blocks macros (x >>= fun a => Pure.pure (f a)) calls (f a) := by
  have h := hx.bind (f := fun a => Pure.pure (f a)) (pure (f a))
  rwa [List.append_nil] at h

theorem of_eq {x : Walk σ α} (hx : v.Plays blocks macros x calls a) (h : more = calls) :
    v.Plays blocks macros x more a :=
  h ▸ hx

/-- A step of the visitor that gives back what it was given. -/
theorem step (call : Call) {f : StateM σ α} (hsame : ∀ s, (f.run s).1 = a)
    (hhear : ∀ s, v.hear s call = (f.run s).2) :
    v.Plays blocks macros (Visitor.step f) [call] a := by
  intro s
  show some ((f.run s).1, (⟨(f.run s).2, blocks, macros⟩ : WalkState σ)) = _
  rw [hsame, ← hhear]
  rfl

end Plays

/-! ## §2. Expressions and statements -/

section Nodes

variable {v : Visitor σ} {blocks : List Block} {macros : List MacroDef}
  {owner : Option Definition}

section Exprs

variable {f : Expr → Walk σ Expr}

theorem plays_mapM_exprs {es : List Expr}
    (h : ∀ e ∈ es, ∀ k, v.Plays blocks macros (f e) (e.calls owner k) e) (k : Nat) :
    v.Plays blocks macros (es.mapM f) (Expr.callsAll owner k es) es := by
  induction es generalizing k with
  | nil =>
    rw [Expr.callsAll]
    exact .pure []
  | cons e es ih =>
    obtain ⟨he, hes⟩ := List.forall_mem_cons.mp h
    rw [Expr.callsAll, List.mapM_cons]
    exact (he k).bind ((ih hes _).bindPure _)

theorem plays_entries {entries : List (Entry Expr)}
    (h : ∀ e ∈ entries.flatMap fun entry => [entry.key, entry.value],
      ∀ k, v.Plays blocks macros (f e) (e.calls owner k) e) (k : Nat) :
    v.Plays blocks macros (entries.mapM (Entry.traverse f))
      (Expr.callsAll owner k (entries.flatMap fun entry => [entry.key, entry.value])) entries := by
  induction entries generalizing k with
  | nil =>
    rw [List.flatMap_nil, Expr.callsAll]
    exact .pure []
  | cons entry entries ih =>
    obtain ⟨hkey, hrest⟩ := List.forall_mem_cons.mp h
    obtain ⟨hvalue, hentries⟩ := List.forall_mem_cons.mp hrest
    rw [List.flatMap_cons, List.cons_append, List.cons_append, List.nil_append, Expr.callsAll,
      Expr.callsAll, List.mapM_cons, ← List.append_assoc]
    exact ((hkey k).bind ((hvalue _).bindPure _)).bind ((ih hentries _).bindPure _)

/-- The parts of an expression are visited in order. -/
theorem plays_traverse_expr {e : Expr}
    (h : ∀ part ∈ e.parts, ∀ k, v.Plays blocks macros (f part) (part.calls owner k) part)
    (k : Nat) :
    v.Plays blocks macros (e.traverse f) (Expr.callsAll owner k e.parts) e := by
  cases e with
  | name | null | bool | number | string =>
    rw [Expr.parts, Expr.callsAll]
    exact .pure _
  | call pos word args | filter pos word args | array pos args =>
    exact (plays_mapM_exprs h k).bindPure _
  | test pos word subject args =>
    obtain ⟨hsubject, hargs⟩ := List.forall_mem_cons.mp h
    rw [Expr.parts, Expr.callsAll]
    exact (hsubject k).bind ((plays_mapM_exprs hargs _).bindPure _)
  | method pos object key args =>
    obtain ⟨hobject, hrest⟩ := List.forall_mem_cons.mp h
    obtain ⟨hkey, hargs⟩ := List.forall_mem_cons.mp hrest
    rw [Expr.parts, Expr.callsAll, Expr.callsAll]
    exact (hobject k).bind ((hkey _).bind ((plays_mapM_exprs hargs _).bindPure _))
  | hash pos entries => exact (plays_entries h k).bindPure _
  | unary pos op operand | group pos operand =>
    simp only [Expr.parts, List.forall_mem_cons] at h
    simp only [Expr.parts, Expr.callsAll]
    exact (h.1 k).bind (.pure _)
  | conditional pos cond whenTrue whenFalse =>
    simp only [Expr.parts, List.forall_mem_cons] at h
    simp only [Expr.parts, Expr.callsAll]
    exact (h.1 k).bind ((h.2.1 _).bind ((h.2.2.1 _).bind (.pure _)))
  | _ =>
    -- Two parts: an operator, or the attribute of an object.
    simp only [Expr.parts, List.forall_mem_cons] at h
    simp only [Expr.parts, Expr.callsAll]
    exact (h.1 k).bind ((h.2.1 _).bind (.pure _))

end Exprs

variable (hv : v.ChangesNothing)

include hv

theorem plays_walkExpr {n : Nat} {e : Expr} (h : e.size ≤ n) (k : Nat) :
    v.Plays blocks macros (v.walkExpr n e) (e.calls owner k) e := by
  -- The induction is on the depth that is allowed, which bounds the size of what is met there.
  induction n generalizing e k with
  | zero =>
    have := e.size_pos
    omega
  | succ n ih =>
    have hparts : ∀ part ∈ e.parts, ∀ k,
        v.Plays blocks macros (v.walkExpr n part) (part.calls owner k) part := by
      intro part hpart k
      have := Expr.size_lt_of_mem_parts hpart
      exact ih (by omega) k
    rw [Expr.calls]
    exact (Plays.step (.enter (.expr owner k e)) (hv.enterExpr e) fun _ => rfl).bind
      ((plays_traverse_expr hparts (k + 1)).bind
        (.step (.leave (.expr owner k e)) (hv.leaveExpr e) fun _ => rfl))

theorem plays_walkWhole (e : Expr) (k : Nat) :
    v.Plays blocks macros (v.walkWhole e) (e.calls owner k) e :=
  plays_walkExpr hv (by unfold reach; omega) k

theorem plays_exprs (es : List Expr) (k : Nat) :
    v.Plays blocks macros (es.mapM v.walkWhole) (Expr.callsAll owner k es) es :=
  plays_mapM_exprs (fun e _ k => plays_walkWhole hv e k) k

theorem plays_inclusion (i : Inclusion) (k : Nat) :
    v.Plays blocks macros (i.traverse v.walkWhole)
      (i.template.calls owner k ++
        Expr.callsAll owner (k + i.template.size) i.bindings.toList) i := by
  obtain ⟨pos, template, bindings, only, ignoreMissing⟩ := i
  cases bindings with
  | none =>
    simp only [Option.toList, Expr.callsAll]
    exact (plays_walkWhole hv template k).bind (.pure _)
  | some bindings =>
    have hbindings : ∀ k, v.Plays blocks macros (some <$> v.walkWhole bindings)
        (bindings.calls owner k) (some bindings) := fun k => by
      rw [← bind_pure_comp]
      exact (plays_walkWhole hv bindings k).bindPure some
    simp only [Option.toList, Expr.callsAll]
    exact (plays_walkWhole hv template k).bind ((hbindings _).bind (.pure _))

theorem plays_filters (filters : List FilterCall) (k : Nat) :
    v.Plays blocks macros (filters.mapM (FilterCall.traverse v.walkWhole))
      (Expr.callsAll owner k (filters.flatMap FilterCall.args)) filters := by
  induction filters generalizing k with
  | nil =>
    rw [List.flatMap_nil, Expr.callsAll]
    exact .pure []
  | cons filter filters ih =>
    rw [List.flatMap_cons, Expr.callsAll_append, List.mapM_cons]
    exact ((plays_exprs hv filter.args k).bindPure _).bind ((ih _).bindPure _)

theorem plays_params (params : List Param) (k : Nat) :
    v.Plays blocks macros (params.mapM (Param.traverse v.walkWhole))
      (Expr.callsAll owner k (params.filterMap Param.fallback)) params := by
  induction params generalizing k with
  | nil =>
    rw [List.filterMap_nil, Expr.callsAll]
    exact .pure []
  | cons param params ih =>
    obtain ⟨name, fallback⟩ := param
    rw [List.mapM_cons]
    cases fallback with
    | none =>
      exact (Plays.pure _).bind ((ih k).bindPure _)
    | some fallback =>
      have hcons : (⟨name, some fallback⟩ :: params).filterMap Param.fallback =
          fallback :: params.filterMap Param.fallback := rfl
      rw [hcons, Expr.callsAll]
      exact ((plays_walkWhole hv fallback k).bindPure _).bind ((ih _).bindPure _)

omit hv

section Stmts

variable {walk : Stmt → Walk σ Stmt} {block definition : DefinitionId → Walk σ Unit}
  {visit : Definition → List Call}

theorem plays_mapM_stmts {ss : List Stmt}
    (h : ∀ s ∈ ss, ∀ k, v.Plays blocks macros (walk s) (s.calls visit owner k) s) (k : Nat) :
    v.Plays blocks macros (ss.mapM walk) (Stmt.callsAll visit owner k ss) ss := by
  induction ss generalizing k with
  | nil =>
    rw [Stmt.callsAll]
    exact .pure []
  | cons s ss ih =>
    obtain ⟨hs, hss⟩ := List.forall_mem_cons.mp h
    rw [Stmt.callsAll, List.mapM_cons]
    exact (hs k).bind ((ih hss _).bindPure _)

theorem plays_blocks {ids : List DefinitionId}
    (h : ∀ id ∈ ids, v.Plays blocks macros (block id) (visit (.block id)) ⟨⟩) :
    v.Plays blocks macros (ids.forM block) ((ids.map .block).flatMap visit) ⟨⟩ := by
  induction ids with
  | nil => exact .pure _
  | cons id ids ih =>
    obtain ⟨hid, hids⟩ := List.forall_mem_cons.mp h
    exact hid.bind (ih hids)

/-- The parts of a statement are visited in order: its expressions, the statements inside it, and
the definitions that it mentions. -/
theorem plays_traverse_stmt (hv : v.ChangesNothing) {s : Stmt}
    (hstmt : ∀ c ∈ s.children, ∀ k, v.Plays blocks macros (walk c) (c.calls visit owner k) c)
    (hvisit : ∀ p ∈ s.mentionsHere, v.Plays blocks macros (p.elim block definition) (visit p) ⟨⟩)
    (k : Nat) :
    v.Plays blocks macros (s.traverse ⟨v.walkWhole, walk, block, definition⟩)
      (Expr.callsAll owner k s.exprs ++
        (Stmt.callsAll visit owner (k + Expr.sizes s.exprs) s.children ++
          s.mentionsHere.flatMap visit)) s := by
  have hwhole : ∀ e k, v.Plays blocks macros (v.walkWhole e) (e.calls owner k) e :=
    plays_walkWhole hv
  have hbody : ∀ body, (∀ c ∈ body, ∀ k, v.Plays blocks macros (walk c) (c.calls visit owner k) c) →
      ∀ k, v.Plays blocks macros (body.mapM walk) (Stmt.callsAll visit owner k body) body :=
    fun _ => plays_mapM_stmts
  cases s
  all_goals
    simp only [Stmt.exprs, Stmt.children, Stmt.mentionsHere, Stmt.places, Stmt.entries, Stmt.tables,
      Expr.callsAll, Stmt.callsAll, Stmt.callsAll_append, List.flatMap_nil, List.flatMap_cons,
      List.map_nil, List.append_nil, List.nil_append, List.forall_mem_append,
      List.forall_mem_singleton] at hstmt hvisit ⊢
  case text => exact .pure _
  case print e | perform e | importAll e _ | importSome e _ => exact (hwhole e k).bindPure _
  case reuses r => exact (hwhole r.template k).bindPure _
  case block id | defines id => exact hvisit.bindPure _
  case branch cond body orElse | loop cond body orElse =>
    exact (hwhole cond k).bind ((hbody body hstmt.1 _).bind ((hbody orElse hstmt.2 _).bindPure _))
  case includes i => exact (plays_inclusion hv i k).bindPure _
  case embeds i table =>
    have hblocks := plays_blocks fun id hid => hvisit (.block id) (List.mem_map_of_mem hid)
    exact (plays_inclusion hv i k).bind (hblocks.bindPure _)
  case assign values => exact (plays_exprs hv values k).bindPure _
  case capture body => exact (hbody body hstmt k).bindPure _
  case filtered filters body =>
    exact (plays_filters hv filters k).bind ((hbody body hstmt _).bindPure _)

end Stmts

/-! ## §3. Bodies and definitions -/

section Bodies

variable {block definition : DefinitionId → Walk σ Unit} {visit : Definition → List Call}

theorem plays_walkStmt (hv : v.ChangesNothing) {n : Nat} {s : Stmt} (hn : s.size ≤ n)
    (hvisit : ∀ p ∈ s.mentions, v.Plays blocks macros (p.elim block definition) (visit p) ⟨⟩)
    (k : Nat) :
    v.Plays blocks macros (v.walkStmt block definition n s) (s.calls visit owner k) s := by
  -- The induction is on the depth that is allowed, as for expressions.
  induction n generalizing s k with
  | zero =>
    have := s.size_pos
    omega
  | succ n ih =>
    rw [s.mentions_eq_children] at hvisit
    obtain ⟨hhere, hinside⟩ := List.forall_mem_append.mp hvisit
    have hchildren : ∀ c ∈ s.children, ∀ k,
        v.Plays blocks macros (v.walkStmt block definition n c) (c.calls visit owner k) c := by
      intro c hc k
      have hlt := s.sizes_lt_size
      have hle := Stmt.size_le_sizes hc
      exact ih (by omega) (fun p hp => hinside p (Stmt.mentions_subset hc hp)) k
    have hparts := plays_traverse_stmt hv hchildren hhere (k + 1)
    have hleave : v.Plays blocks macros (step (v.leaveStmt s)) [.leave (.stmt owner k s)] s :=
      .step _ (hv.leaveStmt s) fun _ => rfl
    rw [Stmt.calls]
    refine (Plays.step (.enter (.stmt owner k s)) (hv.enterStmt s) fun _ => rfl).bind ?_
    exact (hparts.bind hleave).of_eq (by simp)

/-- The statements of a body are visited in order. -/
theorem plays_walkBody (hv : v.ChangesNothing) {ss : List Stmt}
    (hvisit : ∀ p ∈ Stmt.mentionsAll ss,
      v.Plays blocks macros (p.elim block definition) (visit p) ⟨⟩) (k : Nat) :
    v.Plays blocks macros (v.walkBody block definition ss) (Stmt.callsAll visit owner k ss) ss := by
  refine plays_mapM_stmts (fun s hs k => ?_) k
  exact plays_walkStmt hv (by unfold reach; omega)
    (fun p hp => hvisit p (Stmt.mentions_subset hs hp)) k

variable {body : List Stmt → Walk σ (List Stmt)} {calls : List Call}

/-- The slot of a block is empty while its body is walked, and then as it was. -/
theorem plays_walkBlock (hv : v.ChangesNothing) {id : DefinitionId} {b : Block}
    (hfound : blocks[id]? = some b)
    (hbody : v.Plays (blocks.set id default) macros (body b.body) calls b.body) :
    v.Plays blocks macros (v.walkBlock body id)
      (.enter (.block id b) :: (calls ++ [.leave (.block id b)])) ⟨⟩ := by
  have hback : (blocks.set id default).set id b = blocks := by
    obtain ⟨hlt, rfl⟩ := List.getElem?_eq_some_iff.mp hfound
    rw [List.set_set, List.set_getElem_self]
  have henter : v.Plays (blocks.set id default) macros (step (v.enterBlock b))
      [.enter (.block id b)] b := .step _ (hv.enterBlock b) fun _ => rfl
  have hleave : v.Plays (blocks.set id default) macros (step (v.leaveBlock b))
      [.leave (.block id b)] b := .step _ (hv.leaveBlock b) fun _ => rfl
  intro s
  simp only [walkBlock, StateT.run_bind, StateT.run_get, StateT.run_modify, hfound, henter _,
    hbody _, hleave _, hback, Option.pure_def, Option.bind_eq_bind, Option.bind_some,
    List.foldl_cons, List.foldl_append, List.foldl_nil]

theorem plays_walkMacro (hv : v.ChangesNothing) {id : DefinitionId} {m : MacroDef}
    (hfound : macros[id]? = some m)
    (hbody : v.Plays blocks (macros.set id default) (body m.body) calls m.body) :
    v.Plays blocks macros (v.walkMacro body id)
      (Expr.callsAll (some (.macroDef id)) 0 m.fallbacks ++ calls) ⟨⟩ := by
  have hback : (macros.set id default).set id m = macros := by
    obtain ⟨hlt, rfl⟩ := List.getElem?_eq_some_iff.mp hfound
    rw [List.set_set, List.set_getElem_self]
  have hparams : v.Plays blocks (macros.set id default)
      (m.params.mapM (Param.traverse v.walkWhole))
      (Expr.callsAll (some (.macroDef id)) 0 m.fallbacks) m.params := plays_params hv m.params 0
  intro s
  simp only [walkMacro, StateT.run_bind, StateT.run_get, StateT.run_modify, hfound, hparams _,
    hbody _, hback, Option.pure_def, Option.bind_eq_bind, Option.bind_some, List.foldl_append]

end Bodies

end Nodes

/-! ## §4. Templates -/

section Templates

variable {v : Visitor σ} {t : Template} {blocks : List Block} {macros : List MacroDef}

/-- Where a definition of a template is what it was when the walk began. -/
def Untouched (t : Template) (blocks : List Block) (macros : List MacroDef) : Definition → Prop
  | .block id => blocks[id]? = t.blocks[id]?
  | .macroDef id => macros[id]? = t.macros[id]?

theorem untouched_set_block {id : DefinitionId} {p : Definition} (h : Untouched t blocks macros p)
    (hne : p ≠ .block id) : Untouched t (blocks.set id default) macros p := by
  cases p with
  | block other =>
    have hother : id ≠ other := fun heq => hne (heq ▸ rfl)
    exact (List.getElem?_set_ne hother).trans h
  | macroDef _ => exact h

theorem untouched_set_macro {id : DefinitionId} {p : Definition} (h : Untouched t blocks macros p)
    (hne : p ≠ .macroDef id) : Untouched t blocks (macros.set id default) p := by
  cases p with
  | block _ => exact h
  | macroDef other =>
    have hother : id ≠ other := fun heq => hne (heq ▸ rfl)
    exact (List.getElem?_set_ne hother).trans h

/-- Statements are walked with all that they lead to, as long as none of it is open already. -/
theorem plays_walkNested (hv : v.ChangesNothing) {rank : Definition → Nat} (hranks : t.Ranks rank)
    {d : Nat} {ss : List Stmt} (hd : ∀ p ∈ Stmt.mentionsAll ss, rank p < d)
    (hsame : ∀ p, t.graph.Reaches (Stmt.mentionsAll ss) p → Untouched t blocks macros p)
    (owner : Option Definition) (k : Nat) :
    v.Plays blocks macros (v.walkNested d ss) (Stmt.callsAll (t.callsAt d) owner k ss) ss := by
  -- The induction is on the levels that are left, which the ranks of what is mentioned bound.  A
  -- definition that is open leads to none that is open, so what it leads to is found untouched.
  induction d generalizing ss blocks macros owner k with
  | zero => exact plays_walkBody hv (fun p hp => absurd (hd p hp) (Nat.not_lt_zero _)) k
  | succ d ih =>
    refine plays_walkBody hv (fun p hp => ?_) k
    have hinside : ∀ body, t.graph.next p = Stmt.mentionsAll body →
        (∀ q ∈ Stmt.mentionsAll body, rank q < d) ∧
          ∀ q, t.graph.Reaches (Stmt.mentionsAll body) q →
            Untouched t blocks macros q ∧ q ≠ p := by
      intro body hnext
      rw [← hnext]
      refine ⟨fun q hq => ?_, fun q hq => ⟨hsame q ?_, fun heq => ?_⟩⟩
      · exact Nat.lt_of_lt_of_le (hranks.lt p q hq) (Nat.le_of_lt_succ (hd p hp))
      · exact hq.trans fun r hr => .next (.start hp) hr
      · exact Nat.lt_irrefl _ (heq ▸ hranks.lt_of_reaches hq)
    have hfound := hsame p (.start hp)
    cases p with
    | block id =>
      rw [Template.callsAt]
      cases hb : t.blockAt? id with
      | none =>
        intro s
        have hnone : blocks[id]? = none := hfound.trans hb
        simp [Definition.elim, walkBlock, hnone]
      | some b =>
        obtain ⟨hlevels, hslots⟩ := hinside b.body (by
          rw [Template.next_graph, Template.statementsAt_of_block hb])
        exact plays_walkBlock hv (hfound.trans hb) (ih hlevels
          (fun q hq => untouched_set_block (hslots q hq).1 (hslots q hq).2) _ _)
    | macroDef id =>
      rw [Template.callsAt]
      cases hm : t.macroAt? id with
      | none =>
        intro s
        have hnone : macros[id]? = none := hfound.trans hm
        simp [Definition.elim, walkMacro, hnone]
      | some m =>
        obtain ⟨hlevels, hslots⟩ := hinside m.body (by
          rw [Template.next_graph, Template.statementsAt_of_macroDef hm])
        exact plays_walkMacro hv (hfound.trans hm) (ih hlevels
          (fun q hq => untouched_set_macro (hslots q hq).1 (hslots q hq).2) _ _)

/-- A walk makes the calls of the template and gives the template back. -/
theorem walk_eq_of_parse (hv : v.ChangesNothing) {name source : String}
    (h : Template.parse name source = .ok t) (s : σ) :
    v.walk t s = some (t, t.calls.foldl v.hear s) := by
  obtain ⟨rank, hranks⟩ := Template.exists_ranks_of_parse h
  have hbody : v.Plays t.blocks t.macros (v.walkNested t.depth t.body)
      (Stmt.callsAll (t.callsAt t.depth) none 0 t.body) t.body :=
    plays_walkNested hv hranks (fun p _ => hranks.lt_depth p) (fun p _ => by cases p <;> rfl) none 0
  have henter : (v.enterTemplate t).run s = (t, v.hear s (.enter (.template t))) :=
    Prod.ext (hv.enterTemplate t s) rfl
  have hleave : ∀ s, (v.leaveTemplate t).run s = (t, v.hear s (.leave (.template t))) :=
    fun s => Prod.ext (hv.leaveTemplate t s) rfl
  have hwalk := hbody (v.hear s (.enter (.template t)))
  unfold Template.depth at hwalk
  simp only [walk, henter, hwalk, hleave, Option.bind_eq_bind, Option.bind_some]
  rw [Template.calls, List.foldl_cons, List.foldl_append]
  rfl

end Templates

/-- **What a walk meets twice.**  A visitor that changes nothing is called for the calls of the
template, and the template is given back.  These calls enter and leave no node twice exactly when
the walk meets no block both at its slot and in the table of an `embed`. -/
theorem walk_once_iff {name source : String} {t : Template}
    (h : Template.parse name source = .ok t) :
    (∀ {σ : Type} (v : Visitor σ), v.ChangesNothing →
      ∀ s, v.walk t s = some (t, t.calls.foldl v.hear s)) ∧
    ((Call.entered t.calls).Nodup ∧ (Call.left t.calls).Nodup ↔
      ∀ inclusion table, t.Meets (.embeds inclusion table) →
        ∀ id ∈ table.values, ∀ pos, ¬ t.Meets (.block pos id)) := by
  refine ⟨fun v hv s => walk_eq_of_parse hv h s, ?_⟩
  rw [← Template.nodup_entered_iff h, (Call.Balanced.template t).perm.nodup_iff, and_self]

/-- A block inside a block of an `embed` is visited where it is written, and once more with the
other blocks of the `embed`. -/
theorem not_once_of_nested_override :
    ∃ t, Template.parse "t" ("\x7b% embed 'e' %\x7d\x7b% block a %\x7d\x7b% block b %\x7d" ++
        "\x7b\x7b x \x7d\x7d\x7b% endblock %\x7d\x7b% endblock %\x7d\x7b% endembed %\x7d") = .ok t ∧
      ¬ ((Call.entered t.calls).Nodup ∧ (Call.left t.calls).Nodup) := by
  let source := "\x7b% embed 'e' %\x7d\x7b% block a %\x7d\x7b% block b %\x7d" ++
    "\x7b\x7b x \x7d\x7d\x7b% endblock %\x7d\x7b% endblock %\x7d\x7b% endembed %\x7d"
  let entries : Stmt → List DefinitionId := Stmt.entries
  let places : Stmt → List Definition := Stmt.places
  let shape (t : Template) : List (List DefinitionId) × List (List Definition) :=
    (t.body.map entries, (t.statementsAt (.block 1)).map places)
  -- The outer block is the second one, because it ends after the inner one.
  have hshape : (Template.parse "t" source).toOption.map shape = some ([[1, 0]], [[.block 0]]) := by
    decide +kernel
  cases h : Template.parse "t" source with
  | error e =>
    rw [h] at hshape
    cases hshape
  | ok t =>
    rw [h] at hshape
    obtain ⟨⟨s, hbody, hentries⟩, outer, houter, hplaces⟩ :
        (∃ s, t.body = [s] ∧ s.entries = [1, 0]) ∧
          ∃ s, t.statementsAt (.block 1) = [s] ∧ s.places = [.block 0] := by
      simpa [Except.toOption, shape, entries, places, List.map_eq_singleton_iff] using hshape
    refine ⟨t, rfl, fun honce => ?_⟩
    obtain ⟨inclusion, table, rfl, hone⟩ := Stmt.mem_entries.mp
      (hentries ▸ List.mem_cons_self : 1 ∈ s.entries)
    have hzero : 0 ∈ table.values := by
      have : 0 ∈ (Stmt.embeds inclusion table).entries := by simp [hentries]
      simpa [Stmt.entries, Stmt.tables] using this
    obtain ⟨pos, rfl⟩ := Stmt.mem_places_block.mp
      (hplaces ▸ List.mem_cons_self : .block 0 ∈ outer.places)
    have hembed : t.Meets (.embeds inclusion table) := .inl (by simp [hbody])
    have hslot : t.Meets (.block pos 0) := by
      refine .inr ⟨.block 1, .start ?_, by simp [houter]⟩
      rw [hbody, Stmt.mentionsAll_singleton]
      exact List.mem_map_of_mem hone
    exact (walk_once_iff h).2.mp honce inclusion table hembed 0 hzero pos hslot

/-! ## §5. The tracer -/

end Visitor

/-- A call as a record shows it. -/
def Node.label : Node → NodeLabel
  | .template t => .template t.name
  | .block _ b => .block b.name
  | .stmt _ _ s => .stmt s.pos
  | .expr _ _ e => .expr e.pos

def Call.event : Call → WalkEvent
  | .enter node => .enter node.label
  | .leave node => .leave node.label

theorem WalkEvent.tracer_changesNothing : tracer.ChangesNothing :=
  ⟨fun _ _ => rfl, fun _ _ => rfl, fun _ _ => rfl, fun _ _ => rfl, fun _ _ => rfl,
    fun _ _ => rfl, fun _ _ => rfl, fun _ _ => rfl⟩

/-- The tracer records the calls of a template. -/
theorem WalkEvent.ofTemplate_eq {name source : String} {t : Template}
    (h : Template.parse name source = .ok t) :
    WalkEvent.ofTemplate t = some (t.calls.map Call.event) := by
  have hhear : tracer.hear = fun events call => call.event :: events := by
    funext events call
    rcases call with node | node <;> cases node <;> rfl
  have hfold : ∀ (calls : List Call) (events : List WalkEvent),
      calls.foldl (fun events call => call.event :: events) events =
        (calls.map Call.event).reverse ++ events := by
    intro calls
    induction calls with
    | nil => simp
    | cons call calls ih => simp [ih]
  rw [ofTemplate, Visitor.walk_eq_of_parse tracer_changesNothing h, hhear, hfold]
  simp

end Stencil
