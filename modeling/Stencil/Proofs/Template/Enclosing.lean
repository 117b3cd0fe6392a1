import Mathlib.Logic.Relation
import Stencil.Proofs.Template.Observing

/-!
How the calls of a walk nest.

A node holds the nodes that a walk goes down to from it: the parts of an expression, the expressions
and the statements inside a statement, and what is written in the definitions that it mentions.
`Walks` is a walk as this relation alone has it: a node is entered, what it holds is walked, and the
node is left.  It knows of no slots that are emptied and filled again, and of no depth to stop at.

The calls of a parsed template are such a walk.  So every leave closes the last enter that is open,
and between the two stand the calls for all that the node encloses, and no others.
-/

namespace Stencil

/-! ## §1. What a node holds -/

namespace Node

/-- Expressions as nodes that are numbered one after the other. -/
def ofExprs (owner : Option Definition) (n : Nat) : List Expr → List Node
  | [] => []
  | e :: es => .expr owner n e :: ofExprs owner (n + e.size) es

/-- Statements as nodes that are numbered one after the other. -/
def ofStmts (owner : Option Definition) (n : Nat) : List Stmt → List Node
  | [] => []
  | s :: ss => .stmt owner n s :: ofStmts owner (n + s.size) ss

end Node

namespace Template

/-- The nodes that the mention of a definition leads to: a block is a node itself, while of a macro
there are only the default values of its parameters and its statements. -/
def nodesAt (t : Template) : Definition → List Node
  | .block id =>
    match t.blockAt? id with
    | none => []
    | some b => [.block id b]
  | .macroDef id =>
    match t.macroAt? id with
    | none => []
    | some m =>
      Node.ofExprs (some (.macroDef id)) 0 m.fallbacks ++
        Node.ofStmts (some (.macroDef id)) (Expr.sizes m.fallbacks) m.body

/-- The nodes directly inside a node, in the order in which they are visited. -/
def held (t : Template) : Node → List Node
  | .template t' => Node.ofStmts none 0 t'.body
  | .block id b => Node.ofStmts (some (.block id)) 0 b.body
  | .stmt owner n s =>
    Node.ofExprs owner (n + 1) s.exprs ++
      (Node.ofStmts owner (n + 1 + Expr.sizes s.exprs) s.children ++
        s.mentionsHere.flatMap t.nodesAt)
  | .expr owner n e => Node.ofExprs owner (n + 1) e.parts

/-- Whether a node is directly inside another one. -/
def Holds (t : Template) (outer inner : Node) : Prop :=
  inner ∈ t.held outer

/-- Whether a node is inside another one, at any depth. -/
def Encloses (t : Template) : Node → Node → Prop :=
  Relation.TransGen t.Holds

/-! ## §2. Walks -/

/-- Calls that go over nodes one after the other: each node is entered, then what it holds is gone
over, then the node is left. -/
inductive Walks (t : Template) : List Node → List Call → Prop
  | nil : Walks t [] []
  | cons {node : Node} {nodes : List Node} {inside rest : List Call} :
    Walks t (t.held node) inside → Walks t nodes rest →
      Walks t (node :: nodes) (.enter node :: (inside ++ .leave node :: rest))

namespace Walks

variable {t : Template} {nodes more : List Node} {calls rest inside : List Call} {node inner : Node}

theorem append (h : t.Walks nodes calls) (hmore : t.Walks more rest) :
    t.Walks (nodes ++ more) (calls ++ rest) := by
  induction h with
  | nil => exact hmore
  | cons hinside _ _ ih =>
    rw [List.cons_append, List.cons_append, List.append_assoc, List.cons_append]
    exact .cons hinside ih

theorem flatMap {ps : List Definition} {nodes : Definition → List Node}
    {calls : Definition → List Call} (h : ∀ p ∈ ps, t.Walks (nodes p) (calls p)) :
    t.Walks (ps.flatMap nodes) (ps.flatMap calls) := by
  induction ps with
  | nil => exact .nil
  | cons p ps ih =>
    obtain ⟨hp, hps⟩ := List.forall_mem_cons.mp h
    exact hp.append (ih hps)

theorem balanced (h : t.Walks nodes calls) : Call.Balanced calls := by
  induction h with
  | nil => exact .nil
  | @cons node _ _ _ _ _ ihinside ihrest =>
    have hnode := (Call.Balanced.node node ihinside).append ihrest
    rwa [List.cons_append, List.append_assoc] at hnode

/-- A walk enters the nodes that it goes over, and all that they enclose. -/
theorem mem_entered_iff (h : t.Walks nodes calls) :
    inner ∈ Call.entered calls ↔ ∃ node ∈ nodes, Relation.ReflTransGen t.Holds node inner := by
  induction h with
  | nil => simp
  | @cons node nodes inside rest _ _ ihinside ihrest =>
    -- What the first node leads to is the node itself, or what the nodes that it holds lead to.
    have hnode : Relation.ReflTransGen t.Holds node inner ↔
        inner = node ∨ inner ∈ Call.entered inside := by
      rw [Relation.ReflTransGen.cases_head_iff, ihinside, eq_comm]
      rfl
    simp only [Call.entered_enter, Call.entered_append, Call.entered_leave, List.mem_cons,
      List.mem_append, exists_eq_or_imp, hnode, ihrest, or_assoc]

/-- The walk over what a node holds enters and leaves all that the node encloses. -/
theorem mem_iff_encloses (h : t.Walks (t.held node) inside) :
    (.enter inner ∈ inside ↔ t.Encloses node inner) ∧
      (.leave inner ∈ inside ↔ t.Encloses node inner) := by
  have hencloses : t.Encloses node inner ↔
      ∃ child ∈ t.held node, Relation.ReflTransGen t.Holds child inner :=
    Relation.TransGen.head'_iff
  have hentered := h.mem_entered_iff.trans hencloses.symm
  rw [← Call.mem_entered, ← Call.mem_left, h.balanced.perm.mem_iff]
  exact ⟨hentered, hentered⟩

end Walks

/-! ## §3. Calls and their counterparts -/

/-- Of two items that are picked from a list, one comes before the other, or both are the same. -/
theorem append_cons_eq_append_cons {α : Type} {as bs cs ds : List α} {a b : α}
    (h : as ++ a :: bs = cs ++ b :: ds) :
    (∃ between, as = cs ++ b :: between ∧ ds = between ++ a :: bs) ∨
      (as = cs ∧ a = b ∧ bs = ds) ∨
        ∃ between, cs = as ++ a :: between ∧ bs = between ++ b :: ds := by
  rcases List.append_eq_append_iff.mp h with ⟨between, rfl, hrest⟩ | ⟨between, rfl, hrest⟩
  · rcases List.cons_eq_append_iff.mp hrest with ⟨rfl, heq⟩ | ⟨between, rfl, rfl⟩
    · cases heq
      exact .inr (.inl ⟨(List.append_nil as).symm, rfl, rfl⟩)
    · exact .inr (.inr ⟨between, rfl, rfl⟩)
  · rcases List.cons_eq_append_iff.mp hrest with ⟨rfl, heq⟩ | ⟨between, rfl, rfl⟩
    · cases heq
      exact .inr (.inl ⟨List.append_nil cs, rfl, rfl⟩)
    · exact .inl ⟨between, rfl, rfl⟩

/-- How a call stands among those before it and those after it: between the call and its
counterpart, what the node holds is gone over. -/
inductive Matched (t : Template) : List Call → Call → List Call → Prop
  | enter {node : Node} {inside : List Call} (before rest : List Call) :
    t.Walks (t.held node) inside → Matched t before (.enter node) (inside ++ .leave node :: rest)
  | leave {node : Node} {inside : List Call} (earlier after : List Call) :
    t.Walks (t.held node) inside → Matched t (earlier ++ .enter node :: inside) (.leave node) after

section Matched

variable {t : Template} {before after : List Call} {call : Call}

theorem Matched.within (h : t.Matched before call after) (front back : List Call) :
    t.Matched (front ++ before) call (after ++ back) := by
  cases h with
  | enter before rest hinside =>
    rw [List.append_assoc, List.cons_append]
    exact .enter (front ++ before) (rest ++ back) hinside
  | leave earlier after hinside =>
    rw [← List.append_assoc]
    exact .leave (front ++ earlier) (after ++ back) hinside

/-- Every call of a walk has its counterpart. -/
theorem Walks.matched {nodes : List Node} {calls : List Call} (h : t.Walks nodes calls)
    (heq : calls = before ++ call :: after) : t.Matched before call after := by
  induction h generalizing before after with
  | nil => cases before <;> cases heq
  | @cons node nodes inside rest hinside _ ihinside ihrest =>
    -- The call enters the first node, or is made inside of it, or leaves it, or comes later.
    rcases List.cons_eq_append_iff.mp heq with ⟨rfl, hfirst⟩ | ⟨before, rfl, hmore⟩
    · cases hfirst
      exact .enter [] rest hinside
    rcases append_cons_eq_append_cons hmore with ⟨between, hin, rfl⟩ | ⟨rfl, rfl, rfl⟩ |
      ⟨between, rfl, hlater⟩
    · exact (ihinside hin).within [.enter node] (.leave node :: rest)
    · exact .leave [] rest hinside
    · have hcall := (ihrest hlater).within (.enter node :: (inside ++ [.leave node])) []
      simpa using hcall

end Matched

/-- Calls that nest as the nodes of a template do. -/
structure Nests (t : Template) (calls : List Call) : Prop where
  /-- The first call and the last one are those for the template, and they belong together. -/
  outermost : ∃ inside, calls = .enter (.template t) :: (inside ++ [.leave (.template t)]) ∧
    Call.Balanced inside
  /-- A leave closes the last enter that is open: what is entered after it is left already. -/
  closes : ∀ {before after : List Call} {node : Node}, calls = before ++ .leave node :: after →
    ∃ earlier inside, before = earlier ++ .enter node :: inside ∧ Call.Balanced inside
  /-- Between the calls for a node, what it holds is walked: all that it encloses is entered and
  left there, and nothing else. -/
  encloses : ∀ {before after : List Call} {node : Node}, calls = before ++ .enter node :: after →
    ∃ inside rest, after = inside ++ .leave node :: rest ∧ t.Walks (t.held node) inside ∧
      ∀ inner, (.enter inner ∈ inside ↔ t.Encloses node inner) ∧
        (.leave inner ∈ inside ↔ t.Encloses node inner)

/-! ## §4. The calls of a template -/

section Calls

variable {t : Template}

/-- A walk over a template nests. -/
theorem Walks.nests {inside : List Call} (h : t.Walks (t.held (.template t)) inside) :
    t.Nests (.enter (.template t) :: (inside ++ [.leave (.template t)])) := by
  have hwhole : t.Walks [.template t]
      (.enter (.template t) :: (inside ++ [.leave (.template t)])) := .cons h .nil
  refine ⟨⟨inside, rfl, h.balanced⟩, fun heq => ?_, fun heq => ?_⟩
  · cases hwhole.matched heq with
    | leave earlier _ hinside => exact ⟨earlier, _, rfl, hinside.balanced⟩
  · cases hwhole.matched heq with
    | enter _ rest hinside => exact ⟨_, rest, rfl, hinside, fun _ => hinside.mem_iff_encloses⟩

theorem walks_exprs (t : Template) (owner : Option Definition) (n : Nat) (es : List Expr) :
    t.Walks (Node.ofExprs owner n es) (Expr.callsAll owner n es) := by
  cases es with
  | nil =>
    rw [Node.ofExprs, Expr.callsAll]
    exact .nil
  | cons e es =>
    rw [Node.ofExprs, Expr.callsAll, Expr.calls, List.cons_append, List.append_assoc]
    exact .cons (walks_exprs t owner (n + 1) e.parts) (walks_exprs t owner (n + e.size) es)
termination_by Expr.sizes es
decreasing_by all_goals
  have := e.size_eq_sizes_parts
  simp only [Expr.sizes]
  omega

/-- The calls for statements go over them, if those for the definitions they mention do so. -/
theorem walks_stmts {visit : Definition → List Call} (owner : Option Definition) (n : Nat) :
    ∀ ss : List Stmt, (∀ p ∈ Stmt.mentionsAll ss, t.Walks (t.nodesAt p) (visit p)) →
      t.Walks (Node.ofStmts owner n ss) (Stmt.callsAll visit owner n ss)
  | [], _ => by
    rw [Node.ofStmts, Stmt.callsAll]
    exact .nil
  | s :: ss, h => by
    rw [Stmt.mentionsAll, s.mentions_eq_children] at h
    obtain ⟨hs, hss⟩ := List.forall_mem_append.mp h
    obtain ⟨hhere, hchildren⟩ := List.forall_mem_append.mp hs
    -- Inside a statement come its expressions, then its statements, then what it mentions.
    have hinside := (walks_exprs t owner (n + 1) s.exprs).append
      ((walks_stmts owner (n + 1 + Expr.sizes s.exprs) s.children hchildren).append
        (Walks.flatMap hhere))
    have hwalk : t.Walks (.stmt owner n s :: Node.ofStmts owner (n + s.size) ss) _ :=
      .cons hinside (walks_stmts owner (n + s.size) ss hss)
    rw [Node.ofStmts, Stmt.callsAll, Stmt.calls]
    simpa using hwalk
termination_by ss => Stmt.sizes ss
decreasing_by all_goals
  have := s.sizes_lt_size
  simp only [Stmt.sizes]
  omega

/-- The calls for a definition go over its nodes, if there are levels enough for its rank. -/
theorem Ranks.walks_callsAt {rank : Definition → Nat} (h : t.Ranks rank) {d : Nat} {p : Definition}
    (hp : rank p < d) : t.Walks (t.nodesAt p) (t.callsAt d p) := by
  -- The induction is on the levels: what a body mentions has a smaller rank than its definition.
  induction d generalizing p with
  | zero => exact absurd hp (Nat.not_lt_zero _)
  | succ d ih =>
    have hbody : ∀ q ∈ Stmt.mentionsAll (t.statementsAt p),
        t.Walks (t.nodesAt q) (t.callsAt d q) := by
      rw [← next_graph]
      intro q hq
      exact ih (Nat.lt_of_lt_of_le (h.lt p q hq) (Nat.le_of_lt_succ hp))
    cases p with
    | block id =>
      rw [nodesAt, callsAt]
      cases hb : t.blockAt? id with
      | none => exact .nil
      | some b =>
        rw [statementsAt_of_block hb] at hbody
        exact .cons (walks_stmts (some (.block id)) 0 b.body hbody) .nil
    | macroDef id =>
      rw [nodesAt, callsAt]
      cases hm : t.macroAt? id with
      | none => exact .nil
      | some m =>
        rw [statementsAt_of_macroDef hm] at hbody
        exact (walks_exprs t _ 0 m.fallbacks).append (walks_stmts _ _ m.body hbody)

theorem nests_of_parse {name source : String} (h : Template.parse name source = .ok t) :
    t.Nests t.calls := by
  obtain ⟨rank, hranks⟩ := exists_ranks_of_parse h
  have hbody : t.Walks (t.held (.template t)) (Stmt.callsAll (t.callsAt t.depth) none 0 t.body) :=
    walks_stmts none 0 t.body fun p _ => hranks.walks_callsAt (hranks.lt_depth p)
  exact hbody.nests

end Calls

end Template

/-! ## §5. Walks of visitors -/

namespace Visitor

/-- **A walk leaves no trace and nests.**  The walk of a visitor that changes nothing gives a parsed
template back, with every definition in its slot.  What the visitor hears begins and ends with the
template; every leave closes the last enter that is open, which is one of the same node; and between
the calls for a node stand those for all that it encloses. -/
theorem walk_restores_and_nests {σ : Type} {v : Visitor σ} (hv : v.ChangesNothing)
    {name source : String} {t : Template} (h : Template.parse name source = .ok t) (s : σ) :
    v.walk t s = some (t, t.calls.foldl v.hear s) ∧ t.Nests t.calls :=
  ⟨walk_eq_of_parse hv h s, Template.nests_of_parse h⟩

/-- A block inside a block of an `embed` is visited twice, inside the outer one and after it.  A
macro has no calls of its own, so its default value stands between those for its place. -/
theorem walk_restores_and_nests_override :
    let source := "\x7b% macro m(x = y) %\x7d\x7b% endmacro %\x7d\x7b% embed 'e' %\x7d" ++
      "\x7b% block a %\x7d\x7b% block b %\x7dz\x7b% endblock %\x7d\x7b% endblock %\x7d" ++
      "\x7b% endembed %\x7d"
    let around (node : NodeLabel) (inside : List WalkEvent) : List WalkEvent :=
      .enter node :: (inside ++ [.leave node])
    let place := around (.stmt ⟨1, 1⟩) (around (.expr ⟨1, 16⟩) [])
    let inner := around (.block "b") (around (.stmt ⟨1, 76⟩) [])
    let outer := around (.block "a") (around (.stmt ⟨1, 63⟩) inner)
    let embed := around (.stmt ⟨1, 35⟩) (around (.expr ⟨1, 44⟩) [] ++ outer ++ inner)
    ∃ t, Template.parse "t" source = .ok t ∧ WalkEvent.tracer.ChangesNothing ∧
      WalkEvent.tracer.walk t [] = some (t, t.calls.foldl WalkEvent.tracer.hear []) ∧
      t.Nests t.calls ∧ t.calls.map Call.event = around (.template "t") (place ++ embed) := by
  intro source around place inner outer embed
  have hevents : (Template.parse "t" source).toOption.bind WalkEvent.ofTemplate =
      some (around (.template "t") (place ++ embed)) := by
    decide +kernel
  cases h : Template.parse "t" source with
  | error e =>
    rw [h] at hevents
    cases hevents
  | ok t =>
    have hnothing := WalkEvent.tracer_changesNothing
    obtain ⟨hwalk, hnests⟩ := walk_restores_and_nests hnothing h []
    rw [h] at hevents
    have hcalls := (WalkEvent.ofTemplate_eq h).symm.trans hevents
    exact ⟨t, rfl, hnothing, hwalk, hnests, Option.some.inj hcalls⟩

end Visitor

end Stencil
