import Stencil.Proofs.Template.Tour
import Stencil.Proofs.Template.Traversal
import Stencil.Template.Trace

/-!
The calls of a walk.

A visitor is called for a node when the node is entered and when it is left.  Which node a call is
about is more than what the visitor is shown, since nodes may look alike: statements and expressions
are numbered within the body that they are written in.  A node has a smaller number than those
inside it and those after it, so no number is given twice, and a node is met twice only where a
definition is visited twice.
-/

namespace Stencil

/-! ## §1. Nodes and calls -/

/-- A node of a template, with what it is that a visitor sees there.  A statement or an expression
belongs to the template or to the definition in which it is written, and has a number there. -/
inductive Node
  | template (t : Template)
  | block (id : DefinitionId) (b : Block)
  | stmt (owner : Option Definition) (number : Nat) (s : Stmt)
  | expr (owner : Option Definition) (number : Nat) (e : Expr)

/-- A call of a visitor. -/
inductive Call
  | enter (node : Node)
  | leave (node : Node)

namespace Call

/-- The node that a call enters. -/
def entered? : Call → Option Node
  | .enter node => some node
  | .leave _ => none

/-- The node that a call leaves. -/
def left? : Call → Option Node
  | .enter _ => none
  | .leave node => some node

/-- The nodes that are entered, in order. -/
def entered (calls : List Call) : List Node :=
  calls.filterMap entered?

/-- The nodes that are left, in order. -/
def left (calls : List Call) : List Node :=
  calls.filterMap left?

theorem mem_entered {calls : List Call} {node : Node} :
    node ∈ entered calls ↔ .enter node ∈ calls := by
  refine List.mem_filterMap.trans ⟨?_, fun h => ⟨_, h, rfl⟩⟩
  rintro ⟨call, hcall, hnode⟩
  cases call <;> cases hnode
  exact hcall

theorem mem_left {calls : List Call} {node : Node} :
    node ∈ left calls ↔ .leave node ∈ calls := by
  refine List.mem_filterMap.trans ⟨?_, fun h => ⟨_, h, rfl⟩⟩
  rintro ⟨call, hcall, hnode⟩
  cases call <;> cases hnode
  exact hcall

@[simp] theorem entered_nil : entered [] = [] := rfl

@[simp] theorem entered_enter (node : Node) (calls : List Call) :
    entered (.enter node :: calls) = node :: entered calls := rfl

@[simp] theorem entered_leave (node : Node) (calls : List Call) :
    entered (.leave node :: calls) = entered calls := rfl

@[simp] theorem entered_append (calls more : List Call) :
    entered (calls ++ more) = entered calls ++ entered more :=
  List.filterMap_append

@[simp] theorem entered_flatMap {α : Type} (as : List α) (calls : α → List Call) :
    entered (as.flatMap calls) = as.flatMap fun a => entered (calls a) :=
  List.filterMap_flatMap

@[simp] theorem left_enter (node : Node) (calls : List Call) :
    left (.enter node :: calls) = left calls := rfl

@[simp] theorem left_leave (node : Node) (calls : List Call) :
    left (.leave node :: calls) = node :: left calls := rfl

@[simp] theorem left_append (calls more : List Call) :
    left (calls ++ more) = left calls ++ left more :=
  List.filterMap_append

end Call

/-- The statements directly inside a statement, in order. -/
def Stmt.children : Stmt → List Stmt
  | .branch _ _ body orElse | .loop _ _ _ _ body orElse => body ++ orElse
  | .capture _ _ body | .filtered _ _ body => body
  | .text .. | .print .. | .block .. | .includes _ | .embeds .. | .reuses _ | .assign ..
  | .perform .. | .defines .. | .importAll .. | .importSome .. => []

theorem Stmt.mentions_eq_children (s : Stmt) :
    s.mentions = s.mentionsHere ++ Stmt.mentionsAll s.children := by
  rw [Stmt.mentions_eq_flatMap, Stmt.mentionsAll_eq_flatMap]
  cases s <;> simp [Stmt.inside, Stmt.children]

/-- The default values of the parameters of a macro, in order. -/
def MacroDef.fallbacks (m : MacroDef) : List Expr :=
  m.params.filterMap Param.fallback

theorem Expr.size_pos (e : Expr) : 0 < e.size := by
  rw [e.size_eq_sizes_parts]
  exact Nat.succ_pos _

theorem Expr.sizes_append (es more : List Expr) : sizes (es ++ more) = sizes es + sizes more := by
  induction es with
  | nil => simp [sizes]
  | cons e es ih =>
    simp only [List.cons_append, sizes, ih]
    omega

theorem Stmt.sizes_append (ss more : List Stmt) :
    Stmt.sizes (ss ++ more) = Stmt.sizes ss + Stmt.sizes more := by
  induction ss with
  | nil => simp [Stmt.sizes]
  | cons s ss ih =>
    simp only [List.cons_append, Stmt.sizes, ih]
    omega

theorem Stmt.size_le_sizes {s : Stmt} {ss : List Stmt} (h : s ∈ ss) : s.size ≤ Stmt.sizes ss := by
  obtain ⟨before, after, rfl⟩ := List.append_of_mem h
  simp only [Stmt.sizes_append, Stmt.sizes]
  omega

theorem Stmt.mentions_subset {s : Stmt} {ss : List Stmt} (h : s ∈ ss) :
    s.mentions ⊆ Stmt.mentionsAll ss := by
  obtain ⟨before, after, rfl⟩ := List.append_of_mem h
  simp [Stmt.mentionsAll_append, Stmt.mentionsAll]

theorem FilterCall.sizes_args_le (filters : List FilterCall) :
    Expr.sizes (filters.flatMap FilterCall.args) ≤
      total (fun f => 1 + Expr.sizes f.args) filters := by
  induction filters with
  | nil => simp [Expr.sizes, total]
  | cons filter filters ih =>
    simp only [List.flatMap_cons, Expr.sizes_append, total, List.foldr_cons] at ih ⊢
    omega

/-- A statement is larger than all that is directly inside it. -/
theorem Stmt.sizes_lt_size (s : Stmt) :
    Expr.sizes s.exprs + Stmt.sizes s.children < s.size := by
  cases s with
  | filtered pos filters body =>
    have := FilterCall.sizes_args_le filters
    simp only [exprs, children, size]
    omega
  | includes i | embeds i _ =>
    obtain ⟨_, _, bindings, _, _⟩ := i
    cases bindings <;>
      simp only [exprs, children, size, Inclusion.size, Option.toList, Expr.sizes, Stmt.sizes,
        Option.map, Option.getD] <;>
      omega
  | _ =>
    simp only [exprs, children, size, Expr.sizes, Stmt.sizes, Stmt.sizes_append]
    omega

mutual

/-- The calls for an expression with a number. -/
def Expr.calls (owner : Option Definition) (n : Nat) (e : Expr) : List Call :=
  .enter (.expr owner n e) ::
    (Expr.callsAll owner (n + 1) e.parts ++ [.leave (.expr owner n e)])
termination_by 2 * e.size
decreasing_by
  have := e.size_eq_sizes_parts
  omega

/-- The calls for expressions that are numbered one after the other. -/
def Expr.callsAll (owner : Option Definition) (n : Nat) : List Expr → List Call
  | [] => []
  | e :: es => e.calls owner n ++ Expr.callsAll owner (n + e.size) es
termination_by es => 2 * Expr.sizes es + 1
decreasing_by all_goals
  have := e.size_pos
  simp only [Expr.sizes]
  omega

end

theorem Expr.callsAll_append (owner : Option Definition) (n : Nat) (es more : List Expr) :
    Expr.callsAll owner n (es ++ more) =
      Expr.callsAll owner n es ++ Expr.callsAll owner (n + Expr.sizes es) more := by
  induction es generalizing n with
  | nil => simp [callsAll, sizes]
  | cons e es ih => simp [callsAll, sizes, ih, Nat.add_assoc]

mutual

/-- The calls for a statement with a number; those for the definitions that it mentions are
given. -/
def Stmt.calls (visit : Definition → List Call) (owner : Option Definition) (n : Nat) (s : Stmt) :
    List Call :=
  .enter (.stmt owner n s) ::
    (Expr.callsAll owner (n + 1) s.exprs ++
      (Stmt.callsAll visit owner (n + 1 + Expr.sizes s.exprs) s.children ++
        (s.mentionsHere.flatMap visit ++ [.leave (.stmt owner n s)])))
termination_by 2 * s.size
decreasing_by
  have := s.sizes_lt_size
  omega

/-- The calls for statements that are numbered one after the other. -/
def Stmt.callsAll (visit : Definition → List Call) (owner : Option Definition) (n : Nat) :
    List Stmt → List Call
  | [] => []
  | s :: ss => s.calls visit owner n ++ Stmt.callsAll visit owner (n + s.size) ss
termination_by ss => 2 * Stmt.sizes ss + 1
decreasing_by all_goals
  have := s.size_pos
  simp only [Stmt.sizes]
  omega

end

theorem Stmt.callsAll_append (visit : Definition → List Call) (owner : Option Definition) (n : Nat)
    (ss more : List Stmt) :
    Stmt.callsAll visit owner n (ss ++ more) =
      Stmt.callsAll visit owner n ss ++ Stmt.callsAll visit owner (n + Stmt.sizes ss) more := by
  induction ss generalizing n with
  | nil => simp [callsAll, sizes]
  | cons s ss ih => simp [callsAll, sizes, ih, Nat.add_assoc]

namespace Template

/-- The calls for a definition, nested down to a depth. -/
def callsAt (t : Template) : Nat → Definition → List Call
  | 0, _ => []
  | d + 1, .block id =>
    match t.blockAt? id with
    | none => []
    | some b =>
      .enter (.block id b) ::
        (Stmt.callsAll (t.callsAt d) (some (.block id)) 0 b.body ++ [.leave (.block id b)])
  | d + 1, .macroDef id =>
    match t.macroAt? id with
    | none => []
    | some m =>
      Expr.callsAll (some (.macroDef id)) 0 m.fallbacks ++
        Stmt.callsAll (t.callsAt d) (some (.macroDef id)) (Expr.sizes m.fallbacks) m.body

/-- The calls for a template. -/
def calls (t : Template) : List Call :=
  .enter (.template t) ::
    (Stmt.callsAll (t.callsAt t.depth) none 0 t.body ++ [.leave (.template t)])

end Template

/-! ## §2. Calls come in pairs -/

/-- Calls that leave what they enter, the inner nodes first. -/
inductive Call.Balanced : List Call → Prop
  | nil : Balanced []
  | append {calls more : List Call} : Balanced calls → Balanced more → Balanced (calls ++ more)
  | node (node : Node) {calls : List Call} :
    Balanced calls → Balanced (.enter node :: (calls ++ [.leave node]))

namespace Call.Balanced

/-- As often as a node is entered it is left. -/
theorem perm {calls : List Call} (h : Balanced calls) : (left calls).Perm (entered calls) := by
  induction h with
  | nil => rfl
  | append _ _ ih₁ ih₂ =>
    rw [left_append, entered_append]
    exact ih₁.append ih₂
  | node node _ ih =>
    rw [left_enter, left_append, entered_enter, entered_append, left_leave, entered_leave,
      entered_nil, List.append_nil]
    exact (List.perm_append_singleton node _).trans (ih.cons node)

theorem flatMap {α : Type} {as : List α} {calls : α → List Call}
    (h : ∀ a ∈ as, Balanced (calls a)) : Balanced (as.flatMap calls) := by
  induction as with
  | nil => exact .nil
  | cons a as ih =>
    obtain ⟨ha, has⟩ := List.forall_mem_cons.mp h
    exact .append ha (ih has)

mutual

theorem expr (owner : Option Definition) (n : Nat) (e : Expr) : Balanced (e.calls owner n) := by
  rw [Expr.calls]
  exact .node _ (exprs owner (n + 1) e.parts)
termination_by 2 * e.size
decreasing_by
  have := e.size_eq_sizes_parts
  omega

theorem exprs (owner : Option Definition) (n : Nat) :
    ∀ es : List Expr, Balanced (Expr.callsAll owner n es)
  | [] => by
    rw [Expr.callsAll]
    exact .nil
  | e :: es => by
    rw [Expr.callsAll]
    exact .append (expr owner n e) (exprs owner (n + e.size) es)
termination_by es => 2 * Expr.sizes es + 1
decreasing_by all_goals
  have := e.size_pos
  simp only [Expr.sizes]
  omega

end

variable {visit : Definition → List Call}

mutual

theorem stmt (hvisit : ∀ p, Balanced (visit p)) (owner : Option Definition) (n : Nat) (s : Stmt) :
    Balanced (s.calls visit owner n) := by
  rw [Stmt.calls, ← List.append_assoc, ← List.append_assoc]
  refine .node _ (.append (.append (exprs owner _ s.exprs) (stmts hvisit owner _ s.children)) ?_)
  exact flatMap fun p _ => hvisit p
termination_by 2 * s.size
decreasing_by
  have := s.sizes_lt_size
  omega

theorem stmts (hvisit : ∀ p, Balanced (visit p)) (owner : Option Definition) (n : Nat) :
    ∀ ss : List Stmt, Balanced (Stmt.callsAll visit owner n ss)
  | [] => by
    rw [Stmt.callsAll]
    exact .nil
  | s :: ss => by
    rw [Stmt.callsAll]
    exact .append (stmt hvisit owner n s) (stmts hvisit owner (n + s.size) ss)
termination_by ss => 2 * Stmt.sizes ss + 1
decreasing_by all_goals
  have := s.size_pos
  simp only [Stmt.sizes]
  omega

end

theorem callsAt (t : Template) (d : Nat) (p : Definition) : Balanced (t.callsAt d p) := by
  induction d generalizing p with
  | zero => exact .nil
  | succ d ih =>
    cases p with
    | block id =>
      rw [Template.callsAt]
      split
      · exact .nil
      · exact .node _ (stmts ih _ _ _)
    | macroDef id =>
      rw [Template.callsAt]
      split
      · exact .nil
      · exact .append (exprs _ _ _) (stmts ih _ _ _)

theorem template (t : Template) : Balanced t.calls :=
  .node _ (stmts (callsAt t t.depth) _ _ _)

end Call.Balanced

/-! ## §3. Numbers -/

/-- Where a node belongs. -/
def Node.owner : Node → Option Definition
  | .template _ => none
  | .block id _ => some (.block id)
  | .stmt owner .. | .expr owner .. => owner

/-- The number of a node; what has a body is numbered by none. -/
def Node.number? : Node → Option Nat
  | .template _ | .block .. => none
  | .stmt _ n _ | .expr _ n _ => some n

/-- Different nodes of one body, with numbers in a range. -/
structure Numbered (owner : Option Definition) (lo hi : Nat) (nodes : List Node) : Prop where
  nodup : nodes.Nodup
  owner : ∀ node ∈ nodes, node.owner = owner
  number : ∀ node ∈ nodes, ∃ k, node.number? = some k ∧ lo ≤ k ∧ k < hi

namespace Numbered

variable {owner : Option Definition} {lo mid hi : Nat} {nodes more : List Node}

theorem nil (owner : Option Definition) (lo hi : Nat) : Numbered owner lo hi [] :=
  ⟨List.nodup_nil, nofun, nofun⟩

theorem append (h₁ : Numbered owner lo mid nodes) (h₂ : Numbered owner mid hi more)
    (hlo : lo ≤ mid) (hhi : mid ≤ hi) : Numbered owner lo hi (nodes ++ more) where
  nodup := by
    refine List.nodup_append.mpr ⟨h₁.nodup, h₂.nodup, ?_⟩
    -- The ranges do not meet.
    rintro node h _ h' rfl
    obtain ⟨k, hk, -, hlt⟩ := h₁.number node h
    obtain ⟨k', hk', hle, -⟩ := h₂.number node h'
    rw [hk] at hk'
    cases hk'
    omega
  owner := List.forall_mem_append.mpr ⟨h₁.owner, h₂.owner⟩
  number := by
    refine List.forall_mem_append.mpr ⟨fun node h => ?_, fun node h => ?_⟩
    · obtain ⟨k, hk, hle, hlt⟩ := h₁.number node h
      exact ⟨k, hk, hle, by omega⟩
    · obtain ⟨k, hk, hle, hlt⟩ := h₂.number node h
      exact ⟨k, hk, by omega, hlt⟩

/-- A node comes before those inside it. -/
theorem cons {node : Node} (howner : node.owner = owner) (hnumber : node.number? = some lo)
    (h : Numbered owner (lo + 1) hi nodes) (hlt : lo < hi) :
    Numbered owner lo hi (node :: nodes) :=
  have hnode : Numbered owner lo (lo + 1) [node] :=
    { nodup := List.nodup_singleton node
      owner := List.forall_mem_singleton.mpr howner
      number := List.forall_mem_singleton.mpr ⟨lo, hnumber, Nat.le_refl lo, Nat.lt_succ_self lo⟩ }
  hnode.append h (Nat.le_succ lo) hlt

theorem mono (h : Numbered owner lo mid nodes) (hle : mid ≤ hi) : Numbered owner lo hi nodes where
  nodup := h.nodup
  owner := h.owner
  number := fun node hnode => by
    obtain ⟨k, hk, hlo, hlt⟩ := h.number node hnode
    exact ⟨k, hk, hlo, by omega⟩

mutual

theorem expr (owner : Option Definition) (n : Nat) (e : Expr) :
    Numbered owner n (n + e.size) (Call.entered (e.calls owner n)) := by
  have hsize := e.size_eq_sizes_parts
  rw [Expr.calls, Call.entered_enter, Call.entered_append, Call.entered_leave, Call.entered_nil,
    List.append_nil, hsize]
  exact cons rfl rfl ((exprs owner (n + 1) e.parts).mono (by omega)) (by omega)
termination_by 2 * e.size
decreasing_by omega

theorem exprs (owner : Option Definition) (n : Nat) : ∀ es : List Expr,
    Numbered owner n (n + Expr.sizes es) (Call.entered (Expr.callsAll owner n es))
  | [] => by
    rw [Expr.callsAll]
    exact nil owner _ _
  | e :: es => by
    rw [Expr.callsAll, Call.entered_append, Expr.sizes]
    rw [← Nat.add_assoc]
    exact (expr owner n e).append (exprs owner (n + e.size) es) (Nat.le_add_right _ _)
      (Nat.le_add_right _ _)
termination_by es => 2 * Expr.sizes es + 1
decreasing_by all_goals
  have := e.size_pos
  simp only [Expr.sizes]
  omega

end

mutual

/-- The nodes of a statement, without the definitions that it mentions. -/
theorem stmt (owner : Option Definition) (n : Nat) (s : Stmt) :
    Numbered owner n (n + s.size) (Call.entered (s.calls (fun _ => []) owner n)) := by
  have hsize := s.sizes_lt_size
  rw [Stmt.calls, Call.entered_enter, Call.entered_append, Call.entered_append,
    Call.entered_append, Call.entered_flatMap, Call.entered_leave, Call.entered_nil,
    List.append_nil, List.flatMap_eq_nil_iff.mpr fun _ _ => rfl, List.append_nil]
  have hinside := (exprs owner (n + 1) s.exprs).append
    (stmts owner (n + 1 + Expr.sizes s.exprs) s.children) (Nat.le_add_right _ _)
    (Nat.le_add_right _ _)
  exact cons rfl rfl (hinside.mono (by omega)) (by omega)
termination_by 2 * s.size
decreasing_by omega

theorem stmts (owner : Option Definition) (n : Nat) : ∀ ss : List Stmt,
    Numbered owner n (n + Stmt.sizes ss) (Call.entered (Stmt.callsAll (fun _ => []) owner n ss))
  | [] => by
    rw [Stmt.callsAll]
    exact nil owner _ _
  | s :: ss => by
    rw [Stmt.callsAll, Call.entered_append, Stmt.sizes]
    rw [← Nat.add_assoc]
    exact (stmt owner n s).append (stmts owner (n + s.size) ss) (Nat.le_add_right _ _)
      (Nat.le_add_right _ _)
termination_by ss => 2 * Stmt.sizes ss + 1
decreasing_by all_goals
  have := s.size_pos
  simp only [Stmt.sizes]
  omega

end

end Numbered

/-! ## §4. Nodes by the visits -/

namespace Template

/-- The nodes that belong to the template or to a definition, in the order in which they are
entered. -/
def nodesOf (t : Template) : Option Definition → List Node
  | none => .template t :: Call.entered (Stmt.callsAll (fun _ => []) none 0 t.body)
  | some (.block id) =>
    match t.blockAt? id with
    | none => []
    | some b =>
      .block id b :: Call.entered (Stmt.callsAll (fun _ => []) (some (.block id)) 0 b.body)
  | some (.macroDef id) =>
    match t.macroAt? id with
    | none => []
    | some m =>
      Call.entered (Expr.callsAll (some (.macroDef id)) 0 m.fallbacks) ++
        Call.entered
          (Stmt.callsAll (fun _ => []) (some (.macroDef id)) (Expr.sizes m.fallbacks) m.body)

theorem owner_of_mem_nodesOf {t : Template} {p : Option Definition} {node : Node}
    (h : node ∈ t.nodesOf p) : node.owner = p := by
  match p with
  | none =>
    rcases List.mem_cons.mp h with rfl | h
    · rfl
    · exact (Numbered.stmts none 0 t.body).owner node h
  | some (.block id) =>
    rw [nodesOf] at h
    split at h
    · cases h
    · rcases List.mem_cons.mp h with rfl | h
      · rfl
      · exact (Numbered.stmts _ 0 _).owner node h
  | some (.macroDef id) =>
    rw [nodesOf] at h
    split at h
    · cases h
    · rcases List.mem_append.mp h with h | h
      · exact (Numbered.exprs _ 0 _).owner node h
      · exact (Numbered.stmts _ _ _).owner node h

/-- The nodes that belong together are all different. -/
theorem nodup_nodesOf (t : Template) (p : Option Definition) : (t.nodesOf p).Nodup := by
  -- What has a body has no number there, so it is none of the nodes of the body.
  have hcons : ∀ {owner : Option Definition} {ss : List Stmt} {node : Node},
      node.number? = none →
        (node :: Call.entered (Stmt.callsAll (fun _ => []) owner 0 ss)).Nodup := by
    intro owner ss node hnone
    have hbody := Numbered.stmts owner 0 ss
    refine List.nodup_cons.mpr ⟨fun hmem => ?_, hbody.nodup⟩
    obtain ⟨k, hk, -⟩ := hbody.number node hmem
    rw [hnone] at hk
    cases hk
  match p with
  | none => exact hcons rfl
  | some (.block id) =>
    rw [nodesOf]
    split
    · exact List.nodup_nil
    · exact hcons rfl
  | some (.macroDef id) =>
    rw [nodesOf]
    split
    · exact List.nodup_nil
    · next m _ =>
      have hfallbacks := Numbered.exprs (some (.macroDef id)) 0 m.fallbacks
      rw [Nat.zero_add] at hfallbacks
      exact (hfallbacks.append (Numbered.stmts _ _ m.body) (Nat.zero_le _) (by omega)).nodup

end Template

mutual

/-- What is entered in a statement are its own nodes and those of the definitions mentioned. -/
theorem Stmt.perm_entered_calls (visit : Definition → List Call) (owner : Option Definition)
    (n : Nat) (s : Stmt) :
    (Call.entered (s.calls visit owner n)).Perm
      (Call.entered (s.calls (fun _ => []) owner n) ++
        s.mentions.flatMap fun p => Call.entered (visit p)) := by
  have hchildren := Stmt.perm_entered_callsAll visit owner (n + 1 + Expr.sizes s.exprs) s.children
  rw [Stmt.calls, Stmt.calls, s.mentions_eq_children]
  simp only [Call.entered_enter, Call.entered_append, Call.entered_flatMap, Call.entered_leave,
    Call.entered_nil, List.append_nil, List.flatMap_append, List.cons_append, List.append_assoc,
    List.flatMap_eq_nil_iff.mpr fun _ _ => rfl]
  refine (List.Perm.append_left _ ?_).cons _
  refine (hchildren.append_right _).trans ?_
  rw [List.append_assoc]
  exact List.perm_append_comm.append_left _
termination_by 2 * s.size
decreasing_by
  have := s.sizes_lt_size
  omega

theorem Stmt.perm_entered_callsAll (visit : Definition → List Call) (owner : Option Definition)
    (n : Nat) : ∀ ss : List Stmt,
    (Call.entered (Stmt.callsAll visit owner n ss)).Perm
      (Call.entered (Stmt.callsAll (fun _ => []) owner n ss) ++
        (Stmt.mentionsAll ss).flatMap fun p => Call.entered (visit p))
  | [] => by
    simp only [Stmt.callsAll, Stmt.mentionsAll]
    rfl
  | s :: ss => by
    have hs := Stmt.perm_entered_calls visit owner n s
    have hss := Stmt.perm_entered_callsAll visit owner (n + s.size) ss
    simp only [Stmt.callsAll, Stmt.mentionsAll, Call.entered_append, List.flatMap_append,
      List.append_assoc]
    refine (hs.append hss).trans ?_
    rw [List.append_assoc]
    exact (List.perm_append_comm_assoc _ _ _).append_left _
termination_by ss => 2 * Stmt.sizes ss + 1
decreasing_by all_goals
  have := s.size_pos
  simp only [Stmt.sizes]
  omega

end

theorem Stmt.mem_places_block {s : Stmt} {id : DefinitionId} :
    .block id ∈ s.places ↔ ∃ pos, s = .block pos id := by
  cases s <;> simp [Stmt.places, eq_comm]

theorem Stmt.mem_entries {s : Stmt} {id : DefinitionId} :
    id ∈ s.entries ↔ ∃ inclusion table, s = .embeds inclusion table ∧ id ∈ table.values := by
  cases s <;> simp [Stmt.entries, Stmt.tables]

namespace Template

variable {t : Template}

theorem statementsAt_of_block {id : DefinitionId} {b : Block} (h : t.blockAt? id = some b) :
    t.statementsAt (.block id) = b.body := by
  rw [blockAt?] at h
  simp [statementsAt, Definition.body, h]

theorem statementsAt_of_macroDef {id : DefinitionId} {m : MacroDef} (h : t.macroAt? id = some m) :
    t.statementsAt (.macroDef id) = m.body := by
  rw [macroAt?] at h
  simp [statementsAt, Definition.body, h]

/-- What is entered in a definition are its own nodes, and those of what its body mentions. -/
theorem perm_entered_callsAt_succ (d : Nat) (p : Definition) :
    (Call.entered (t.callsAt (d + 1) p)).Perm
      (t.nodesOf (some p) ++ (t.graph.next p).flatMap fun q => Call.entered (t.callsAt d q)) := by
  rw [next_graph]
  cases p with
  | block id =>
    rw [callsAt, nodesOf]
    cases hb : t.blockAt? id with
    | none =>
      rw [blockAt?] at hb
      simp [statementsAt, Definition.body, hb, Stmt.mentionsAll]
    | some b =>
      rw [statementsAt_of_block hb, Call.entered_enter, Call.entered_append, Call.entered_leave,
        Call.entered_nil, List.append_nil]
      exact (Stmt.perm_entered_callsAll _ _ _ _).cons _
  | macroDef id =>
    rw [callsAt, nodesOf]
    cases hm : t.macroAt? id with
    | none =>
      rw [macroAt?] at hm
      simp [statementsAt, Definition.body, hm, Stmt.mentionsAll]
    | some m =>
      rw [statementsAt_of_macroDef hm, Call.entered_append, List.append_assoc]
      exact (Stmt.perm_entered_callsAll _ _ _ _).append_left _

/-- What is entered in definitions are the nodes of those that are visited. -/
theorem perm_entered_callsAt (d : Nat) (names : List String) (ps : List Definition) :
    (ps.flatMap fun p => Call.entered (t.callsAt d p)).Perm
      (((t.tour d names ps).map Prod.fst).flatMap fun p => t.nodesOf (some p)) := by
  -- The induction is on the levels, and inside it on the definitions that are mentioned.
  induction d generalizing names ps with
  | zero => simp [callsAt, tour]
  | succ d ih =>
    induction ps with
    | nil => rfl
    | cons p ps ihps =>
      rw [tour_cons, tour_succ_singleton, List.map_append, List.flatMap_append, List.flatMap_cons,
        List.map_cons, List.flatMap_cons]
      refine List.Perm.append ?_ ihps
      refine (perm_entered_callsAt_succ d p).trans ?_
      exact (ih (t.namesInside names p) (t.graph.next p)).append_left _

/-- What a walk enters are the nodes of the template and of the definitions that it visits. -/
theorem perm_entered_calls (t : Template) :
    (Call.entered t.calls).Perm
      (t.nodesOf none ++ t.visited.flatMap fun p => t.nodesOf (some p)) := by
  rw [calls, nodesOf, Call.entered_enter, Call.entered_append, Call.entered_leave,
    Call.entered_nil, List.append_nil, List.cons_append]
  refine ((Stmt.perm_entered_callsAll _ _ _ _).trans ?_).cons _
  exact (perm_entered_callsAt t.depth [t.name] _).append_left _

/-- What a walk meets: the statements in the body of the template, and those in the bodies of the
definitions that this leads to. -/
def Meets (t : Template) (s : Stmt) : Prop :=
  s ∈ Stmt.nodes t.body ∨
    ∃ p, t.graph.Reaches (Stmt.mentionsAll t.body) p ∧ s ∈ Stmt.nodes (t.statementsAt p)

section Parsed

variable {name source : String} (h : Template.parse name source = .ok t)

include h

theorem mem_met_iff {s : Stmt} : s ∈ t.met ↔ t.Meets s := by
  obtain ⟨rank, hranks⟩ := exists_ranks_of_parse h
  simp [met, Meets, List.mem_flatMap, hranks.mem_visited_iff]

/-- A walk enters no node twice, exactly when it visits no definition twice. -/
theorem nodup_entered_iff_disjoint :
    (Call.entered t.calls).Nodup ↔
      (t.met.flatMap Stmt.places).Disjoint ((t.met.flatMap Stmt.entries).map .block) := by
  obtain ⟨rank, hranks⟩ := exists_ranks_of_parse h
  rw [(perm_entered_calls t).nodup_iff]
  refine ⟨fun hnodup p hplaced hentered => ?_, fun hdisjoint => ?_⟩
  · -- The block itself would be entered for its place and once more for its entry.
    have hperm := hranks.perm_visited_split.flatMap_right fun p => t.nodesOf (some p)
    have hsplit := hperm.nodup_iff.mp hnodup.of_append_right
    rw [List.flatMap_append] at hsplit
    obtain ⟨id, -, rfl⟩ := List.mem_map.mp hentered
    obtain ⟨s, hs, hid⟩ := List.mem_flatMap.mp hplaced
    obtain ⟨pos, rfl⟩ := Stmt.mem_places_block.mp hid
    have hlt := (wellFormed_of_parse h).block_lt pos id (t.met_subset hs)
    have hblock : .block id t.blocks[id] ∈ t.nodesOf (some (.block id)) := by
      have hfound : t.blockAt? id = some t.blocks[id] := List.getElem?_eq_getElem hlt
      rw [nodesOf, hfound]
      exact List.mem_cons_self
    exact List.disjoint_of_nodup_append hsplit (List.mem_flatMap.mpr ⟨_, hplaced, hblock⟩)
      (List.mem_flatMap.mpr ⟨_, hentered, hblock⟩)
  · have hvisited := (nodup_visited_iff h).mpr hdisjoint
    refine List.nodup_append.mpr ⟨t.nodup_nodesOf none, List.nodup_flatMap.mpr
      ⟨fun p _ => t.nodup_nodesOf (some p), hvisited.imp fun {p q} hne node hp hq => ?_⟩, ?_⟩
    -- Nodes of different owners are different.
    · have howner := (owner_of_mem_nodesOf hp).symm.trans (owner_of_mem_nodesOf hq)
      exact hne (Option.some.inj howner)
    · rintro node hnone _ hsome rfl
      obtain ⟨p, -, hsome⟩ := List.mem_flatMap.mp hsome
      have howner := (owner_of_mem_nodesOf hnone).symm.trans (owner_of_mem_nodesOf hsome)
      cases howner

/-- A walk enters no node twice, exactly when it meets no block both at its slot and in the table of
an `embed`. -/
theorem nodup_entered_iff :
    (Call.entered t.calls).Nodup ↔
      ∀ inclusion table, t.Meets (.embeds inclusion table) →
        ∀ id ∈ table.values, ∀ pos, ¬ t.Meets (.block pos id) := by
  rw [nodup_entered_iff_disjoint h]
  refine ⟨fun hdisjoint i table htable id hid pos hslot => ?_, fun happart p hplaced htabled => ?_⟩
  · have hplaced : .block id ∈ t.met.flatMap Stmt.places :=
      List.mem_flatMap.mpr ⟨_, (mem_met_iff h).mpr hslot, List.mem_singleton_self _⟩
    have hentered : id ∈ t.met.flatMap Stmt.entries :=
      List.mem_flatMap.mpr ⟨_, (mem_met_iff h).mpr htable, Stmt.mem_entries.mpr ⟨_, _, rfl, hid⟩⟩
    exact hdisjoint hplaced (List.mem_map_of_mem hentered)
  · obtain ⟨id, hentered, rfl⟩ := List.mem_map.mp htabled
    obtain ⟨slot, hslot, hplaced⟩ := List.mem_flatMap.mp hplaced
    obtain ⟨pos, rfl⟩ := Stmt.mem_places_block.mp hplaced
    obtain ⟨s, hs, hs'⟩ := List.mem_flatMap.mp hentered
    obtain ⟨i, table, rfl, hid⟩ := Stmt.mem_entries.mp hs'
    exact happart i table ((mem_met_iff h).mp hs) id hid pos ((mem_met_iff h).mp hslot)

end Parsed

end Template

end Stencil
