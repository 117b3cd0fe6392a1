import Stencil.Proofs.Template.Building
import Stencil.Proofs.Template.Traversal
import Stencil.Template.AutoEscape

/-!
Which prints escaping by default reaches.

The pass goes from the body of a template to the definitions that are mentioned, and on from those.
Renders also start from the tables.  A block in the table of a template is mentioned somewhere,
because the parser enters it where it leaves its slot.  A macro in the body of an `embed` is not:
the body is dropped and with it the place of the macro, but the macro stays in the table.

So the pass is complete up to such macros.  `complete_iff_of_parse` says that after the pass all
prints that a render reaches are escaped exactly when, in those macros and in what only they lead
to, the prints were written in escaped form in the first place.
-/

namespace Stencil.AutoEscape

open Visitor

/-! ## §1. Escaped statements -/

/-- A call of `escape` for a kind of output that is given by a literal. -/
def IsEscaped (e : Expr) : Prop :=
  ∃ pos subject argPos context, e = .filter pos "escape" [subject, .string argPos context]

mutual

/-- A statement with its prints escaped for a kind of output. -/
def escapeStmt (context : String) : Stmt → Stmt
  | .print pos e => .print pos (escaped pos context e)
  | .branch pos cond body orElse =>
    .branch pos cond (escapeBody context body) (escapeBody context orElse)
  | .loop pos key value iterable body orElse =>
    .loop pos key value iterable (escapeBody context body) (escapeBody context orElse)
  | .capture pos name body => .capture pos name (escapeBody context body)
  | .filtered pos filters body => .filtered pos filters (escapeBody context body)
  | .text pos text => .text pos text
  | .block pos id => .block pos id
  | .includes inclusion => .includes inclusion
  | .embeds inclusion blocks => .embeds inclusion blocks
  | .reuses reuse => .reuses reuse
  | .assign pos targets values => .assign pos targets values
  | .perform pos e => .perform pos e
  | .defines pos id => .defines pos id
  | .importAll pos template newName => .importAll pos template newName
  | .importSome pos template names => .importSome pos template names

/-- Statements with their prints escaped for a kind of output. -/
def escapeBody (context : String) : List Stmt → List Stmt
  | [] => []
  | s :: ss => escapeStmt context s :: escapeBody context ss

end

mutual

/-- Escaping changes no mention. -/
theorem mentions_escapeStmt (context : String) :
    ∀ s : Stmt, (escapeStmt context s).mentions = s.mentions
  | .branch _ _ body orElse | .loop _ _ _ _ body orElse => by
    simp only [escapeStmt, Stmt.mentions, mentions_escapeBody context body,
      mentions_escapeBody context orElse]
  | .capture _ _ body | .filtered _ _ body => by
    simp only [escapeStmt, Stmt.mentions, mentions_escapeBody context body]
  | .print .. | .text .. | .block .. | .includes _ | .embeds .. | .reuses _ | .assign ..
  | .perform .. | .defines .. | .importAll .. | .importSome .. => by
    simp only [escapeStmt, Stmt.mentions]

theorem mentions_escapeBody (context : String) :
    ∀ ss : List Stmt, Stmt.mentionsAll (escapeBody context ss) = Stmt.mentionsAll ss
  | [] => rfl
  | s :: ss => by
    simp only [escapeBody, Stmt.mentionsAll, mentions_escapeStmt context s,
      mentions_escapeBody context ss]

end

mutual

/-- All prints are escaped afterwards, for that kind of output. -/
theorem escaped_of_mem_escapeStmt (context : String) :
    ∀ (s : Stmt) {e : Expr}, e ∈ (escapeStmt context s).prints →
      ∃ pos inner, e = escaped pos context inner
  | .print pos e, _, h => by
    simp only [escapeStmt, Stmt.prints, List.mem_singleton] at h
    exact ⟨pos, e, h⟩
  | .branch _ _ body orElse, _, h | .loop _ _ _ _ body orElse, _, h => by
    simp only [escapeStmt, Stmt.prints, List.mem_append] at h
    rcases h with h | h
    · exact escaped_of_mem_escapeBody context body h
    · exact escaped_of_mem_escapeBody context orElse h
  | .capture _ _ body, _, h | .filtered _ _ body, _, h => by
    simp only [escapeStmt, Stmt.prints] at h
    exact escaped_of_mem_escapeBody context body h
  | .text .., _, h | .block .., _, h | .includes _, _, h | .embeds .., _, h | .reuses _, _, h
  | .assign .., _, h | .perform .., _, h | .defines .., _, h | .importAll .., _, h
  | .importSome .., _, h => by
    simp only [escapeStmt, Stmt.prints, List.not_mem_nil] at h

theorem escaped_of_mem_escapeBody (context : String) :
    ∀ (ss : List Stmt) {e : Expr}, e ∈ Stmt.printsAll (escapeBody context ss) →
      ∃ pos inner, e = escaped pos context inner
  | [], _, h => by
    simp only [escapeBody, Stmt.printsAll, List.not_mem_nil] at h
  | s :: ss, _, h => by
    simp only [escapeBody, Stmt.printsAll, List.mem_append] at h
    rcases h with h | h
    · exact escaped_of_mem_escapeStmt context s h
    · exact escaped_of_mem_escapeBody context ss h

end

theorem isEscaped_of_mem_escapeBody (context : String) (ss : List Stmt) {e : Expr}
    (h : e ∈ Stmt.printsAll (escapeBody context ss)) : IsEscaped e := by
  obtain ⟨pos, inner, he⟩ := escaped_of_mem_escapeBody context ss h
  exact ⟨pos, inner, pos, context, he⟩

/-! ## §2. The walk of a body -/

/-- A part of the walk that leaves the contexts as they were, if it has a result. -/
def KeepsContexts {α : Type} (x : Walk (List String) α) : Prop :=
  ∀ s a t, x.run s = some (a, t) → t.visitor = s.visitor

section Follows

variable {α β : Type} {visit : Definition → Walk (List String) Unit}

theorem KeepsContexts.forM (hvisit : ∀ p, KeepsContexts (visit p)) (ps : List Definition) :
    KeepsContexts (forM ps visit) := by
  induction ps with
  | nil =>
    intro s a t h
    cases h
    rfl
  | cons p ps ih =>
    intro s a t h
    rw [List.forM_cons, StateT.run_bind] at h
    cases hp : (visit p).run s with
    | none =>
      rw [hp] at h
      cases h
    | some r =>
      rw [hp] at h
      exact (ih _ _ _ h).trans (hvisit p _ _ _ hp)

/-- A part of the walk that visits definitions in order and has a result that depends on nothing but
the contexts. -/
def Follows (visit : Definition → Walk (List String) Unit) (contexts : List String)
    (x : Walk (List String) α) (ps : List Definition) (a : α) : Prop :=
  ∀ s, s.visitor = contexts → x.run s = ((forM ps visit).run s).map fun r => (a, r.2)

variable {contexts : List String}

theorem Follows.pure (a : α) : Follows visit contexts (Pure.pure a) [] a :=
  fun _ _ => rfl

theorem Follows.bind (hvisit : ∀ p, KeepsContexts (visit p)) {x : Walk (List String) α}
    {f : α → Walk (List String) β} {ps qs : List Definition} {a : α} {b : β}
    (hx : Follows visit contexts x ps a) (hf : Follows visit contexts (f a) qs b) :
    Follows visit contexts (x >>= f) (ps ++ qs) b := by
  intro s hs
  rw [StateT.run_bind, hx s hs, List.forM_append, StateT.run_bind]
  -- The second part goes by the contexts too, so the visits of the first must have kept them.
  cases hp : (forM ps visit).run s with
  | none => rfl
  | some r =>
    have hr : r.2.visitor = contexts := (KeepsContexts.forM hvisit ps _ _ _ hp).trans hs
    exact hf r.2 hr

theorem Follows.bindPure (hvisit : ∀ p, KeepsContexts (visit p)) {x : Walk (List String) α}
    {ps : List Definition} {a : α} (hx : Follows visit contexts x ps a) (f : α → β) :
    Follows visit contexts (x >>= fun a => Pure.pure (f a)) ps (f a) := by
  have h := Follows.bind (f := fun a => Pure.pure (f a)) hvisit hx (.pure (f a))
  rwa [List.append_nil] at h

theorem Follows.single (p : Definition) : Follows visit contexts (visit p) [p] ⟨⟩ := by
  intro s _
  cases h : (visit p).run s with
  | none => simp [h]
  | some r => simp [h]

end Follows

/-- What is done about a definition where it is mentioned. -/
def handle (block definition : DefinitionId → Walk (List String) Unit) :
    Definition → Walk (List String) Unit
  | .block id => block id
  | .macroDef id => definition id

section Walk

variable {block definition : DefinitionId → Walk (List String) Unit} {contexts : List String}

theorem follows_blocks (blocks : List DefinitionId) :
    Follows (handle block definition) contexts (blocks.forM block)
      (blocks.map Definition.block) ⟨⟩ := by
  intro s _
  rw [List.forM_map]
  show (forM blocks block).run s = ((forM blocks block).run s).map fun r => (⟨⟩, r.2)
  cases (forM blocks block).run s <;> rfl

theorem ignoresExprs_visitor : visitor.IgnoresExprs :=
  ⟨fun _ => rfl, fun _ => rfl⟩

variable (hkeep : ∀ p, KeepsContexts (handle block definition p))

include hkeep

/-- Statements inside a statement are walked in order. -/
theorem follows_mapM {walk : Stmt → Walk (List String) Stmt} {n : Nat}
    (hwalk : ∀ s : Stmt, s.size ≤ n → Follows (handle block definition) contexts (walk s)
      s.mentions (escapeStmt (current contexts) s))
    (ss : List Stmt) (hn : Stmt.sizes ss ≤ n) :
    Follows (handle block definition) contexts (ss.mapM walk) (Stmt.mentionsAll ss)
      (escapeBody (current contexts) ss) := by
  induction ss with
  | nil => exact .pure []
  | cons s ss ih =>
    simp only [Stmt.sizes] at hn
    rw [List.mapM_cons, Stmt.mentionsAll, escapeBody]
    apply Follows.bind hkeep (hwalk s (by omega))
    exact Follows.bindPure hkeep (ih (by omega)) _

omit hkeep in
theorem walkStmt_succ (n : Nat) (s : Stmt) :
    visitor.walkStmt block definition (n + 1) s =
      step (visitor.enterStmt s) >>= Stmt.traverse
        { expr := pure
          stmt := visitor.walkStmt block definition n
          block := block
          definition := definition } := by
  have hexpr : visitor.walkWhole = pure := funext (walkWhole_eq_pure ignoresExprs_visitor)
  have hleave : ∀ s, step (visitor.leaveStmt s) = pure s := fun _ => rfl
  simp only [walkStmt, hexpr, hleave, bind_pure]

omit hkeep in
/-- Other statements than prints are entered as they are. -/
theorem walkStmt_succ_of_pure (n : Nat) {s : Stmt} (h : visitor.enterStmt s = pure s) :
    visitor.walkStmt block definition (n + 1) s =
      Stmt.traverse
        { expr := pure
          stmt := visitor.walkStmt block definition n
          block := block
          definition := definition } s := by
  rw [walkStmt_succ, h, step_pure, pure_bind]

/-- A statement is escaped for the kind of output around it, and the definitions it mentions are
visited in order. -/
theorem follows_walkStmt (n : Nat) (s : Stmt) (hn : s.size ≤ n) :
    Follows (handle block definition) contexts (visitor.walkStmt block definition n s) s.mentions
      (escapeStmt (current contexts) s) := by
  -- The induction is on the depth that the walk is allowed, which the size of the statement bounds.
  induction n generalizing s with
  | zero =>
    have := s.size_pos
    omega
  | succ n ih =>
    have hbody := follows_mapM hkeep ih
    cases s with
    | print pos e =>
      -- The one statement that is changed as it is entered; its expression is left alone below.
      intro s hs
      subst hs
      rw [walkStmt_succ]
      rfl
    | block pos id =>
      rw [walkStmt_succ_of_pure n rfl]
      exact Follows.bindPure hkeep (.single (.block id)) _
    | defines pos id =>
      rw [walkStmt_succ_of_pure n rfl]
      exact Follows.bindPure hkeep (.single (.macroDef id)) _
    | embeds inclusion blocks =>
      rw [walkStmt_succ_of_pure n rfl, Stmt.traverse, Inclusion.traverse_eq_pure fun _ => rfl,
        pure_bind]
      exact Follows.bindPure hkeep (follows_blocks blocks.values) _
    | branch pos cond body orElse =>
      simp only [Stmt.size] at hn
      rw [walkStmt_succ_of_pure n rfl, Stmt.traverse, pure_bind]
      apply Follows.bind hkeep (hbody body (by omega))
      exact Follows.bindPure hkeep (hbody orElse (by omega)) _
    | loop pos key value iterable body orElse =>
      simp only [Stmt.size] at hn
      rw [walkStmt_succ_of_pure n rfl, Stmt.traverse, pure_bind]
      apply Follows.bind hkeep (hbody body (by omega))
      exact Follows.bindPure hkeep (hbody orElse (by omega)) _
    | capture pos name body =>
      simp only [Stmt.size] at hn
      rw [walkStmt_succ_of_pure n rfl, Stmt.traverse]
      exact Follows.bindPure hkeep (hbody body (by omega)) _
    | filtered pos filters body =>
      simp only [Stmt.size] at hn
      have hfilters :
          filters.mapM (FilterCall.traverse pure) = (pure filters : Walk (List String) _) :=
        mapM_eq_pure fun call _ => FilterCall.traverse_eq_pure (fun _ => rfl) call
      rw [walkStmt_succ_of_pure n rfl, Stmt.traverse, hfilters, pure_bind]
      exact Follows.bindPure hkeep (hbody body (by omega)) _
    | includes inclusion =>
      rw [walkStmt_succ_of_pure n rfl, Stmt.traverse, Inclusion.traverse_eq_pure fun _ => rfl]
      exact .pure _
    | assign pos targets values =>
      have hvalues : values.mapM pure = (pure values : Walk (List String) _) :=
        mapM_eq_pure fun _ _ => rfl
      rw [walkStmt_succ_of_pure n rfl, Stmt.traverse, hvalues]
      exact .pure _
    | text | reuses | perform | importAll | importSome =>
      rw [walkStmt_succ_of_pure n rfl]
      exact .pure _

/-- So are statements one after the other. -/
theorem follows_walkBody (body : List Stmt) :
    Follows (handle block definition) contexts (visitor.walkBody block definition body)
      (Stmt.mentionsAll body) (escapeBody (current contexts) body) := by
  refine follows_mapM hkeep (fun s _ => follows_walkStmt hkeep (reach s.size) s ?_) body
    (Nat.le_refl _)
  unfold reach
  omega

theorem keepsContexts_walkBody (body : List Stmt) :
    KeepsContexts (visitor.walkBody block definition body) := by
  intro s a t h
  rw [follows_walkBody hkeep body s rfl] at h
  obtain ⟨r, hr, hrt⟩ := Option.map_eq_some_iff.mp h
  cases hrt
  exact KeepsContexts.forM hkeep _ _ _ _ hr

end Walk

/-! ## §3. The walk of a definition -/

section Definitions

variable {body : List Stmt → Walk (List String) (List Stmt)}

/-- The state in which the body of a block is walked. -/
def openBlock (s : WalkState (List String)) (id : DefinitionId) (b : Block) :
    WalkState (List String) :=
  { s with blocks := s.blocks.set id default, visitor := enter b.name s.visitor }

/-- The state after a block. -/
def closeBlock (s : WalkState (List String)) (id : DefinitionId) (b : Block) :
    WalkState (List String) :=
  { s with blocks := s.blocks.set id b, visitor := s.visitor.tail }

theorem run_walkBlock {s : WalkState (List String)} {id : DefinitionId} {b : Block}
    (h : s.blocks[id]? = some b) :
    (visitor.walkBlock body id).run s =
      ((body b.body).run (openBlock s id b)).map fun r =>
        (⟨⟩, closeBlock r.2 id { b with body := r.1 }) := by
  have henter : step (visitor.enterBlock b) =
      (modify fun s => { s with visitor := enter b.name s.visitor }) >>= fun _ => pure b := rfl
  simp only [walkBlock, StateT.run_bind, StateT.run_get, StateT.run_modify, h, henter, bind_assoc,
    pure_bind, Option.pure_def, Option.bind_eq_bind, Option.bind_some]
  show ((body b.body).run (openBlock s id b)).bind _ = _
  cases (body b.body).run (openBlock s id b) <;> rfl

theorem run_walkBlock_of_none {s : WalkState (List String)} {id : DefinitionId}
    (h : s.blocks[id]? = none) : (visitor.walkBlock body id).run s = some (⟨⟩, s) := by
  simp [walkBlock, h]

/-- The state in which the body of a macro is walked. -/
def openMacro (s : WalkState (List String)) (id : DefinitionId) : WalkState (List String) :=
  { s with macros := s.macros.set id default }

/-- The state after a macro. -/
def closeMacro (s : WalkState (List String)) (id : DefinitionId) (m : MacroDef) :
    WalkState (List String) :=
  { s with macros := s.macros.set id m }

theorem run_walkMacro {s : WalkState (List String)} {id : DefinitionId} {m : MacroDef}
    (h : s.macros[id]? = some m) :
    (visitor.walkMacro body id).run s =
      ((body m.body).run (openMacro s id)).map fun r =>
        (⟨⟩, closeMacro r.2 id { m with body := r.1 }) := by
  have hexpr : visitor.walkWhole = pure := funext (walkWhole_eq_pure ignoresExprs_visitor)
  have hparams : m.params.mapM (Param.traverse pure) = (pure m.params : Walk (List String) _) :=
    mapM_eq_pure fun param _ => Param.traverse_eq_pure (fun _ => rfl) param
  simp only [walkMacro, StateT.run_bind, StateT.run_get, StateT.run_modify, h, hexpr, hparams,
    pure_bind, Option.pure_def, Option.bind_eq_bind, Option.bind_some]
  show ((body m.body).run (openMacro s id)).bind _ = _
  cases (body m.body).run (openMacro s id) <;> rfl

theorem run_walkMacro_of_none {s : WalkState (List String)} {id : DefinitionId}
    (h : s.macros[id]? = none) : (visitor.walkMacro body id).run s = some (⟨⟩, s) := by
  simp [walkMacro, h]

/-- A definition leaves the contexts as they were if its body does. -/
theorem keepsContexts_handle (hbody : ∀ ss, KeepsContexts (body ss)) (p : Definition) :
    KeepsContexts (handle (visitor.walkBlock body) (visitor.walkMacro body) p) := by
  intro s a t h
  cases p with
  | block id =>
    cases hb : s.blocks[id]? with
    | none =>
      rw [handle, run_walkBlock_of_none hb] at h
      cases h
      rfl
    | some b =>
      rw [handle, run_walkBlock hb] at h
      obtain ⟨r, hr, hrt⟩ := Option.map_eq_some_iff.mp h
      cases hrt
      exact congrArg List.tail (hbody b.body _ _ _ hr)
  | macroDef id =>
    cases hm : s.macros[id]? with
    | none =>
      rw [handle, run_walkMacro_of_none hm] at h
      cases h
      rfl
    | some m =>
      rw [handle, run_walkMacro hm] at h
      obtain ⟨r, hr, hrt⟩ := Option.map_eq_some_iff.mp h
      cases hrt
      exact hbody m.body (openMacro s id) r.1 r.2 hr

end Definitions

/-- Statements leave the contexts as they were, with all that is written in them. -/
theorem keepsContexts_walkNested (d : Nat) (body : List Stmt) :
    KeepsContexts (visitor.walkNested d body) := by
  induction d generalizing body with
  | zero =>
    refine keepsContexts_walkBody (fun p => ?_) body
    intro s a t h
    cases p <;> cases h
  | succ d ih => exact keepsContexts_walkBody (keepsContexts_handle ih) body

/-! ## §4. What a walk covers -/

/-- The graph of the definitions in a state. -/
def graphOf (s : WalkState (List String)) : DefinitionGraph :=
  .of s.blocks s.macros

/-- States with the same graph have as many definitions. -/
theorem lengths_eq {s t : WalkState (List String)} (h : graphOf t = graphOf s) :
    t.blocks.length = s.blocks.length ∧ t.macros.length = s.macros.length := by
  have hblocks := congrArg (fun g => g.blocks.length) h
  have hmacros := congrArg (fun g => g.macros.length) h
  simp only [graphOf, DefinitionGraph.of, List.length_map] at hblocks hmacros
  exact ⟨hblocks, hmacros⟩

/-- The body of a definition in a state. -/
def bodyIn (s : WalkState (List String)) (p : Definition) : List Stmt :=
  p.body s.blocks s.macros

/-- Whether all prints in the body of a definition are escaped. -/
def EscapedIn (s : WalkState (List String)) (p : Definition) : Prop :=
  ∀ e ∈ Stmt.printsAll (bodyIn s p), IsEscaped e

/-- What the visit of some definitions does to the state: everything they lead to is escaped, all
else is left alone, and nothing is lost. -/
structure Covers (s : WalkState (List String)) (ps : List Definition)
    (t : WalkState (List String)) : Prop where
  visitor : t.visitor = s.visitor
  graph : graphOf t = graphOf s
  escaped : ∀ p, (graphOf s).Reaches ps p → EscapedIn t p
  kept : ∀ p, EscapedIn s p → EscapedIn t p
  rest : ∀ p, ¬ (graphOf s).Reaches ps p → bodyIn t p = bodyIn s p

namespace Covers

variable {s t u : WalkState (List String)} {ps qs : List Definition}

theorem nil (s : WalkState (List String)) : Covers s [] s where
  visitor := rfl
  graph := rfl
  escaped _ h := absurd h DefinitionGraph.Reaches.nil
  kept _ h := h
  rest _ _ := rfl

theorem append (h₁ : Covers s ps t) (h₂ : Covers t qs u) : Covers s (ps ++ qs) u where
  visitor := h₂.visitor.trans h₁.visitor
  graph := h₂.graph.trans h₁.graph
  escaped p h := by
    rcases h.append with h | h
    · exact h₂.kept p (h₁.escaped p h)
    · rw [← h₁.graph] at h
      exact h₂.escaped p h
  kept p h := h₂.kept p (h₁.kept p h)
  rest p h := by
    have hps : ¬ (graphOf s).Reaches ps p :=
      fun hp => h (hp.mono fun q hq => List.mem_append_left qs hq)
    have hqs : ¬ (graphOf t).Reaches qs p := by
      rw [h₁.graph]
      exact fun hp => h (hp.mono fun q hq => List.mem_append_right ps hq)
    rw [h₂.rest p hqs, h₁.rest p hps]

/-- A definition is visited by emptying its slot, going through its body, and putting the walked
body into the slot. -/
theorem slot {p : Definition} {body : List Stmt} {opened walked closed : WalkState (List String)}
    (hgraph : graphOf opened = (graphOf s).clear p)
    (hopened : ∀ q, q ≠ p → bodyIn opened q = bodyIn s q)
    (h : Covers opened (Stmt.mentionsAll (bodyIn s p)) walked)
    (hback : graphOf closed = (graphOf walked).put p (Stmt.mentionsAll body))
    (hself : bodyIn closed p = body) (hclosed : ∀ q, q ≠ p → bodyIn closed q = bodyIn walked q)
    (hvisitor : closed.visitor = s.visitor)
    (hmentions : Stmt.mentionsAll body = Stmt.mentionsAll (bodyIn s p))
    (hescaped : ∀ e ∈ Stmt.printsAll body, IsEscaped e) : Covers s [p] closed := by
  have hnext : (graphOf s).next p = Stmt.mentionsAll (bodyIn s p) := DefinitionGraph.next_of _ _ p
  have hafter : ∀ q, EscapedIn walked q → EscapedIn closed q := by
    intro q hq
    unfold EscapedIn
    by_cases hqp : q = p
    · rwa [hqp, hself]
    · rwa [hclosed q hqp]
  refine ⟨hvisitor, ?_, fun q hq => ?_, fun q hq => ?_, fun q hq => ?_⟩
  · -- The walked body mentions what the body mentioned, so the graph is the one before.
    rw [hback, h.graph, hgraph, hmentions, ← hnext, DefinitionGraph.clear, DefinitionGraph.put_put,
      DefinitionGraph.put_next]
  · -- Reached from `p`: `p` itself, or what its body leads to while `p` is taken out.
    rcases hq.clear with rfl | hq
    · unfold EscapedIn
      rwa [hself]
    · rw [hnext, ← hgraph] at hq
      exact hafter q (h.escaped q hq)
  · -- Escaped before: `p` is escaped anew, the rest is kept by the walk of the body.
    by_cases hqp : q = p
    · unfold EscapedIn
      rwa [hqp, hself]
    · refine hafter q (h.kept q ?_)
      unfold EscapedIn
      rwa [hopened q hqp]
  · have hqp : q ≠ p := fun hqp => hq (.start (List.mem_singleton.mpr hqp))
    -- What the body leads to without the definition, the definition leads to.
    have hwalked : ¬ (graphOf opened).Reaches (Stmt.mentionsAll (bodyIn s p)) q := by
      intro hr
      rw [hgraph] at hr
      refine hq (hr.of_clear.trans fun r hr => ?_)
      rw [← hnext] at hr
      exact .next (.start List.mem_cons_self) hr
    rw [hclosed q hqp, h.rest q hwalked, hopened q hqp]

/-- Under a number that no definition has there is nothing to visit. -/
theorem missing {p : Definition} (h : bodyIn s p = []) : Covers s [p] s := by
  have hnext : (graphOf s).next p = [] := by
    rw [graphOf, DefinitionGraph.next_of]
    exact congrArg Stmt.mentionsAll h
  have hgraph : graphOf s = (graphOf s).put p [] := by
    rw [← hnext, DefinitionGraph.put_next]
  have hcovers : Covers s (Stmt.mentionsAll (bodyIn s p)) s := by
    rw [h]
    exact nil s
  have hback : graphOf s = (graphOf s).put p (Stmt.mentionsAll []) := hgraph
  exact slot hgraph (fun _ _ => rfl) hcovers hback h (fun _ _ => rfl) rfl (by rw [h]) nofun

end Covers

/-- A part of the walk that covers what it is to visit, if the graph is not too busy for it. -/
def CoversWithin (d : Nat) (walk : List Stmt → Walk (List String) (List Stmt)) : Prop :=
  ∀ ss s, Stmt.mentionsAll ss = [] ∨ (graphOf s).busy < d →
    ∃ t, (walk ss).run s = some (escapeBody (current s.visitor) ss, t) ∧
      Covers s (Stmt.mentionsAll ss) t

section Visit

variable {walk : List Stmt → Walk (List String) (List Stmt)} {d : Nat}

/-- The body of a definition is walked with one busy definition less, if it is busy itself. -/
theorem CoversWithin.opened (hwalk : CoversWithin d walk) {s opened : WalkState (List String)}
    {p : Definition} (hd : (graphOf s).busy ≤ d) (hgraph : graphOf opened = (graphOf s).clear p) :
    ∃ t, (walk (bodyIn s p)).run opened =
        some (escapeBody (current opened.visitor) (bodyIn s p), t) ∧
      Covers opened (Stmt.mentionsAll (bodyIn s p)) t := by
  apply hwalk (bodyIn s p) opened
  have hnext : (graphOf s).next p = Stmt.mentionsAll (bodyIn s p) := DefinitionGraph.next_of _ _ p
  -- A body without mentions needs no level; any other is one of the busy ones, and is out of the
  -- graph while it is walked.
  by_cases hempty : Stmt.mentionsAll (bodyIn s p) = []
  · exact .inl hempty
  · have := DefinitionGraph.busy_clear (hnext ▸ hempty)
    rw [hgraph]
    exact .inr (by omega)

theorem covers_block (hwalk : CoversWithin d walk) (s : WalkState (List String))
    (id : DefinitionId) (hd : (graphOf s).busy ≤ d) :
    ∃ t, (visitor.walkBlock walk id).run s = some (⟨⟩, t) ∧ Covers s [.block id] t := by
  cases hb : s.blocks[id]? with
  | none => exact ⟨s, run_walkBlock_of_none hb, .missing (by simp [bodyIn, Definition.body, hb])⟩
  | some b =>
    have hbody : bodyIn s (.block id) = b.body := by simp [bodyIn, Definition.body, hb]
    have hgraph : graphOf (openBlock s id b) = (graphOf s).clear (.block id) :=
      DefinitionGraph.of_set_block s.blocks s.macros id default
    obtain ⟨t, ht, hcovers⟩ := hwalk.opened hd hgraph
    rw [hbody] at ht
    let context := current (openBlock s id b).visitor
    let walked : Block := { b with body := escapeBody context b.body }
    have hrun : (visitor.walkBlock walk id).run s = some (⟨⟩, closeBlock t id walked) := by
      rw [run_walkBlock hb, ht]
      rfl
    -- Walking loses no definition, so the number still has its slot afterwards.
    have hself : bodyIn (closeBlock t id walked) (.block id) = walked.body := by
      have hid : id < t.blocks.length := by
        rw [(lengths_eq hcovers.graph).1, openBlock, List.length_set]
        exact (List.getElem?_eq_some_iff.mp hb).1
      simp [bodyIn, Definition.body, closeBlock, hid]
    refine ⟨_, hrun, Covers.slot hgraph (fun q hq => ?_) hcovers ?_ hself (fun q hq => ?_) ?_ ?_ ?_⟩
    · exact Definition.body_set_block_of_ne s.blocks s.macros default hq
    · exact DefinitionGraph.of_set_block t.blocks t.macros id walked
    · exact Definition.body_set_block_of_ne t.blocks t.macros walked hq
    · exact congrArg List.tail hcovers.visitor
    · rw [hbody]
      exact mentions_escapeBody context b.body
    · exact fun e he => isEscaped_of_mem_escapeBody context b.body he

theorem covers_macro (hwalk : CoversWithin d walk) (s : WalkState (List String))
    (id : DefinitionId) (hd : (graphOf s).busy ≤ d) :
    ∃ t, (visitor.walkMacro walk id).run s = some (⟨⟩, t) ∧ Covers s [.macroDef id] t := by
  cases hm : s.macros[id]? with
  | none => exact ⟨s, run_walkMacro_of_none hm, .missing (by simp [bodyIn, Definition.body, hm])⟩
  | some m =>
    have hbody : bodyIn s (.macroDef id) = m.body := by simp [bodyIn, Definition.body, hm]
    have hgraph : graphOf (openMacro s id) = (graphOf s).clear (.macroDef id) :=
      DefinitionGraph.of_set_macro s.blocks s.macros id default
    obtain ⟨t, ht, hcovers⟩ := hwalk.opened hd hgraph
    rw [hbody] at ht
    let context := current s.visitor
    let walked : MacroDef := { m with body := escapeBody context m.body }
    have hrun : (visitor.walkMacro walk id).run s = some (⟨⟩, closeMacro t id walked) := by
      rw [run_walkMacro hm, ht]
      rfl
    have hself : bodyIn (closeMacro t id walked) (.macroDef id) = walked.body := by
      have hid : id < t.macros.length := by
        rw [(lengths_eq hcovers.graph).2, openMacro, List.length_set]
        exact (List.getElem?_eq_some_iff.mp hm).1
      simp [bodyIn, Definition.body, closeMacro, hid]
    refine ⟨_, hrun, Covers.slot hgraph (fun q hq => ?_) hcovers ?_ hself (fun q hq => ?_) ?_ ?_ ?_⟩
    · exact Definition.body_set_macro_of_ne s.blocks s.macros default hq
    · exact DefinitionGraph.of_set_macro t.blocks t.macros id walked
    · exact Definition.body_set_macro_of_ne t.blocks t.macros walked hq
    · exact hcovers.visitor
    · rw [hbody]
      exact mentions_escapeBody context m.body
    · exact fun e he => isEscaped_of_mem_escapeBody context m.body he

/-- Several definitions are visited one after the other. -/
theorem covers_forM (hwalk : CoversWithin d walk) (ps : List Definition)
    (s : WalkState (List String)) (hd : (graphOf s).busy ≤ d) :
    ∃ t, (forM ps (handle (visitor.walkBlock walk) (visitor.walkMacro walk))).run s =
      some (⟨⟩, t) ∧ Covers s ps t := by
  induction ps generalizing s with
  | nil => exact ⟨s, rfl, .nil s⟩
  | cons p ps ih =>
    have hp : ∃ t, (handle (visitor.walkBlock walk) (visitor.walkMacro walk) p).run s =
        some (⟨⟩, t) ∧ Covers s [p] t := by
      cases p with
      | block id => exact covers_block hwalk s id hd
      | macroDef id => exact covers_macro hwalk s id hd
    -- The graph is the same after each visit, and so is the bound on what is busy in it.
    obtain ⟨t, ht, hst⟩ := hp
    obtain ⟨u, hu, htu⟩ := ih t (hst.graph ▸ hd)
    refine ⟨u, ?_, hst.append htu⟩
    rw [List.forM_cons, StateT.run_bind, ht]
    exact hu

end Visit

/-- A walk that visits what its statements mention covers it if the visits do. -/
theorem covers_of_follows {block definition : DefinitionId → Walk (List String) Unit}
    (hkeep : ∀ p, KeepsContexts (handle block definition p)) (ss : List Stmt)
    {s t : WalkState (List String)}
    (hrun : (forM (Stmt.mentionsAll ss) (handle block definition)).run s = some (⟨⟩, t))
    (hcovers : Covers s (Stmt.mentionsAll ss) t) :
    ∃ t, (visitor.walkBody block definition ss).run s =
      some (escapeBody (current s.visitor) ss, t) ∧ Covers s (Stmt.mentionsAll ss) t := by
  refine ⟨t, ?_, hcovers⟩
  rw [follows_walkBody hkeep ss s rfl, hrun]
  rfl

/-- Statements that mention nothing are covered without a visit. -/
theorem covers_of_no_mentions {block definition : DefinitionId → Walk (List String) Unit}
    (hkeep : ∀ p, KeepsContexts (handle block definition p)) {ss : List Stmt}
    (h : Stmt.mentionsAll ss = []) (s : WalkState (List String)) :
    ∃ t, (visitor.walkBody block definition ss).run s =
      some (escapeBody (current s.visitor) ss, t) ∧ Covers s (Stmt.mentionsAll ss) t := by
  refine covers_of_follows hkeep ss (t := s) ?_ ?_
  · rw [h]
    rfl
  · rw [h]
    exact .nil s

/-- Where the graph is not too busy, the walk has a result and covers what the statements
mention. -/
theorem coversWithin_walkNested (d : Nat) : CoversWithin d (visitor.walkNested d) := by
  -- The induction is on the levels that are left.  Each visit uses one and takes a busy definition
  -- out of the graph, so the levels last.
  induction d with
  | zero =>
    intro ss s hd
    have hkeep : ∀ p, KeepsContexts (handle (fun _ => failure) (fun _ => failure) p) := by
      intro p s a t h
      cases p <;> cases h
    exact covers_of_no_mentions hkeep (hd.resolve_right (Nat.not_lt_zero _)) s
  | succ d ih =>
    intro ss s hd
    have hkeep := keepsContexts_handle (keepsContexts_walkNested d)
    rcases hd with hempty | hd
    · exact covers_of_no_mentions hkeep hempty s
    · obtain ⟨t, ht, hcovers⟩ := covers_forM ih (Stmt.mentionsAll ss) s (Nat.le_of_lt_succ hd)
      exact covers_of_follows hkeep ss ht hcovers

/-! ## §5. Templates -/

/-- What a render may read of a template: its body, what its body mentions, what its tables name,
and what these lead to. -/
def Rendered (t : Template) : Definition → Prop :=
  t.graph.Reaches (Stmt.mentionsAll t.body ++ t.named)

/-- What a pass reads of a template: its body, what its body mentions, and what this leads to. -/
def Walked (t : Template) : Definition → Prop :=
  t.graph.Reaches (Stmt.mentionsAll t.body)

/-- Whether all prints that a render of a template can reach are escaped. -/
structure Complete (t : Template) : Prop where
  body : ∀ e ∈ Stmt.printsAll t.body, IsEscaped e
  definitions : ∀ p, Rendered t p → ∀ e ∈ Stmt.printsAll (t.statementsAt p), IsEscaped e

/-- What the pass does to a template: what is walked is escaped, and all else is as it was. -/
structure Escapes (t t' : Template) : Prop where
  named : t'.named = t.named
  graph : t'.graph = t.graph
  mentions : Stmt.mentionsAll t'.body = Stmt.mentionsAll t.body
  body : ∀ e ∈ Stmt.printsAll t'.body, IsEscaped e
  walked : ∀ p, Walked t p → ∀ e ∈ Stmt.printsAll (t'.statementsAt p), IsEscaped e
  rest : ∀ p, ¬ Walked t p → t'.statementsAt p = t.statementsAt p

/-- The pass comes to an end, for every template. -/
theorem run_escapes (t : Template) : ∃ t', AutoEscape.run t = some t' ∧ Escapes t t' := by
  let contexts := enter t.name []
  let depth := t.blocks.length + t.macros.length + 1
  let s : WalkState (List String) := ⟨contexts, t.blocks, t.macros⟩
  -- There is one level more than there are definitions.
  have hbusy : (graphOf s).busy < depth :=
    Nat.lt_succ_of_le (DefinitionGraph.busy_of_le t.blocks t.macros)
  obtain ⟨u, hu, hcovers⟩ := coversWithin_walkNested depth t.body s (.inr hbusy)
  refine ⟨{ t with
    body := escapeBody (current contexts) t.body, blocks := u.blocks, macros := u.macros }, ?_, ?_⟩
  · rw [AutoEscape.run, Visitor.walk]
    show Option.map Prod.fst (((visitor.walkNested depth t.body).run s).bind _) = _
    rw [hu]
    rfl
  · exact {
      named := rfl
      graph := hcovers.graph
      mentions := mentions_escapeBody _ t.body
      body := fun e he => isEscaped_of_mem_escapeBody _ t.body he
      walked := hcovers.escaped
      rest := hcovers.rest }

/-- The pass leaves the name of a template alone. -/
theorem name_run {t t' : Template} (h : AutoEscape.run t = some t') : t'.name = t.name := by
  rw [AutoEscape.run, Visitor.walk] at h
  obtain ⟨⟨t'', contexts⟩, hwalk, rfl⟩ := Option.map_eq_some_iff.mp h
  obtain ⟨⟨body, s⟩, -, hleave⟩ := Option.bind_eq_some_iff.mp hwalk
  cases hleave
  rfl

theorem Escapes.rendered_iff {t t' : Template} (h : Escapes t t') (p : Definition) :
    Rendered t' p ↔ Rendered t p := by
  rw [Rendered, Rendered, h.graph, h.mentions, h.named]

/-- The blocks of a parsed template are all walked. -/
theorem walked_of_mem_blockTable {name source : String} {t : Template}
    (h : Template.parse name source = .ok t) {id : DefinitionId} (hid : id ∈ t.blockTable.values) :
    Walked t (.block id) := by
  have hgood : ∀ n, Parse.Quiet (lex source) (Expr.parse n .any) :=
    fun n => Expr.quiet_parse n .any
  have hderives := (Template.parse_derives hgood h).2
  exact (hderives.reaches_of_mem_blockTable hid).resolve_left nofun

/-- **Escaping is complete up to dropped macros.**  After the pass every print that a render reaches
is escaped, exactly when the prints were written in that form in all that is reached only from
macros whose places the pass does not come by. -/
theorem complete_iff_of_parse {name source : String} {t : Template}
    (h : Template.parse name source = .ok t) :
    ∃ t', AutoEscape.run t = some t' ∧
      (Complete t' ↔
        ∀ id ∈ t.macroTable.values, ¬ Walked t (.macroDef id) →
          ∀ p, t.graph.Reaches [.macroDef id] p → ¬ Walked t p →
            ∀ e ∈ Stmt.printsAll (t.statementsAt p), IsEscaped e) := by
  obtain ⟨t', hrun, hescapes⟩ := run_escapes t
  refine ⟨t', hrun, fun hcomplete id hid _ p hp hwalked => ?_, fun hdropped => ?_⟩
  · -- A render may call the macro, so what it leads to must be escaped, and is as it was parsed.
    have hmem : .macroDef id ∈ Stmt.mentionsAll t.body ++ t.named :=
      List.mem_append_right _ (List.mem_append_right _ (List.mem_map_of_mem hid))
    have hrendered : Rendered t' p := by
      refine (hescapes.rendered_iff p).mpr (hp.mono fun q hq => ?_)
      rwa [List.mem_singleton.mp hq]
    have hprints := hcomplete.definitions p hrendered
    rwa [hescapes.rest p hwalked] at hprints
  · -- What a render reaches is walked, or a macro of the table leads to it: blocks are all walked.
    refine ⟨hescapes.body, fun p hp => ?_⟩
    by_cases hwalked : Walked t p
    · exact hescapes.walked p hwalked
    · rw [hescapes.rest p hwalked]
      rcases ((hescapes.rendered_iff p).mp hp).append with hp | hp
      · exact absurd hp hwalked
      · rcases hp.append with hp | hp
        · refine absurd (hp.trans fun q hq => ?_) hwalked
          obtain ⟨id, hid, rfl⟩ := List.mem_map.mp hq
          exact walked_of_mem_blockTable h hid
        · obtain ⟨q, hq, hqp⟩ := hp.exists_start
          obtain ⟨id, hid, rfl⟩ := List.mem_map.mp hq
          have hmacro : ¬ Walked t (.macroDef id) := by
            intro hwalkedMacro
            refine hwalked (hqp.trans fun q hq => ?_)
            rwa [List.mem_singleton.mp hq]
          exact hdropped id hid hmacro p hqp hwalked

/-- Whether an expression is a name. -/
def isName : Expr → Bool
  | .name .. => true
  | _ => false

/-- A name is not in escaped form. -/
theorem not_isEscaped_of_isName {e : Expr} (h : isName e = true) : ¬ IsEscaped e := by
  rintro ⟨_, _, _, _, rfl⟩
  cases h

/-- A macro in the body of an `embed` prints its parameter as it is. -/
theorem not_complete_of_dropped_macro :
    ∃ t t', Template.parse "t" ("\x7b% embed 'e' %\x7d\x7b% macro m(x) %\x7d\x7b\x7b x \x7d\x7d" ++
        "\x7b% endmacro %\x7d\x7b% endembed %\x7d") = .ok t ∧
      AutoEscape.run t = some t' ∧ ¬ Complete t' := by
  let source := "\x7b% embed 'e' %\x7d\x7b% macro m(x) %\x7d\x7b\x7b x \x7d\x7d" ++
    "\x7b% endmacro %\x7d\x7b% endembed %\x7d"
  let shape (t : Template) : List Definition × List DefinitionId × List Bool :=
    (Stmt.mentionsAll t.body, t.macroTable.values,
      (Stmt.printsAll (t.statementsAt (.macroDef 0))).map isName)
  -- Positions are left out of what is computed.
  have hshape : (Template.parse "t" source).toOption.map shape = some ([], [0], [true]) := by
    decide +kernel
  cases h : Template.parse "t" source with
  | error e =>
    rw [h] at hshape
    cases hshape
  | ok t =>
    rw [h] at hshape
    obtain ⟨hbody, hids, e, hprints, hname⟩ : Stmt.mentionsAll t.body = [] ∧
        t.macroTable.values = [0] ∧
        ∃ e, Stmt.printsAll (t.statementsAt (.macroDef 0)) = [e] ∧ isName e = true := by
      simpa [Except.toOption, shape, List.map_eq_singleton_iff] using hshape
    obtain ⟨t', hrun, hiff⟩ := complete_iff_of_parse h
    refine ⟨t, t', rfl, hrun, fun hcomplete => ?_⟩
    have hwalked : ¬ Walked t (.macroDef 0) := by
      unfold Walked
      rw [hbody]
      exact DefinitionGraph.Reaches.nil
    have hescaped := hiff.mp hcomplete 0 (by simp [hids]) hwalked (.macroDef 0)
      (.start List.mem_cons_self) hwalked
    rw [hprints] at hescaped
    exact not_isEscaped_of_isName hname (hescaped e List.mem_cons_self)

end Stencil.AutoEscape
