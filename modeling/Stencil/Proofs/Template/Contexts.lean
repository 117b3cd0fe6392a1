import Stencil.Proofs.Template.Tour
import Stencil.Proofs.Template.Escaping

/-!
The kind of output that prints are escaped for.

A print is escaped for the kind of output around it, which the names around it say: those of the
blocks in which it is written, innermost first, and then that of the template.  A macro has no say
in this, so what is written in a macro is within the names around the place of the macro.

In a template without an `embed` every definition has one place, so the names around its body are
determined, and the pass comes by it once.  `run_eq_wrapped` says what the pass makes of such a
template: each print gets one call of `escape`, for the kind of output that the names around it say,
and without these calls the template is as it was.
-/

namespace Stencil

/-! ## §1. Templates without an embed -/

namespace Template

/-- Whether no statement of a template is an `embed`. -/
def EmbedFree (t : Template) : Prop :=
  ∀ inclusion table, .embeds inclusion table ∉ t.statements

/-- The body of the template, or that of a definition. -/
def bodyOf (t : Template) : Option Definition → List Stmt
  | none => t.body
  | some p => t.statementsAt p

/-- The names around what is written in the body of the template or of a definition, innermost
first. -/
inductive Within (t : Template) : Option Definition → List String → Prop
  | body : Within t none [t.name]
  /-- A definition is within the names around its place; a block adds its own. -/
  | place {owner : Option Definition} {names : List String} {s : Stmt} {p : Definition} :
    Within t owner names → s ∈ Stmt.nodes (t.bodyOf owner) → p ∈ s.places →
    Within t (some p) (t.namesInside names p)

end Template

theorem Collected.Before.statements_subset {d d' : Collected} (h : d.Before d') :
    d.statements ⊆ d'.statements := by
  obtain ⟨⟨moreBlocks, hblocks⟩, moreMacros, hmacros⟩ := h
  rw [Collected.statements, Collected.statements, ← hblocks, ← hmacros, List.flatMap_append,
    List.flatMap_append]
  exact List.append_subset.mpr
    ⟨List.subset_append_of_subset_left _ (List.subset_append_left _ _),
      List.subset_append_of_subset_right _ (List.subset_append_left _ _)⟩

/-- Where nothing is dropped, all definitions that are collected are mentioned, directly or by
others. -/
theorem Derives.reaches_of_no_tables {good : Expr → Prop} {d d' : Collected} {ss : List Stmt}
    (h : Derives good d ss d') (hfree : ∀ s ∈ Stmt.nodes ss ++ d'.statements, s.tables = [])
    {p : Definition} (hp : p ∈ d'.definitions) :
    p ∈ d.definitions ∨ d'.graph.Reaches (Stmt.mentionsAll ss) p := by
  -- What is free of embeds in two parts is so in each of them.
  have split : ∀ {d₁ d₂ : Collected} {body orElse : List Stmt}, d₁.Before d₂ →
      (∀ s ∈ (Stmt.nodes body ++ Stmt.nodes orElse) ++ d₂.statements, s.tables = []) →
      (∀ s ∈ Stmt.nodes body ++ d₁.statements, s.tables = []) ∧
        ∀ s ∈ Stmt.nodes orElse ++ d₂.statements, s.tables = [] := by
    intro d₁ d₂ body orElse hbefore hfree
    obtain ⟨hnodes, hstatements⟩ := List.forall_mem_append.mp hfree
    obtain ⟨hbody, horElse⟩ := List.forall_mem_append.mp hnodes
    exact ⟨List.forall_mem_append.mpr
        ⟨hbody, fun s hs => hstatements s (hbefore.statements_subset hs)⟩,
      List.forall_mem_append.mpr ⟨horElse, hstatements⟩⟩
  induction h generalizing p with
  | nil | plain | extending => exact .inl hp
  | append _ h₂ ih₁ ih₂ =>
    rw [Stmt.nodes_append] at hfree
    obtain ⟨hfirst, hsecond⟩ := split h₂.before hfree
    rw [Stmt.mentionsAll_append]
    exact h₂.reaches_or (ih₁ hfirst) (ih₂ hsecond hp)
  | branch _ _ _ h₂ ih₁ ih₂ | loop _ _ _ _ _ h₂ ih₁ ih₂ =>
    rw [Stmt.nodes_singleton] at hfree
    obtain ⟨hbody, horElse⟩ := split h₂.before (List.forall_mem_cons.mp hfree).2
    rw [Stmt.mentionsAll_singleton]
    exact h₂.reaches_or (ih₁ hbody) (ih₂ horElse hp)
  | capture _ _ _ ih | filtered _ _ _ ih =>
    rw [Stmt.nodes_singleton] at hfree
    rw [Stmt.mentionsAll_singleton]
    exact ih (List.forall_mem_cons.mp hfree).2 hp
  | @block d₀ d₁ body pos name _ _ ih =>
    have hbody : ∀ s ∈ Stmt.nodes body ++ d₁.statements, s.tables = [] := fun s hs =>
      hfree s (List.mem_append_right _
        ((d₁.perm_statements_addBlock ⟨name, pos, body⟩).mem_iff.mpr hs))
    rcases List.mem_cons.mp ((d₁.perm_definitions_addBlock _).mem_iff.mp hp) with rfl | hp
    · exact .inr (reaches_slot d₁ _ pos)
    · exact (ih hbody hp).imp_right (reaches_addBlock pos name)
  | @defines d₀ d₁ body pos name params _ _ _ ih =>
    have hbody : ∀ s ∈ Stmt.nodes body ++ d₁.statements, s.tables = [] := fun s hs =>
      hfree s (List.mem_append_right _
        ((d₁.perm_statements_addMacro ⟨name, pos, params, body⟩).mem_iff.mpr hs))
    rcases List.mem_cons.mp ((d₁.perm_definitions_addMacro _).mem_iff.mp hp) with rfl | hp
    · exact .inr (reaches_place d₁ _ pos)
    · exact (ih hbody hp).imp_right (reaches_addMacro pos name params)
  | embeds =>
    rw [Stmt.nodes_singleton] at hfree
    cases (List.forall_mem_cons.mp hfree).1

/-! ## §2. The names around a definition -/

namespace Template

theorem EmbedFree.tables_eq {t : Template} (h : t.EmbedFree) {s : Stmt} (hs : s ∈ t.statements) :
    s.tables = [] := by
  cases s
  case embeds i table => exact absurd hs (h i table)
  all_goals rfl

theorem EmbedFree.mentionsHere_eq {t : Template} (h : t.EmbedFree) {s : Stmt}
    (hs : s ∈ t.statements) : s.mentionsHere = s.places := by
  rw [Stmt.mentionsHere, Stmt.entries, h.tables_eq hs]
  exact List.append_nil _

/-- Without embeds, what a body mentions has its place there. -/
theorem EmbedFree.mem_mentionsAll_iff {t : Template} (h : t.EmbedFree) {owner : Option Definition}
    {p : Definition} :
    p ∈ Stmt.mentionsAll (t.bodyOf owner) ↔
      ∃ s ∈ Stmt.nodes (t.bodyOf owner), p ∈ s.places := by
  have hsubset : Stmt.nodes (t.bodyOf owner) ⊆ t.statements := by
    cases owner with
    | none => exact List.subset_append_left _ _
    | some q => exact t.nodes_statementsAt_subset q
  rw [Stmt.mentionsAll_eq_flatMap, List.mem_flatMap]
  refine exists_congr fun s => and_congr_right fun hs => ?_
  rw [h.mentionsHere_eq (hsubset hs)]

/-- What is in a tour stays there with all that it leads to. -/
theorem Ranks.mem_tour_of_mem_next {t : Template} {rank : Definition → Nat} (h : t.Ranks rank)
    {d : Nat} {names around : List String} {ps : List Definition} {p q : Definition}
    (hd : ∀ p ∈ ps, rank p < d) (hp : (p, around) ∈ t.tour d names ps) (hq : q ∈ t.graph.next p) :
    (q, t.namesInside around q) ∈ t.tour d names ps := by
  induction d generalizing names ps with
  | zero => cases hp
  | succ d ih =>
    obtain ⟨r, hr, hmem⟩ := List.mem_flatMap.mp hp
    have hinside : ∀ q ∈ t.graph.next r, rank q < d := fun q hq =>
      Nat.lt_of_lt_of_le (h.lt r q hq) (Nat.le_of_lt_succ (hd r hr))
    refine List.mem_flatMap.mpr ⟨r, hr, List.mem_cons_of_mem _ ?_⟩
    rcases List.mem_cons.mp hmem with heq | hmem
    · -- The definition was visited here, and what it mentions is visited next.
      obtain ⟨rfl, rfl⟩ := Prod.mk.inj heq
      cases d with
      | zero => exact absurd (hinside q hq) (Nat.not_lt_zero _)
      | succ d => exact List.mem_flatMap.mpr ⟨q, hq, List.mem_cons_self⟩
    · exact ih hinside hmem

section Parsed

variable {name source : String} {t : Template} (h : Template.parse name source = .ok t)
  (hfree : t.EmbedFree)

include h hfree

omit h in
/-- What is visited in a body is within the names around it. -/
theorem within_of_mem_tour {owner : Option Definition} {names around : List String}
    {ps : List Definition} {p : Definition} (howner : t.Within owner names)
    (hps : ps ⊆ Stmt.mentionsAll (t.bodyOf owner)) {d : Nat}
    (hp : (p, around) ∈ t.tour d names ps) : t.Within (some p) around := by
  induction d generalizing owner names ps with
  | zero => cases hp
  | succ d ih =>
    obtain ⟨q, hq, hmem⟩ := List.mem_flatMap.mp hp
    obtain ⟨s, hs, hplace⟩ := hfree.mem_mentionsAll_iff.mp (hps hq)
    have hinside := howner.place hs hplace
    rcases List.mem_cons.mp hmem with heq | hmem
    · obtain ⟨rfl, rfl⟩ := Prod.mk.inj heq
      exact hinside
    · refine ih hinside (fun r hr => ?_) hmem
      rwa [next_graph] at hr

/-- The names around a definition are those with which it is visited. -/
theorem within_iff_mem_visits {p : Definition} {names : List String} :
    t.Within (some p) names ↔ (p, names) ∈ t.visits := by
  obtain ⟨rank, hranks⟩ := exists_ranks_of_parse h
  refine ⟨fun hwithin => ?_, within_of_mem_tour hfree .body (List.Subset.refl _)⟩
  -- The induction is on the places around the definition, from the body of the template inwards.
  have hvisit : ∀ {owner : Option Definition} {names : List String}, t.Within owner names →
      (owner = none → names = [t.name]) ∧ ∀ q, owner = some q → (q, names) ∈ t.visits := by
    intro owner names hwithin
    induction hwithin with
    | body => exact ⟨fun _ => rfl, nofun⟩
    | @place owner names s p _ hs hp ih =>
      refine ⟨nofun, ?_⟩
      rintro _ ⟨⟩
      have hmentioned := hfree.mem_mentionsAll_iff.mpr ⟨s, hs, hp⟩
      cases owner with
      | none =>
        obtain rfl := ih.1 rfl
        exact List.mem_flatMap.mpr ⟨p, hmentioned, List.mem_cons_self⟩
      | some q =>
        refine hranks.mem_tour_of_mem_next (fun p _ => hranks.lt_depth p) (ih.2 q rfl) ?_
        rw [next_graph]
        exact hmentioned
  exact (hvisit hwithin).2 p rfl

theorem nodup_visited_of_embedFree : t.visited.Nodup := by
  refine (nodup_visited_iff h).mpr fun p _ hp => ?_
  obtain ⟨id, hid, -⟩ := List.mem_map.mp hp
  obtain ⟨s, hs, hid⟩ := List.mem_flatMap.mp hid
  rw [Stmt.entries, hfree.tables_eq (t.met_subset hs)] at hid
  cases hid

theorem mem_visited_of_embedFree {p : Definition} (hp : p ∈ t.collected.definitions) :
    p ∈ t.visited := by
  obtain ⟨rank, hranks⟩ := exists_ranks_of_parse h
  have hderives := (parse_derives (fun n => Expr.reads_parse n .any) h).2
  refine hranks.mem_visited_iff.mpr ?_
  exact (hderives.reaches_of_no_tables (fun s hs => hfree.tables_eq hs) hp).resolve_left nofun

/-- The names around a body are determined. -/
theorem within_unique {owner : Option Definition} {names more : List String}
    (hnames : t.Within owner names) (hmore : t.Within owner more) : names = more := by
  cases owner with
  | none =>
    cases hnames
    cases hmore
    rfl
  | some p =>
    have hvisit := (within_iff_mem_visits h hfree).mp hnames
    have hother := (within_iff_mem_visits h hfree).mp hmore
    have heq := List.inj_on_of_nodup_map (nodup_visited_of_embedFree h hfree) hvisit hother rfl
    exact (Prod.mk.inj heq).2

/-- Every body has names around it. -/
theorem exists_within {p : Definition} (hp : p ∈ t.collected.definitions) :
    ∃ names, t.Within (some p) names := by
  obtain ⟨⟨_, names⟩, hvisit, rfl⟩ := List.mem_map.mp (mem_visited_of_embedFree h hfree hp)
  exact ⟨names, (within_iff_mem_visits h hfree).mpr hvisit⟩

end Parsed

end Template

/-! ## §3. What the walk does to definitions -/

/-- A block with another body. -/
def Block.mapBody (f : List Stmt → List Stmt) (b : Block) : Block :=
  { b with body := f b.body }

/-- A macro with another body. -/
def MacroDef.mapBody (f : List Stmt → List Stmt) (m : MacroDef) : MacroDef :=
  { m with body := f m.body }

namespace AutoEscape

open Visitor

/-- The kind of output within some names, innermost first. -/
def contextIn (names : List String) : String :=
  (names.findSome? contextOfName?).getD defaultContext

theorem current_enter (name : String) {contexts names : List String}
    (h : current contexts = contextIn names) :
    current (enter name contexts) = contextIn (name :: names) := by
  simp only [current, enter, contextIn, List.headD_cons, List.findSome?_cons] at h ⊢
  cases contextOfName? name with
  | none => exact h
  | some context => rfl

/-- The kinds of output for which the visits escape a definition. -/
def contextsOf (p : Definition) (visits : List (Definition × List String)) : List String :=
  (visits.filter (·.1 = p)).map fun visit => contextIn visit.2

/-- A body that is escaped once for each of some kinds of output. -/
def escapeEach (contexts : List String) (body : List Stmt) : List Stmt :=
  contexts.foldl (fun body context => escapeBody context body) body

/-- What visits do to the state of the walk: each escapes a body once more, and all else is as it
was. -/
structure Wraps (s : WalkState (List String)) (visits : List (Definition × List String))
    (u : WalkState (List String)) : Prop where
  visitor : u.visitor = s.visitor
  blocks : ∀ id, u.blocks[id]? =
    s.blocks[id]?.map (Block.mapBody (escapeEach (contextsOf (.block id) visits)))
  macros : ∀ id, u.macros[id]? =
    s.macros[id]?.map (MacroDef.mapBody (escapeEach (contextsOf (.macroDef id) visits)))

/-- A definition has the name and the mentions that it has in the template; its body may have been
escaped. -/
structure Alike (t : Template) (s : WalkState (List String)) (p : Definition) : Prop where
  mentions : Stmt.mentionsAll (bodyIn s p) = t.graph.next p
  name : ∀ id b, p = .block id → s.blocks[id]? = some b →
    ∃ original, t.blockAt? id = some original ∧ original.name = b.name

theorem mentionsAll_escapeEach (contexts : List String) (body : List Stmt) :
    Stmt.mentionsAll (escapeEach contexts body) = Stmt.mentionsAll body := by
  induction contexts generalizing body with
  | nil => rfl
  | cons context contexts ih => exact (ih _).trans (mentions_escapeBody context body)

theorem escapeEach_append (contexts more : List String) :
    escapeEach (contexts ++ more) = escapeEach more ∘ escapeEach contexts := by
  funext body
  simp [escapeEach]

theorem contextsOf_append (p : Definition) (visits more : List (Definition × List String)) :
    contextsOf p (visits ++ more) = contextsOf p visits ++ contextsOf p more := by
  simp [contextsOf]

@[simp] theorem contextsOf_cons_self (p : Definition) (names : List String)
    (visits : List (Definition × List String)) :
    contextsOf p ((p, names) :: visits) = contextIn names :: contextsOf p visits := by
  simp [contextsOf]

theorem contextsOf_cons_of_ne {p q : Definition} (h : q ≠ p) (names : List String)
    (visits : List (Definition × List String)) :
    contextsOf p ((q, names) :: visits) = contextsOf p visits := by
  simp [contextsOf, h]

theorem contextsOf_eq_nil {p : Definition} {visits : List (Definition × List String)}
    (h : ∀ visit ∈ visits, visit.1 ≠ p) : contextsOf p visits = [] := by
  simpa [contextsOf, List.filter_eq_nil_iff] using h

namespace Wraps

variable {s u w : WalkState (List String)} {visits more : List (Definition × List String)}

theorem nil (s : WalkState (List String)) : Wraps s [] s where
  visitor := rfl
  blocks _ := Option.map_id.symm ▸ rfl
  macros _ := Option.map_id.symm ▸ rfl

theorem append (h₁ : Wraps s visits u) (h₂ : Wraps u more w) : Wraps s (visits ++ more) w where
  visitor := h₂.visitor.trans h₁.visitor
  blocks id := by
    rw [h₂.blocks, h₁.blocks, Option.map_map, contextsOf_append, escapeEach_append]
    rfl
  macros id := by
    rw [h₂.macros, h₁.macros, Option.map_map, contextsOf_append, escapeEach_append]
    rfl

theorem alike {t : Template} {p : Definition} (h : Wraps s visits u) (hp : Alike t s p) :
    Alike t u p where
  mentions := by
    rw [← hp.mentions]
    cases p with
    | block id =>
      simp only [bodyIn, Definition.body, h.blocks, Option.map_map]
      cases s.blocks[id]? with
      | none => rfl
      | some b => exact mentionsAll_escapeEach _ b.body
    | macroDef id =>
      simp only [bodyIn, Definition.body, h.macros, Option.map_map]
      cases s.macros[id]? with
      | none => rfl
      | some m => exact mentionsAll_escapeEach _ m.body
  name id b heq hb := by
    rw [h.blocks] at hb
    obtain ⟨original, horiginal, rfl⟩ := Option.map_eq_some_iff.mp hb
    exact hp.name id original heq horiginal

/-- Under a number that no definition has there is nothing to escape. -/
theorem missing {p : Definition} (names : List String)
    (h : ∀ id, p = .block id → s.blocks[id]? = none)
    (h' : ∀ id, p = .macroDef id → s.macros[id]? = none) : Wraps s [(p, names)] s where
  visitor := rfl
  blocks id := by
    by_cases hp : p = .block id
    · simp [h id hp]
    · rw [contextsOf_cons_of_ne hp]
      exact (nil s).blocks id
  macros id := by
    by_cases hp : p = .macroDef id
    · simp [h' id hp]
    · rw [contextsOf_cons_of_ne hp]
      exact (nil s).macros id

/-- An item that is taken out while the others are changed, and put back with a change of its
own. -/
theorem getElem?_set_of_map {α : Type} {as bs : List α} {i : Nat} {a hole back : α}
    {f g : Nat → α → α} (h : ∀ j, bs[j]? = (as.set i hole)[j]?.map (f j)) (ha : as[i]? = some a)
    (hback : g i a = back) (hrest : ∀ j, i ≠ j → g j = f j) (j : Nat) :
    (bs.set i back)[j]? = as[j]?.map (g j) := by
  have hj := h j
  by_cases heq : i = j
  · subst heq
    have hlt : i < as.length := (List.getElem?_eq_some_iff.mp ha).1
    rw [List.getElem?_set_self hlt] at hj
    have hslot : i < bs.length := (List.getElem?_eq_some_iff.mp hj).1
    rw [List.getElem?_set_self hslot, ha, ← hback]
    rfl
  · rw [List.getElem?_set_ne heq] at hj
    rw [List.getElem?_set_ne heq, hj, hrest j heq]

/-- A block is escaped once where it is visited, if the visits in its body do not come back to
it. -/
theorem block {id : DefinitionId} {b : Block} (names : List String)
    (hb : s.blocks[id]? = some b) (h : Wraps (openBlock s id b) visits u)
    (hvisits : ∀ visit ∈ visits, visit.1 ≠ .block id) :
    Wraps s ((.block id, names) :: visits)
      (closeBlock u id (b.mapBody (escapeBody (contextIn names)))) where
  visitor := congrArg List.tail h.visitor
  blocks := getElem?_set_of_map h.blocks hb
    (by
      rw [contextsOf_cons_self, contextsOf_eq_nil hvisits]
      rfl)
    fun other hother => by
      rw [contextsOf_cons_of_ne fun h => hother (Definition.block.inj h)]
  macros other := by
    have hne : Definition.block id ≠ .macroDef other := by nofun
    rw [contextsOf_cons_of_ne hne]
    exact h.macros other

/-- So is a macro. -/
theorem macroDef {id : DefinitionId} {m : MacroDef} (names : List String)
    (hm : s.macros[id]? = some m) (h : Wraps (openMacro s id) visits u)
    (hvisits : ∀ visit ∈ visits, visit.1 ≠ .macroDef id) :
    Wraps s ((.macroDef id, names) :: visits)
      (closeMacro u id (m.mapBody (escapeBody (contextIn names)))) where
  visitor := h.visitor
  blocks other := by
    have hne : Definition.macroDef id ≠ .block other := by nofun
    rw [contextsOf_cons_of_ne hne]
    exact h.blocks other
  macros := getElem?_set_of_map h.macros hm
    (by
      rw [contextsOf_cons_self, contextsOf_eq_nil hvisits]
      rfl)
    fun other hother => by
      rw [contextsOf_cons_of_ne fun h => hother (Definition.macroDef.inj h)]

end Wraps

/-- While a block is open, the other definitions are as they were. -/
theorem Alike.openBlock {t : Template} {s : WalkState (List String)} {id : DefinitionId} {b : Block}
    {q : Definition} (h : Alike t s q) (hq : q ≠ .block id) :
    Alike t (AutoEscape.openBlock s id b) q where
  mentions := by
    rw [← h.mentions]
    exact congrArg Stmt.mentionsAll
      (Definition.body_set_block_of_ne s.blocks s.macros default hq)
  name other c heq hc := by
    have hne : id ≠ other := fun h => hq (heq.trans (congrArg Definition.block h.symm))
    exact h.name other c heq ((List.getElem?_set_ne hne).symm.trans hc)

/-- So they are while a macro is open. -/
theorem Alike.openMacro {t : Template} {s : WalkState (List String)} {id : DefinitionId}
    {q : Definition} (h : Alike t s q) (hq : q ≠ .macroDef id) :
    Alike t (AutoEscape.openMacro s id) q where
  mentions := by
    rw [← h.mentions]
    exact congrArg Stmt.mentionsAll
      (Definition.body_set_macro_of_ne s.blocks s.macros default hq)
  name := h.name

section Walk

variable {t : Template} {rank : Definition → Nat}

/-- A walk of statements that wraps what they lead to, as often as the tour comes by it. -/
def WrapsWithin (t : Template) (rank : Definition → Nat) (d : Nat)
    (walk : List Stmt → Walk (List String) (List Stmt)) : Prop :=
  ∀ ss names s, (∀ p ∈ Stmt.mentionsAll ss, rank p < d) →
    (∀ p, t.graph.Reaches (Stmt.mentionsAll ss) p → Alike t s p) →
    current s.visitor = contextIn names →
    ∃ u, (walk ss).run s = some (escapeBody (contextIn names) ss, u) ∧
      Wraps s (t.tour d names (Stmt.mentionsAll ss)) u

/-- While a definition is open, what it leads to is alike. -/
theorem WrapsWithin.opened {walk : List Stmt → Walk (List String) (List Stmt)} {d : Nat}
    (hwalk : WrapsWithin t rank d walk) (hranks : t.Ranks rank) {p : Definition}
    {names : List String} {s : WalkState (List String)} (opened : WalkState (List String))
    (hd : rank p < d + 1)
    (hsame : ∀ q, t.graph.Reaches [p] q → Alike t s q)
    (hopened : ∀ q, q ≠ p → Alike t s q → Alike t opened q)
    (hctx : current opened.visitor = contextIn (t.namesInside names p)) {body : List Stmt}
    (hbody : t.graph.next p = Stmt.mentionsAll body) :
    ∃ u, (walk body).run opened =
        some (escapeBody (contextIn (t.namesInside names p)) body, u) ∧
      Wraps opened (t.tour d (t.namesInside names p) (t.graph.next p)) u ∧
      ∀ visit ∈ t.tour d (t.namesInside names p) (t.graph.next p), visit.1 ≠ p := by
  have hother : ∀ q, t.graph.Reaches (t.graph.next p) q → q ≠ p := by
    rintro q hq rfl
    exact Nat.lt_irrefl _ (hranks.lt_of_reaches hq)
  obtain ⟨u, hrun, hwraps⟩ := hwalk body (t.namesInside names p) opened
    (fun q hq => Nat.lt_of_lt_of_le (hranks.lt p q (hbody ▸ hq)) (Nat.le_of_lt_succ hd))
    (fun q hq => by
      rw [← hbody] at hq
      refine hopened q (hother q hq) (hsame q (hq.trans fun r hr => ?_))
      exact .next (.start (List.mem_singleton_self p)) hr)
    hctx
  rw [← hbody] at hwraps
  exact ⟨u, hrun, hwraps, fun visit hvisit => hother _ (Template.reaches_of_mem_tour hvisit)⟩

variable {walk : List Stmt → Walk (List String) (List Stmt)} {d : Nat} {names : List String}
  {s : WalkState (List String)}

theorem wraps_block (hwalk : WrapsWithin t rank d walk) (hranks : t.Ranks rank)
    {id : DefinitionId} (hd : rank (.block id) < d + 1)
    (hsame : ∀ q, t.graph.Reaches [.block id] q → Alike t s q)
    (hctx : current s.visitor = contextIn names) :
    ∃ u, (visitor.walkBlock walk id).run s = some (⟨⟩, u) ∧
      Wraps s (t.tour (d + 1) names [.block id]) u := by
  have hself : Alike t s (.block id) := hsame _ (.start (List.mem_singleton_self _))
  rw [Template.tour_succ_singleton]
  cases hb : s.blocks[id]? with
  | none =>
    have hnext : t.graph.next (.block id) = [] := by
      rw [← hself.mentions]
      simp [bodyIn, Definition.body, hb, Stmt.mentionsAll]
    refine ⟨s, run_walkBlock_of_none hb, ?_⟩
    rw [hnext, Template.tour_nil]
    exact .missing _ (by rintro _ ⟨⟩; exact hb) (by simp)
  | some b =>
    obtain ⟨original, horiginal, hname⟩ := hself.name id b rfl hb
    have hnames : t.namesInside names (.block id) = b.name :: names := by
      simp [Template.namesInside, horiginal, hname]
    have hnext : t.graph.next (.block id) = Stmt.mentionsAll b.body := by
      rw [← hself.mentions]
      simp [bodyIn, Definition.body, hb]
    obtain ⟨u, hrun, hwraps, hvisits⟩ := hwalk.opened hranks (openBlock s id b) hd hsame
      (fun q hq hsame => hsame.openBlock hq) (by rw [hnames]; exact current_enter b.name hctx) hnext
    refine ⟨_, ?_, hwraps.block _ hb hvisits⟩
    rw [run_walkBlock hb, hrun]
    rfl

theorem wraps_macro (hwalk : WrapsWithin t rank d walk) (hranks : t.Ranks rank)
    {id : DefinitionId} (hd : rank (.macroDef id) < d + 1)
    (hsame : ∀ q, t.graph.Reaches [.macroDef id] q → Alike t s q)
    (hctx : current s.visitor = contextIn names) :
    ∃ u, (visitor.walkMacro walk id).run s = some (⟨⟩, u) ∧
      Wraps s (t.tour (d + 1) names [.macroDef id]) u := by
  have hself : Alike t s (.macroDef id) := hsame _ (.start (List.mem_singleton_self _))
  rw [Template.tour_succ_singleton]
  cases hm : s.macros[id]? with
  | none =>
    have hnext : t.graph.next (.macroDef id) = [] := by
      rw [← hself.mentions]
      simp [bodyIn, Definition.body, hm, Stmt.mentionsAll]
    refine ⟨s, run_walkMacro_of_none hm, ?_⟩
    rw [hnext, Template.tour_nil]
    exact .missing _ (by simp) (by rintro _ ⟨⟩; exact hm)
  | some m =>
    have hnext : t.graph.next (.macroDef id) = Stmt.mentionsAll m.body := by
      rw [← hself.mentions]
      simp [bodyIn, Definition.body, hm]
    obtain ⟨u, hrun, hwraps, hvisits⟩ := hwalk.opened hranks (openMacro s id) hd hsame
      (fun q hq hsame => hsame.openMacro hq) hctx hnext
    refine ⟨_, ?_, hwraps.macroDef _ hm hvisits⟩
    rw [run_walkMacro hm, hrun]
    rfl

/-- Several definitions are visited one after the other. -/
theorem wraps_forM (hwalk : WrapsWithin t rank d walk) (hranks : t.Ranks rank)
    (ps : List Definition) (hd : ∀ p ∈ ps, rank p < d + 1)
    (hsame : ∀ q, t.graph.Reaches ps q → Alike t s q)
    (hctx : current s.visitor = contextIn names) :
    ∃ u, (forM ps (handle (visitor.walkBlock walk) (visitor.walkMacro walk))).run s =
      some (⟨⟩, u) ∧ Wraps s (t.tour (d + 1) names ps) u := by
  induction ps generalizing s with
  | nil => exact ⟨s, rfl, .nil s⟩
  | cons p ps ih =>
    obtain ⟨hdp, hdps⟩ := List.forall_mem_cons.mp hd
    have hsamep : ∀ q, t.graph.Reaches [p] q → Alike t s q :=
      fun q hq => hsame q (hq.mono fun r hr => by simp [List.mem_singleton.mp hr])
    have hp : ∃ u, (handle (visitor.walkBlock walk) (visitor.walkMacro walk) p).run s =
        some (⟨⟩, u) ∧ Wraps s (t.tour (d + 1) names [p]) u := by
      cases p with
      | block id => exact wraps_block hwalk hranks hdp hsamep hctx
      | macroDef id => exact wraps_macro hwalk hranks hdp hsamep hctx
    obtain ⟨u, hu, hsu⟩ := hp
    obtain ⟨w, hw, huw⟩ := ih hdps
      (fun q hq => hsu.alike (hsame q (hq.mono fun r hr => List.mem_cons_of_mem p hr)))
      (hsu.visitor ▸ hctx)
    refine ⟨w, ?_, ?_⟩
    · rw [List.forM_cons, StateT.run_bind, hu]
      exact hw
    · rw [Template.tour_cons]
      exact hsu.append huw

/-- Where the levels last, a walk escapes what statements lead to, once for each visit. -/
theorem wrapsWithin_walkNested (hranks : t.Ranks rank) (d : Nat) :
    WrapsWithin t rank d (visitor.walkNested d) := by
  induction d with
  | zero =>
    intro ss names s hd _ hctx
    have hkeep : ∀ p, KeepsContexts (handle (fun _ => failure) (fun _ => failure) p) := by
      intro p s a t h
      cases p <;> cases h
    have hnone : Stmt.mentionsAll ss = [] :=
      List.eq_nil_iff_forall_not_mem.mpr fun p hp => Nat.not_lt_zero _ (hd p hp)
    refine ⟨s, ?_, ?_⟩
    · show (visitor.walkBody _ _ ss).run s = _
      rw [follows_walkBody hkeep ss s rfl, hnone, hctx]
      rfl
    · rw [hnone, Template.tour_nil]
      exact .nil s
  | succ d ih =>
    intro ss names s hd hsame hctx
    have hkeep := keepsContexts_handle (keepsContexts_walkNested d)
    obtain ⟨u, hu, hwraps⟩ := wraps_forM ih hranks (Stmt.mentionsAll ss) hd hsame hctx
    refine ⟨u, ?_, hwraps⟩
    show (visitor.walkBody _ _ ss).run s = _
    rw [follows_walkBody hkeep ss s rfl, hu, hctx]
    rfl

end Walk

/-! ## §4. Escaped templates -/

/-- What a call of `escape` with a literal is applied to; other expressions are as they are. -/
def unwrapExpr : Expr → Expr
  | .filter pos word [e, .string argPos context] =>
    if word = "escape" then e else .filter pos word [e, .string argPos context]
  | e => e

mutual

/-- A statement with one call of `escape` taken off each print. -/
def unwrapStmt : Stmt → Stmt
  | .print pos e => .print pos (unwrapExpr e)
  | .branch pos cond body orElse => .branch pos cond (unwrapBody body) (unwrapBody orElse)
  | .loop pos key value iterable body orElse =>
    .loop pos key value iterable (unwrapBody body) (unwrapBody orElse)
  | .capture pos name body => .capture pos name (unwrapBody body)
  | .filtered pos filters body => .filtered pos filters (unwrapBody body)
  | .text pos text => .text pos text
  | .block pos id => .block pos id
  | .includes inclusion => .includes inclusion
  | .embeds inclusion blocks => .embeds inclusion blocks
  | .reuses reuse => .reuses reuse
  | .assign pos targets values => .assign pos targets values
  | .perform pos e => .perform pos e
  | .defines pos id => .defines pos id
  | .importAll pos template newName => .importAll pos template newName
  | .importSome pos template names => .importSome pos template names

/-- Statements with one call of `escape` taken off each print. -/
def unwrapBody : List Stmt → List Stmt
  | [] => []
  | s :: ss => unwrapStmt s :: unwrapBody ss

end

mutual

/-- Taking the calls off gives back what was escaped. -/
theorem unwrapStmt_escapeStmt (context : String) :
    ∀ s : Stmt, unwrapStmt (escapeStmt context s) = s
  | .print pos e => by
    simp [escapeStmt, unwrapStmt, escaped, unwrapExpr]
  | .branch _ _ body orElse | .loop _ _ _ _ body orElse => by
    simp only [escapeStmt, unwrapStmt, unwrapBody_escapeBody context body,
      unwrapBody_escapeBody context orElse]
  | .capture _ _ body | .filtered _ _ body => by
    simp only [escapeStmt, unwrapStmt, unwrapBody_escapeBody context body]
  | .text .. | .block .. | .includes _ | .embeds .. | .reuses _ | .assign .. | .perform ..
  | .defines .. | .importAll .. | .importSome .. => by
    simp only [escapeStmt, unwrapStmt]

theorem unwrapBody_escapeBody (context : String) :
    ∀ ss : List Stmt, unwrapBody (escapeBody context ss) = ss
  | [] => rfl
  | s :: ss => by
    simp only [escapeBody, unwrapBody, unwrapStmt_escapeStmt context s,
      unwrapBody_escapeBody context ss]

end

/-- A template with every print in one call of `escape`, for the kind of output that the names
around it say. -/
def wrapped (t : Template) (around : Option Definition → List String) : Template :=
  { t with
    body := escapeBody (contextIn (around none)) t.body
    blocks := t.blocks.mapIdx fun id =>
      Block.mapBody (escapeBody (contextIn (around (some (.block id)))))
    macros := t.macros.mapIdx fun id =>
      MacroDef.mapBody (escapeBody (contextIn (around (some (.macroDef id))))) }

/-- A template with one call of `escape` taken off each print. -/
def unwrapped (t : Template) : Template :=
  { t with
    body := unwrapBody t.body
    blocks := t.blocks.map (Block.mapBody unwrapBody)
    macros := t.macros.map (MacroDef.mapBody unwrapBody) }

theorem unwrapped_wrapped (t : Template) (around : Option Definition → List String) :
    unwrapped (wrapped t around) = t := by
  have hblocks : (wrapped t around).blocks.map (Block.mapBody unwrapBody) = t.blocks := by
    refine List.ext_getElem (by simp [wrapped]) fun id _ _ => ?_
    simp [wrapped, Block.mapBody, unwrapBody_escapeBody]
  have hmacros : (wrapped t around).macros.map (MacroDef.mapBody unwrapBody) = t.macros := by
    refine List.ext_getElem (by simp [wrapped]) fun id _ _ => ?_
    simp [wrapped, MacroDef.mapBody, unwrapBody_escapeBody]
  rw [unwrapped, hblocks, hmacros]
  simp [wrapped, unwrapBody_escapeBody]

/-- A definition that is visited once is escaped for one kind of output. -/
theorem contextsOf_eq_singleton {visits : List (Definition × List String)} {p : Definition}
    {names : List String} (hnodup : (visits.map Prod.fst).Nodup) (hp : (p, names) ∈ visits) :
    contextsOf p visits = [contextIn names] := by
  obtain ⟨before, after, rfl⟩ := List.append_of_mem hp
  rw [List.map_append, List.map_cons] at hnodup
  have hbefore : ∀ visit ∈ before, visit.1 ≠ p := by
    rintro visit hvisit rfl
    exact (List.nodup_append.mp hnodup).2.2 _ (List.mem_map_of_mem hvisit) _ List.mem_cons_self rfl
  have hafter : ∀ visit ∈ after, visit.1 ≠ p := by
    intro visit hvisit heq
    have hmem := List.mem_map_of_mem (f := Prod.fst) hvisit
    exact (List.nodup_cons.mp hnodup.of_append_right).1 (heq ▸ hmem)
  rw [contextsOf_append, contextsOf_cons_self, contextsOf_eq_nil hbefore, contextsOf_eq_nil hafter,
    List.nil_append]

/-- The pass visits definitions as the tour does, and escapes each once for each visit. -/
theorem run_wraps {t : Template} {rank : Definition → Nat} (hranks : t.Ranks rank) :
    ∃ u, AutoEscape.run t = some { t with
        body := escapeBody (contextIn [t.name]) t.body, blocks := u.blocks, macros := u.macros } ∧
      Wraps ⟨enter t.name [], t.blocks, t.macros⟩ t.visits u := by
  have halike : ∀ p, Alike t ⟨enter t.name [], t.blocks, t.macros⟩ p := fun p =>
    ⟨(t.next_graph p).symm, fun id b _ hb => ⟨b, hb, rfl⟩⟩
  let s : WalkState (List String) := ⟨enter t.name [], t.blocks, t.macros⟩
  obtain ⟨u, hu, hwraps⟩ := wrapsWithin_walkNested hranks t.depth t.body [t.name] s
    (fun p _ => hranks.lt_depth p) (fun p _ => halike p) (current_enter t.name rfl)
  refine ⟨u, ?_, hwraps⟩
  rw [AutoEscape.run, Visitor.walk]
  show Option.map Prod.fst (((visitor.walkNested t.depth t.body).run s).bind _) = _
  rw [hu]
  rfl

/-- **Escaping by the names around.**  In a template without an `embed` every body has exactly one
list of names around it.  The pass puts every print in one call of `escape`, for the kind of output
that these names say, and taking these calls off gives the template back. -/
theorem run_eq_wrapped {name source : String} {t : Template}
    (h : Template.parse name source = .ok t) (hfree : t.EmbedFree) :
    ∃ around : Option Definition → List String,
      (∀ owner names, t.Within owner names → names = around owner) ∧
      (∀ id < t.blocks.length, t.Within (some (.block id)) (around (some (.block id)))) ∧
      (∀ id < t.macros.length, t.Within (some (.macroDef id)) (around (some (.macroDef id)))) ∧
      AutoEscape.run t = some (wrapped t around) ∧
      unwrapped (wrapped t around) = t := by
  have hdetermined : ∀ owner, ∃ around, ∀ names, t.Within owner names → names = around := by
    intro owner
    by_cases hsome : ∃ names, t.Within owner names
    · obtain ⟨around, haround⟩ := hsome
      exact ⟨around, fun names hnames => Template.within_unique h hfree hnames haround⟩
    · exact ⟨[], fun names hnames => absurd ⟨names, hnames⟩ hsome⟩
  choose around haround using hdetermined
  have hwithin : ∀ p ∈ t.collected.definitions, t.Within (some p) (around (some p)) := by
    intro p hp
    obtain ⟨names, hnames⟩ := Template.exists_within h hfree hp
    exact haround _ _ hnames ▸ hnames
  have hcontexts : ∀ p ∈ t.collected.definitions,
      contextsOf p t.visits = [contextIn (around (some p))] := fun p hp =>
    contextsOf_eq_singleton (Template.nodup_visited_of_embedFree h hfree)
      ((Template.within_iff_mem_visits h hfree).mp (hwithin p hp))
  have hblock : ∀ id < t.blocks.length, .block id ∈ t.collected.definitions :=
    fun id hid => Collected.mem_definitions.mpr hid
  have hdefined : ∀ id < t.macros.length, .macroDef id ∈ t.collected.definitions :=
    fun id hid => Collected.mem_definitions.mpr hid
  obtain ⟨rank, hranks⟩ := Template.exists_ranks_of_parse h
  obtain ⟨u, hrun, hwraps⟩ := run_wraps hranks
  refine ⟨around, haround, fun id hid => hwithin _ (hblock id hid),
    fun id hid => hwithin _ (hdefined id hid), ?_, unwrapped_wrapped t around⟩
  -- What the pass leaves of a definition, one by one, is what is wrapped there.
  have hbody : [t.name] = around none := haround none [t.name] .body
  have hblocks : u.blocks = (wrapped t around).blocks := by
    refine List.ext_getElem? fun id => ?_
    rw [hwraps.blocks, wrapped, List.getElem?_mapIdx]
    by_cases hid : id < t.blocks.length
    · rw [hcontexts _ (hblock id hid)]
      rfl
    · simp [List.getElem?_eq_none (Nat.not_lt.mp hid)]
  have hmacros : u.macros = (wrapped t around).macros := by
    refine List.ext_getElem? fun id => ?_
    rw [hwraps.macros, wrapped, List.getElem?_mapIdx]
    by_cases hid : id < t.macros.length
    · rw [hcontexts _ (hdefined id hid)]
      rfl
    · simp [List.getElem?_eq_none (Nat.not_lt.mp hid)]
  rw [hrun, hbody, hblocks, hmacros]
  rfl

/-- A macro that is written in a block prints for the block, and not for the template. -/
theorem run_eq_wrapped_macro_in_block :
    ∃ t around, Template.parse "page.css" ("\x7b\x7b a \x7d\x7d\x7b% block s.js %\x7d" ++
        "\x7b% macro m() %\x7d\x7b\x7b b \x7d\x7d\x7b% endmacro %\x7d" ++
        "\x7b% endblock %\x7d") = .ok t ∧
      AutoEscape.run t = some (wrapped t around) ∧ contextIn (around none) = "css" ∧
      contextIn (around (some (.macroDef 0))) = "js" := by
  let source := "\x7b\x7b a \x7d\x7d\x7b% block s.js %\x7d" ++
    "\x7b% macro m() %\x7d\x7b\x7b b \x7d\x7d\x7b% endmacro %\x7d" ++ "\x7b% endblock %\x7d"
  let shape (t : Template) : List (Table DefinitionId) × List Definition × List String ×
      List Definition :=
    (t.statements.flatMap Stmt.tables, (Stmt.nodes t.body).flatMap Stmt.places,
      t.blocks.map Block.name, (Stmt.nodes (t.statementsAt (.block 0))).flatMap Stmt.places)
  have hshape : (Template.parse "page.css" source).toOption.map shape =
      some ([], [.block 0], ["s.js"], [.macroDef 0]) := by
    decide +kernel
  cases h : Template.parse "page.css" source with
  | error e =>
    rw [h] at hshape
    cases hshape
  | ok t =>
    rw [h] at hshape
    obtain ⟨htables, hbody, hnames, hblock⟩ : t.statements.flatMap Stmt.tables = [] ∧
        (Stmt.nodes t.body).flatMap Stmt.places = [.block 0] ∧ t.blocks.map Block.name = ["s.js"] ∧
        (Stmt.nodes (t.statementsAt (.block 0))).flatMap Stmt.places = [.macroDef 0] := by
      simpa [Except.toOption, shape] using hshape
    have hfree : t.EmbedFree := by
      intro inclusion table hs
      have hnil := List.flatMap_eq_nil_iff.mp htables _ hs
      cases hnil
    obtain ⟨b, hblocks, hname⟩ := List.map_eq_singleton_iff.mp hnames
    obtain ⟨slot, hslot, hid⟩ := List.mem_flatMap.mp (hbody ▸ List.mem_cons_self :
      .block 0 ∈ (Stmt.nodes t.body).flatMap Stmt.places)
    obtain ⟨place, hplace, hid'⟩ := List.mem_flatMap.mp (hblock ▸ List.mem_cons_self :
      .macroDef 0 ∈ (Stmt.nodes (t.statementsAt (.block 0))).flatMap Stmt.places)
    have hinside : t.Within (some (.block 0)) ["s.js", t.name] := by
      have hvisit : t.Within (some (.block 0)) (t.namesInside [t.name] (.block 0)) :=
        .place .body hslot hid
      simpa [Template.namesInside, Template.blockAt?, hblocks, hname] using hvisit
    have hwithin : t.Within (some (.macroDef 0)) ["s.js", t.name] := .place hinside hplace hid'
    have hnamed : t.name = "page.css" :=
      (Template.parse_derives (fun n => Expr.reads_parse n .any) h).1
    obtain ⟨around, haround, -, -, hrun, -⟩ := run_eq_wrapped h hfree
    refine ⟨t, around, rfl, hrun, ?_, ?_⟩
    · rw [← haround none _ .body, hnamed]
      decide +kernel
    · rw [← haround _ _ hwithin, hnamed]
      decide +kernel

end AutoEscape

end Stencil
