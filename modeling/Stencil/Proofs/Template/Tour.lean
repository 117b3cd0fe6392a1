import Stencil.Proofs.Template.WellFormed

/-!
The way of a walk through the definitions of a template.

A walk visits a definition where it is mentioned, and then what is mentioned in its body.  Parsed
templates have no circles, so this comes to an end, and what is visited can be listed in advance.
A definition is visited once for each time that it is mentioned in the body of the template or in a
body that is visited.  It has one place at most and stands in one table at most, so the list has a
definition twice only if it has both.
-/

namespace Stencil

/-! ## §1. Ranks -/

namespace Collected.Ordered

variable {d : Collected}

/-- No definition leads to itself. -/
theorem not_reaches_self (h : d.Ordered) (p : Definition) :
    ¬ d.graph.Reaches (d.graph.next p) p := by
  intro hreach
  obtain ⟨earlier, hnumber, hmem⟩ := h.exists_precedes hreach
  rw [Collected.mem_definitions, hnumber] at hmem
  exact Nat.lt_irrefl _ hmem

/-- What a definition mentions has a smaller rank than the definition itself. -/
theorem exists_rank (h : d.Ordered) :
    ∃ rank : Definition → Nat, (∀ p, rank p ≤ d.blocks.length + d.macros.length) ∧
      ∀ p, ∀ q ∈ d.graph.next p, rank q < rank p := by
  classical
  -- The rank of a definition is the number of definitions that it leads to.
  let leads (p : Definition) : List Definition :=
    d.definitions.filter fun q => decide (d.graph.Reaches (d.graph.next p) q)
  have hleads : ∀ {p q}, q ∈ leads p ↔
      q ∈ d.definitions ∧ d.graph.Reaches (d.graph.next p) q := by
    simp [leads]
  refine ⟨fun p => (leads p).length, fun p => ?_, fun p q hq => ?_⟩
  · have hlength : d.definitions.length = d.blocks.length + d.macros.length := by
      simp [Collected.definitions]
    exact hlength ▸ List.length_filter_le _ _
  · have hp : p ∈ d.definitions := by
      by_contra hp
      rw [Collected.next_eq_nil hp] at hq
      cases hq
    have hself : q ∉ leads q := fun hmem => h.not_reaches_self q (hleads.mp hmem).2
    have hsub : q :: leads q ⊆ leads p := by
      refine List.cons_subset.mpr ⟨hleads.mpr ⟨h.closed p hp q hq, .start hq⟩, fun r hr => ?_⟩
      obtain ⟨hr, hreach⟩ := hleads.mp hr
      exact hleads.mpr ⟨hr, hreach.trans fun a ha => .next (.start hq) ha⟩
    have hnodup : (q :: leads q).Nodup :=
      List.nodup_cons.mpr ⟨hself, d.nodup_definitions.filter _⟩
    exact (List.subperm_of_subset hnodup hsub).length_le

end Collected.Ordered

/-! ## §2. What statements mention themselves -/

/-- The definitions that a statement mentions itself, not in the statements inside it. -/
def Stmt.mentionsHere (s : Stmt) : List Definition :=
  s.places ++ s.entries.map .block

mutual

theorem Stmt.mentions_eq_flatMap : ∀ s : Stmt,
    s.mentions = s.mentionsHere ++ s.inside.flatMap Stmt.mentionsHere
  | .branch _ _ body orElse | .loop _ _ _ _ body orElse => by
    simp [Stmt.mentions, Stmt.mentionsHere, Stmt.places, Stmt.entries, Stmt.tables, Stmt.inside,
      Stmt.mentionsAll_eq_flatMap body, Stmt.mentionsAll_eq_flatMap orElse]
  | .capture _ _ body | .filtered _ _ body => by
    simp [Stmt.mentions, Stmt.mentionsHere, Stmt.places, Stmt.entries, Stmt.tables, Stmt.inside,
      Stmt.mentionsAll_eq_flatMap body]
  | .embeds .. => by
    simp [Stmt.mentions, Stmt.mentionsHere, Stmt.places, Stmt.entries, Stmt.tables, Stmt.inside]
  | .print .. | .text .. | .block .. | .includes _ | .reuses _ | .assign .. | .perform ..
  | .defines .. | .importAll .. | .importSome .. => rfl

/-- What a body mentions is what its statements mention, at any depth. -/
theorem Stmt.mentionsAll_eq_flatMap : ∀ ss : List Stmt,
    Stmt.mentionsAll ss = (Stmt.nodes ss).flatMap Stmt.mentionsHere
  | [] => rfl
  | s :: ss => by
    simp [Stmt.mentionsAll, Stmt.nodes, Stmt.mentions_eq_flatMap s, Stmt.mentionsAll_eq_flatMap ss]

end

/-! ## §3. The tour of a template -/

namespace Template

/-- The names of the blocks around what is written in a definition, innermost first, from those
around the definition itself. -/
def namesInside (t : Template) (names : List String) : Definition → List String
  | .block id => (t.blockAt? id).elim names (·.name :: names)
  | .macroDef _ => names

/-- The visits that mentions of definitions lead to, nested down to a depth: each with the names
around what is written there. -/
def tour (t : Template) : Nat → List String → List Definition → List (Definition × List String)
  | 0, _, _ => []
  | d + 1, names, ps => ps.flatMap fun p =>
    (p, t.namesInside names p) :: t.tour d (t.namesInside names p) (t.graph.next p)

/-- How deep definitions can be nested. -/
def depth (t : Template) : Nat :=
  t.blocks.length + t.macros.length + 1

/-- The visits of a walk.  The name of the template is the outermost one. -/
def visits (t : Template) : List (Definition × List String) :=
  t.tour t.depth [t.name] (Stmt.mentionsAll t.body)

/-- The definitions that a walk visits, as often as it does. -/
def visited (t : Template) : List Definition :=
  t.visits.map Prod.fst

/-- The statements that a walk meets, as often as it does. -/
def met (t : Template) : List Stmt :=
  Stmt.nodes t.body ++ t.visited.flatMap fun p => Stmt.nodes (t.statementsAt p)

theorem next_graph (t : Template) (p : Definition) :
    t.graph.next p = Stmt.mentionsAll (t.statementsAt p) :=
  DefinitionGraph.next_of t.blocks t.macros p

section Tour

variable {t : Template} {d : Nat} {names : List String}

@[simp] theorem tour_nil : t.tour d names [] = [] := by
  cases d <;> rfl

theorem tour_append (ps qs : List Definition) :
    t.tour d names (ps ++ qs) = t.tour d names ps ++ t.tour d names qs := by
  cases d <;> simp [tour]

theorem tour_cons (p : Definition) (ps : List Definition) :
    t.tour d names (p :: ps) = t.tour d names [p] ++ t.tour d names ps :=
  tour_append [p] ps

theorem tour_succ_singleton (p : Definition) :
    t.tour (d + 1) names [p] =
      (p, t.namesInside names p) :: t.tour d (t.namesInside names p) (t.graph.next p) := by
  simp [tour]

theorem reaches_of_mem_tour {ps : List Definition} {visit : Definition × List String}
    (h : visit ∈ t.tour d names ps) : t.graph.Reaches ps visit.1 := by
  induction d generalizing names ps with
  | zero => cases h
  | succ d ih =>
    obtain ⟨p, hp, hvisit⟩ := List.mem_flatMap.mp h
    rcases List.mem_cons.mp hvisit with rfl | hvisit
    · exact .start hp
    · exact (ih hvisit).trans fun q hq => .next (.start hp) hq

end Tour

/-! ## §4. How often a definition is visited -/

/-- A measure under which a walk goes down from each definition to what it mentions. -/
structure Ranks (t : Template) (rank : Definition → Nat) : Prop where
  lt_depth : ∀ p, rank p < t.depth
  lt : ∀ p, ∀ q ∈ t.graph.next p, rank q < rank p

namespace Ranks

variable {t : Template} {rank : Definition → Nat} (h : t.Ranks rank)

include h

/-- All that a definition leads to has a smaller rank. -/
theorem lt_of_reaches {p q : Definition} (hq : t.graph.Reaches (t.graph.next p) q) :
    rank q < rank p := by
  induction hq with
  | start hq => exact h.lt p _ hq
  | next _ hr ih => exact Nat.lt_trans (h.lt _ _ hr) ih

/-- What is visited is what was to be visited, and what is mentioned where a visit was. -/
theorem perm_tour {d : Nat} (names : List String) {ps : List Definition}
    (hd : ∀ p ∈ ps, rank p < d) :
    ((t.tour d names ps).map Prod.fst).Perm
      (ps ++ ((t.tour d names ps).map Prod.fst).flatMap t.graph.next) := by
  -- The induction is on the levels that are left, which the ranks of what is visited bound.
  induction d generalizing names ps with
  | zero =>
    cases ps with
    | nil => rfl
    | cons p ps => exact absurd (hd p List.mem_cons_self) (Nat.not_lt_zero _)
  | succ d ih =>
    induction ps with
    | nil => rfl
    | cons p ps ihps =>
      obtain ⟨hp, hps⟩ := List.forall_mem_cons.mp hd
      have hinside := ih (t.namesInside names p) fun q (hq : q ∈ t.graph.next p) =>
        Nat.lt_of_lt_of_le (h.lt p q hq) (Nat.le_of_lt_succ hp)
      have hmore := ihps hps
      rw [tour_cons, tour_succ_singleton]
      rw [List.perm_iff_count] at hinside hmore ⊢
      intro r
      have hinside := hinside r
      have hmore := hmore r
      simp only [List.map_append, List.map_cons, List.flatMap_append, List.flatMap_cons,
        List.count_append, List.cons_append, List.count_cons] at hinside hmore ⊢
      omega

theorem perm_visited : t.visited.Perm (t.met.flatMap Stmt.mentionsHere) := by
  have hperm := h.perm_tour [t.name] fun p (_ : p ∈ Stmt.mentionsAll t.body) => h.lt_depth p
  have hmet : t.met.flatMap Stmt.mentionsHere =
      Stmt.mentionsAll t.body ++ t.visited.flatMap t.graph.next := by
    have hnext : t.graph.next = fun p =>
        (Stmt.nodes (t.statementsAt p)).flatMap Stmt.mentionsHere :=
      funext fun p => (t.next_graph p).trans (Stmt.mentionsAll_eq_flatMap _)
    rw [met, List.flatMap_append, List.flatMap_assoc, Stmt.mentionsAll_eq_flatMap, hnext]
  rw [hmet]
  exact hperm

/-- Each visit is due to the place of a definition or to an entry in a table. -/
theorem perm_visited_split :
    t.visited.Perm (t.met.flatMap Stmt.places ++ (t.met.flatMap Stmt.entries).map .block) := by
  refine h.perm_visited.trans ?_
  have hsplit : t.met.flatMap Stmt.mentionsHere =
      t.met.flatMap fun s => s.places ++ s.entries.map .block := rfl
  rw [hsplit, List.map_flatMap]
  exact (List.flatMap_append_perm _ _ _).symm

/-- A walk visits what the body of the template leads to. -/
theorem mem_visited_iff {p : Definition} :
    p ∈ t.visited ↔ t.graph.Reaches (Stmt.mentionsAll t.body) p := by
  refine ⟨fun hp => ?_, fun hp => ?_⟩
  · obtain ⟨visit, hvisit, rfl⟩ := List.mem_map.mp hp
    exact reaches_of_mem_tour hvisit
  · have hperm := h.perm_tour [t.name] fun p (_ : p ∈ Stmt.mentionsAll t.body) => h.lt_depth p
    induction hp with
    | start hp => exact hperm.mem_iff.mpr (List.mem_append_left _ hp)
    | next _ hq ih =>
      exact hperm.mem_iff.mpr (List.mem_append_right _ (List.mem_flatMap.mpr ⟨_, ih, hq⟩))

end Ranks

/-- A list goes into another one as often as each of its items does, as far as `b` is concerned. -/
theorem count_flatMap_le {α β : Type} [DecidableEq α] [DecidableEq β] {l m : List α}
    (f : α → List β) (b : β) (h : ∀ a ∈ l, b ∈ f a → l.count a ≤ 1 ∧ a ∈ m) :
    (l.flatMap f).count b ≤ (m.flatMap f).count b := by
  induction l generalizing m with
  | nil => simp
  | cons a l ih =>
    have hcount : ∀ c, l.count c ≤ (a :: l).count c := fun c => List.count_le_count_cons
    rw [List.flatMap_cons, List.count_append]
    by_cases hb : b ∈ f a
    · -- The first item is taken out of both lists; it does not come again.
      obtain ⟨hone, hmem⟩ := h a List.mem_cons_self hb
      rw [List.count_cons_self] at hone
      have hnot : a ∉ l := List.count_eq_zero.mp (by omega)
      have hrest := ih (m := m.erase a) fun c hc hbc => by
        obtain ⟨hone, hmem⟩ := h c (List.mem_cons_of_mem a hc) hbc
        have hne : c ≠ a := fun heq => hnot (heq ▸ hc)
        exact ⟨Nat.le_trans (hcount c) hone, (List.mem_erase_of_ne hne).mpr hmem⟩
      have hperm := ((List.perm_cons_erase hmem).flatMap_right f).count_eq b
      rw [List.flatMap_cons, List.count_append] at hperm
      omega
    · have hrest := ih (m := m) fun c hc hbc =>
        (h c (List.mem_cons_of_mem a hc) hbc).imp_left (Nat.le_trans (hcount c))
      rw [List.count_eq_zero.mpr hb]
      omega

theorem flatMap_range_getElem {α β : Type} (l : List α) (f : α → List β) :
    (List.range l.length).flatMap (fun i => (l[i]?.map f).getD []) = l.flatMap f := by
  induction l with
  | nil => rfl
  | cons a l ih => simp [List.range_succ_eq_map, List.flatMap_map, ← ih]

/-- The statements of a template are those of its body and of all its definitions. -/
theorem statements_eq (t : Template) :
    t.statements = Stmt.nodes t.body ++
      t.collected.definitions.flatMap fun p => Stmt.nodes (t.statementsAt p) := by
  have hblocks := flatMap_range_getElem t.blocks fun block => Stmt.nodes block.body
  have hmacros := flatMap_range_getElem t.macros fun definition => Stmt.nodes definition.body
  rw [statements, ← hblocks, ← hmacros, Collected.definitions, List.flatMap_append,
    List.flatMap_map, List.flatMap_map]
  congr 2
  · refine congrArg (List.flatMap · _) (funext fun i => ?_)
    simp only [statementsAt, Definition.body]
    cases t.blocks[i]? <;> simp
  · refine congrArg (List.flatMap · _) (funext fun i => ?_)
    simp only [statementsAt, Definition.body]
    cases t.macros[i]? <;> simp

/-- The statements of a definition are statements of the template. -/
theorem nodes_statementsAt_subset (t : Template) (p : Definition) :
    Stmt.nodes (t.statementsAt p) ⊆ t.statements := by
  intro s hs
  rw [statements_eq]
  refine List.mem_append_right _ (List.mem_flatMap.mpr ⟨p, ?_, hs⟩)
  -- A number without a definition has no statements.
  refine Collected.mem_definitions.mpr (Nat.lt_of_not_le fun hle => ?_)
  cases p with
  | block id =>
    have hnone : t.blocks[id]? = none := List.getElem?_eq_none hle
    simp [statementsAt, Definition.body, hnone] at hs
  | macroDef id =>
    have hnone : t.macros[id]? = none := List.getElem?_eq_none hle
    simp [statementsAt, Definition.body, hnone] at hs

/-- What a walk meets is in the template. -/
theorem met_subset (t : Template) : t.met ⊆ t.statements := by
  refine List.append_subset.mpr ⟨List.subset_append_left _ _, fun s hs => ?_⟩
  obtain ⟨p, -, hs⟩ := List.mem_flatMap.mp hs
  exact t.nodes_statementsAt_subset p hs

section Parsed

variable {name source : String} {t : Template} (h : Template.parse name source = .ok t)

include h

theorem ordered_of_parse : t.collected.Ordered := by
  have hderives := (parse_derives (fun n => Expr.reads_parse n .any) h).2
  exact (hderives.ordered .empty .empty).1

theorem exists_ranks_of_parse : ∃ rank, t.Ranks rank := by
  obtain ⟨rank, hle, hlt⟩ := (ordered_of_parse h).exists_rank
  exact ⟨rank, fun p => Nat.lt_succ_of_le (hle p), hlt⟩

/-- No block stands in two tables of embeds, or twice in one. -/
theorem nodup_entries_of_parse : (t.statements.flatMap Stmt.entries).Nodup := by
  have hderives := (parse_derives (fun n => Expr.reads_parse n .any) h).2
  obtain ⟨entries, hperm, hsublist⟩ := hderives.subperm_entries
  have hnodup := hperm.nodup_iff.mp (List.nodup_range.sublist hsublist)
  exact hnodup.of_append_left

omit h in
/-- What the statements of a template hold once, those that a walk meets hold once, if the bodies
that hold it are visited once. -/
theorem count_met_le {f : Stmt → List Definition} (hnodup : (t.statements.flatMap f).Nodup)
    (hf : ∀ s, ∀ p ∈ f s, p ∈ s.mentionsHere) {p : Definition}
    (hp : ∀ q, p ∈ t.graph.next q → t.visited.count q ≤ 1) :
    (t.met.flatMap f).count p ≤ 1 := by
  have hnext : ∀ q, p ∈ (Stmt.nodes (t.statementsAt q)).flatMap f → p ∈ t.graph.next q := by
    intro q hq
    obtain ⟨s, hs, hps⟩ := List.mem_flatMap.mp hq
    rw [next_graph, Stmt.mentionsAll_eq_flatMap]
    exact List.mem_flatMap.mpr ⟨s, hs, hf s p hps⟩
  -- A number that leads somewhere is that of a definition.
  have hdefined : ∀ q, p ∈ t.graph.next q → q ∈ t.collected.definitions := by
    intro q hq
    by_contra hnot
    have hnil : t.graph.next q = [] := Collected.next_eq_nil hnot
    rw [hnil] at hq
    cases hq
  have hle := count_flatMap_le (l := t.visited) (m := t.collected.definitions)
    (fun q => (Stmt.nodes (t.statementsAt q)).flatMap f) p
    fun q _ hq => ⟨hp q (hnext q hq), hdefined q (hnext q hq)⟩
  have hone := List.nodup_iff_count_le_one.mp hnodup p
  rw [statements_eq, List.flatMap_append, List.count_append, List.flatMap_assoc] at hone
  rw [met, List.flatMap_append, List.count_append, List.flatMap_assoc]
  omega

/-- A walk visits no definition twice, exactly when it meets no block both at its slot and in the
table of an `embed`. -/
theorem nodup_visited_iff :
    t.visited.Nodup ↔
      (t.met.flatMap Stmt.places).Disjoint ((t.met.flatMap Stmt.entries).map .block) := by
  obtain ⟨rank, hranks⟩ := exists_ranks_of_parse h
  have hperm := hranks.perm_visited_split
  refine ⟨fun hnodup => ?_, fun hdisjoint => ?_⟩
  · exact List.disjoint_of_nodup_append (hperm.nodup_iff.mp hnodup)
  · refine List.nodup_iff_count_le_one.mpr fun p => ?_
    -- From high ranks to low ones: what mentions a definition is visited once, by induction.
    induction hn : t.depth - rank p using Nat.strongRecOn generalizing p with
    | ind n ih =>
      subst hn
      have honce : ∀ q, p ∈ t.graph.next q → t.visited.count q ≤ 1 := by
        intro q hq
        refine ih _ ?_ q rfl
        have := hranks.lt q p hq
        have := hranks.lt_depth q
        omega
      have hplaces := count_met_le (f := Stmt.places) (wellFormed_of_parse h).placed_once
        (fun s p hp => List.mem_append_left _ hp) honce
      have hentries := count_met_le (f := fun s => s.entries.map .block)
        (by
          rw [← List.map_flatMap]
          exact (nodup_entries_of_parse h).map fun _ _ heq => Definition.block.inj heq)
        (fun s p hp => List.mem_append_right _ hp) honce
      rw [hperm.count_eq, List.count_append]
      rw [← List.map_flatMap] at hentries
      -- It is not both placed and entered.
      by_cases hp : p ∈ t.met.flatMap Stmt.places
      · rw [List.count_eq_zero.mpr (hdisjoint hp)]
        omega
      · rw [List.count_eq_zero.mpr hp]
        omega

end Parsed

end Template

end Stencil
