import Stencil.Template.Basic

/-!
Which definitions lead to which.

The body of a block or of a macro is kept apart from the statement where it is written, and a
statement mentions definitions by number: a slot mentions its block, the place of a macro mentions
the macro, and an `embed` mentions the blocks of its table.  The bodies of a template and what they
mention form a graph.  What is read off a template by following mentions, as passes do, and what is
read off its tables, as renders do, are both sets of definitions reached in this graph.
-/

namespace Stencil

/-! ## §1. Mentions and prints -/

/-- A block or a macro of a template, by its number. -/
inductive Definition
  | block (id : DefinitionId)
  | macroDef (id : DefinitionId)
deriving DecidableEq, Repr

mutual

/-- The definitions that a statement mentions, at any depth, in order. -/
def Stmt.mentions : Stmt → List Definition
  | .block _ id => [.block id]
  | .defines _ id => [.macroDef id]
  | .embeds _ blocks => blocks.values.map .block
  | .branch _ _ body orElse | .loop _ _ _ _ body orElse =>
    Stmt.mentionsAll body ++ Stmt.mentionsAll orElse
  | .capture _ _ body | .filtered _ _ body => Stmt.mentionsAll body
  | .text .. | .print .. | .includes _ | .reuses _ | .assign .. | .perform .. | .importAll ..
  | .importSome .. => []

/-- The definitions that a list of statements mentions. -/
def Stmt.mentionsAll : List Stmt → List Definition
  | [] => []
  | s :: ss => s.mentions ++ Stmt.mentionsAll ss

end

mutual

/-- The expressions that a statement prints, at any depth, in order. -/
def Stmt.prints : Stmt → List Expr
  | .print _ e => [e]
  | .branch _ _ body orElse | .loop _ _ _ _ body orElse =>
    Stmt.printsAll body ++ Stmt.printsAll orElse
  | .capture _ _ body | .filtered _ _ body => Stmt.printsAll body
  | .text .. | .block .. | .includes _ | .embeds .. | .reuses _ | .assign .. | .perform ..
  | .defines .. | .importAll .. | .importSome .. => []

/-- The expressions that a list of statements prints. -/
def Stmt.printsAll : List Stmt → List Expr
  | [] => []
  | s :: ss => s.prints ++ Stmt.printsAll ss

end

/-- The body of a definition, or nothing if there is none of this number. -/
def Definition.body (blocks : List Block) (macros : List MacroDef) : Definition → List Stmt
  | .block id => (blocks[id]?.map Block.body).getD []
  | .macroDef id => (macros[id]?.map MacroDef.body).getD []

namespace Definition

variable (blocks : List Block) (macros : List MacroDef)

theorem body_set_block_of_ne {id : DefinitionId} (b : Block) {p : Definition}
    (h : p ≠ .block id) : p.body (blocks.set id b) macros = p.body blocks macros := by
  cases p with
  | block other =>
    have hne : id ≠ other := fun he => h (he ▸ rfl)
    simp [body, List.getElem?_set_ne hne]
  | macroDef _ => rfl

theorem body_set_macro_of_ne {id : DefinitionId} (m : MacroDef) {p : Definition}
    (h : p ≠ .macroDef id) : p.body blocks (macros.set id m) = p.body blocks macros := by
  cases p with
  | block _ => rfl
  | macroDef other =>
    have hne : id ≠ other := fun he => h (he ▸ rfl)
    simp [body, List.getElem?_set_ne hne]

end Definition

theorem Stmt.mentionsAll_append (ss more : List Stmt) :
    Stmt.mentionsAll (ss ++ more) = Stmt.mentionsAll ss ++ Stmt.mentionsAll more := by
  induction ss with
  | nil => rfl
  | cons s ss ih => simp [Stmt.mentionsAll, ih]

@[simp] theorem Stmt.mentionsAll_singleton (s : Stmt) : Stmt.mentionsAll [s] = s.mentions := by
  simp [Stmt.mentionsAll]

/-! ## §2. Graphs -/

/-- The mentions of every body, by the number of the definition. -/
structure DefinitionGraph where
  blocks : List (List Definition)
  macros : List (List Definition)

namespace DefinitionGraph

/-- The graph of some blocks and macros. -/
def of (blocks : List Block) (macros : List MacroDef) : DefinitionGraph where
  blocks := blocks.map fun block => Stmt.mentionsAll block.body
  macros := macros.map fun definition => Stmt.mentionsAll definition.body

/-- What the body of a definition mentions. -/
def next (g : DefinitionGraph) : Definition → List Definition
  | .block id => g.blocks[id]?.getD []
  | .macroDef id => g.macros[id]?.getD []

theorem next_of (blocks : List Block) (macros : List MacroDef) (p : Definition) :
    (of blocks macros).next p = Stmt.mentionsAll (p.body blocks macros) := by
  cases p with
  | block id =>
    simp only [next, of, List.getElem?_map, Definition.body]
    cases blocks[id]? <;> rfl
  | macroDef id =>
    simp only [next, of, List.getElem?_map, Definition.body]
    cases macros[id]? <;> rfl

/-- The definitions that are mentioned, directly or by others, starting from some. -/
inductive Reaches (g : DefinitionGraph) (starts : List Definition) : Definition → Prop
  | start {p : Definition} : p ∈ starts → g.Reaches starts p
  | next {p q : Definition} : g.Reaches starts p → q ∈ g.next p → g.Reaches starts q

namespace Reaches

variable {g : DefinitionGraph} {starts more : List Definition} {p : Definition}

theorem trans (h : g.Reaches more p) (hmore : ∀ q ∈ more, g.Reaches starts q) :
    g.Reaches starts p := by
  induction h with
  | start hp => exact hmore _ hp
  | next _ hq ih => exact .next ih hq

theorem mono (h : g.Reaches more p) (hmore : ∀ q ∈ more, q ∈ starts) : g.Reaches starts p :=
  h.trans fun q hq => .start (hmore q hq)

theorem append (h : g.Reaches (starts ++ more) p) : g.Reaches starts p ∨ g.Reaches more p := by
  induction h with
  | start hp => exact (List.mem_append.mp hp).imp .start .start
  | next _ hq ih => exact ih.imp (.next · hq) (.next · hq)

theorem exists_start (h : g.Reaches starts p) : ∃ q ∈ starts, g.Reaches [q] p := by
  induction h with
  | @start q hq => exact ⟨q, hq, .start (List.mem_singleton_self q)⟩
  | next _ hq ih =>
    obtain ⟨q, hstart, hr⟩ := ih
    exact ⟨q, hstart, .next hr hq⟩

theorem nil : ¬ g.Reaches [] p := by
  intro h
  induction h with
  | start hp => cases hp
  | next _ _ ih => exact ih

/-- A path that starts somewhere goes on inside whatever more a graph may have. -/
theorem subgraph {g' : DefinitionGraph} (h : g.Reaches starts p)
    (hsub : ∀ p q, q ∈ g.next p → q ∈ g'.next p) : g'.Reaches starts p := by
  induction h with
  | start hp => exact .start hp
  | next _ hq ih => exact .next ih (hsub _ _ hq)

end Reaches

theorem mem_getD_append {l more : List (List Definition)} {i : Nat} {q : Definition}
    (h : q ∈ l[i]?.getD []) : q ∈ (l ++ more)[i]?.getD [] := by
  rcases Nat.lt_or_ge i l.length with hlt | hge
  · rwa [List.getElem?_append_left hlt]
  · rw [List.getElem?_eq_none hge] at h
    cases h

/-- Definitions that are added later take nothing away from the graph. -/
theorem next_of_prefix {blocks blocks' : List Block} {macros macros' : List MacroDef}
    (hblocks : blocks <+: blocks') (hmacros : macros <+: macros') (p q : Definition)
    (h : q ∈ (of blocks macros).next p) : q ∈ (of blocks' macros').next p := by
  obtain ⟨moreBlocks, rfl⟩ := hblocks
  obtain ⟨moreMacros, rfl⟩ := hmacros
  cases p with
  | block id =>
    simp only [of, next, List.map_append] at h ⊢
    exact mem_getD_append h
  | macroDef id =>
    simp only [of, next, List.map_append] at h ⊢
    exact mem_getD_append h

/-! ## §3. Taking a definition out -/

/-- The graph in which the body of a definition has other mentions. -/
def put (g : DefinitionGraph) (p : Definition) (mentions : List Definition) : DefinitionGraph :=
  match p with
  | .block id => { g with blocks := g.blocks.set id mentions }
  | .macroDef id => { g with macros := g.macros.set id mentions }

/-- The graph in which the body of a definition mentions nothing. -/
def clear (g : DefinitionGraph) (p : Definition) : DefinitionGraph :=
  g.put p []

@[simp] theorem put_put (g : DefinitionGraph) (p : Definition) (mentions more : List Definition) :
    (g.put p mentions).put p more = g.put p more := by
  cases p <;> simp [put]

theorem set_getD (l : List (List Definition)) (i : Nat) : l.set i (l[i]?.getD []) = l := by
  rcases Nat.lt_or_ge i l.length with h | h
  · simp [h]
  · -- There is nothing at `i` to be set.
    exact List.set_eq_of_length_le h

/-- Nothing changes where the mentions are those that were there. -/
@[simp] theorem put_next (g : DefinitionGraph) (p : Definition) : g.put p (g.next p) = g := by
  cases p <;> simp [put, next, set_getD]

theorem of_set_block (blocks : List Block) (macros : List MacroDef) (id : DefinitionId)
    (b : Block) :
    of (blocks.set id b) macros = (of blocks macros).put (.block id) (Stmt.mentionsAll b.body) := by
  simp [of, put, List.map_set]

theorem of_set_macro (blocks : List Block) (macros : List MacroDef) (id : DefinitionId)
    (m : MacroDef) :
    of blocks (macros.set id m) =
      (of blocks macros).put (.macroDef id) (Stmt.mentionsAll m.body) := by
  simp [of, put, List.map_set]

theorem getD_set_nil (l : List (List Definition)) (i j : Nat) :
    (l.set i [])[j]?.getD [] = if j = i then [] else l[j]?.getD [] := by
  rw [List.getElem?_set]
  by_cases h : i = j
  · -- Nothing is read there now, and nothing was beyond the end.
    by_cases hlt : j < l.length <;> simp [h, hlt]
  · simp [h, Ne.symm h]

theorem next_clear (g : DefinitionGraph) (p q : Definition) :
    (g.clear p).next q = if q = p then [] else g.next q := by
  cases p <;> cases q <;> simp [clear, put, next, getD_set_nil]

theorem Reaches.of_clear {g : DefinitionGraph} {starts : List Definition} {p q : Definition}
    (h : (g.clear p).Reaches starts q) : g.Reaches starts q := by
  apply h.subgraph
  intro a b hb
  rw [next_clear] at hb
  by_cases ha : a = p
  · simp [ha] at hb
  · rwa [if_neg ha] at hb

/-- What a definition leads to is itself or what its mentions lead to without it: only the last
time that a path comes by the definition matters. -/
theorem Reaches.clear {g : DefinitionGraph} {p q : Definition} (h : g.Reaches [p] q) :
    q = p ∨ (g.clear p).Reaches (g.next p) q := by
  -- Along the path: before it comes by `p` for the last time there is nothing to show, and after
  -- that every step is one of the graph without `p`.
  induction h with
  | start hp => exact .inl (List.mem_singleton.mp hp)
  | @next a b _ hb ih =>
    rcases ih with rfl | ha
    · exact .inr (.start hb)
    · by_cases hap : a = p
      · subst hap
        exact .inr (.start hb)
      · refine .inr (.next ha ?_)
        rwa [next_clear, if_neg hap]

/-- How many bodies mention something. -/
def busy (g : DefinitionGraph) : Nat :=
  g.blocks.countP (fun mentions => !mentions.isEmpty) +
    g.macros.countP (fun mentions => !mentions.isEmpty)

theorem countP_set_nil {l : List (List Definition)} {i : Nat} (h : l[i]?.getD [] ≠ []) :
    (l.set i []).countP (fun mentions => !mentions.isEmpty) + 1 =
      l.countP fun mentions => !mentions.isEmpty := by
  -- The body that is emptied is the first one, or it lies further on.
  induction l generalizing i with
  | nil => simp at h
  | cons mentions l ih =>
    cases i with
    | zero =>
      have hm : mentions ≠ [] := by simpa using h
      simp [hm]
    | succ i =>
      have hi := ih (i := i) (by simpa using h)
      simp only [List.set_cons_succ, List.countP_cons]
      omega

/-- A body that mentions something is one of the busy ones. -/
theorem busy_clear {g : DefinitionGraph} {p : Definition} (h : g.next p ≠ []) :
    (g.clear p).busy + 1 = g.busy := by
  cases p with
  | block id =>
    have := countP_set_nil h
    simp only [busy, DefinitionGraph.clear, put]
    omega
  | macroDef id =>
    have := countP_set_nil h
    simp only [busy, DefinitionGraph.clear, put]
    omega

theorem busy_of_le (blocks : List Block) (macros : List MacroDef) :
    (of blocks macros).busy ≤ blocks.length + macros.length := by
  have hblocks := List.countP_le_length (p := fun mentions : List Definition => !mentions.isEmpty)
    (l := (of blocks macros).blocks)
  have hmacros := List.countP_le_length (p := fun mentions : List Definition => !mentions.isEmpty)
    (l := (of blocks macros).macros)
  simp only [of, List.length_map] at hblocks hmacros
  simp only [busy, of]
  omega

end DefinitionGraph

/-! ## §4. Templates -/

namespace Template

/-- The graph of the definitions of a template. -/
def graph (t : Template) : DefinitionGraph :=
  .of t.blocks t.macros

/-- The body of a definition. -/
def statementsAt (t : Template) (p : Definition) : List Stmt :=
  p.body t.blocks t.macros

/-- The definitions that the tables of a template name. -/
def named (t : Template) : List Definition :=
  t.blockTable.values.map .block ++ t.macroTable.values.map .macroDef

end Template

end Stencil
