import Stencil.Proofs.Render.Trail
import Stencil.Proofs.Template.RoundTrip

/-!
Chains without an end.

A chain of `extends` goes on from a template to the one that it extends as long as the name of that
one is new.  Nothing else holds it up: unlike inclusions, blocks and macros, the templates of a
chain are not counted.  So a chain comes to an end exactly if there is a bound for the number of
names that it comes by.  There is one if the templates come from a table.  There is none where every
name is the source of its template, and a template extends the one whose name is its own and a
letter more.

That a chain comes to an end means that beyond some number of templates it does not matter how many
more of them the render would follow.  A chain without an end is given up wherever it is.
-/

namespace Stencil

open Render

variable {ω : Type} [HostObject ω] {env : Environment ω} {runner : Runner ω}
  {s t u : RenderState ω} {names names' : List String} {levels levels' : List Level}
  {name : String}

namespace Render

/-! ## §1. Turns -/

/-- A turn that leads to a new name is one that the chain goes on with. -/
theorem Turn.run_chainTurn_of_new (h : Turn env runner s name u)
    (hnew : u.frame.template.name ∉ names) (levels : List Level) :
    ∃ levels', (chainTurn env runner names levels).run s =
      (.ok (levels', some (u.frame.template.name :: names)), u) := by
  obtain ⟨uses, r, t, v, hturn, hresolve, hstate⟩ := h.exists_reference levels
  refine ⟨⟨s.frame.template, uses⟩ :: levels, ?_⟩
  rw [run_chainTurn_of_step hturn, run_stepChain_of_new hresolve hnew, ← hstate]
  rfl

/-- A chain goes on only with a turn that leads to a new name. -/
theorem turn_of_run_chainTurn
    (h : (chainTurn env runner names levels).run s = (.ok (levels', some names'), u)) :
    ∃ name, Turn env runner s name u ∧ u.frame.template.name ∉ names ∧
      names' = u.frame.template.name :: names := by
  unfold chainTurn at h
  obtain ⟨⟨levels₁, r?⟩, u₃, hturn, h⟩ := run_bind_eq_ok h
  unfold followTurn at hturn
  rw [run_bind_ok (run_frame s)] at hturn
  obtain ⟨uses, u₁, huses, hturn⟩ := run_bind_eq_ok hturn
  cases hparent : s.frame.template.template.parent with
  | none =>
    simp only [hparent] at hturn
    cases hturn
    cases h
  | some extended =>
    simp only [hparent] at hturn
    obtain ⟨_, u₂, hpreamble, hturn⟩ := run_bind_eq_ok hturn
    obtain ⟨r, _, hreference, hturn⟩ := run_bind_eq_ok hturn
    cases hturn
    obtain ⟨names₁, u', hstep, h⟩ := run_bind_eq_ok h
    cases h
    unfold stepChain at hstep
    obtain ⟨parent, u₄, hresolve, hstep⟩ := run_bind_eq_ok hstep
    by_cases hmet : names.contains parent.name
    · simp only [hmet, if_true] at hstep
      cases hstep
    · simp only [hmet] at hstep
      cases hstep
      refine ⟨_, .turn hparent huses hpreamble hreference hresolve, ?_, rfl⟩
      exact fun hmem => hmet (List.contains_iff_mem.mpr hmem)

/-! ## §2. Ways -/

/-- The names that a chain comes by from the running template of a state on, each of them new, and
the state in which the last of these templates runs. -/
inductive Way (env : Environment ω) (runner : Runner ω) (s : RenderState ω) :
    List String → RenderState ω → Prop
  | start : Way env runner s [s.frame.template.name] s
  | step {names : List String} {t u : RenderState ω} {name : String} :
    Way env runner s names t → Turn env runner t name u → u.frame.template.name ∉ names →
    Way env runner s (names ++ [u.frame.template.name]) u

namespace Way

theorem length_pos (h : Way env runner s names t) : 0 < names.length := by
  cases h <;> simp

/-- The last template on a way is the one that runs. -/
theorem getLast? (h : Way env runner s names t) :
    names.getLast? = some t.frame.template.name := by
  cases h with
  | start => rfl
  | step => exact List.getLast?_concat

theorem mem (h : Way env runner s names t) : t.frame.template.name ∈ names :=
  List.mem_of_getLast? h.getLast?

theorem nodup (h : Way env runner s names t) : names.Nodup := by
  induction h with
  | start => exact List.nodup_singleton _
  | @step names t u name _ _ hnew ih =>
    refine List.nodup_append.mpr ⟨ih, List.nodup_singleton _, ?_⟩
    rintro a ha b hb rfl
    exact hnew (List.mem_singleton.mp hb ▸ ha)

/-- A way passes through all lengths up to its own. -/
theorem exists_of_le (h : Way env runner s names t) {k : Nat} (hk : k < names.length) :
    ∃ names' t', Way env runner s names' t' ∧ names'.length = k + 1 := by
  induction h with
  | start =>
    rw [List.length_singleton] at hk
    exact ⟨_, s, .start, by simp; omega⟩
  | @step names t u name h hturn hnew ih =>
    rw [List.length_append, List.length_singleton] at hk
    by_cases hlt : k < names.length
    · exact ih hlt
    · exact ⟨_, u, .step h hturn hnew, by simp; omega⟩

/-- On a way that has a bound there is a template from which no turn leads to a new name. -/
theorem exists_last {bound : Nat}
    (hbound : ∀ names t, Way env runner s names t → names.length ≤ bound) :
    ∃ names t, Way env runner s names t ∧
      ∀ name u, Turn env runner t name u → u.frame.template.name ∈ names := by
  by_contra hnone
  push Not at hnone
  -- Else there is a way of any length.
  have hways : ∀ k, ∃ names t, Way env runner s names t ∧ names.length = k + 1 := by
    intro k
    induction k with
    | zero => exact ⟨_, s, .start, rfl⟩
    | succ k ih =>
      obtain ⟨names, t, h, hlength⟩ := ih
      obtain ⟨name, u, hturn, hnew⟩ := hnone names t h
      exact ⟨_, u, h.step hturn hnew, by simp [hlength]⟩
  obtain ⟨names, t, h, hlength⟩ := hways bound
  have := hbound names t h
  omega

end Way

/-! ## §3. Following a chain -/

/-- What comes of following a chain through at most `k` templates from the running one on. -/
def follow (env : Environment ω) (runner : Runner ω) (s : RenderState ω) (k : Nat) :
    Except Failure (List Level) × RenderState ω :=
  (followChain env runner k [s.frame.template.name] []).run s

/-- A chain is followed along its way. -/
theorem Way.run_followChain (h : Way env runner s names t) :
    ∃ levels, ∀ k, follow env runner s (names.length - 1 + k) =
      (followChain env runner k names.reverse levels).run t := by
  induction h with
  | start =>
    refine ⟨[], fun k => ?_⟩
    rw [List.length_singleton, Nat.sub_self, Nat.zero_add]
    rfl
  | @step names t u name h hturn hnew ih =>
    obtain ⟨levels, hfollow⟩ := ih
    have hpos := h.length_pos
    obtain ⟨levels', hrun⟩ :=
      hturn.run_chainTurn_of_new (mt List.mem_reverse.mp hnew) levels
    refine ⟨levels', fun k => ?_⟩
    have hlength : (names ++ [u.frame.template.name]).length - 1 + k =
        names.length - 1 + (k + 1) := by
      rw [List.length_append, List.length_singleton]
      omega
    rw [hlength, hfollow, followChain_succ, run_bind_ok hrun, List.reverse_append]
    rfl

/-- A chain that is followed no further is given up where it is. -/
theorem Way.follow_exhausted (h : Way env runner s names t) :
    follow env runner s (names.length - 1) = (.error .exhausted, t) := by
  obtain ⟨levels, hfollow⟩ := h.run_followChain
  exact hfollow 0

/-- Where no turn leads to a new name, the chain comes to its end: with the levels of the templates
on its way, or with the failure of the last turn. -/
theorem Way.exists_outcome (h : Way env runner s names t)
    (hlast : ∀ name u, Turn env runner t name u → u.frame.template.name ∈ names) :
    ∃ outcome, (∀ m, names.length ≤ m → follow env runner s m = outcome) ∧
      ((∃ levels, outcome.1 = .ok levels) ∨
        ∃ levels e, (chainTurn env runner names.reverse levels).run t = (.error e, outcome.2) ∧
          outcome.1 = .error e) := by
  have hpos := h.length_pos
  obtain ⟨levels, hfollow⟩ := h.run_followChain
  have hturns : ∀ m, names.length ≤ m → follow env runner s m =
      (followChain env runner (m - names.length + 1) names.reverse levels).run t := by
    intro m hm
    rw [← hfollow, show names.length - 1 + (m - names.length + 1) = m by omega]
  rcases hrun : (chainTurn env runner names.reverse levels).run t with ⟨e | ⟨levels', more⟩, u⟩
  · refine ⟨(.error e, u), fun m hm => ?_, .inr ⟨levels, e, hrun, rfl⟩⟩
    rw [hturns m hm, followChain_succ, run_bind_error hrun]
  · cases more with
    | none =>
      refine ⟨(.ok levels'.reverse, u), fun m hm => ?_, .inl ⟨_, rfl⟩⟩
      rw [hturns m hm, followChain_succ, run_bind_ok hrun]
      rfl
    | some names' =>
      obtain ⟨name, hturn, hnew, -⟩ := turn_of_run_chainTurn hrun
      exact absurd (List.mem_reverse.mpr (hlast name u hturn)) hnew

/-- What a chain comes to, if it comes to an end: the outcome of following it through enough
templates, however many more there may be. -/
def ComesTo (env : Environment ω) (runner : Runner ω) (s : RenderState ω)
    (outcome : Except Failure (List Level) × RenderState ω) : Prop :=
  ∃ k, ∀ m, k ≤ m → follow env runner s m = outcome

theorem ComesTo.unique {outcome outcome' : Except Failure (List Level) × RenderState ω}
    (h : ComesTo env runner s outcome) (h' : ComesTo env runner s outcome') :
    outcome = outcome' := by
  obtain ⟨k, hend⟩ := h
  obtain ⟨k', hend'⟩ := h'
  exact (hend (max k k') (Nat.le_max_left _ _)).symm.trans (hend' _ (Nat.le_max_right _ _))

/-- A way does not go on beyond the end of its chain. -/
theorem Way.length_le {k : Nat} {outcome : Except Failure (List Level) × RenderState ω}
    (hend : ∀ m, k ≤ m → follow env runner s m = outcome) (h : Way env runner s names t) :
    names.length ≤ k + 1 := by
  by_contra hlong
  -- Of two templates after the end the second one has a name that the first one has not.
  obtain ⟨names', u, hway, hlength⟩ := h.exists_of_le (show k + 1 < names.length by omega)
  cases hway with
  | start => simp at hlength
  | @step names' t' u name hway hturn hnew =>
    have hfirst := hway.follow_exhausted
    have hsecond := (hway.step hturn hnew).follow_exhausted
    rw [hlength, hend _ (by omega)] at hsecond
    rw [List.length_append, List.length_singleton] at hlength
    rw [hend _ (by omega), hsecond] at hfirst
    injection hfirst with _ hstate
    exact hnew (hstate ▸ hway.mem)

/-- With templates from a table a chain comes to an end within as many templates. -/
theorem follow_eq_of_shelved {sources : Table String} (henv : env.Shelved sources) (n : Nat)
    (hs : s.Answered env) (hknown : s.frame.template.name ∈ sources.names) {m : Nat}
    (hm : sources.length ≤ m) :
    follow env (Render.runner env n) s m = follow env (Render.runner env n) s sources.length := by
  have hnames : ∀ names t, Way env (Render.runner env n) s names t →
      OnShelf env sources s.output t ∧ names ⊆ sources.names := by
    intro names t h
    induction h with
    | start => exact ⟨⟨hs, hknown, rfl⟩, List.cons_subset.mpr ⟨hknown, List.nil_subset _⟩⟩
    | step _ hturn _ ih =>
      obtain ⟨ht, hnames⟩ := ih
      have hu := (hturn.onShelf henv ht).1
      exact ⟨hu, List.append_subset.mpr
        ⟨hnames, List.cons_subset.mpr ⟨hu.known, List.nil_subset _⟩⟩⟩
  have hbound : ∀ names t, Way env (Render.runner env n) s names t →
      names.length ≤ sources.length :=
    fun names t h => Table.length_le_of_nodup h.nodup (hnames names t h).2
  obtain ⟨names, t, h, hlast⟩ := Way.exists_last hbound
  obtain ⟨outcome, hend, -⟩ := h.exists_outcome hlast
  have hlength := hbound names t h
  rw [hend m (hlength.trans hm), hend _ hlength]

end Render

/-! ## §4. A chain without an end -/

/-- The name of the running template and a letter more. -/
def longerName : Phrase :=
  .binary .concat (.name ⟨⟨"_self", by decide⟩, by decide +kernel⟩) (.string "x")

/-- A page that extends the template with a longer name, and has some more of the letter after the
tag. -/
def growingPage (k : Nat) : Page where
  parent := some longerName
  clauses := [.text {
    text := .ofList (List.replicate (k + 1) 'x')
    nonempty := by simp
    free := by
      intro c _ hmem
      have hbrace : '\x7b' ∈ List.replicate (k + 1) 'x' := by
        simpa using hmem.subset (.head _)
      exact absurd (List.eq_of_mem_replicate hbrace) (by decide)
    ends := by simp [List.getLast?_replicate] }]
  spaced := by simp [Clause.AllSpaced, Clause.Spaced]
  distinct := by simp [Clause.allTitles, Clause.titles]

/-- The text of each page is that of the page before it and a letter more. -/
theorem growingPage_text_succ (k : Nat) :
    (growingPage (k + 1)).text = (growingPage k).text ++ "x" := by
  have htext : ∀ k, (growingPage k).text.toList =
      (Fragment.tag ⟨"extends", by decide⟩ longerName.words).spelling ++
        List.replicate (k + 1) 'x' := by
    intro k
    simp [Page.text, Page.fragments, growingPage, Clause.allFragments, Clause.fragments,
      Fragment.spelling]
  apply String.toList_injective
  rw [String.toList_append, htext, htext, List.append_assoc, List.replicate_succ']
  rfl

theorem length_growingPage_text_succ (k : Nat) :
    (growingPage (k + 1)).text.length = (growingPage k).text.length + 1 := by
  rw [growingPage_text_succ, String.length_append]
  rfl

/-- What is read of a page, wherever its nodes are. -/
theorem parse_growingPage (k : Nat) (name : String) :
    ∃ t, Template.parse name (growingPage k).text = .ok t ∧ t.name = name ∧
      (∃ pos p p₁ p₂, t.parent =
        some ⟨pos, .binary p .concat (.name p₁ selfName) (.string p₂ "x")⟩) ∧
      ∃ q text, t.body = [.text q text] := by
  obtain ⟨t, hparse, hunplaced⟩ := Template.parse_page (growingPage k) name
  have htemplate : (growingPage k).template name =
      ⟨name, some ⟨.start, .binary .start .concat (.name .start selfName) (.string .start "x")⟩,
        [.text .start (.ofList (List.replicate (k + 1) 'x'))], [], [], [], []⟩ := rfl
  rw [htemplate] at hunplaced
  injection hunplaced with hname hparent hbody
  refine ⟨t, hparse, hname, ?_, ?_⟩
  · obtain ⟨⟨pos, e⟩, hextended, he⟩ := Option.map_eq_some_iff.mp hparent
    obtain ⟨p, left, right, rfl, hleft, hright⟩ : ∃ p left right,
        e = .binary p .concat left right ∧ left.unplaced = .name .start selfName ∧
          right.unplaced = .string .start "x" := by
      cases e <;> simp_all [Extends.unplaced, Expr.unplaced]
    obtain ⟨p₁, rfl⟩ : ∃ p₁, left = .name p₁ selfName := by
      cases left <;> simp_all [Expr.unplaced]
    obtain ⟨p₂, rfl⟩ : ∃ p₂, right = .string p₂ "x" := by
      cases right <;> simp_all [Expr.unplaced]
    exact ⟨pos, p, p₁, p₂, hextended⟩
  · obtain ⟨s, hs, htext⟩ := List.map_eq_singleton_iff.mp hbody
    cases s <;> simp_all [Stmt.unplaced]

/-- The environment in which every name is the source of its template, and nothing else is there. -/
abbrev namesAsSources (ω : Type) (patience : Nat) : Environment ω :=
  .empty .ofName patience

omit [HostObject ω] in
theorem template_namesAsSources (patience : Nat) {source : String} {t : Template}
    (h : Template.parse source source = .ok t) :
    (namesAsSources ω patience).template source = .ok t := by
  show (namesAsSources ω patience).prepare source source = _
  rw [Environment.prepare, h]
  rfl

/-- The states in which a chain has come to a page, with no variable in the place of the name that
means the running template. -/
structure OnPage (patience k : Nat) (s : RenderState ω) : Prop where
  answered : s.Answered (namesAsSources ω patience)
  running : Template.parse (growingPage k).text (growingPage k).text =
    .ok s.frame.template.template
  unset : s.frame.scope.find? selfName = none

namespace OnPage

variable {patience k : Nat}

omit [HostObject ω] in
theorem name_eq (h : OnPage patience k s) : s.frame.template.name = (growingPage k).text := by
  obtain ⟨t, ht, hname, -⟩ := parse_growingPage k (growingPage k).text
  rw [h.running] at ht
  cases ht
  exact hname

/-- The name that a page extends is the text of the next page. -/
theorem eval_extended (h : OnPage patience k s) (n : Nat) (p p₁ p₂ : Position) :
    ((Render.runner (namesAsSources ω patience) n).eval
        (.binary p .concat (.name p₁ selfName) (.string p₂ "x"))).run s =
      (.ok (.string (growingPage (k + 1)).text), s) := by
  have hfind : find? (namesAsSources ω patience) s.frame selfName =
      some (.string (growingPage k).text) := by
    unfold find?
    rw [h.unset, h.name_eq]
    rfl
  have hself : (lookup (namesAsSources ω patience) p₁ selfName).run s =
      (.ok (.string (growingPage k).text), s) := by
    rw [lookup, run_bind_ok (run_frame s)]
    simp only [hfind, run_pure]
  show (eval _ _ _).run s = _
  rw [eval, eval, eval, applyBinary, run_bind_ok hself, growingPage_text_succ]
  rfl

/-- From each page a turn leads to the next one. -/
theorem turn (h : OnPage patience k s) (n : Nat) :
    ∃ name u, Turn (namesAsSources ω patience) (Render.runner (namesAsSources ω patience) n) s
      name u ∧ OnPage patience (k + 1) u := by
  obtain ⟨t, ht, -, ⟨pos, p, p₁, p₂, hparent⟩, q, text, hbody⟩ :=
    parse_growingPage k (growingPage k).text
  rw [h.running] at ht
  cases ht
  obtain ⟨next, hnext, -⟩ := parse_growingPage (k + 1) (growingPage (k + 1)).text
  have hsteady : (namesAsSources ω patience).Steady := fun _ _ => rfl
  obtain ⟨loaded, requests, hload, hanswered⟩ :=
    run_load_of_steady hsteady (growingPage (k + 1)).text h.answered
  rw [Environment.answer, template_namesAsSources patience hnext] at hload
  have hreference : (reference (Render.runner (namesAsSources ω patience) n).eval
      (.binary p .concat (.name p₁ selfName) (.string p₂ "x"))).run s =
        (.ok (.named (growingPage (k + 1)).text), s) :=
    run_bind_ok (h.eval_extended n p p₁ p₂) _
  have huses : (usedTemplates (namesAsSources ω patience)
      (Render.runner (namesAsSources ω patience) n).eval s.frame.template.template.reuses).run s =
        (.ok [], s) := by
    rw [Template.reuses, hbody]
    rfl
  have hpreamble : ((Render.runner (namesAsSources ω patience) n).body
      (s.frame.template.template.body.filter isPreamble)).run s = (.ok (), s) := by
    rw [hbody]
    rfl
  exact ⟨_, _, .turn hparent huses hpreamble hreference hload, hanswered, hnext, h.unset⟩

/-- From the first page on there are ways of all lengths, as each page has a longer name than those
before it. -/
theorem exists_way (h : OnPage patience 0 s) (n k : Nat) :
    ∃ names t, Way (namesAsSources ω patience) (Render.runner (namesAsSources ω patience) n) s
      names t ∧ names.length = k + 1 := by
  suffices hway : ∃ names t,
      Way (namesAsSources ω patience) (Render.runner (namesAsSources ω patience) n) s names t ∧
        names.length = k + 1 ∧ OnPage patience k t ∧
        ∀ name ∈ names, name.length ≤ (growingPage k).text.length by
    obtain ⟨names, t, hway, hlength, -⟩ := hway
    exact ⟨names, t, hway, hlength⟩
  induction k with
  | zero =>
    refine ⟨_, s, .start, rfl, h, fun name hname => ?_⟩
    rw [List.mem_singleton.mp hname, h.name_eq]
  | succ k ih =>
    obtain ⟨names, t, hway, hlength, ht, hnames⟩ := ih
    obtain ⟨name, u, hturn, hu⟩ := ht.turn n
    have hlonger := length_growingPage_text_succ k
    have hnew : u.frame.template.name ∉ names := by
      intro hmem
      have := hnames _ hmem
      rw [hu.name_eq] at this
      omega
    refine ⟨_, u, hway.step hturn hnew, by simp [hlength], hu, fun name hname => ?_⟩
    rcases List.mem_append.mp hname with hname | hname
    · have := hnames name hname
      omega
    · rw [List.mem_singleton.mp hname, hu.name_eq]

omit [HostObject ω] in
/-- A render starts on the first page, if the context has no variable in the place of that name. -/
theorem startState {t : Template}
    (ht : Template.parse (growingPage 0).text (growingPage 0).text = .ok t) (patience : Nat)
    {context : Context ω} (hself : context.find? selfName = none) (room : Option Nat)
    (requests : List String) :
    OnPage patience 0 (Environment.startState ⟨t, .entry⟩ context room requests) := by
  refine ⟨Environment.answered_startState _ _ context room requests, ht, ?_⟩
  rw [Environment.startState, Scope.find?]
  simpa [Scope.ofLayer, Scope.layers] using hself

end OnPage

/-- **A render whose chain has no end.**  However many templates it would follow, it is given up. -/
theorem outcome_growingPage (patience : Nat) {context : Context ω}
    (hself : context.find? selfName = none) (room : Option Nat) :
    ((namesAsSources ω patience).render (growingPage 0).text context room).outcome =
      .error .exhausted := by
  obtain ⟨t, hparse, -⟩ := parse_growingPage 0 (growingPage 0).text
  have hpage := OnPage.startState hparse patience hself room [(growingPage 0).text]
  obtain ⟨names, u, hway, hlength⟩ := hpage.exists_way maxDepth patience
  have hchain : (chain (namesAsSources ω patience)
      (Render.runner (namesAsSources ω patience) maxDepth)).run
        (Environment.startState ⟨t, .entry⟩ context room [(growingPage 0).text]) =
          (.error .exhausted, u) := by
    have hexhausted := hway.follow_exhausted
    rwa [hlength, Nat.add_sub_cancel] at hexhausted
  rw [Environment.render, template_namesAsSources patience hparse]
  exact congrArg RenderReport.outcome (renderFrom_of_chain_error hchain)

end Stencil
