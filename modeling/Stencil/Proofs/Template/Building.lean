import Stencil.Proofs.Expr.Applied
import Stencil.Proofs.Template.Written
import Stencil.Proofs.Token.Kinds
import Stencil.Template.Statement.Parser

/-!
Parsing builds up templates.

Every rule of the grammar makes of the tokens that are still to come and the definitions collected
before it what `Written` says.  The result is `parse_written`: what holds of everything that is
written so holds of all parsed templates, and no other proof has to look into the parser for it.
Without the tokens that is `parse_derives`.
-/

namespace Stencil

/-! ## §1. Names and lists -/

/-- Something is written after tokens of the same piece. -/
theorem Parse.Reads.written {σ : TokenStream} {good : Expr → Prop} {α β : Type} {x : Parse α}
    {f : α → Parse β} {P : α → Prop} {g : β → List Stmt} {l : List Token} {d : Collected}
    (hx : Parse.Reads σ x P)
    (hf : ∀ a l', P a →
      Parse.Collects σ (f a) l' d fun b l'' d' => Written good l' d (g b) l'' d') :
    Parse.Collects σ (x >>= f) l d fun b l'' d' => Written good l d (g b) l'' d' :=
  hx.bindCollects fun a l' hcross ha => (hf a l' ha).mono fun _ _ _ h => h.after hcross.passed

namespace Stmt

open Parse

variable {σ : TokenStream}

theorem collects_parseDottedName (n : Nat) (l : List Token) (d : Collected) :
    Collects σ (parseDottedName n) l d fun _ l' d' =>
      d' = d ∧ l' = dropParts (solid l).tail ∧ Crosses l l' := by
  refine Collects.bind (collects_name l d) fun first l₁ d₁ h => ?_
  obtain ⟨⟨token, hl, hname⟩, rfl⟩ := h
  have hfirst : Crosses l l₁ := .of_solid hl (by rw [Token.kind_of_is hname]; rfl)
  rw [hl, List.tail_cons]
  -- What is to be dropped from here on is the same before every part.
  refine Collects.iterate (fun _ l' d' => d' = d₁ ∧ dropParts l' = dropParts l₁ ∧ Crosses l l')
    (fun dotted l₂ d₂ h => ?_) n ⟨rfl, rfl, hfirst⟩
  obtain ⟨rfl, hdrop, hcross⟩ := h
  refine Collects.dotted (fun dot part rest hl₂ hdot hpart => ?_) rfl fun hend => ?_
  · subst hl₂
    refine Collects.pure ⟨rfl, ?_, hcross.trans (.cons ?_ (.cons ?_ (.refl rest)))⟩
    · rw [← hdrop, dropParts, hdot, hpart]
      rfl
    · rw [Token.kind_of_is hdot]
      rfl
    · rw [hpart]
      rfl
  · refine Collects.pure ⟨rfl, ?_, hcross⟩
    rw [← hdrop]
    unfold dropParts
    split
    · next dot part rest =>
      rw [if_neg]
      intro h
      simp only [Bool.and_eq_true, beq_iff_eq] at h
      exact hend dot part rest rfl h.1 h.2
    · rfl

theorem quiet_parseDottedName (n : Nat) : Quiet σ (parseDottedName n) :=
  fun l d => (collects_parseDottedName n l d).mono fun _ _ _ h => ⟨h.1, h.2.2, trivial⟩

theorem quiet_parseNamedEnd (n : Nat) (opened : String) : Quiet σ (parseNamedEnd n opened) := by
  refine Reads.peek fun token => Reads.faces ?_
  split
  · apply (quiet_parseDottedName n).bind
    intro found
    split
    · exact Quiet.bind (Reads.fail _ _) fun _ => quiet_endTag
    · exact quiet_endTag
  · exact quiet_endTag

theorem quiet_parseAlias? (keyword : String) : Quiet σ (parseAlias? keyword) := by
  apply (quiet_accept rfl _).bind
  intro _
  split
  · exact quiet_name.bind fun _ => Quiet.pure _
  · exact Quiet.pure _

/-! ## §2. Statements -/

/-- The parsers that rules build on: expressions are of a certain kind, and bodies are written.  No
body ends at a block. -/
structure Rules.Sound (σ : TokenStream) (good : Expr → Prop) (rules : Rules) : Prop where
  expr : Reads σ rules.expr good
  body : ∀ stops opening, "block" ∉ stops → ∀ l d,
    Collects σ (rules.body stops opening) l d fun body l' d' =>
      Written good l d body.statements l' d'

variable {good : Expr → Prop} {rules : Rules} (hrules : rules.Sound σ good)

include hrules

theorem reads_parseParams :
    Reads σ (parseParams rules) fun params => ∀ p ∈ params, ∀ e ∈ p.fallback, good e := by
  let Good (params : List Param) : Prop := ∀ p ∈ params, ∀ e ∈ p.fallback, good e
  refine Reads.iterate Good (fun params hparams => ?_) _ nofun
  apply Reads.nextSolid
  intro token
  split
  · next hkind =>
    exact Reads.pure ⟨by rw [hkind]; rfl, fun p hp => hparams p (List.mem_reverse.mp hp)⟩
  · next hkind =>
    have hpiece : token.kind.beginsPiece = false := by rw [hkind]; rfl
    apply (quiet_accept rfl _).bind
    intro _
    extract_lets more
    -- What comes after a parameter, the same with a fallback and without one.
    have hmore : ∀ fallback : Option Expr, (∀ e ∈ fallback, good e) →
        Reads σ (more fallback) fun r => token.kind.beginsPiece = false ∧ r.Holds Good Good := by
      intro fallback hfallback
      have hcons : Good (⟨token.value, fallback⟩ :: params) :=
        List.forall_mem_cons.mpr ⟨hfallback, hparams⟩
      apply (quiet_accept rfl _).bind
      intro _
      split
      · exact Reads.pure ⟨hpiece, hcons⟩
      · refine Reads.bind (quiet_expect (by simp [TokenKind.beginsPiece])) fun _ _ => ?_
        exact Reads.pure ⟨hpiece, fun p hp => hcons p (List.mem_reverse.mp hp)⟩
    split
    · refine Reads.bind (Reads.map hrules.expr some fun e he => ?_) hmore
      simpa using he
    · exact Reads.bind (Reads.pure (by simp)) hmore
  · exact Reads.unexpected _ _

theorem reads_parseInclusion (pos : Position) :
    Reads σ (parseInclusion rules pos) fun i => ∀ e ∈ i.template :: i.bindings.toList, good e := by
  refine Reads.bind hrules.expr fun template htemplate => (quiet_accept rfl _).bind fun _ => ?_
  extract_lets more
  have hmore : ∀ ignoreMissing, Reads σ (more ignoreMissing) fun i =>
      ∀ e ∈ i.template :: i.bindings.toList, good e := by
    intro ignoreMissing
    apply (quiet_accept rfl _).bind
    intro _
    extract_lets only
    have honly : ∀ bindings : Option Expr, (∀ e ∈ bindings, good e) →
        Reads σ (only bindings) fun i => ∀ e ∈ i.template :: i.bindings.toList, good e := by
      intro bindings hbindings
      refine (quiet_accept rfl _).bind fun _ => Reads.pure ?_
      exact List.forall_mem_cons.mpr ⟨htemplate, by simpa using hbindings⟩
    split
    · refine Reads.bind (Reads.map hrules.expr some fun e he => ?_) honly
      simpa using he
    · exact Reads.bind (Reads.pure (by simp)) honly
  split
  · exact (quiet_expectValue rfl _).bind fun _ => (Quiet.pure _).bind hmore
  · exact (Quiet.pure _).bind hmore

theorem reads_parseFilterCalls :
    Reads σ (parseFilterCalls rules) fun filters => ∀ f ∈ filters, ∀ e ∈ f.args, good e := by
  let Good (filters : List FilterCall) : Prop := ∀ f ∈ filters, ∀ e ∈ f.args, good e
  refine Reads.iterate Good (fun filters hfilters => ?_) _ (by rintro _ ⟨⟩)
  refine Reads.bind (quiet_expect (by simp [TokenKind.beginsPiece])) fun filter _ =>
    (quiet_accept rfl _).bind fun _ => ?_
  extract_lets more
  have hmore : ∀ args : List Expr, (∀ e ∈ args, good e) →
      Reads σ (more args) fun r => r.Holds Good Good := by
    intro args hargs
    have hcons : Good (⟨filter.position, filter.value, args⟩ :: filters) :=
      List.forall_mem_cons.mpr ⟨hargs, hfilters⟩
    apply (quiet_accept rfl _).bind
    intro _
    split
    · exact Reads.pure hcons
    · exact Reads.pure fun f hf => hcons f (List.mem_reverse.mp hf)
  split
  · exact Reads.bind (reads_listUntil hrules.expr _ rfl) hmore
  · exact Reads.bind (Reads.pure (by simp)) hmore

theorem reads_parseUse (pos : Position) :
    Reads σ (parseUse rules pos) fun s => s.Action ∧ ∀ e ∈ s.exprs, good e := by
  refine Reads.bind hrules.expr fun template htemplate => (quiet_accept rfl _).bind fun _ => ?_
  extract_lets reuse
  have hreuse : ∀ aliases, Reads σ (reuse aliases) fun s => s.Action ∧ ∀ e ∈ s.exprs, good e :=
    fun _ => quiet_endTag.bind fun _ => Reads.pure ⟨trivial, by simpa [exprs] using htemplate⟩
  split
  · refine Quiet.bind ?_ hreuse
    refine (reads_commaSeparated (P := fun _ => True) ?_ _).mono fun _ _ => trivial
    exact quiet_name.bind fun _ => (quiet_expectValue rfl _).bind fun _ =>
      quiet_name.bind fun _ => Quiet.pure _
  · exact (Quiet.pure _).bind hreuse

theorem reads_parseImport (pos : Position) :
    Reads σ (parseImport rules pos) fun s => s.Action ∧ ∀ e ∈ s.exprs, good e := by
  refine Reads.bind hrules.expr fun template htemplate => (quiet_expectValue rfl _).bind fun _ => ?_
  refine quiet_name.bind fun _ => quiet_endTag.bind fun _ => ?_
  exact Reads.pure ⟨trivial, by simpa [exprs] using htemplate⟩

theorem reads_parseFrom (pos : Position) :
    Reads σ (parseFrom rules pos) fun s => s.Action ∧ ∀ e ∈ s.exprs, good e := by
  refine Reads.bind hrules.expr fun template htemplate => (quiet_expectValue rfl _).bind fun _ => ?_
  refine Quiet.bind ?_ fun names => quiet_endTag.bind fun _ => ?_
  · refine (reads_commaSeparated (P := fun _ => True) ?_ _).mono fun _ _ => trivial
    exact quiet_name.bind fun _ => (quiet_parseAlias? _).bind fun _ => Quiet.pure _
  · exact Reads.pure ⟨trivial, by simpa [exprs] using htemplate⟩

variable {l : List Token} {d : Collected}

theorem collects_bodyOf (tag : String) (start : Position) {stops : List String}
    (hstops : "block" ∉ stops) (l : List Token) (d : Collected) :
    Collects σ (rules.bodyOf tag start stops) l d fun body l' d' =>
      Written good l d body.statements l' d' :=
  hrules.body stops _ hstops l d

omit hrules in
/-- A chain of branches is one branch, with the rest of the chain as its alternative. -/
theorem length_nestBranches_cons (pos : Position) (branch : Expr × List Stmt)
    (branches : List (Expr × List Stmt)) (orElse : List Stmt) :
    (nestBranches pos (branch :: branches) orElse).length = 1 := by
  induction branches generalizing branch orElse with
  | nil => rfl
  | cons next branches ih => exact ih next [.branch pos branch.1 branch.2 orElse]

theorem collects_parseIf (pos : Position) :
    Collects σ (parseIf rules pos) l d fun ss l' d' =>
      Written good l d ss l' d' ∧ ss.length ≤ 1 := by
  -- What the branches so far do to an alternative that is still to come.
  let Nests (branches : List (Expr × List Stmt)) (l' : List Token) (d' : Collected) : Prop :=
    ∀ {orElse l'' d''}, Written good l' d' orElse l'' d'' →
      Written good l d (nestBranches pos branches orElse) l'' d''
  refine Collects.iterate Nests (fun branches l₁ d₁ hbranches => ?_) _ (fun h => h)
  refine hrules.expr.bindCollects fun cond l₂ hl₂ hcond => ?_
  refine quiet_endTag.bindCollects fun _ l₃ hl₃ _ => ?_
  refine Collects.bind (collects_bodyOf hrules _ _ (by decide) _ _) fun body l₄ d₂ hbody => ?_
  have hbody := hbody.after (hl₂.trans hl₃).passed
  -- The branch that was just read takes the alternative as its own, and the branches before take
  -- the result.
  have hmore : Nests ((cond, body.statements) :: branches) l₄ d₂ :=
    fun h => hbranches (.branch pos hcond hbody h)
  have hlength : ∀ orElse,
      (nestBranches pos ((cond, body.statements) :: branches) orElse).length ≤ 1 :=
    fun orElse => Nat.le_of_eq (length_nestBranches_cons pos _ branches orElse)
  -- `elseif` reads on, `else` gives the alternative, and `endif` leaves it empty.
  split
  · exact Collects.pure hmore
  · refine (quiet_accept rfl _).bindCollects fun _ l₅ hl₅ _ => ?_
    split
    · exact Collects.pure fun h => hmore (h.after hl₅.passed)
    · refine quiet_endTag.bindCollects fun _ l₆ hl₆ _ => ?_
      refine Collects.bind (collects_bodyOf hrules _ _ (by decide) _ _)
        fun orElse l₇ d₃ horElse => ?_
      have horElse := horElse.after (hl₅.trans hl₆).passed
      refine quiet_endTag.bindCollects fun _ l₈ hl₈ _ => Collects.pure ⟨?_, hlength _⟩
      exact hmore (horElse.upTo hl₈.passed)
  · refine quiet_endTag.bindCollects fun _ l₅ hl₅ _ => Collects.pure ⟨?_, hlength _⟩
    exact hmore (.pass d₂ hl₅.passed)

theorem collects_parseFor (pos : Position) :
    Collects σ (parseFor rules pos) l d fun s l' d' => Written good l d [s] l' d' := by
  refine Reads.written quiet_name fun first l _ => ?_
  refine Reads.written (quiet_accept rfl _) fun _ l _ => ?_
  extract_lets items
  have hitems : ∀ names l, Collects σ (items names) l d fun s l' d' =>
      Written good l d [s] l' d' := by
    intro (key, value) l
    refine Reads.written (quiet_expectValue rfl _) fun _ l _ => ?_
    refine Reads.written hrules.expr fun iterable l hiterable => ?_
    refine Reads.written (quiet_accept rfl _) fun _ l _ => ?_
    extract_lets rounds
    have hrounds : ∀ (cond : Option Expr) l, (∀ e ∈ cond, good e) →
        Collects σ (rounds cond) l d fun s l' d' => Written good l d [s] l' d' := by
      intro cond l hcond
      refine Reads.written quiet_endTag fun _ l _ => ?_
      refine Collects.bind (collects_bodyOf hrules _ _ (by decide) _ _) fun body l₁ d₁ hbody => ?_
      refine quiet_endTag.bindCollects fun _ l₂ hl₂ _ => ?_
      have hbody := hbody.upTo hl₂.passed
      extract_lets statements loop
      -- A condition on the items is a branch around the body.
      have hstatements : Written good l d statements l₂ d₁ := by
        cases cond with
        | none => exact hbody
        | some cond => exact .branch pos (hcond cond rfl) hbody (.nil l₂ d₁)
      have hloop : ∀ orElse l₃ d₂, Written good l₂ d₁ orElse l₃ d₂ →
          Collects σ (loop orElse) l₃ d₂ fun s l' d' => Written good l d [s] l' d' :=
        fun _ _ _ horElse => Collects.pure (.loop pos key value hiterable hstatements horElse)
      split
      · refine Collects.bind (collects_bodyOf hrules _ _ (by decide) _ _)
          fun orElse l₃ d₂ horElse => ?_
        refine quiet_endTag.bindCollects fun _ l₄ hl₄ _ => ?_
        exact Collects.bind (Collects.pure (horElse.upTo hl₄.passed)) hloop
      · exact Collects.bind (Collects.pure (.nil l₂ d₁)) hloop
    split
    · exact Reads.written (Reads.map hrules.expr some fun e he => by simpa using he) hrounds
    · exact Reads.written (Reads.pure (by simp)) hrounds
  split
  · exact Reads.written quiet_name fun _ l _ =>
      Reads.written (Quiet.pure _) fun names l _ => hitems names l
  · exact Reads.written (Quiet.pure _) fun names l _ => hitems names l

omit hrules in
theorem collects_addBlock (block : Block) (l : List Token) (d : Collected) :
    Collects σ (addBlock block) l d fun id l' d' =>
      id = d.blocks.length ∧ l' = l ∧ d' = d.addBlock block ∧
        d.blockTable.has block.name = false := by
  apply Collects.get_bind
  intro s hs
  have hcollected := hs.collected
  subst hcollected
  obtain ⟨table, outer, htables⟩ := List.exists_cons_of_ne_nil hs.tabled
  simp only [htables]
  have htable : s.collected.blockTable = table := by simp [ParseState.collected, htables]
  rw [htable]
  -- A second block of the same name is an error, so there is no result to show anything about.
  cases h : table.has block.name with
  | true => exact Collects.throw _
  | false =>
    have hadded : ParseState.At σ l (s.collected.addBlock block)
        { s with
          blocks := s.blocks ++ [block]
          blockTables := table.insert block.name s.blocks.length :: outer } :=
      { hs with
        collected := by simp [ParseState.collected, Collected.addBlock, htables]
        tabled := List.cons_ne_nil _ _ }
    refine Collects.bind (Collects.set (R := fun _ l' d' => l' = l ∧ d' = _) hadded ⟨rfl, rfl⟩)
      fun _ l' d' hd => ?_
    exact Collects.pure ⟨rfl, hd.1, hd.2, rfl⟩

omit hrules in
theorem collects_addMacro (definition : MacroDef) (l : List Token) (d : Collected) :
    Collects σ (addMacro definition) l d fun id l' d' =>
      id = d.macros.length ∧ l' = l ∧ d' = d.addMacro definition ∧
        d.macroTable.has definition.name = false := by
  apply Collects.get_bind
  intro s hs
  have hcollected := hs.collected
  subst hcollected
  cases h : s.macroTable.has definition.name with
  | true => exact Collects.throw _
  | false =>
    have hadded : ParseState.At σ l (s.collected.addMacro definition)
        { s with
          macros := s.macros ++ [definition]
          macroTable := s.macroTable.insert definition.name s.macros.length } :=
      { hs with collected := rfl }
    refine Collects.bind (Collects.set (R := fun _ l' d' => l' = l ∧ d' = _) hadded ⟨rfl, rfl⟩)
      fun _ l' d' hd => ?_
    exact Collects.pure ⟨rfl, hd.1, hd.2, h⟩

omit hrules in
theorem collects_openTable (l : List Token) (d : Collected) :
    Collects σ openTable l d fun _ l' d' => l' = l ∧ d' = d.openTable := by
  intro s _ t hs hrun
  cases hrun
  have hcollected := hs.collected
  subst hcollected
  obtain ⟨table, outer, htables⟩ := List.exists_cons_of_ne_nil hs.tabled
  have hopened : ParseState.At σ l s.collected.openTable
      { s with blockTables := [] :: s.blockTables } :=
    { hs with
      collected := by simp [ParseState.collected, Collected.openTable, htables]
      tabled := List.cons_ne_nil _ _ }
  exact ⟨l, s.collected.openTable, hopened, rfl, rfl⟩

omit hrules in
/-- A table is closed where there is one around it. -/
theorem collects_closeTable (l : List Token) {d : Collected} (houter : d.outerTables ≠ []) :
    Collects σ closeTable l d fun blocks l' d' =>
      blocks = d.blockTable ∧ l' = l ∧ d' = d.closeTable := by
  apply Collects.get_bind
  intro s hs
  have hcollected := hs.collected
  subst hcollected
  obtain ⟨table, outer, htables⟩ := List.exists_cons_of_ne_nil hs.tabled
  have houter : outer ≠ [] := by simpa [ParseState.collected, htables] using houter
  obtain ⟨next, more, rfl⟩ := List.exists_cons_of_ne_nil houter
  simp only [htables]
  have hclosed : ParseState.At σ l s.collected.closeTable { s with blockTables := next :: more } :=
    { hs with
      collected := by simp [ParseState.collected, Collected.closeTable, htables]
      tabled := List.cons_ne_nil _ _ }
  have htable : table = s.collected.blockTable := by simp [ParseState.collected, htables]
  exact Collects.bind (Collects.set (R := fun _ l' d' => l' = l ∧ d' = _) hclosed ⟨rfl, rfl⟩)
    fun _ _ _ hd => Collects.pure ⟨htable, hd⟩

/-- A block with an expression is what the tag is said to begin, and its print stands where the tag
does. -/
theorem collects_parseBlock {t first : Token} {rest : List Token} (ht : t.kind = .tagOpen)
    (hl : solid l = first :: rest) (hfirst : first.is .name "block" = true) :
    Collects σ (parseBlock rules t.position) rest d fun s l' d' =>
      Written good (t :: l) d [s] l' d' := by
  refine Collects.bind (collects_parseDottedName _ _ _) fun name l₁ d₁ h => ?_
  obtain ⟨rfl, hdrop, hl₁⟩ := h
  refine Collects.bind (collects_peek _ _) fun token l₂ d₂ h => ?_
  obtain ⟨htoken, hcons, hl₂, rfl⟩ := h
  have htag : opensTag "block" (t :: l) = true := by rw [opensTag_cons ht hl, hfirst]
  have hshort : opensShorthand (t :: l) = !l₂.head?.any (·.kind == .tagClose) := by
    simp [opensShorthand, htag, hl, hdrop, hl₂]
  have htagname : Crosses l rest := .of_solid hl (by rw [Token.kind_of_is hfirst]; rfl)
  have hopen : Crosses l l₂ := htagname.trans (hl₁.trans (hl₂ ▸ Crosses.solid l₁))
  extract_lets slot
  have hslot : ∀ body l' d', Written good (t :: l) d₂ body l' d' →
      Collects σ (slot body) l' d' fun s l' d' => Written good (t :: l) d₂ [s] l' d' :=
    fun body l' d' hbody => Collects.bind (collects_addBlock _ l' d') fun id l'' d'' h => by
      obtain ⟨rfl, rfl, rfl, hnew⟩ := h
      exact Collects.pure (.block t.position hbody hnew)
  split
  · next hclose =>
    -- The name ends the tag, and a body follows.
    obtain ⟨more, rfl⟩ := hcons (by rw [hclose]; rfl)
    have hprint : opensPrint (t :: l) = false := by simp [opensPrint, ht, hshort, hclose]
    have hopens : Passed (t :: l) (token :: more) :=
      .skip (by simp [ht]) hprint hopen.passed
    refine quiet_endTag.bindCollects fun _ l₃ hl₃ _ => ?_
    refine Collects.bind (collects_bodyOf hrules _ _ (by decide) _ _) fun body l₄ d₃ hbody => ?_
    have hbody := hbody.after (hopens.trans hl₃.passed)
    refine (quiet_parseNamedEnd _ _).bindCollects fun _ l₅ hl₅ _ => ?_
    exact Collects.bind (Collects.pure (hbody.upTo hl₅.passed)) hslot
  · next hclose =>
    have hprint : opensPrint (t :: l) = true := by
      rw [opensPrint, hshort]
      cases l₂ with
      | nil => simp
      | cons first more =>
        rw [← hl₂, lead_cons] at htoken
        simp [← htoken, hclose]
    refine hrules.expr.bindCollects fun e l₃ hl₃ he => ?_
    refine quiet_endTag.bindCollects fun _ l₄ hl₄ _ => ?_
    have hbody : Written good (t :: l) d₂ [.print t.position e] l d₂ := .print d₂ hprint he
    have hpast : Crosses l l₄ := hopen.trans (hl₃.trans hl₄)
    exact Collects.bind (Collects.pure (hbody.upTo hpast.passed)) hslot

theorem collects_parseMacro (pos : Position) :
    Collects σ (parseMacro rules pos) l d fun s l' d' => Written good l d [s] l' d' := by
  refine Reads.written quiet_name fun name l _ => ?_
  refine Reads.written (quiet_expect (by simp [TokenKind.beginsPiece])) fun _ l _ => ?_
  refine Reads.written (reads_parseParams hrules) fun params l hparams => ?_
  refine Reads.written quiet_endTag fun _ l _ => ?_
  refine Collects.bind (collects_bodyOf hrules _ _ (by decide) _ _) fun body l₁ d₁ hbody => ?_
  refine (quiet_parseNamedEnd _ _).bindCollects fun _ l₂ hl₂ _ => ?_
  refine Collects.bind (collects_addMacro _ l₂ d₁) fun id l' d' h => ?_
  obtain ⟨rfl, rfl, rfl, hnew⟩ := h
  exact Collects.pure (.defines pos hparams (hbody.upTo hl₂.passed) hnew)

/-- The table of an `embed` is taken away again with the blocks in it. -/
theorem collects_parseEmbed {t first : Token} {rest : List Token} (ht : t.kind = .tagOpen)
    (hl : solid l = first :: rest) (hfirst : first.is .name "embed" = true) :
    Collects σ (parseEmbed rules t.position) rest d fun s l' d' =>
      Written good (t :: l) d [s] l' d' := by
  have htag : opensTag "embed" (t :: l) = true := by rw [opensTag_cons ht hl, hfirst]
  have hopen : Crosses l rest := .of_solid hl (by rw [Token.kind_of_is hfirst]; rfl)
  refine (reads_parseInclusion hrules _).bindCollects fun inclusion l₁ hl₁ hinclusion => ?_
  refine quiet_endTag.bindCollects fun _ l₂ hl₂ _ => ?_
  refine Collects.bind (collects_openTable _ _) fun _ l₃ d₁ hd => ?_
  obtain ⟨rfl, rfl⟩ := hd
  refine Collects.bind (collects_bodyOf hrules _ _ (by decide) _ _) fun dropped l₄ d₂ hdropped => ?_
  have houter : d₂.outerTables = d.blockTable :: d.outerTables := hdropped.derives.outerTables_eq
  refine Collects.bind (collects_closeTable _ (by simp [houter])) fun blocks l₅ d₃ hclose => ?_
  obtain ⟨rfl, rfl, rfl⟩ := hclose
  refine quiet_endTag.bindCollects fun _ l₆ hl₆ _ => Collects.pure ?_
  have hdropped := hdropped.after (hopen.trans (hl₁.trans hl₂)).passed
  exact (Written.embeds htag hinclusion hdropped).upTo hl₆.passed

theorem collects_parseSet (pos : Position) :
    Collects σ (parseSet rules pos) l d fun s l' d' => Written good l d [s] l' d' := by
  refine Reads.written (reads_commaSeparated quiet_name _) fun targets l _ => ?_
  refine Reads.written (quiet_accept rfl _) fun _ l _ => ?_
  split
  · refine Reads.written (reads_commaSeparated hrules.expr _) fun values l hvalues => ?_
    refine Reads.written quiet_endTag fun _ l _ => ?_
    split
    · exact Collects.bind (Q := fun _ _ _ => False) (Collects.throw _) nofun
    · rename_i hlength
      have hlength : values.length = targets.length := Decidable.of_not_not hlength
      exact Collects.pure (.action l d hlength hvalues)
  · split
    · refine Reads.written quiet_endTag fun _ l _ => ?_
      refine Collects.bind (collects_bodyOf hrules _ _ (by decide) _ _) fun body l₁ d₁ hbody => ?_
      refine quiet_endTag.bindCollects fun _ l₂ hl₂ _ => ?_
      exact Collects.pure (.capture pos _ (hbody.upTo hl₂.passed))
    · exact Collects.throw _

theorem collects_parseFiltered (pos : Position) :
    Collects σ (parseFiltered rules pos) l d fun s l' d' => Written good l d [s] l' d' := by
  refine Reads.written (reads_parseFilterCalls hrules) fun filters l hfilters => ?_
  refine Reads.written quiet_endTag fun _ l _ => ?_
  refine Collects.bind (collects_bodyOf hrules _ _ (by decide) _ _) fun body l₁ d₁ hbody => ?_
  refine quiet_endTag.bindCollects fun _ l₂ hl₂ _ => ?_
  exact Collects.pure (.filtered pos hfilters (hbody.upTo hl₂.passed))

theorem collects_parseExtends (pos : Position) :
    Collects σ (parseExtends rules pos) l d fun _ l' d' => Written good l d [] l' d' := by
  apply Collects.get_bind
  intro s hs
  have hcollected := hs.collected
  subst hcollected
  extract_lets extend
  have hextend : s.parent = none →
      Collects σ (extend ()) l s.collected fun _ l' d' => Written good l s.collected [] l' d' := by
    intro hnone
    refine Reads.written (g := fun _ => []) hrules.expr fun template l htemplate => ?_
    refine Reads.written (g := fun _ => []) quiet_endTag fun _ l _ => ?_
    intro t _ u ht hrun
    cases hrun
    have hd : t.collected = s.collected := ht.collected
    refine ⟨l, s.collected.extend ⟨pos, template⟩, { ht with collected := ?_ }, ?_⟩
    · rw [← hd]
      rfl
    · exact .extending l hnone htemplate
  -- A second `extends` is an error.
  cases h : s.parent with
  | none => exact hextend h
  | some parent => exact Collects.bind (Q := fun _ _ _ => False) (Collects.throw _) nofun

/-- A tag leaves at most one statement. -/
theorem collects_parseTag {t first : Token} {rest : List Token} (ht : t.kind = .tagOpen)
    (hl : solid l = first :: rest) {tag : String} (hfirst : first.is .name tag = true) :
    Collects σ (parseTag rules tag t.position) rest d fun ss l' d' =>
      Written good (t :: l) d ss l' d' ∧ ss.length ≤ 1 := by
  have hone : ∀ {x : Parse Stmt},
      Collects σ x rest d (fun s l' d' => Written good (t :: l) d [s] l' d') →
      Collects σ (do pure [← x]) rest d fun ss l' d' =>
        Written good (t :: l) d ss l' d' ∧ ss.length ≤ 1 :=
    fun hx => Collects.bind hx fun s l' d' h => Collects.pure ⟨h, Nat.le_refl 1⟩
  -- No tag but a block stands for something that is printed.
  have hopens : tag ≠ "block" → Passed (t :: l) rest := passed_tag ht hl hfirst
  have hafter : ∀ {x : Parse Stmt}, tag ≠ "block" →
      Collects σ x rest d (fun s l' d' => Written good rest d [s] l' d') →
      Collects σ (do pure [← x]) rest d fun ss l' d' =>
        Written good (t :: l) d ss l' d' ∧ ss.length ≤ 1 :=
    fun hblock hx => hone (hx.mono fun _ _ _ h => h.after (hopens hblock))
  have haction : ∀ {x : Parse Stmt}, tag ≠ "block" →
      Reads σ x (fun s => s.Action ∧ ∀ e ∈ s.exprs, good e) →
      Collects σ (do pure [← x]) rest d fun ss l' d' =>
        Written good (t :: l) d ss l' d' ∧ ss.length ≤ 1 := by
    intro x hblock hx
    refine hafter hblock ((hx rest d).mono fun s l' d' h => ?_)
    obtain ⟨rfl, hcross, haction, hexprs⟩ := h
    exact (Written.action rest d' haction hexprs).upTo hcross.passed
  unfold parseTag
  split
  · exact (collects_parseIf hrules _).mono fun ss _ _ h =>
      ⟨h.1.after (hopens (by decide)), h.2⟩
  · exact hafter (by decide) (collects_parseFor hrules _)
  · exact hone (collects_parseBlock hrules ht hl hfirst)
  · refine Collects.bind (collects_parseExtends hrules _) fun _ l' d' h => ?_
    exact Collects.pure ⟨h.after (hopens (by decide)), Nat.zero_le 1⟩
  · exact haction (by decide) (reads_parseUse hrules _)
  · refine (reads_parseInclusion hrules _).bindCollects fun inclusion l₁ hl₁ hinclusion => ?_
    refine quiet_endTag.bindCollects fun _ l₂ hl₂ _ => Collects.pure ⟨?_, Nat.le_refl 1⟩
    have hincludes : Written good l₂ d [.includes inclusion] l₂ d :=
      .action l₂ d trivial hinclusion
    exact hincludes.after ((hopens (by decide)).trans (hl₁.trans hl₂).passed)
  · exact hone (collects_parseEmbed hrules ht hl hfirst)
  · exact hafter (by decide) (collects_parseSet hrules _)
  · refine hrules.expr.bindCollects fun e l₁ hl₁ he => ?_
    refine quiet_endTag.bindCollects fun _ l₂ hl₂ _ => Collects.pure ⟨?_, Nat.le_refl 1⟩
    have hperform : Written good l₂ d [.perform t.position e] l₂ d :=
      .action l₂ d trivial (by simpa [exprs] using he)
    exact hperform.after ((hopens (by decide)).trans (hl₁.trans hl₂).passed)
  · exact hafter (by decide) (collects_parseFiltered hrules _)
  · exact hafter (by decide) (collects_parseMacro hrules _)
  · exact haction (by decide) (reads_parseImport hrules _)
  · exact haction (by decide) (reads_parseFrom hrules _)
  · exact Collects.throw _

/-- What a body is, with the tag that ended it.  Without one the source is read to its end. -/
structure Body.Sound (σ : TokenStream) (good : Expr → Prop) (stops : List String) (body : Body)
    (l : List Token) (d : Collected) (l' : List Token) (d' : Collected) : Prop where
  written : Written good l d body.statements l' d'
  ended : ∀ tag ∈ body.ended, tag ∈ stops
  eof : body.ended = none → l' = [] ∧ σ.final.kind = .eof

/-- One piece of a body, after those before it. -/
theorem collects_parsePiece {stops : List String} (hstops : "block" ∉ stops)
    (opening : Option Opening) {before : List Stmt} {l₁ : List Token} {d₁ : Collected}
    (hbefore : Written good l d before.reverse l₁ d₁) :
    Collects σ (parsePiece rules stops opening before) l₁ d₁ fun r l' d' =>
      r.Holds (fun before => Written good l d before.reverse l' d')
        (fun body => body.Sound σ good stops l d l' d') := by
  -- The pieces before are kept in reverse; a list of at most one statement is its own reverse.
  have hmore : ∀ {ss l' d'}, Written good l₁ d₁ ss l' d' → ss.length ≤ 1 →
      Written good l d (ss ++ before).reverse l' d' := by
    intro ss l' d' h hlength
    have hreverse : ss.reverse = ss := by
      rcases ss with _ | ⟨s, _ | _⟩
      · rfl
      · rfl
      · simp at hlength
    rw [List.reverse_append, hreverse]
    exact .append hbefore h
  refine Collects.bind (collects_next l₁ d₁) fun token l₂ d₂ h => ?_
  obtain ⟨-, hfinal, hcons, htail, rfl⟩ := h
  split
  · next hkind =>
    split
    · exact Collects.throw _
    · obtain ⟨rfl, rfl⟩ := hfinal (by rw [hkind]; rfl)
      exact Collects.pure ⟨htail ▸ hbefore, by simp, fun _ => ⟨htail, hkind⟩⟩
  · next hkind =>
    have htext : Written good (token :: l₂) d₂ [.text token.position token.value] l₂ d₂ :=
      .text _ d₂ hkind
    rw [← hcons (by rw [hkind]; rfl)] at htext
    exact Collects.pure (hmore htext (Nat.le_refl 1))
  · next hkind =>
    refine hrules.expr.bindCollects fun e l₃ hl₃ he => ?_
    refine Reads.bindCollects (quiet_expect (by simp [TokenKind.beginsPiece]))
      fun _ l₄ hl₄ _ => ?_
    have hprint : Written good (token :: l₂) d₂ [.print token.position e] l₂ d₂ :=
      .print d₂ (by simp [opensPrint, hkind]) he
    rw [← hcons (by rw [hkind]; rfl)] at hprint
    exact Collects.pure (hmore (hprint.upTo (hl₃.trans hl₄).passed) (Nat.le_refl 1))
  · next hkind =>
    have hl₁ := hcons (by rw [hkind]; rfl)
    refine Collects.bind (collects_name _ _) fun tag l₃ d₃ h => ?_
    obtain ⟨⟨first, hl, hfirst⟩, rfl⟩ := h
    split
    · next hmem =>
      have hmem : tag ∈ stops := List.contains_iff_mem.mp hmem
      have hpast := passed_tag hkind hl hfirst fun htag => hstops (htag ▸ hmem)
      rw [← hl₁] at hpast
      exact Collects.pure ⟨hbefore.upTo hpast, fun _ h => Option.some.inj h ▸ hmem, by simp⟩
    · refine Collects.bind (collects_parseTag hrules hkind hl hfirst) fun ss l' d' h => ?_
      rw [← hl₁] at h
      exact Collects.pure (hmore h.1 h.2)
  · exact Collects.throw _

omit hrules in
/-- Bodies are written, at every depth. -/
theorem collects_parseBody (hgood : ∀ n, Reads σ (Expr.parse n .any) good) (n : Nat)
    {stops : List String} (hstops : "block" ∉ stops) (opening : Option Opening) (l : List Token)
    (d : Collected) :
    Collects σ (parseBody n stops opening) l d fun body l' d' =>
      body.Sound σ good stops l d l' d' := by
  -- The induction is on the depth that is left, which every body inside a tag uses one of.
  induction n generalizing stops opening l d with
  | zero => exact Collects.throw _
  | succ n ih =>
    have hrules : Rules.Sound σ good ⟨n, Expr.parse n .any, parseBody n⟩ :=
      ⟨hgood n, fun stops opening hstops l d =>
        (ih hstops opening l d).mono fun _ _ _ h => h.written⟩
    refine Collects.iterate (fun before l' d' => Written good l d before.reverse l' d') ?_ n
      (.nil l d)
    exact fun before l' d' h => collects_parsePiece hrules hstops opening h

end Stmt

/-! ## §3. Templates -/

/-- What was collected for a template. -/
def Template.collected (t : Template) : Collected :=
  ⟨t.parent, t.blocks, t.macros, t.macroTable, t.blockTable, []⟩

/-- The state in which parsing starts. -/
theorem at_startState (source : String) :
    (Parse.startState (lex source)).At (lex source) (lex source).tokens .empty where
  tidy := Cursor.tidy_ofStream (isFinal_lex source) fun _ ht => isFinal_of_mem_lex ht
  final := rfl
  ahead := Cursor.ahead_ofStream fun _ ht => isFinal_of_mem_lex ht
  within := List.suffix_refl _
  collected := rfl
  tabled := List.cons_ne_nil _ _

/-- **Every parsed template is written.**  All tokens of its source belong to it, and no lexical
error comes after them.  Its expressions are of any kind that all expressions of the source are
of. -/
theorem Template.parse_written {good : Expr → Prop} {name source : String} {t : Template}
    (hgood : ∀ n, Parse.Reads (lex source) (Expr.parse n .any) good)
    (h : Template.parse name source = .ok t) :
    t.name = name ∧ (lex source).final.kind = .eof ∧
      Written good (lex source).tokens .empty t.body [] t.collected := by
  unfold Template.parse Template.parseWithin at h
  cases hr : (Stmt.parseBody (parseDepth (lex source).tokens.length) [] none).run
      (Parse.startState (lex source)) with
  | error e =>
    simp only [hr] at h
    cases h
  | ok r =>
    obtain ⟨body, s⟩ := r
    simp only [hr] at h
    cases h
    obtain ⟨l, d, hs, hbody⟩ := Stmt.collects_parseBody hgood _ List.not_mem_nil _ _ _ _ _ _
      (at_startState source) hr
    have hended : body.ended = none := by
      cases hended : body.ended with
      | none => rfl
      | some tag => exact absurd (hbody.ended tag hended) List.not_mem_nil
    obtain ⟨rfl, heof⟩ := hbody.eof hended
    have hcollected := hs.collected
    subst hcollected
    have houter : s.blockTables.tail = [] := hbody.written.derives.outerTables_eq
    have hwritten := hbody.written
    rw [ParseState.collected, houter] at hwritten
    exact ⟨rfl, heof, hwritten⟩

/-- **Every parsed template is derived.** -/
theorem Template.parse_derives {good : Expr → Prop} {name source : String} {t : Template}
    (hgood : ∀ n, Parse.Reads (lex source) (Expr.parse n .any) good)
    (h : Template.parse name source = .ok t) :
    t.name = name ∧ Derives good .empty t.body t.collected := by
  obtain ⟨hname, -, hwritten⟩ := Template.parse_written hgood h
  exact ⟨hname, hwritten.derives⟩

end Stencil
