import Stencil.Proofs.Template.Building
import Stencil.Proofs.Template.Faults
import Stencil.Proofs.Template.Termination
import Stencil.Proofs.Token.Places

/-!
Which construct is not closed.

The tags that open bodies and those that end them are brackets around the tokens in between.
`Paired` says that all that is opened from some tokens on, up to others, is closed again.  Whatever
a parser of statements reads is closed, and where the source ends inside a body, what comes after
the tag of that body is closed up to the end.  So the error names the innermost construct that is
open, and where it was opened.

Every other error is the fault of a token.
-/

namespace Stencil

/-! ## §1. Bodies in a stream -/

/-- The tags of constructs that have a body. -/
def bodyTags : List String :=
  ["if", "for", "block", "embed", "set", "filter", "macro"]

/-- Whether some tokens begin with an assignment of values: the tag is not at its end after its
first name. -/
def opensAssignment : List Token → Bool
  | t :: l => opensTag "set" (t :: l) &&
    !(solid (solid (solid l).tail).tail).head?.any (·.kind == .tagClose)
  | [] => false

/-- Whether some tokens begin with the tag of a construct that has a body. -/
def opensBody (tag : String) (l : List Token) : Bool :=
  bodyTags.contains tag && opensTag tag l && !opensShorthand l && !opensAssignment l

/-- Whether some tokens begin with the tag that ends such a construct. -/
def endsBody (tag : String) (l : List Token) : Bool :=
  bodyTags.contains tag && opensTag ("end" ++ tag) l

/-- Neither a tag that opens a body nor one that ends it stands at the front. -/
def Neutral (l : List Token) : Prop :=
  ∀ tag, opensBody tag l = false ∧ endsBody tag l = false

/-- Some tokens are taken off the front, and every construct that is opened by one of them is closed
by another one. -/
inductive Paired : List Token → List Token → Prop
  | refl (l : List Token) : Paired l l
  | skip {t : Token} {l l' : List Token} : Neutral (t :: l) → Paired l l' → Paired (t :: l) l'
  /-- A construct, with the tokens in its body, and what comes after the first token of its end. -/
  | construct {tag : String} {t last : Token} {l l₁ l' : List Token} : opensBody tag (t :: l) →
      Paired l (last :: l₁) → endsBody tag (last :: l₁) → Paired l₁ l' → Paired (t :: l) l'

theorem Paired.trans {l l' l'' : List Token} (h : Paired l l') (h' : Paired l' l'') :
    Paired l l'' := by
  induction h with
  | refl => exact h'
  | skip hneutral _ ih => exact .skip hneutral (ih h')
  | construct hopens hbody hends _ _ ih => exact .construct hopens hbody hends (ih h')

theorem Paired.suffix {l l' : List Token} (h : Paired l l') : l' <:+ l := by
  induction h with
  | refl => exact List.suffix_refl _
  | skip _ _ ih => exact ih.trans (List.suffix_cons _ _)
  | construct _ _ _ _ ihbody ih =>
    -- First the tag that opens the construct is gone, then its body, then the tag that ends it.
    exact ((ih.trans (List.suffix_cons _ _)).trans ihbody).trans (List.suffix_cons _ _)

theorem kind_of_opensBody {tag : String} {t : Token} {l : List Token}
    (h : opensBody tag (t :: l) = true) : t.kind = .tagOpen := by
  simp only [opensBody, opensTag, Bool.and_eq_true, beq_iff_eq] at h
  exact h.1.1.2.1

/-- What is not the first token of a tag opens and ends nothing. -/
theorem neutral_of_kind {t : Token} (h : t.kind ≠ .tagOpen) (l : List Token) :
    Neutral (t :: l) := by
  intro tag
  have hopens : ∀ name, opensTag name (t :: l) = false := by
    intro name
    simp [opensTag, h]
  simp [opensBody, endsBody, hopens]

theorem paired_of_kind {t : Token} (h : t.kind ≠ .tagOpen) (l : List Token) :
    Paired (t :: l) l :=
  .skip (neutral_of_kind h l) (.refl l)

theorem Crosses.paired {l l' : List Token} (h : Crosses l l') : Paired l l' := by
  obtain ⟨taken, rfl, htaken⟩ := h
  induction taken with
  | nil => exact .refl _
  | cons t taken ih =>
    obtain ⟨ht, htaken⟩ := List.forall_mem_cons.mp htaken
    refine (paired_of_kind ?_ _).trans (ih htaken)
    intro hkind
    rw [hkind] at ht
    cases ht

/-- A tag of a stream: its first token, the tokens after that, and those after its name. -/
structure IsTag (σ : TokenStream) (tag : String) (t : Token) (l rest : List Token) : Prop where
  mem : t ∈ σ.tokens
  kind : t.kind = .tagOpen
  named : ∃ first, solid l = first :: rest ∧ first.is .name tag = true

namespace IsTag

variable {σ : TokenStream} {tag : String} {t : Token} {l rest : List Token}

theorem places (h : IsTag σ tag t l rest) : σ.Places t.position :=
  TokenStream.places_of_mem (List.mem_append_left _ h.mem)

/-- The name of a tag is crossed. -/
theorem crosses (h : IsTag σ tag t l rest) : Crosses l rest := by
  obtain ⟨first, hl, hfirst⟩ := h.named
  exact .of_solid hl (by rw [Token.kind_of_is hfirst]; rfl)

theorem opensTag_eq (h : IsTag σ tag t l rest) (name : String) :
    opensTag name (t :: l) = (tag == name) := by
  obtain ⟨first, hl, hfirst⟩ := h.named
  simp only [Token.is, Bool.and_eq_true, beq_iff_eq] at hfirst
  rw [opensTag_cons h.kind hl, Token.is, hfirst.1, hfirst.2]
  rfl

/-- Only a block has an expression in place of a body. -/
theorem opensShorthand_eq_false (h : IsTag σ tag t l rest) (htag : tag ≠ "block") :
    opensShorthand (t :: l) = false := by
  simp [opensShorthand, h.opensTag_eq, htag]

theorem opensAssignment_eq_false (h : IsTag σ tag t l rest) (htag : tag ≠ "set") :
    opensAssignment (t :: l) = false := by
  simp [opensAssignment, h.opensTag_eq, htag]

theorem opensBody (h : IsTag σ tag t l rest) (htag : tag ∈ bodyTags)
    (hblock : opensShorthand (t :: l) = false) (hset : opensAssignment (t :: l) = false) :
    opensBody tag (t :: l) = true := by
  simp [Stencil.opensBody, h.opensTag_eq, htag, hblock, hset]

/-- Any other construct always has its body. -/
theorem opensBody_of_ne (h : IsTag σ tag t l rest) (htag : tag ∈ bodyTags)
    (hne : tag ≠ "block" ∧ tag ≠ "set") : Stencil.opensBody tag (t :: l) = true :=
  h.opensBody htag (h.opensShorthand_eq_false hne.1) (h.opensAssignment_eq_false hne.2)

/-- A tag of no construct with a body, or of one that has none here, and not an end tag. -/
theorem neutral (h : IsTag σ tag t l rest)
    (hbody : tag ∉ bodyTags ∨ opensShorthand (t :: l) = true ∨ opensAssignment (t :: l) = true)
    (hend : ∀ name ∈ bodyTags, "end" ++ name ≠ tag) : Neutral (t :: l) := by
  intro name
  constructor
  · by_cases hname : tag = name
    · subst hname
      rcases hbody with hbody | hbody | hbody <;> simp [Stencil.opensBody, hbody]
    · simp [Stencil.opensBody, h.opensTag_eq, hname]
  · by_cases hname : name ∈ bodyTags
    · simp [endsBody, h.opensTag_eq, (hend name hname).symm]
    · simp [endsBody, hname]

end IsTag

/-- A body that begins with some tokens ends with a tag of some name; what comes after the name. -/
def EndsAt (σ : TokenStream) (l : List Token) (stop : String) (l' : List Token) : Prop :=
  ∃ last l₁, Paired l (last :: l₁) ∧ IsTag σ stop last l₁ l'

namespace EndsAt

variable {σ : TokenStream} {l l' : List Token} {stop tag : String} {t : Token}

/-- A construct goes on after a tag in its middle. -/
theorem past (h : EndsAt σ l stop l') (hstop : stop ∉ bodyTags)
    (hend : ∀ name ∈ bodyTags, "end" ++ name ≠ stop) : Paired l l' := by
  obtain ⟨last, l₁, hpaired, htag⟩ := h
  exact hpaired.trans (.skip (htag.neutral (.inl hstop) hend) htag.crosses.paired)

/-- A construct is closed by its end tag. -/
theorem closes (h : EndsAt σ l ("end" ++ tag) l') (hopens : opensBody tag (t :: l) = true) :
    Paired (t :: l) l' := by
  obtain ⟨last, l₁, hpaired, htag⟩ := h
  have hmem : tag ∈ bodyTags := by
    simp only [opensBody, Bool.and_eq_true, List.contains_iff_mem] at hopens
    exact hopens.1.1.1
  have hends : endsBody tag (last :: l₁) = true := by simp [endsBody, hmem, htag.opensTag_eq]
  exact .construct hopens hpaired hends htag.crosses.paired

end EndsAt

/-! ## §2. Errors -/

/-- A source ends inside a body: the construct of some tag, which was opened at some place, is the
innermost one that is open. -/
structure BreaksIn (σ : TokenStream) (l : List Token) (tag : String) (start : Position) : Prop where
  eof : σ.final.kind = .eof
  innermost : ∃ before t after, l = before ++ t :: after ∧ t.position = start ∧
    opensBody tag (t :: after) = true ∧ Paired after []

/-- What an error says is so: it is the fault of a token, or that of a construct that is open. -/
inductive ParseError.Explained (σ : TokenStream) (l : List Token) : ParseError → Prop
  | fault {e : ParseError} : e.Fault σ → Explained σ l e
  | unclosed {tag : String} {start : Position} : BreaksIn σ l tag start →
      Explained σ l ⟨σ.final.position, .unclosedTag tag start⟩

/-- What is wrong in a body: the construct that it belongs to may be the open one. -/
inductive ParseError.ExplainedIn (σ : TokenStream) (opening : Option Stmt.Opening)
    (l : List Token) : ParseError → Prop
  | within {e : ParseError} : e.Explained σ l → ExplainedIn σ opening l e
  | unclosed {tag : String} {start : Position} : opening = some ⟨tag, start⟩ →
      σ.final.kind = .eof → Paired l [] →
      ExplainedIn σ opening l ⟨σ.final.position, .unclosedTag tag start⟩

section Explained

variable {σ : TokenStream} {l l' : List Token} {e : ParseError}

/-- What is wrong further on in some tokens is wrong in them. -/
theorem ParseError.Explained.of_suffix (h : e.Explained σ l') (hsuffix : l' <:+ l) :
    e.Explained σ l := by
  obtain ⟨taken, rfl⟩ := hsuffix
  cases h with
  | fault h => exact .fault h
  | unclosed h =>
    obtain ⟨before, t, after, rfl, hstart, hopens, hpaired⟩ := h.innermost
    exact .unclosed ⟨h.eof, taken ++ before, t, after, by simp, hstart, hopens, hpaired⟩

/-- What is wrong in the body of a construct, with the tokens that came before in it. -/
theorem ParseError.ExplainedIn.explained {tag : String} {t : Token}
    (h : e.ExplainedIn σ (some ⟨tag, t.position⟩) l') (hopens : opensBody tag (t :: l) = true)
    (hpaired : Paired l l') : e.Explained σ (t :: l) := by
  cases h with
  | within h => exact h.of_suffix (hpaired.suffix.trans (List.suffix_cons _ _))
  | unclosed hopening heof hrest =>
    -- The construct itself is the one that is open.
    cases hopening
    exact .unclosed ⟨heof, [], t, l, rfl, rfl, hopens, hpaired.trans hrest⟩

end Explained

/-! ## §3. Parsers without bodies -/

namespace Parse

variable {α β : Type} {σ : TokenStream} {l k : List Token} {d : Collected}

/-- A parser that stays inside a piece and fails only by the fault of a token. -/
structure Inside (σ : TokenStream) (x : Parse α) : Prop where
  quiet : Quiet σ x
  blames : Blames σ x

theorem Inside.bind {x : Parse α} {f : α → Parse β} (hx : Inside σ x)
    (hf : ∀ a, Inside σ (f a)) : Inside σ (x >>= f) :=
  ⟨hx.quiet.bind fun a => (hf a).quiet, hx.blames.bind fun a => (hf a).blames⟩

theorem Inside.pure (a : α) : Inside σ (Pure.pure a : Parse α) :=
  ⟨Quiet.pure a, Blames.pure a⟩

theorem Inside.map {x : Parse α} (hx : Inside σ x) (f : α → β) : Inside σ (f <$> x) :=
  ⟨hx.quiet.map f fun _ _ => trivial, hx.blames.map f fun _ _ => trivial⟩

theorem inside_endTag : Inside σ endTag :=
  ⟨quiet_endTag, blames_endTag⟩

theorem inside_name : Inside σ name :=
  ⟨quiet_name, blames_name⟩

theorem inside_accept {kind : TokenKind} (hkind : kind.beginsPiece = false) (value : String) :
    Inside σ (accept kind value) :=
  ⟨quiet_accept hkind value, blames_accept kind value⟩

theorem inside_expect {kinds : List TokenKind}
    (hkinds : ∀ kind ∈ kinds, kind.beginsPiece = false) : Inside σ (expect kinds) :=
  ⟨(quiet_expect hkinds).mono fun _ _ => trivial, (faults_expect kinds).mono fun _ _ => trivial⟩

theorem inside_expectValue {kind : TokenKind} (hkind : kind.beginsPiece = false) (value : String) :
    Inside σ (expectValue kind value) :=
  ⟨quiet_expectValue hkind value, blames_expectValue kind value⟩

namespace Settles

variable {Q : α → List Token → Collected → Prop} {R : β → List Token → Collected → Prop}

/-- A step that fails only by the fault of a token. -/
theorem bindFault {x : Parse α} {f : α → Parse β} (hx : Settles σ x l d Q (ParseError.Fault σ))
    (hf : ∀ a l' d', Q a l' d' → Settles σ (f a) l' d' R (ParseError.Explained σ k)) :
    Settles σ (x >>= f) l d R (ParseError.Explained σ k) :=
  bind (hx.monoErrors fun _ => .fault) hf

theorem inside {x : Parse α} {f : α → Parse β} (hx : Inside σ x)
    (hf : ∀ a l', Crosses l l' → Settles σ (f a) l' d R (ParseError.Explained σ k)) :
    Settles σ (x >>= f) l d R (ParseError.Explained σ k) := by
  refine bindFault ((hx.blames l d).withCollects (hx.quiet l d)) fun a l' d' h => ?_
  obtain ⟨rfl, hcross, -⟩ := h
  exact hf a l' hcross

end Settles

/-- A parser of what is left of a construct: whatever is opened from the front of the construct on
is closed again, or it is known what is wrong. -/
abbrev Pairs (σ : TokenStream) (x : Parse α) (k l : List Token) (d : Collected) : Prop :=
  Settles σ x l d (fun _ l' _ => Paired k l') (ParseError.Explained σ k)

end Parse

namespace Stmt

open Parse

variable {σ : TokenStream}

theorem inside_parseNamedEnd (n : Nat) (opened : String) : Inside σ (parseNamedEnd n opened) :=
  ⟨quiet_parseNamedEnd n opened, blames_parseNamedEnd n opened⟩

/-- There is always a table for a block, so that only its name can be wrong. -/
theorem settles_addBlock {block : Block} (hplaces : σ.Places block.position) (l : List Token)
    (d : Collected) :
    Settles σ (addBlock block) l d (fun _ l' _ => l' = l) (ParseError.Fault σ) := by
  refine ⟨(collects_addBlock block l d).mono fun _ _ _ h => h.2.1, fun s e hs hrun => ?_⟩
  have hrest := run_get_bind_eq_error hrun
  obtain ⟨table, outer, htables⟩ := List.exists_cons_of_ne_nil hs.tabled
  simp only [htables] at hrest
  split at hrest
  · cases hrest
    exact ⟨hplaces, id, nofun⟩
  · cases hrest

theorem settles_addMacro {definition : MacroDef} (hplaces : σ.Places definition.position)
    (l : List Token) (d : Collected) :
    Settles σ (addMacro definition) l d (fun _ l' _ => l' = l) (ParseError.Fault σ) := by
  refine ⟨(collects_addMacro definition l d).mono fun _ _ _ h => h.2.1, fun s e hs hrun => ?_⟩
  have hrest := run_get_bind_eq_error hrun
  split at hrest
  · cases hrest
    exact ⟨hplaces, id, nofun⟩
  · cases hrest

theorem settles_openTable (l : List Token) (d : Collected) :
    Settles σ openTable l d (fun _ l' d' => l' = l ∧ d' = d.openTable) (ParseError.Fault σ) :=
  ⟨collects_openTable l d, fun _ _ _ hrun => by cases hrun⟩

theorem settles_closeTable (l : List Token) {d : Collected} (houter : d.outerTables ≠ []) :
    Settles σ closeTable l d (fun _ l' _ => l' = l) (ParseError.Fault σ) := by
  refine ⟨(collects_closeTable l houter).mono fun _ _ _ h => h.2.1, fun s e hs hrun => ?_⟩
  have hrest := run_get_bind_eq_error hrun
  split at hrest <;> cases hrest

/-! ## §4. Tags with bodies -/

/-- Where a body ends: at one of the tags that it waits for, or with the source, if it is that of no
construct. -/
structure Body.Ends (σ : TokenStream) (stops : List String) (opening : Option Opening)
    (body : Body) (l l' : List Token) : Prop where
  ended : ∀ stop ∈ body.ended, stop ∈ stops ∧ EndsAt σ l stop l'
  eof : body.ended = none → opening = none

/-- The parsers that rules build on: expressions fail by the fault of a token, and bodies end and
fail as stated. -/
structure Rules.Explained (σ : TokenStream) (rules : Rules) : Prop where
  sound : rules.Sound σ fun _ => True
  expr : Blames σ rules.expr
  body : ∀ stops opening, "block" ∉ stops → ∀ l d,
    Settles σ (rules.body stops opening) l d (fun body l' _ => body.Ends σ stops opening l l')
      (ParseError.ExplainedIn σ opening l)

theorem Rules.Explained.inside {rules : Rules} (h : rules.Explained σ) : Inside σ rules.expr :=
  ⟨h.sound.expr, h.expr⟩

variable {rules : Rules} (hrules : rules.Explained σ) {tag : String} {t : Token}
  {l rest : List Token} {d : Collected}

/-- The body of a construct, with the tokens that came before in it. -/
theorem settles_bodyOf (hrules : rules.Explained σ) (hopens : opensBody tag (t :: l) = true)
    {l₁ : List Token} (hpaired : Paired l l₁) {stops : List String} (hstops : "block" ∉ stops) :
    Settles σ (rules.bodyOf tag t.position stops) l₁ d
      (fun body l' _ => ∃ stop ∈ stops, body.ended = some stop ∧ EndsAt σ l stop l')
      (ParseError.Explained σ (t :: l)) := by
  refine ((hrules.body stops _ hstops l₁ d).mono fun body l' _ hends => ?_).monoErrors
    fun e he => he.explained hopens hpaired
  cases hended : body.ended with
  | none =>
    -- Only a body that belongs to no construct ends with the source.
    cases hends.eof hended
  | some stop =>
    obtain ⟨hstop, last, l₂, hlast, htag⟩ := hends.ended stop hended
    exact ⟨stop, hstop, rfl, last, l₂, hpaired.trans hlast, htag⟩

/-- The last body of a construct goes up to its end tag. -/
theorem settles_lastBodyOf (hrules : rules.Explained σ) (hopens : opensBody tag (t :: l) = true)
    {l₁ : List Token} (hpaired : Paired l l₁) {stop : String}
    (hstop : stop = "end" ++ tag ∧ stop ≠ "block") :
    Pairs σ (rules.bodyOf tag t.position [stop]) (t :: l) l₁ d := by
  have hblock : "block" ∉ [stop] := by simpa using hstop.2.symm
  refine (settles_bodyOf hrules hopens hpaired hblock).mono fun body l' _ h => ?_
  obtain ⟨_, hmem, -, hends⟩ := h
  rw [List.mem_singleton.mp hmem, hstop.1] at hends
  exact hends.closes hopens

/-- A tag without a body. -/
theorem pairs_tag {α : Type} {x : Parse α} (htag : IsTag σ tag t l rest)
    (hneutral : Neutral (t :: l)) (hx : Inside σ x) : Pairs σ x (t :: l) rest d := by
  have hfault := (hx.blames rest d).withCollects (hx.quiet rest d)
  refine (hfault.mono fun _ l' _ h => ?_).monoErrors fun _ => .fault
  exact .skip hneutral (htag.crosses.trans h.2.1).paired

include hrules

theorem pairs_parseIf (htag : IsTag σ "if" t l rest) :
    Pairs σ (parseIf rules t.position) (t :: l) rest d := by
  have hopens := htag.opensBody_of_ne (by decide) (by decide)
  -- Before every branch, what was opened inside those before is closed.
  refine Settles.iterate (fun _ l' _ => Paired l l') (fun branches l₁ d₁ hl₁ => ?_) _
    htag.crosses.paired
  refine Settles.inside hrules.inside fun cond l₂ hl₂ => ?_
  refine Settles.inside inside_endTag fun _ l₃ hl₃ => ?_
  refine Settles.bind (settles_bodyOf hrules hopens (hl₁.trans (hl₂.trans hl₃).paired) (by decide))
    fun body l₄ d₂ h => ?_
  obtain ⟨stop, hstop, hended, hends⟩ := h
  split
  · next heq =>
    obtain rfl : stop = "elseif" := Option.some.inj (hended.symm.trans heq)
    exact Settles.pure (hends.past (by decide) (by decide))
  · next heq =>
    obtain rfl : stop = "else" := Option.some.inj (hended.symm.trans heq)
    have hpast := hends.past (by decide) (by decide)
    refine Settles.inside (inside_accept rfl _) fun _ l₅ hl₅ => ?_
    split
    · exact Settles.pure (hpast.trans hl₅.paired)
    · refine Settles.inside inside_endTag fun _ l₆ hl₆ => ?_
      refine Settles.bind (settles_lastBodyOf hrules hopens (hpast.trans (hl₅.trans hl₆).paired)
        (by decide)) fun orElse l₇ d₃ hl₇ => ?_
      exact Settles.inside inside_endTag fun _ l₈ hl₈ => Settles.pure (hl₇.trans hl₈.paired)
  · next helseif helse =>
    have hstop : stop = "endif" := by
      rcases List.mem_cons.mp hstop with rfl | hstop
      · exact absurd hended helseif
      rcases List.mem_cons.mp hstop with rfl | hstop
      · exact absurd hended helse
      exact List.mem_singleton.mp hstop
    subst hstop
    refine Settles.inside inside_endTag fun _ l₅ hl₅ => Settles.pure ?_
    exact (hends.closes hopens).trans hl₅.paired

theorem pairs_parseFor (htag : IsTag σ "for" t l rest) :
    Pairs σ (parseFor rules t.position) (t :: l) rest d := by
  have hopens := htag.opensBody_of_ne (by decide) (by decide)
  -- Up to the first body nothing is opened, whether or not there is a key or a condition.
  refine Settles.inside inside_name fun first l₁ hl₁ => ?_
  refine Settles.inside (inside_accept rfl _) fun _ l₂ hl₂ => ?_
  have hl₂ := htag.crosses.trans (hl₁.trans hl₂)
  extract_lets items
  have hitems : ∀ names l₃, Crosses l l₃ → Pairs σ (items names) (t :: l) l₃ d := by
    intro (key, value) l₃ hl₃
    refine Settles.inside (inside_expectValue rfl _) fun _ l₄ hl₄ => ?_
    refine Settles.inside hrules.inside fun iterable l₅ hl₅ => ?_
    refine Settles.inside (inside_accept rfl _) fun _ l₆ hl₆ => ?_
    have hl₆ := hl₃.trans (hl₄.trans (hl₅.trans hl₆))
    extract_lets rounds
    have hrounds : ∀ cond l₇, Crosses l l₇ → Pairs σ (rounds cond) (t :: l) l₇ d := by
      intro cond l₇ hl₇
      refine Settles.inside inside_endTag fun _ l₈ hl₈ => ?_
      refine Settles.bind (settles_bodyOf hrules hopens (hl₇.trans hl₈).paired (by decide))
        fun body l₉ d₁ h => ?_
      obtain ⟨stop, hstop, hended, hends⟩ := h
      refine Settles.inside inside_endTag fun _ l₁₀ hl₁₀ => ?_
      extract_lets statements loop
      split
      · next helse =>
        -- The alternative is a second body of the same construct.
        obtain rfl : stop = "else" := Option.some.inj (hended.symm.trans helse)
        have hpast := (hends.past (by decide) (by decide)).trans hl₁₀.paired
        refine Settles.bind (settles_lastBodyOf hrules hopens hpast (by decide))
          fun orElse l₁₁ d₂ hl₁₁ => ?_
        refine Settles.inside inside_endTag fun _ l₁₂ hl₁₂ => ?_
        exact Settles.inside (Inside.pure _) fun _ l₁₃ hl₁₃ =>
          Settles.pure (hl₁₁.trans (hl₁₂.trans hl₁₃).paired)
      · next helse =>
        have hstop : stop = "endfor" := by
          rcases List.mem_cons.mp hstop with rfl | hstop
          · exact absurd hended helse
          · exact List.mem_singleton.mp hstop
        subst hstop
        exact Settles.inside (Inside.pure _) fun _ l₁₁ hl₁₁ =>
          Settles.pure ((hends.closes hopens).trans (hl₁₀.trans hl₁₁).paired)
    split
    · exact Settles.inside (hrules.inside.map some) fun cond l₇ hl₇ =>
        hrounds cond l₇ (hl₆.trans hl₇)
    · exact Settles.inside (Inside.pure _) fun cond l₇ hl₇ => hrounds cond l₇ (hl₆.trans hl₇)
  split
  · refine Settles.inside inside_name fun _ l₃ hl₃ => ?_
    exact Settles.inside (Inside.pure _) fun names l₄ hl₄ =>
      hitems names l₄ (hl₂.trans (hl₃.trans hl₄))
  · exact Settles.inside (Inside.pure _) fun names l₃ hl₃ => hitems names l₃ (hl₂.trans hl₃)

/-- A block with an expression is no construct with a body. -/
theorem pairs_parseBlock (htag : IsTag σ "block" t l rest) :
    Pairs σ (parseBlock rules t.position) (t :: l) rest d := by
  obtain ⟨first, hl, hfirst⟩ := htag.named
  refine Settles.bindFault ((blames_parseDottedName _ _ _).withCollects
    (collects_parseDottedName _ _ _)) fun name l₁ d₁ h => ?_
  obtain ⟨rfl, hdrop, hl₁⟩ := h
  refine Settles.bindFault (settles_peek _ _) fun token l₂ d₂ h => ?_
  obtain ⟨htoken, hcons, hl₂, rfl⟩ := h
  have hshort : opensShorthand (t :: l) = !l₂.head?.any (·.kind == .tagClose) := by
    simp [opensShorthand, htag.opensTag_eq, hl, hdrop, hl₂]
  have hcross : Crosses l l₂ := htag.crosses.trans (hl₁.trans (hl₂ ▸ Crosses.solid l₁))
  extract_lets slot
  have hslot : ∀ body l' d', Paired (t :: l) l' → Pairs σ (slot body) (t :: l) l' d' := by
    intro body l' d' hl'
    refine Settles.bindFault (settles_addBlock htag.places _ _) fun id l'' d'' h => ?_
    subst h
    exact Settles.pure hl'
  split
  · next hclose =>
    -- The name ends the tag, and a body follows.
    obtain ⟨more, rfl⟩ := hcons (by rw [hclose]; rfl)
    have hopens := htag.opensBody (by decide) (by simp [hshort, hclose])
      (htag.opensAssignment_eq_false (by decide))
    refine Settles.inside inside_endTag fun _ l₃ hl₃ => ?_
    refine Settles.bind (settles_lastBodyOf hrules hopens (hcross.trans hl₃).paired (by decide))
      fun body l₄ d₃ hl₄ => ?_
    refine Settles.inside (inside_parseNamedEnd _ _) fun _ l₅ hl₅ => ?_
    exact Settles.inside (Inside.pure _) fun body l₆ hl₆ =>
      hslot body l₆ _ (hl₄.trans (hl₅.trans hl₆).paired)
  · next hclose =>
    -- An expression follows, so that the tag opens nothing.
    have hprints : opensShorthand (t :: l) = true := by
      rw [hshort]
      cases l₂ with
      | nil => simp
      | cons first more =>
        rw [← hl₂, lead_cons] at htoken
        simp [← htoken, hclose]
    have hneutral := htag.neutral (.inr (.inl hprints)) (by decide)
    refine Settles.inside hrules.inside fun e l₃ hl₃ => ?_
    refine Settles.inside inside_endTag fun _ l₄ hl₄ => ?_
    exact Settles.inside (Inside.pure _) fun body l₅ hl₅ => hslot body l₅ _
      (.skip hneutral (hcross.trans (hl₃.trans (hl₄.trans hl₅))).paired)

theorem pairs_parseMacro (htag : IsTag σ "macro" t l rest) :
    Pairs σ (parseMacro rules t.position) (t :: l) rest d := by
  have hopens := htag.opensBody_of_ne (by decide) (by decide)
  have hparams : Inside σ (parseParams rules) :=
    ⟨(reads_parseParams hrules.sound).mono fun _ _ => trivial, blames_parseParams hrules.expr⟩
  refine Settles.inside inside_name fun name l₁ hl₁ => ?_
  refine Settles.inside (inside_expect (by simp [TokenKind.beginsPiece])) fun _ l₂ hl₂ => ?_
  refine Settles.inside hparams fun params l₃ hl₃ => ?_
  refine Settles.inside inside_endTag fun _ l₄ hl₄ => ?_
  have hl₄ := htag.crosses.trans (hl₁.trans (hl₂.trans (hl₃.trans hl₄)))
  refine Settles.bind (settles_lastBodyOf hrules hopens hl₄.paired (by decide))
    fun body l₅ d₁ hl₅ => ?_
  refine Settles.inside (inside_parseNamedEnd _ _) fun _ l₆ hl₆ => ?_
  refine Settles.bindFault (settles_addMacro htag.places _ _) fun id l₇ d₂ h => ?_
  subst h
  exact Settles.pure (hl₅.trans hl₆.paired)

theorem inside_parseInclusion (pos : Position) : Inside σ (parseInclusion rules pos) :=
  ⟨(reads_parseInclusion hrules.sound pos).mono fun _ _ => trivial,
    blames_parseInclusion hrules.expr pos⟩

/-- A body leaves the tables around it, so that there is one to go back to. -/
theorem pairs_parseEmbed (htag : IsTag σ "embed" t l rest) :
    Pairs σ (parseEmbed rules t.position) (t :: l) rest d := by
  have hopens := htag.opensBody_of_ne (by decide) (by decide)
  refine Settles.inside (inside_parseInclusion hrules _) fun inclusion l₁ hl₁ => ?_
  refine Settles.inside inside_endTag fun _ l₂ hl₂ => ?_
  have hl₂ := htag.crosses.trans (hl₁.trans hl₂)
  refine Settles.bindFault (settles_openTable _ _) fun _ l₃ d₁ h => ?_
  obtain ⟨rfl, rfl⟩ := h
  refine Settles.bind ((settles_lastBodyOf hrules hopens hl₂.paired (by decide)).and
    (collects_bodyOf hrules.sound _ _ (by decide) _ _)) fun dropped l₄ d₂ h => ?_
  obtain ⟨hl₄, hdropped⟩ := h
  have houter : d₂.outerTables = d.blockTable :: d.outerTables := hdropped.derives.outerTables_eq
  refine Settles.bindFault (settles_closeTable _ (by simp [houter])) fun blocks l₅ d₃ h => ?_
  subst h
  exact Settles.inside inside_endTag fun _ l₆ hl₆ => Settles.pure (hl₄.trans hl₆.paired)

theorem pairs_parseFiltered (htag : IsTag σ "filter" t l rest) :
    Pairs σ (parseFiltered rules t.position) (t :: l) rest d := by
  have hopens := htag.opensBody_of_ne (by decide) (by decide)
  have hcalls : Inside σ (parseFilterCalls rules) :=
    ⟨(reads_parseFilterCalls hrules.sound).mono fun _ _ => trivial,
      blames_parseFilterCalls hrules.expr⟩
  refine Settles.inside hcalls fun filters l₁ hl₁ => ?_
  refine Settles.inside inside_endTag fun _ l₂ hl₂ => ?_
  have hl₂ := htag.crosses.trans (hl₁.trans hl₂)
  refine Settles.bind (settles_lastBodyOf hrules hopens hl₂.paired (by decide))
    fun body l₃ d₁ hl₃ => ?_
  exact Settles.inside inside_endTag fun _ l₄ hl₄ => Settles.pure (hl₃.trans hl₄.paired)

theorem pairs_parseExtends (htag : IsTag σ "extends" t l rest) :
    Pairs σ (parseExtends rules t.position) (t :: l) rest d := by
  have hneutral := htag.neutral (.inl (by decide)) (by decide)
  apply Settles.get_bind
  intro s hs
  extract_lets extend
  have hextend : Pairs σ (extend ()) (t :: l) rest d := by
    refine Settles.inside hrules.inside fun template l₁ hl₁ => ?_
    refine Settles.inside inside_endTag fun _ l₂ hl₂ => ?_
    have hpaired : Paired (t :: l) l₂ :=
      .skip hneutral (htag.crosses.trans (hl₁.trans hl₂)).paired
    refine ⟨fun s _ u hs hrun => ?_, fun _ _ _ hrun => by cases hrun⟩
    cases hrun
    refine ⟨l₂, d.extend ⟨t.position, template⟩, { hs with collected := ?_ }, hpaired⟩
    rw [← hs.collected]
    rfl
  split
  · exact Settles.bind (Q := fun _ _ _ => False)
      (Settles.fail (.fault ⟨htag.places, id, nofun⟩)) nofun
  · exact hextend

omit hrules in
/-- Behind the first of several names there is a comma. -/
theorem collects_targets (n : Nat) (l : List Token) (d : Collected) :
    Collects σ (commaSeparated n name) l d fun targets l' _ =>
      targets.length = 1 ∧ l' = solid (solid l).tail ∨
        2 ≤ targets.length ∧ (lead σ.final (solid (solid l).tail)).is .punctuation "," = true := by
  refine Collects.iterate (fun items l' _ => items = [] ∧ l' = l ∨
    1 ≤ items.length ∧ (lead σ.final (solid (solid l).tail)).is .punctuation "," = true)
    (fun items l₁ d₁ hitems => ?_) n (.inl ⟨rfl, rfl⟩)
  refine Collects.bind (collects_name _ _) fun item l₂ d₂ h => ?_
  obtain ⟨⟨token, hl₁, -⟩, rfl⟩ := h
  refine Collects.bind (collects_accept _ _ _ _) fun accepted l₃ d₃ h => ?_
  obtain ⟨haccepted, hl₃, rfl⟩ := h
  have hl₂ : l₂ = (solid l₁).tail := by rw [hl₁, List.tail_cons]
  split
  · next hcomma =>
    rcases hitems with ⟨rfl, rfl⟩ | ⟨hlength, hcomma⟩
    · exact Collects.pure (.inr ⟨Nat.le_refl 1, by rw [← hl₂, ← haccepted, hcomma]⟩)
    · exact Collects.pure (.inr ⟨Nat.le_add_left 1 _, hcomma⟩)
  · next hcomma =>
    rcases hitems with ⟨rfl, rfl⟩ | ⟨hlength, hcomma⟩
    · exact Collects.pure (.inl ⟨rfl, by rw [hl₃, if_neg hcomma, hl₂]⟩)
    · exact Collects.pure (.inr ⟨by simpa using hlength, hcomma⟩)

omit hrules in
theorem collects_endTag (l : List Token) (d : Collected) :
    Collects σ endTag l d fun _ _ _ => (solid l).head?.any (·.kind == .tagClose) = true := by
  refine Collects.bind (Q := fun _ _ _ => (solid l).head?.any (·.kind == .tagClose) = true)
    (Collects.bind (collects_nextSolid l d) fun token l' d' h => ?_) fun _ _ _ h => Collects.pure h
  obtain ⟨-, hcons, -, rfl⟩ := h
  split
  · next hmem =>
    have hkind : token.kind = .tagClose := by simpa using hmem
    exact Collects.pure (by simp [hcons (by rw [hkind]; rfl), hkind])
  · exact Collects.throw _

omit hrules in
/-- What a mark stands before is not the end of a tag. -/
theorem any_tagClose_of_mark {value : String} (h : (lead σ.final l).is .punctuation value = true) :
    l.head?.any (·.kind == .tagClose) = false := by
  cases l with
  | nil => rfl
  | cons token l => simpa using fun hkind => by cases hkind.symm.trans (Token.kind_of_is h)

/-- What is assigned is not captured. -/
theorem pairs_parseSet (htag : IsTag σ "set" t l rest) :
    Pairs σ (parseSet rules t.position) (t :: l) rest d := by
  have hassigns : opensAssignment (t :: l) =
      !(solid (solid rest).tail).head?.any (·.kind == .tagClose) := by
    obtain ⟨first, hl, -⟩ := htag.named
    simp [opensAssignment, htag.opensTag_eq, hl]
  have hplain : ∀ {kind : ParseErrorKind} {α : Type} {Q : α → List Token → Collected → Prop}
      {l' d'}, ¬ kind.IsInternal → (∀ tag start, kind ≠ .unclosedTag tag start) →
      Settles σ (Parse.fail t.position kind : Parse α) l' d' Q (ParseError.Explained σ (t :: l)) :=
    fun hexternal hclosed => Settles.fail (.fault ⟨htag.places, hexternal, hclosed⟩)
  refine Settles.bindFault (((blames_commaSeparated blames_name _ _ _).withCollects
    (reads_commaSeparated quiet_name _ _ _)).and (collects_targets _ _ _)) fun targets l₁ d₁ h => ?_
  obtain ⟨⟨rfl, hl₁, -⟩, htargets⟩ := h
  refine Settles.bindFault ((settles_accept _ _ _ _).and (quiet_accept rfl _ _ _))
    fun accepted l₂ d₂ h => ?_
  obtain ⟨⟨haccepted, hrest, -⟩, rfl, hl₂, -⟩ := h
  have hl₂ := htag.crosses.trans (hl₁.trans hl₂)
  split
  · next hequals =>
    -- Behind the first name there is a comma or the sign of the assignment.
    have hmark : (solid (solid rest).tail).head?.any (·.kind == .tagClose) = false := by
      rcases htargets with ⟨-, rfl⟩ | ⟨-, hcomma⟩
      · rw [hequals, solid_solid] at haccepted
        exact any_tagClose_of_mark haccepted.symm
      · exact any_tagClose_of_mark hcomma
    have hneutral := htag.neutral (.inr (.inr (by rw [hassigns, hmark]; rfl))) (by decide)
    refine Settles.inside ⟨(reads_commaSeparated hrules.sound.expr _).mono fun _ _ => trivial,
      blames_commaSeparated hrules.expr _⟩ fun values l₃ hl₃ => ?_
    refine Settles.inside inside_endTag fun _ l₄ hl₄ => ?_
    split
    · refine Settles.bind (Q := fun _ _ _ => False) (hplain ?_ nofun) nofun
      exact ParseErrorKind.not_isInternal (c := 's') (by simp [toString]) (by decide)
    · exact Settles.pure (.skip hneutral (hl₂.trans (hl₃.trans hl₄)).paired)
  · next hequals =>
    split
    · next target =>
      -- Behind the only name there is the end of the tag.
      have hl₁ : l₁ = solid (solid rest).tail := by
        rcases htargets with ⟨-, hl₁⟩ | ⟨hlength, -⟩
        · exact hl₁
        · simp at hlength
      have hl₁₂ : solid l₂ = solid (solid rest).tail := by
        rw [hrest, if_neg hequals, hl₁, solid_solid, solid_solid]
      refine Settles.bindFault (((blames_endTag _ _).withCollects (quiet_endTag _ _)).and
        (collects_endTag _ _)) fun _ l₃ d₃ h => ?_
      obtain ⟨⟨rfl, hl₃, -⟩, hclose⟩ := h
      rw [hl₁₂] at hclose
      have hopens := htag.opensBody (by decide) (htag.opensShorthand_eq_false (by decide))
        (by rw [hassigns, hclose]; rfl)
      refine Settles.bind (settles_lastBodyOf hrules hopens (hl₂.trans hl₃).paired (by decide))
        fun body l₄ d₄ hl₄ => ?_
      exact Settles.inside inside_endTag fun _ l₅ hl₅ => Settles.pure (hl₄.trans hl₅.paired)
    · exact hplain (ParseErrorKind.not_isInternal (c := 'a') rfl (by decide)) nofun

/-! ## §5. Bodies -/

/-- A tag closes what is opened in it, or it is known what is not closed. -/
theorem pairs_parseTag (htag : IsTag σ tag t l rest) :
    Pairs σ (parseTag rules tag t.position) (t :: l) rest d := by
  have hone : ∀ {x : Parse Stmt},
      Pairs σ x (t :: l) rest d → Pairs σ (do pure [← x]) (t :: l) rest d :=
    fun hx => Settles.bind hx fun _ _ _ h => Settles.pure h
  have hnone : ∀ {x : Parse (List Stmt)},
      tag ∉ bodyTags ∧ (∀ name ∈ bodyTags, "end" ++ name ≠ tag) → Inside σ x →
      Pairs σ x (t :: l) rest d :=
    fun hother hx => pairs_tag htag (htag.neutral (.inl hother.1) hother.2) hx
  unfold parseTag
  split
  · exact pairs_parseIf hrules htag
  · exact hone (pairs_parseFor hrules htag)
  · exact hone (pairs_parseBlock hrules htag)
  · exact Settles.bind (pairs_parseExtends hrules htag) fun _ _ _ h => Settles.pure h
  · refine hnone (by decide) (Inside.bind ⟨?_, blames_parseUse hrules.expr _⟩ fun _ => .pure _)
    exact (reads_parseUse hrules.sound _).mono fun _ _ => trivial
  · exact hnone (by decide) ((inside_parseInclusion hrules _).bind fun _ =>
      inside_endTag.bind fun _ => .pure _)
  · exact hone (pairs_parseEmbed hrules htag)
  · exact hone (pairs_parseSet hrules htag)
  · exact hnone (by decide) (hrules.inside.bind fun _ => inside_endTag.bind fun _ => .pure _)
  · exact hone (pairs_parseFiltered hrules htag)
  · exact hone (pairs_parseMacro hrules htag)
  · refine hnone (by decide) (Inside.bind ⟨?_, blames_parseImport hrules.expr _⟩ fun _ => .pure _)
    exact (reads_parseImport hrules.sound _).mono fun _ _ => trivial
  · refine hnone (by decide) (Inside.bind ⟨?_, blames_parseFrom hrules.expr _⟩ fun _ => .pure _)
    exact (reads_parseFrom hrules.sound _).mono fun _ _ => trivial
  · exact Settles.fail (.fault ⟨htag.places, id, nofun⟩)

/-- One piece of a body, after those before it. -/
theorem settles_parsePiece {stops : List String} (opening : Option Opening) {before : List Stmt}
    {l₁ : List Token} (hbefore : Paired l l₁) :
    Settles σ (parsePiece rules stops opening before) l₁ d
      (fun r l' _ => r.Holds (fun _ => Paired l l') fun body => body.Ends σ stops opening l l')
      (ParseError.ExplainedIn σ opening l) := by
  refine Settles.of_within fun hwithin => ?_
  have hlater : ∀ {e : ParseError}, e.Explained σ l₁ → e.ExplainedIn σ opening l :=
    fun he => .within (he.of_suffix hbefore.suffix)
  refine Settles.bind ((settles_next l₁ d).monoErrors fun _ he => hlater (.fault he))
    fun token l₂ d₂ h => ?_
  obtain ⟨hlead, hfinal, hcons, -, rfl⟩ := h
  split
  · next hkind =>
    obtain ⟨rfl, rfl⟩ := hfinal (by rw [hkind]; rfl)
    split
    · exact Settles.fail (.unclosed rfl hkind hbefore)
    · exact Settles.pure ⟨by simp, fun _ => rfl⟩
  · next hkind =>
    obtain rfl := hcons (by rw [hkind]; rfl)
    exact Settles.pure (hbefore.trans (paired_of_kind (by simp [hkind]) l₂))
  · next hkind =>
    obtain rfl := hcons (by rw [hkind]; rfl)
    have hprint := paired_of_kind (t := token) (by simp [hkind]) l₂
    refine Settles.monoErrors (Settles.inside (k := token :: l₂) hrules.inside fun e l₃ hl₃ => ?_)
      fun _ => hlater
    refine Settles.inside (inside_expect (by simp [TokenKind.beginsPiece])) fun _ l₄ hl₄ => ?_
    exact Settles.pure (hbefore.trans (hprint.trans (hl₃.trans hl₄).paired))
  · next hkind =>
    obtain rfl := hcons (by rw [hkind]; rfl)
    refine Settles.monoErrors (Settles.bindFault (k := token :: l₂)
      ((blames_name _ _).withCollects (collects_name _ _)) fun tag l₃ d₃ h => ?_) fun _ => hlater
    obtain ⟨hnamed, rfl⟩ := h
    have htag : IsTag σ tag token l₂ l₃ := ⟨hwithin.subset List.mem_cons_self, hkind, hnamed⟩
    split
    · next hmem =>
      -- The tag ends the body, and is left to the construct.
      refine Settles.pure ⟨fun stop hstop => ?_, by simp⟩
      cases hstop
      exact ⟨List.contains_iff_mem.mp hmem, token, l₂, hbefore, htag⟩
    · refine Settles.bind (pairs_parseTag hrules htag) fun ss l₄ d₄ h => ?_
      exact Settles.pure (hbefore.trans h)
  · exact Settles.unexpected (hlater (.fault (ParseError.fault_unexpected
      (hlead ▸ TokenStream.lead_mem_all hwithin) _)))

omit hrules in
/-- **Bodies end at a tag that is known, and where they do not it is known why.** -/
theorem settles_parseBody (hσ : σ.Numbered) (n : Nat) {stops : List String}
    (hstops : "block" ∉ stops) (opening : Option Opening) (l : List Token) (d : Collected) :
    Settles σ (parseBody n stops opening) l d (fun body l' _ => body.Ends σ stops opening l l')
      (ParseError.ExplainedIn σ opening l) := by
  -- The induction is on the depth that is left, which every body inside a tag uses one of.
  induction n generalizing stops opening l d with
  | zero => exact Settles.exhausted
  | succ n ih =>
    have hgood : ∀ n, Reads σ (Expr.parse n .any) fun _ => True :=
      fun n => Expr.quiet_parse n .any
    have hrules : Rules.Explained σ ⟨n, Expr.parse n .any, parseBody n⟩ :=
      { sound := ⟨hgood n, fun stops opening hstops l d =>
          (collects_parseBody hgood n hstops opening l d).mono fun _ _ _ h => h.written⟩
        expr := Expr.blames_parse hσ n .any
        body := fun stops opening hstops l d => ih hstops opening l d }
    exact Settles.iterate (fun _ l' _ => Paired l l')
      (fun before l' d' h => settles_parsePiece hrules opening h) n (.refl l)

end Stmt

/-! ## §6. Templates -/

namespace Template

variable {name source : String}

/-- What a parse fails with is explained by the tokens of its source. -/
theorem explained_of_parse {e : ParseError} (h : parse name source = .error (.error e)) :
    e.Explained (lex source) (lex source).tokens := by
  unfold parse parseWithin at h
  cases hrun : (Stmt.parseBody (parseDepth (lex source).tokens.length) [] none).run
      (Parse.startState (lex source)) with
  | ok r =>
    simp only [hrun] at h
    cases h
  | error failure =>
    simp only [hrun] at h
    cases h
    have hsettles := Stmt.settles_parseBody (numbered_lex source)
      (parseDepth (lex source).tokens.length) List.not_mem_nil none (lex source).tokens .empty
    cases hsettles.fails _ e (at_startState source) hrun with
    | within h => exact h
    | unclosed hopening => cases hopening

/-- **Errors stand at tokens, and say what can go wrong.**  A parse fails at the place of a token of
its source.  It does not complain of blocks without a table or of numbers that do not read as such,
and a tag that it calls unclosed is one of the source.  A lexical error makes it fail. -/
theorem errors_of_parse (name source : String) :
    (∀ failure, parse name source = .error failure → ∃ e, failure = .error e ∧
      (∃ token ∈ (lex source).all, e.position = token.position) ∧ e.position ≠ ⟨0, 0⟩ ∧
      ¬ e.kind.IsInternal ∧
      ∀ tag start, e.kind = .unclosedTag tag start →
        ∃ token ∈ (lex source).tokens, token.kind = .tagOpen ∧ token.position = start) ∧
    ((lex source).final.kind = .error → ∃ e, parse name source = .error (.error e)) := by
  have hfailure : ∀ failure, parse name source = .error failure → ∃ e, failure = .error e := by
    rintro (e | _) h
    · exact ⟨e, rfl⟩
    · exact absurd h (parse_ne_exhausted name source)
  refine ⟨fun failure h => ?_, fun hfinal => ?_⟩
  · obtain ⟨e, rfl⟩ := hfailure failure h
    have hnotzero : ∀ token ∈ (lex source).all, token.position ≠ ⟨0, 0⟩ := by
      -- Lines are counted from one.
      intro token hmem hzero
      have hle := start_le_of_mem_all hmem
      rw [hzero] at hle
      rcases hle with hle | ⟨hle, -⟩ <;> cases hle
    refine ⟨e, rfl, ?_⟩
    cases explained_of_parse h with
    | fault hfault =>
      obtain ⟨token, hmem, hposition⟩ := hfault.placed
      exact ⟨⟨token, hmem, hposition⟩, hposition ▸ hnotzero token hmem, hfault.external,
        fun tag start hkind => absurd hkind (hfault.closed tag start)⟩
    | unclosed hbreaks =>
      have hmem : (lex source).final ∈ (lex source).all := by simp [TokenStream.all]
      refine ⟨⟨_, hmem, rfl⟩, hnotzero _ hmem, id, fun tag start hkind => ?_⟩
      cases hkind
      obtain ⟨before, t, after, htokens, hstart, hopens, -⟩ := hbreaks.innermost
      refine ⟨t, by simp [htokens], kind_of_opensBody hopens, hstart⟩
  · cases h : parse name source with
    | error failure =>
      obtain ⟨e, rfl⟩ := hfailure failure h
      exact ⟨e, rfl⟩
    | ok t =>
      -- A template is parsed from a source only if that is read to its end.
      obtain ⟨-, heof, -⟩ := parse_written (fun n => Expr.quiet_parse n .any) h
      rw [hfinal] at heof
      cases heof

/-- A bracket that is closed by one of another kind. -/
theorem errors_of_parse_mismatched :
    (lex "a\n\x7b\x7b (1] \x7d\x7d").final.kind = .error ∧
      ∃ e, parse "t" "a\n\x7b\x7b (1] \x7d\x7d" = .error (.error e) ∧ e.position ≠ ⟨0, 0⟩ ∧
        ¬ e.kind.IsInternal := by
  have hfinal : (lex "a\n\x7b\x7b (1] \x7d\x7d").final.kind = .error := by decide +kernel
  obtain ⟨herrors, hfails⟩ := errors_of_parse "t" "a\n\x7b\x7b (1] \x7d\x7d"
  obtain ⟨e, he⟩ := hfails hfinal
  obtain ⟨e', he', -, hnotzero, hexternal, -⟩ := herrors _ he
  cases he'
  exact ⟨hfinal, e, he, hnotzero, hexternal⟩

/-- **The construct that is called unclosed is the innermost one that is open.**  The error is at
the end of the source.  A construct with a body is opened by the tag that the error names, and what
is opened after that is closed by the end of the source, so that no tag there ends the
construct. -/
theorem innermost_of_parse {pos start : Position} {tag : String}
    (h : parse name source = .error (.error ⟨pos, .unclosedTag tag start⟩)) :
    (lex source).final.kind = .eof ∧ pos = (lex source).final.position ∧
      pos = Position.start.past source.toList ∧
      ∃ before t after, (lex source).tokens = before ++ t :: after ∧ t.position = start ∧
        opensBody tag (t :: after) = true ∧ Paired after [] := by
  cases explained_of_parse h with
  | fault hfault => exact absurd rfl (hfault.closed tag start)
  | unclosed hbreaks =>
    exact ⟨hbreaks.eof, rfl, final_position_of_lex hbreaks.eof, hbreaks.innermost⟩

/-- The source ends in the alternative of an `if`, inside of a loop, and what is opened in the `if`
is closed. -/
theorem innermost_of_parse_else :
    parse "t" ("\x7b% for a in b %\x7d\n\x7b% if c %\x7d\x7b% set d %\x7de\x7b% endset %\x7d" ++
        "\x7b% else %\x7d\x7b% block f 1 %\x7d\x7b% set g = h %\x7d") =
      .error (.error ⟨⟨2, 75⟩, .unclosedTag "if" ⟨2, 1⟩⟩) ∧
    ∃ before t after,
      (lex ("\x7b% for a in b %\x7d\n\x7b% if c %\x7d\x7b% set d %\x7de\x7b% endset %\x7d" ++
        "\x7b% else %\x7d\x7b% block f 1 %\x7d\x7b% set g = h %\x7d")).tokens =
        before ++ t :: after ∧ t.position = ⟨2, 1⟩ ∧
      opensBody "if" (t :: after) = true ∧ Paired after [] := by
  let source := "\x7b% for a in b %\x7d\n\x7b% if c %\x7d\x7b% set d %\x7de\x7b% endset %\x7d" ++
    "\x7b% else %\x7d\x7b% block f 1 %\x7d\x7b% set g = h %\x7d"
  have hfails : (match parse "t" source with
      | .error (.error e) => some e
      | _ => none) = some ⟨⟨2, 75⟩, .unclosedTag "if" ⟨2, 1⟩⟩ := by
    decide +kernel
  cases h : parse "t" source with
  | ok t =>
    rw [h] at hfails
    cases hfails
  | error failure =>
    rw [h] at hfails
    cases failure with
    | exhausted => cases hfails
    | error e =>
      cases hfails
      exact ⟨rfl, (innermost_of_parse h).2.2.2⟩

end Template

end Stencil
