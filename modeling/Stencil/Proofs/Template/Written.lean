import Stencil.Proofs.Token.Ahead
import Stencil.Proofs.Template.Derivation

/-!
Which tokens a template is built up from.

A derivation says what is collected, without tokens.  `Written` has the tokens as well: where in the
source each text and each print stands, and which tokens go by without leaving any.  Every token of
a source is accounted for once, so that what is said about texts and prints of a template can be
said about its source.
-/

namespace Stencil

/-! ## §1. Tags in a stream -/

/-- The tokens behind the further parts of a dotted name. -/
def dropParts : List Token → List Token
  | dot :: part :: rest =>
    if dot.is .punctuation "." && part.kind == .name then dropParts rest else dot :: part :: rest
  | l => l

/-- Whether some tokens begin with a tag of this name. -/
def opensTag (name : String) : List Token → Bool
  | t :: l => t.kind == .tagOpen && (solid l).head?.any (·.is .name name)
  | [] => false

/-- Whether some tokens begin with a block that has an expression in place of a body: its name is
not the end of the tag. -/
def opensShorthand : List Token → Bool
  | t :: l => opensTag "block" (t :: l) &&
    !(solid (dropParts (solid (solid l).tail).tail)).head?.any (·.kind == .tagClose)
  | [] => false

/-- Whether some tokens begin with what is printed: a print, or a block with an expression. -/
def opensPrint : List Token → Bool
  | t :: l => t.kind == .printOpen || opensShorthand (t :: l)
  | [] => false

theorem opensTag_cons {t first : Token} {l rest : List Token} (ht : t.kind = .tagOpen)
    (hl : solid l = first :: rest) (name : String) :
    opensTag name (t :: l) = first.is .name name := by
  simp [opensTag, ht, hl]

/-- A tag of another name is no block with an expression. -/
theorem opensPrint_of_tag {t first : Token} {l rest : List Token} (ht : t.kind = .tagOpen)
    (hl : solid l = first :: rest) (hfirst : first.is .name "block" = false) :
    opensPrint (t :: l) = false := by
  simp [opensPrint, opensShorthand, opensTag_cons ht hl, hfirst, ht]

/-- Some tokens are taken off the front, and neither a text nor what is printed begins with one of
them. -/
inductive Passed : List Token → List Token → Prop
  | refl (l : List Token) : Passed l l
  | skip {t : Token} {l l' : List Token} :
    t.kind ≠ .text → opensPrint (t :: l) = false → Passed l l' → Passed (t :: l) l'

namespace Passed

variable {l l' l'' : List Token}

theorem trans (h : Passed l l') (h' : Passed l' l'') : Passed l l'' := by
  induction h with
  | refl => exact h'
  | skip htext hprint _ ih => exact .skip htext hprint (ih h')

theorem suffix (h : Passed l l') : l' <:+ l := by
  induction h with
  | refl => exact List.suffix_refl _
  | skip _ _ _ ih => exact ih.trans (List.suffix_cons _ _)

end Passed

theorem Crosses.passed {l l' : List Token} (h : Crosses l l') : Passed l l' := by
  obtain ⟨taken, rfl, htaken⟩ := h
  induction taken with
  | nil => exact .refl _
  | cons t taken ih =>
    obtain ⟨ht, htaken⟩ := List.forall_mem_cons.mp htaken
    refine .skip (fun hkind => ?_) ?_ (ih htaken)
    · rw [hkind] at ht
      cases ht
    · -- Neither of the two tokens that what is printed begins with is inside a piece.
      cases hkind : t.kind <;>
        simp_all [opensPrint, opensShorthand, opensTag, TokenKind.beginsPiece]

/-- The opening of a tag goes by, if it is not that of a block. -/
theorem passed_tag {t first : Token} {l rest : List Token} (ht : t.kind = .tagOpen)
    (hl : solid l = first :: rest) {tag : String} (hfirst : first.is .name tag = true)
    (htag : tag ≠ "block") : Passed (t :: l) rest := by
  have hother : first.is .name "block" = false := by
    simp only [Token.is, Bool.and_eq_true, beq_iff_eq] at hfirst
    simp [Token.is, hfirst.2, htag]
  have hcross : Crosses l rest := .of_solid hl (by rw [Token.kind_of_is hfirst]; rfl)
  exact .skip (by simp [ht]) (opensPrint_of_tag ht hl hother) hcross.passed

/-! ## §2. Statements and tokens -/

/-- A statement without output of its own that has no statements inside and no definitions. -/
def Stmt.Action : Stmt → Prop
  | .text .. | .print .. => False
  | s => s.Plain

theorem Stmt.Action.plain {s : Stmt} (h : s.Action) : s.Plain := by
  cases s <;> first | exact h | cases h

/-- From some tokens on and with something collected before, a list of statements is built up, if
its expressions are of a certain kind; the tokens that are left and what is collected then. -/
inductive Written (good : Expr → Prop) :
    List Token → Collected → List Stmt → List Token → Collected → Prop
  /-- Tokens go by. -/
  | pass {l l' : List Token} (d : Collected) : Passed l l' → Written good l d [] l' d
  | append {l l₁ l₂ : List Token} {d d₁ d₂ : Collected} {ss more : List Stmt} :
    Written good l d ss l₁ d₁ → Written good l₁ d₁ more l₂ d₂ → Written good l d (ss ++ more) l₂ d₂
  | text {t : Token} (l : List Token) (d : Collected) : t.kind = .text →
    Written good (t :: l) d [.text t.position t.value] l d
  | print {t : Token} {l : List Token} (d : Collected) {e : Expr} : opensPrint (t :: l) = true →
    good e → Written good (t :: l) d [.print t.position e] l d
  | action (l : List Token) (d : Collected) {s : Stmt} :
    s.Action → (∀ e ∈ s.exprs, good e) → Written good l d [s] l d
  /-- An `extends` leaves no statement. -/
  | extending (l : List Token) {d : Collected} {parent : Extends} :
    d.parent = none → good parent.template → Written good l d [] l (d.extend parent)
  | branch {l l₁ l₂ : List Token} {d d₁ d₂ : Collected} {body orElse : List Stmt} (pos : Position)
    {cond : Expr} : good cond → Written good l d body l₁ d₁ → Written good l₁ d₁ orElse l₂ d₂ →
    Written good l d [.branch pos cond body orElse] l₂ d₂
  | loop {l l₁ l₂ : List Token} {d d₁ d₂ : Collected} {body orElse : List Stmt} (pos : Position)
    (key : Option String) (value : String) {iterable : Expr} :
    good iterable → Written good l d body l₁ d₁ → Written good l₁ d₁ orElse l₂ d₂ →
    Written good l d [.loop pos key value iterable body orElse] l₂ d₂
  | capture {l l' : List Token} {d d' : Collected} {body : List Stmt} (pos : Position)
    (name : String) : Written good l d body l' d' →
    Written good l d [.capture pos name body] l' d'
  | filtered {l l' : List Token} {d d' : Collected} {body : List Stmt} (pos : Position)
    {filters : List FilterCall} : (∀ f ∈ filters, ∀ e ∈ f.args, good e) →
    Written good l d body l' d' → Written good l d [.filtered pos filters body] l' d'
  | block {l l' : List Token} {d d' : Collected} {body : List Stmt} (pos : Position)
    {name : String} : Written good l d body l' d' → d'.blockTable.has name = false →
    Written good l d [.block pos d'.blocks.length] l' (d'.addBlock ⟨name, pos, body⟩)
  | defines {l l' : List Token} {d d' : Collected} {body : List Stmt} (pos : Position)
    {name : String} {params : List Param} : (∀ p ∈ params, ∀ e ∈ p.fallback, good e) →
    Written good l d body l' d' → d'.macroTable.has name = false →
    Written good l d [.defines pos d'.macros.length] l' (d'.addMacro ⟨name, pos, params, body⟩)
  /-- Of the body of an `embed` only the definitions are kept. -/
  | embeds {t : Token} {l l' : List Token} {d d' : Collected} {dropped : List Stmt}
    {i : Inclusion} : opensTag "embed" (t :: l) = true →
    (∀ e ∈ i.template :: i.bindings.toList, good e) → Written good l d.openTable dropped l' d' →
    Written good (t :: l) d [.embeds i d'.blockTable] l' d'.closeTable

namespace Written

variable {good : Expr → Prop} {l l₁ l' : List Token} {d d' : Collected} {ss : List Stmt}

/-- Tokens go by before something. -/
theorem after (h : Passed l l₁) (hss : Written good l₁ d ss l' d') : Written good l d ss l' d' :=
  append (pass d h) hss

/-- Tokens go by after something. -/
theorem upTo (hss : Written good l d ss l₁ d') (h : Passed l₁ l') : Written good l d ss l' d' := by
  have happend := append hss (pass d' h)
  rwa [List.append_nil] at happend

theorem nil (l : List Token) (d : Collected) : Written good l d [] l d :=
  pass d (.refl l)

/-- What is written is derived. -/
theorem derives (h : Written good l d ss l' d') : Derives good d ss d' := by
  induction h with
  | pass d => exact .nil d
  | append _ _ ih₁ ih₂ => exact .append ih₁ ih₂
  | text _ d => exact .plain d trivial nofun
  | print d _ he => exact .plain d trivial (by simpa [Stmt.exprs] using he)
  | action _ d hs hexprs => exact .plain d hs.plain hexprs
  | extending _ hnone hgood => exact .extending hnone hgood
  | branch pos hcond _ _ ih₁ ih₂ => exact .branch pos hcond ih₁ ih₂
  | loop pos key value hiterable _ _ ih₁ ih₂ => exact .loop pos key value hiterable ih₁ ih₂
  | capture pos name _ ih => exact .capture pos name ih
  | filtered pos hfilters _ ih => exact .filtered pos hfilters ih
  | block pos _ hnew ih => exact .block pos ih hnew
  | defines pos hparams _ hnew ih => exact .defines pos hparams ih hnew
  | embeds _ hinclusion _ ih => exact .embeds hinclusion ih

/-- Tokens are read from the front. -/
theorem suffix (h : Written good l d ss l' d') : l' <:+ l := by
  induction h with
  | pass _ h => exact h.suffix
  | text | print => exact List.suffix_cons _ _
  | action | extending => exact List.suffix_refl _
  | append _ _ ih₁ ih₂ | branch _ _ _ _ ih₁ ih₂ | loop _ _ _ _ _ _ ih₁ ih₂ => exact ih₂.trans ih₁
  | capture _ _ _ ih | filtered _ _ _ ih | block _ _ _ ih | defines _ _ _ _ ih => exact ih
  | embeds _ _ _ ih => exact ih.trans (List.suffix_cons _ _)

end Written

end Stencil
