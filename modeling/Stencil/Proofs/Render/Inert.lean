import Stencil.Loader.Source
import Stencil.Proofs.Render.Concord

/-!
What does not count in a template that extends another one.

Such a template is rendered for its blocks and macros.  Of its top level only assignments, imports
and the templates that blocks are taken from count.  All other statements there are inert: text and
prints, loops and branches, inclusions, and the slots of its own blocks.  They can be taken out of
any templates of a render, and nothing about the render changes.

Templates with statements taken out are alike in the sense of `Likeness`, with the very same code:
what is run of them is what was not taken out.
-/

namespace Stencil

open Render (isPreamble)

/-! ## §1. Taking statements out -/

/-- Whether a statement counts at the top level of a template that extends another one: those that
assign or import something, and those that take blocks from other templates. -/
def Stmt.counts : Stmt → Bool
  | .assign .. | .capture .. | .perform .. | .importAll .. | .importSome .. | .reuses _ => true
  | _ => false

/-- A body with any of those statements taken out that do not count. -/
inductive Prunes : List Stmt → List Stmt → Prop
  | nil : Prunes [] []
  | keep {ss ss' : List Stmt} (s : Stmt) : Prunes ss ss' → Prunes (s :: ss) (s :: ss')
  | drop {ss ss' : List Stmt} {s : Stmt} : s.counts = false → Prunes ss ss' → Prunes (s :: ss) ss'

/-- A template as it is or, if it extends another one, with statements at its top level taken out
that do not count.  Its blocks, its macros and the tables of their names stay. -/
inductive Template.Pruned (t : Template) : Template → Prop
  | whole : Pruned t t
  | extending {body : List Stmt} : t.parent ≠ none → Prunes t.body body →
    Pruned t { t with body := body }

namespace Prunes

variable {ss ss' : List Stmt}

/-- What takes effect of an extending template is never taken out. -/
theorem filter_isPreamble (h : Prunes ss ss') : ss'.filter isPreamble = ss.filter isPreamble := by
  induction h with
  | nil => rfl
  | keep s _ ih => rw [List.filter_cons, List.filter_cons, ih]
  | @drop _ _ s hs _ ih =>
    have hpreamble : isPreamble s = false := by
      cases s <;> first | rfl | cases hs
    rw [List.filter_cons, hpreamble, ih]
    rfl

/-- Nor are the references to templates that blocks are taken from. -/
theorem reuses (h : Prunes ss ss') (t : Template) :
    { t with body := ss' }.reuses = { t with body := ss }.reuses := by
  unfold Template.reuses
  induction h with
  | nil => rfl
  | keep s _ ih => cases s <;> simp only [List.filterMap_cons, ih]
  | @drop _ _ s hs _ ih => cases s <;> first | exact ih | cases hs

/-- All that does not count can be taken out at once. -/
theorem filter_counts (ss : List Stmt) : Prunes ss (ss.filter Stmt.counts) := by
  induction ss with
  | nil => exact .nil
  | cons s ss ih =>
    rw [List.filter_cons]
    by_cases hs : s.counts
    · rw [if_pos hs]
      exact .keep s ih
    · rw [if_neg hs]
      exact .drop (Bool.not_eq_true _ ▸ hs) ih

end Prunes

/-- An extending template without the statements that do not count. -/
def Template.prune (t : Template) : Template :=
  match t.parent with
  | none => t
  | some _ => { t with body := t.body.filter Stmt.counts }

theorem Template.pruned_prune (t : Template) : t.Pruned t.prune := by
  unfold prune
  split
  · exact .whole
  · next hparent => exact .extending (by simp [hparent]) (.filter_counts t.body)

/-! ## §2. Pruned templates are alike -/

/-- Templates that are the same but for statements taken out, and code that is the same. -/
def Likeness.pruning : Likeness where
  template := Template.Pruned
  code := Eq
  refl _ := .whole
  name h := by cases h <;> rfl
  parent h := by cases h <;> rfl
  reuses h := by
    cases h with
    | whole => rfl
    | extending _ hbody => exact hbody.reuses _
  blockTable h := by cases h <;> rfl
  macroTable h := by cases h <;> rfl
  block h id := by
    cases h <;> exact optionRel_of_refl (fun b => ⟨rfl, rfl⟩) _
  definition h id := by
    cases h <;> exact optionRel_of_refl (fun m => ⟨rfl, rfl, rfl⟩) _
  preamble h _ := by
    cases h with
    | whole => rfl
    | extending _ hbody => exact hbody.filter_isPreamble.symm
  root h hroot := by
    cases h with
    | whole => rfl
    | extending hparent _ => exact absurd hroot hparent

/-! ## §3. Renders -/

namespace Environment

variable {ω : Type}

/-- The environment in which all templates go through a further change after the passes. -/
def changing (env : Environment ω) (change : Template → Template) : Environment ω :=
  { env with passes := env.passes ++ [fun t => some (change t)] }

theorem prepare_changing (env : Environment ω) (change : Template → Template)
    (name source : String) :
    (env.changing change).prepare name source = (env.prepare name source).map change := by
  show (env.withPass fun t => some (change t)).prepare name source = _
  rw [prepare_withPass]
  cases env.prepare name source <;> rfl

variable [HostObject ω] {env : Environment ω} {cut : Template → Template}

theorem kin_changing (discreet : Likeness.pruning.Discreet env)
    (hcut : ∀ t : Template, t.Pruned (cut t)) :
    Likeness.pruning.Kin env (env.changing cut) := by
  refine ⟨rfl, ?_, rfl, rfl, rfl, rfl, rfl, rfl, discreet⟩
  intro _ name source _
  rw [prepare_changing]
  cases env.prepare name source with
  | ok t => exact .ok (hcut t)
  | error e => exact .error e

end Environment

end Stencil
