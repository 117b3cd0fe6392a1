import Stencil.Proofs.Render.Belonging

/-!
Whose code runs, and whose errors these are.

All that has been said about parts of renders is put together here, for renders from their start.
Whatever a render runs belongs to the template that is running, whatever it looks up was issued by
the template that it is looked up in and is found there, and an error of code names a template whose
code has run and can raise it.
-/

namespace Stencil

/-! ## §1. What is attributed in a render -/

/-- Whether a watch objects only to code that does not belong to the running template, and to
numbers that were not issued by the template that they are looked up in. -/
structure Watch.Fair (w : Watch) : Prop where
  code : ∀ t c, t.Owns c → w.code t c = none
  lookup : ∀ t p, t.Issues p → w.lookup t p = none

open Classical in
/-- The watch that ends a render as soon as a piece of code is run while a template is running. -/
noncomputable def Watch.stopAt (t : Template) (c : Code) (e : Failure) : Watch where
  code t' c' := if t' = t ∧ c' = c then some e else none
  lookup _ _ := none
  missing := .exhausted

/-- Whether the code of a render belongs where it runs. -/
structure RenderReport.Attributed (watched : Watch → RenderReport) (report : RenderReport) :
    Prop where
  /-- A fair watch finds nothing to object to, and no lookup that finds nothing. -/
  undisturbed : ∀ w : Watch, w.Fair → watched w = report
  /-- An error of code names a template that the code is written in which raises it, and this code
  was run while the template was running. -/
  blamed : ∀ name pos kind, report.outcome = .error (.error (.render name pos kind)) →
    ∃ t c, t.name = name ∧ t.Owns c ∧ c.Raises pos kind ∧
      ∀ e, (watched (.stopAt t c e)).outcome = .error e

theorem Watch.Fair.not_interrupts {α : Type} {w : Watch} (h : w.Fair) (r : Except Failure α) :
    ¬ w.Interrupts r := by
  rintro ⟨e, -, ⟨t, c, howns, hcode⟩ | ⟨t, p, hissues, hlookup⟩⟩
  · rw [h.code t c howns] at hcode
    cases hcode
  · rw [h.lookup t p hissues] at hlookup
    cases hlookup

theorem Watch.eq_of_interrupts_stopAt {α : Type} {t : Template} {c : Code} {e : Failure}
    {r : Except Failure α} (h : (Watch.stopAt t c e).Interrupts r) : r = .error e := by
  obtain ⟨e', rfl, ⟨t', c', -, hcode⟩ | ⟨t', p, -, hlookup⟩⟩ := h
  · simp only [Watch.stopAt] at hcode
    split at hcode <;> cases hcode
    rfl
  · cases hlookup

/-! ## §2. Renders -/

variable {ω : Type} [HostObject ω] {env : Environment ω}

theorem Environment.HandsOn.attributed (handsOn : env.HandsOn) {t : Template} (ht : t.Grounded)
    {context : Context ω} (hcontext : Genuine context) (room : Option Nat)
    (requests : List String) :
    let live : LiveTemplate := ⟨t, .entry⟩
    let start := startState live context room requests
    RenderReport.Attributed (fun w => w.renderFrom env live start) (env.renderFrom live start) := by
  intro live start
  have hlive : Genuine live := ht
  have hscope : Genuine start.frame.scope :=
    Scope.genuine_ofLayer (Genuine.some.mpr hcontext) Genuine.nil
  have hstart : Genuine start := ⟨⟨hlive, hscope, Genuine.none⟩, Genuine.nil⟩
  have hrender : InOrder Error.noneOwn live _ _ :=
    Render.inOrder_renderTemplate handsOn (Render.inOrder_runner handsOn Render.maxDepth) hlive
      hscope Genuine.nil
  obtain ⟨hsame, -, hblame⟩ := hrender start hstart rfl
  refine ⟨fun w hw => ?_, fun name pos kind houtcome => ?_⟩
  · have hrun := (hsame w).resolve_right (hw.not_interrupts _)
    simp only [Watch.renderFrom, hrun]
    rfl
  · obtain ⟨u, c, howns, ⟨pos', kind', heq, hraises⟩, hran⟩ :=
      (hblame _ houtcome True.intro).resolve_left id
    cases heq
    refine ⟨u, c, rfl, howns, hraises, fun e => ?_⟩
    exact Watch.eq_of_interrupts_stopAt (hran (.stopAt u c e) (by simp [Watch.stopAt]))

theorem outcome_macro_in_block :
    let lib := "\x7b% macro m(x) %\x7d\x7b\x7b x|nope \x7d\x7d\x7b% endmacro %\x7d"
    let base := "\x7b% block a %\x7d\x7b% endblock %\x7d"
    let page := "\x7b% extends 'base' %\x7d\x7b% block a %\x7d\x7b% import 'lib' as l %\x7d" ++
      "\x7b\x7b l.m(1) \x7d\x7d\x7b% endblock %\x7d"
    let env : Environment Empty := .standard (fun _ name =>
      match name with
      | "lib" => .ok lib
      | "base" => .ok base
      | _ => .ok page) 8
    (match (env.render "page" [] none).outcome with
      | .error (.error (.render name _ _)) => name == "lib"
      | _ => false) = true := by
  decide +kernel

end Stencil
