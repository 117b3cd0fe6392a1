import Stencil.Proofs.Template.Building
import Mathlib.Data.List.Infix

/-!
A template has all text of its source.

Bodies are gone through by many rules and kept in three places: in the tree of statements, with the
blocks and with the macros.  Read in the order of the source, with every definition where its place
is, they hold the texts of the source as they are there, each of them once, and as many prints as
the source begins.  Only of an `embed` the body is dropped, as far as it is not in blocks.
-/

namespace Stencil

/-! ## §1. Reading a template -/

/-- The statements directly inside a statement, in the order of the source; those of a definition
stand where its place is. -/
def Stmt.within? (blocks : List Block) (macros : List MacroDef) : Stmt → Option (List Stmt)
  | .branch _ _ body orElse | .loop _ _ _ _ body orElse => some (body ++ orElse)
  | .capture _ _ body | .filtered _ _ body => some body
  | .block _ id => blocks[id]?.map Block.body
  | .defines _ id => macros[id]?.map MacroDef.body
  | .text .. | .print .. | .includes _ | .embeds .. | .reuses _ | .assign .. | .perform ..
  | .importAll .. | .importSome .. => some []

/-- The statements that are met when some statements are read, each before what is inside it. -/
inductive Meets (blocks : List Block) (macros : List MacroDef) : List Stmt → List Stmt → Prop
  | nil : Meets blocks macros [] []
  | cons {s : Stmt} {inner ss met more : List Stmt} : s.within? blocks macros = some inner →
    Meets blocks macros inner met → Meets blocks macros ss more →
    Meets blocks macros (s :: ss) (s :: (met ++ more))

theorem getElem?_of_prefix {α : Type} {l l' : List α} (h : l <+: l') {i : Nat} {a : α}
    (ha : l[i]? = some a) : l'[i]? = some a := by
  obtain ⟨more, rfl⟩ := h
  rwa [List.getElem?_append_left (List.getElem?_eq_some_iff.mp ha).1]

namespace Meets

variable {blocks blocks' : List Block} {macros macros' : List MacroDef}
  {ss ss' met met' : List Stmt}

/-- What is met is determined. -/
theorem unique (h : Meets blocks macros ss met) (h' : Meets blocks macros ss met') :
    met = met' := by
  induction h generalizing met' with
  | nil =>
    cases h'
    rfl
  | cons hinner _ _ ih₁ ih₂ =>
    cases h' with
    | cons hinner' h₁ h₂ =>
      rw [hinner] at hinner'
      cases hinner'
      rw [ih₁ h₁, ih₂ h₂]

theorem append (h : Meets blocks macros ss met) (h' : Meets blocks macros ss' met') :
    Meets blocks macros (ss ++ ss') (met ++ met') := by
  induction h with
  | nil => exact h'
  | cons hinner h₁ _ _ ih =>
    rw [List.cons_append, List.cons_append, List.append_assoc]
    exact .cons hinner h₁ ih

theorem singleton {s : Stmt} {inner : List Stmt} (hinner : s.within? blocks macros = some inner)
    (h : Meets blocks macros inner met) : Meets blocks macros [s] (s :: met) := by
  have hcons := Meets.cons hinner h .nil
  rwa [List.append_nil] at hcons

/-- A statement that nothing is inside of is met alone. -/
theorem leaf {s : Stmt} (h : s.within? blocks macros = some []) : Meets blocks macros [s] [s] :=
  singleton h .nil

/-- Definitions are met in the same way when there are more. -/
theorem extend (h : Meets blocks macros ss met) (hblocks : blocks <+: blocks')
    (hmacros : macros <+: macros') : Meets blocks' macros' ss met := by
  induction h with
  | nil => exact .nil
  | @cons s inner _ _ _ hinner _ _ ih₁ ih₂ =>
    refine .cons ?_ ih₁ ih₂
    cases s with
    | block pos id =>
      obtain ⟨block, hblock, rfl⟩ := Option.map_eq_some_iff.mp hinner
      simp [Stmt.within?, getElem?_of_prefix hblocks hblock]
    | defines pos id =>
      obtain ⟨definition, hdefinition, rfl⟩ := Option.map_eq_some_iff.mp hinner
      simp [Stmt.within?, getElem?_of_prefix hmacros hdefinition]
    | _ => exact hinner

end Meets

/-- The texts among some statements, as the tokens that they come from. -/
def Stmt.texts (ss : List Stmt) : List Token :=
  ss.filterMap fun
    | .text pos value => some ⟨.text, value, pos⟩
    | _ => none

/-- The number of prints among some statements. -/
def Stmt.printCount (ss : List Stmt) : Nat :=
  ss.countP fun
    | .print .. => true
    | _ => false

/-! ## §2. What a source has -/

/-- The texts among some tokens. -/
def textTokens (l : List Token) : List Token :=
  l.filter (·.kind == .text)

/-- The number of prints that some tokens begin, those of shorthand blocks included. -/
def printCount (l : List Token) : Nat :=
  l.countP (·.kind == .printOpen) + l.tails.countP opensShorthand

/-- No tag of an `embed` begins among some tokens. -/
def NoEmbed (l : List Token) : Prop :=
  ∀ l' ∈ l.tails, opensTag "embed" l' = false

theorem textTokens_cons_of_ne {t : Token} (h : t.kind ≠ .text) (l : List Token) :
    textTokens (t :: l) = textTokens l := by
  simp [textTokens, h]

theorem printCount_cons (t : Token) (l : List Token) :
    printCount (t :: l) = printCount l + if opensPrint (t :: l) then 1 else 0 := by
  by_cases hkind : t.kind = .printOpen
  · have hshort : opensShorthand (t :: l) = false := by
      simp [opensShorthand, opensTag, hkind]
    simp [printCount, opensPrint, hkind, hshort]
    omega
  · cases hshort : opensShorthand (t :: l) <;>
      simp [printCount, opensPrint, hkind, hshort]
    omega

/-- What goes by has neither texts nor prints. -/
theorem Passed.content_eq {l l' : List Token} (h : Passed l l') :
    textTokens l = textTokens l' ∧ printCount l = printCount l' := by
  induction h with
  | refl => exact ⟨rfl, rfl⟩
  | skip htext hprint _ ih =>
    rw [textTokens_cons_of_ne htext, printCount_cons, hprint]
    exact ih

/-! ## §3. What is written -/

/-- Some statements have what some tokens have more than those that are left. -/
structure Accounts (d : Collected) (ss : List Stmt) (l l' : List Token) (met : List Stmt) :
    Prop where
  meets : Meets d.blocks d.macros ss met
  texts : textTokens l = Stmt.texts met ++ textTokens l'
  prints : printCount l = Stmt.printCount met + printCount l'

namespace Accounts

variable {d d' : Collected} {ss ss' met met' : List Stmt} {l l₁ l' : List Token}

theorem extend (h : Accounts d ss l l' met) (hd : d.Before d') : Accounts d' ss l l' met :=
  { h with meets := h.meets.extend hd.1 hd.2 }

theorem append (h : Accounts d ss l l₁ met) (h' : Accounts d ss' l₁ l' met') :
    Accounts d (ss ++ ss') l l' (met ++ met') where
  meets := h.meets.append h'.meets
  texts := by simp [h.texts, h'.texts, Stmt.texts]
  prints := by simp [h.prints, h'.prints, Stmt.printCount, Nat.add_assoc]

/-- A statement has what is inside it. -/
theorem around {s : Stmt} {inner : List Stmt} (h : Accounts d inner l l' met)
    (hinner : s.within? d.blocks d.macros = some inner) (htexts : Stmt.texts [s] = [])
    (hprints : Stmt.printCount [s] = 0) : Accounts d [s] l l' (s :: met) where
  meets := .singleton hinner h.meets
  texts := by
    have happend : Stmt.texts ([s] ++ met) = Stmt.texts [s] ++ Stmt.texts met :=
      List.filterMap_append
    rw [htexts, List.nil_append] at happend
    rw [h.texts, ← happend]
    rfl
  prints := by
    have happend : Stmt.printCount ([s] ++ met) = Stmt.printCount [s] + Stmt.printCount met :=
      List.countP_append
    rw [hprints, Nat.zero_add] at happend
    rw [h.prints, ← happend]
    rfl

end Accounts

variable {good : Expr → Prop} {d d' : Collected} {ss : List Stmt} {l l' : List Token}

theorem NoEmbed.suffix (h : NoEmbed l) (hl : l' <:+ l) : NoEmbed l' :=
  fun l'' hl'' => h l'' ((List.mem_tails _ _).mpr (((List.mem_tails _ _).mp hl'').trans hl))

/-- Whatever is written has all texts and prints of the tokens that it is written with. -/
theorem Written.exists_accounts (h : Written good l d ss l' d') (hembed : NoEmbed l) :
    ∃ met, Accounts d' ss l l' met := by
  induction h with
  | pass d hpassed =>
    obtain ⟨htexts, hprints⟩ := hpassed.content_eq
    exact ⟨[], .nil, htexts, by simp [hprints, Stmt.printCount]⟩
  | append h₁ h₂ ih₁ ih₂ =>
    obtain ⟨met, hmet⟩ := ih₁ hembed
    obtain ⟨more, hmore⟩ := ih₂ (hembed.suffix h₁.suffix)
    exact ⟨met ++ more, (hmet.extend h₂.derives.before).append hmore⟩
  | @text t l d hkind =>
    have hprint : opensPrint (t :: l) = false := by
      simp [opensPrint, opensShorthand, opensTag, hkind]
    refine ⟨_, .leaf rfl, ?_, ?_⟩
    · obtain ⟨kind, value, position⟩ := t
      subst hkind
      rfl
    · rw [printCount_cons, hprint, Nat.add_comm]
      rfl
  | @print t l d e hprint =>
    have hkind : t.kind ≠ .text := by
      intro hkind
      simp [opensPrint, opensShorthand, opensTag, hkind] at hprint
    refine ⟨_, .leaf rfl, textTokens_cons_of_ne hkind l, ?_⟩
    rw [printCount_cons, hprint, Nat.add_comm]
    rfl
  | @action l d s haction =>
    refine ⟨[s], .leaf ?_, ?_, ?_⟩
    · cases s <;> first | rfl | cases haction
    · cases s <;> first | rfl | cases haction
    · cases s <;> first | exact (Nat.zero_add _).symm | cases haction
  | extending l => exact ⟨[], .nil, rfl, by simp [Stmt.printCount]⟩
  | branch _ _ h₁ h₂ ih₁ ih₂ | loop _ _ _ _ h₁ h₂ ih₁ ih₂ =>
    obtain ⟨met, hmet⟩ := ih₁ hembed
    obtain ⟨more, hmore⟩ := ih₂ (hembed.suffix h₁.suffix)
    exact ⟨_, ((hmet.extend h₂.derives.before).append hmore).around rfl rfl rfl⟩
  | capture _ _ _ ih | filtered _ _ _ ih =>
    obtain ⟨met, hmet⟩ := ih hembed
    exact ⟨_, hmet.around rfl rfl rfl⟩
  | @block _ _ _ d' body pos name _ _ ih =>
    obtain ⟨met, hmet⟩ := ih hembed
    have hinner : (Stmt.block pos d'.blocks.length).within?
        (d'.addBlock ⟨name, pos, body⟩).blocks d'.macros = some body := by
      simp [Stmt.within?, Collected.addBlock]
    exact ⟨_, (hmet.extend (Collected.before_addBlock _ _)).around hinner rfl rfl⟩
  | @defines _ _ _ d' body pos name params _ _ _ ih =>
    obtain ⟨met, hmet⟩ := ih hembed
    have hinner : (Stmt.defines pos d'.macros.length).within? d'.blocks
        (d'.addMacro ⟨name, pos, params, body⟩).macros = some body := by
      simp [Stmt.within?, Collected.addMacro]
    exact ⟨_, (hmet.extend (Collected.before_addMacro _ _)).around hinner rfl rfl⟩
  | @embeds t l _ _ _ _ _ htag =>
    rw [hembed (t :: l) (by simp)] at htag
    cases htag

/-! ## §4. Templates -/

/-- **A template has all text of its source.**  A source that is parsed is read to its end.  If no
`embed` begins in it, the texts that are met in the template are those of the source, and as many
prints are met as begin in the source. -/
theorem Template.content_of_parse {name source : String} {t : Template}
    (h : Template.parse name source = .ok t) :
    (lex source).final.kind = .eof ∧ (NoEmbed (lex source).tokens →
      ∃ met, Meets t.blocks t.macros t.body met ∧ Stmt.texts met = textTokens (lex source).tokens ∧
        Stmt.printCount met = printCount (lex source).tokens) := by
  obtain ⟨-, heof, hwritten⟩ := parse_written (fun n => Expr.quiet_parse n .any) h
  refine ⟨heof, fun hembed => ?_⟩
  obtain ⟨met, hmet⟩ := hwritten.exists_accounts hembed
  exact ⟨met, hmet.meets, by simpa [textTokens] using hmet.texts.symm, hmet.prints.symm⟩

/-- A shorthand block in a macro, a chain of branches and a loop with a condition: four texts and
three prints. -/
theorem Template.content_of_parse_nested :
    ∃ t, Template.parse "t"
        ("a\x7b% if b %\x7dc\x7b\x7b d \x7d\x7d\x7b% elseif e %\x7df\x7b% endif %\x7d" ++
        "\x7b% macro m() %\x7d\x7b% block g 1 %\x7d\x7b% endmacro %\x7d" ++
        "\x7b% for h in i if j %\x7dk\x7b\x7b h \x7d\x7d\x7b% endfor %\x7d") = .ok t ∧
      ∃ met, Meets t.blocks t.macros t.body met ∧
        (Stmt.texts met).map Token.value = ["a", "c", "f", "k"] ∧ Stmt.printCount met = 3 := by
  let source := "a\x7b% if b %\x7dc\x7b\x7b d \x7d\x7d\x7b% elseif e %\x7df\x7b% endif %\x7d" ++
    "\x7b% macro m() %\x7d\x7b% block g 1 %\x7d\x7b% endmacro %\x7d" ++
    "\x7b% for h in i if j %\x7dk\x7b\x7b h \x7d\x7d\x7b% endfor %\x7d"
  have hparses : (Template.parse "t" source).toOption.isSome = true := by decide +kernel
  have hembed : NoEmbed (lex source).tokens := by
    unfold NoEmbed
    decide +kernel
  have htexts : (textTokens (lex source).tokens).map Token.value = ["a", "c", "f", "k"] := by
    decide +kernel
  have hprints : printCount (lex source).tokens = 3 := by decide +kernel
  cases h : Template.parse "t" source with
  | error e =>
    rw [h] at hparses
    cases hparses
  | ok t =>
    obtain ⟨met, hmet, hmettexts, hmetprints⟩ := (content_of_parse h).2 hembed
    exact ⟨t, rfl, met, hmet, by rw [hmettexts, htexts], by rw [hmetprints, hprints]⟩

end Stencil
