import Stencil.Proofs.Template.Gathering

/-!
Reading tags.

Every tag is read from its words, given that the phrases in it are read and, if it has a body, that
bodies are.  A tag consumes its own end, and a body the name of the tag that ends it: after that
name comes the rest of the tag, which is for the construct to read.
-/

namespace Stencil

open Stencil.Text Stencil.Token Parse

/-! ## §1. Names, ends and lists -/

section

variable {n : Nat} {fin : Ending} {more : List (TokenKind × String)}

theorem Parse.takes_endTag : Takes endTag (Facing ⟨.tag, more⟩ []) (fun _ => True) (· = more) :=
  (Stmt.takes_closer ⟨.tag, more⟩).bind fun _ _ => Takes.pure trivial

/-- At the end of a tag there is nothing else. -/
theorem leadOf_endTag {kind : TokenKind} {value : String} (h : kind ≠ .tagClose) :
    leadOf ⟨.tag, more⟩ [] ≠ (kind, value) :=
  fun hlead => h (congrArg Prod.fst hlead).symm

theorem Parse.takes_plainWord (word : PlainWord) (words : List Word) :
    Takes Parse.name (Facing fin (.name word :: words)) (· = word.text) (Facing fin words) := by
  refine (takes_expect rfl rfl words).bind fun token htoken => ?_
  exact Takes.pure (congrArg Prod.snd htoken)

namespace Parse

variable {α β γ : Type}

/-- A list that is not empty, if a turn reads an item and the mark after it, and the last turn reads
the last item and sees what comes then. -/
theorem takes_row {turn : List α → Parse (Turn (List α) (List α))} {c : Char}
    (isMark : c ∈ punctuation) (words : β → List Word) (means : β → γ) (shows : α → γ)
    {P : List (TokenKind × String) → Prop} {rest : List Word} (first : β) (others : List β)
    (hmore : ∀ b ∈ first :: others, ∀ before after, Takes (turn before)
      (Facing fin (words b ++ .mark c isMark :: after))
      (fun r => ∃ all, r = .more all ∧ ∃ a, all = a :: before ∧ shows a = means b)
      (Facing fin after))
    (hdone : ∀ b ∈ first :: others, ∀ before, Takes (turn before) (Facing fin (words b ++ rest))
      (fun r => ∃ all, r = .done all ∧ ∃ a, all = (a :: before).reverse ∧ shows a = means b) P)
    (before : List α) (hn : others.length < n) :
    Takes (iterate turn n before)
      (Facing fin (inRow isMark (words first) (others.map words) ++ rest))
      (fun all => all.map shows = before.reverse.map shows ++ (first :: others).map means) P := by
  obtain ⟨n, rfl⟩ : ∃ m, n = m + 1 := ⟨n - 1, by omega⟩
  induction others generalizing first before n with
  | nil =>
    have hlast := hdone first List.mem_cons_self before
    rw [inRow, List.map_nil, List.flatMap_nil, List.append_nil]
    apply Takes.done
    apply hlast.mono
    rintro _ ⟨_, rfl, a, rfl, ha⟩
    exact ⟨_, rfl, by simp [ha]⟩
  | cons second others ih =>
    obtain ⟨n, rfl⟩ : ∃ m, n = m + 1 := ⟨n - 1, by simp at hn; omega⟩
    have hwords : inRow isMark (words first) ((second :: others).map words) ++ rest =
        words first ++ .mark c isMark ::
          (inRow isMark (words second) (others.map words) ++ rest) := by
      simp [inRow]
    rw [hwords]
    apply (hmore first List.mem_cons_self before _).more
    rintro _ ⟨a, rfl, ha⟩
    apply (ih second (fun b hb => hmore b (List.mem_cons_of_mem _ hb))
      (fun b hb => hdone b (List.mem_cons_of_mem _ hb)) (a :: before) n (by simpa using hn)).mono
    intro all hall
    rw [hall]
    simp [ha]

/-- Items with commas between them.  What may follow an item includes a comma. -/
theorem takes_commaSeparated {item : Parse α} (words : β → List Word) (means : β → γ)
    (shows : α → γ) (Follows : List Word → Prop) {first : β} {others : List β}
    (hitem : ∀ b ∈ first :: others, ∀ after, Follows after →
      Takes item (Facing fin (words b ++ after)) (shows · = means b) (Facing fin after))
    (hcomma : ∀ after, Follows (.mark ',' (by decide) :: after)) {rest : List Word}
    (hrest : Follows rest) (hlead : leadOf fin rest ≠ (.punctuation, ","))
    (hn : others.length < n) :
    Takes (commaSeparated n item)
      (Facing fin (inRow (c := ',') (by decide) (words first) (others.map words) ++ rest))
      (fun all => all.map shows = (first :: others).map means) (Facing fin rest) := by
  refine takes_row (by decide) words means shows first others (fun b hb before after => ?_)
    (fun b hb before => ?_) [] hn
  · refine (hitem b hb _ (hcomma after)).bind fun a ha =>
      (takes_accept (.mark ',' (by decide)) rfl after).bind ?_
    rintro _ rfl
    exact Takes.pure ⟨_, rfl, a, rfl, ha⟩
  · refine (hitem b hb _ hrest).bind fun a ha => (takes_accept_of_ne hlead).bind ?_
    rintro _ rfl
    exact Takes.pure ⟨_, rfl, a, rfl, ha⟩

/-- Items with commas between them, up to the end of their tag. -/
theorem takes_commaSeparated_last {item : Parse α} (words : β → List Word) (means : β → γ)
    (shows : α → γ) (Follows : List Word → Prop) {first : β} {others : List β}
    (hitem : ∀ b ∈ first :: others, ∀ after, Follows after →
      Takes item (Facing ⟨.tag, more⟩ (words b ++ after)) (shows · = means b)
        (Facing ⟨.tag, more⟩ after))
    (hcomma : ∀ after, Follows (.mark ',' (by decide) :: after)) (hnil : Follows [])
    (hn : others.length < n) :
    Takes (commaSeparated n item)
      (Facing ⟨.tag, more⟩ (inRow (c := ',') (by decide) (words first) (others.map words)))
      (fun all => all.map shows = (first :: others).map means) (Facing ⟨.tag, more⟩ []) := by
  have hall := takes_commaSeparated words means shows Follows hitem hcomma hnil
    (leadOf_endTag nofun) hn
  rwa [List.append_nil] at hall

end Parse

/-- What is enough for the words of a list is enough for each item and for their number. -/
theorem count_inRow {α : Type} {c : Char} (isMark : c ∈ punctuation) (words : α → List Word)
    (first : α) (others : List α) :
    (∀ a ∈ first :: others,
        (words a).length ≤ (inRow isMark (words first) (others.map words)).length) ∧
      others.length ≤ (inRow isMark (words first) (others.map words)).length := by
  simp only [inRow, List.length_append, List.length_flatMap, List.map_map]
  induction others with
  | nil => simp
  | cons second others ih =>
    obtain ⟨hitems, hlength⟩ := ih
    simp only [List.map_cons, List.sum_cons, Function.comp, List.length_cons] at hitems hlength ⊢
    refine ⟨fun a ha => ?_, by omega⟩
    rcases List.mem_cons.mp ha with rfl | ha
    · omega
    · rcases List.mem_cons.mp ha with rfl | ha
      · omega
      · have := hitems a (List.mem_cons_of_mem _ ha)
        omega

end

namespace Stmt

open Clause (alternative allFragments allTitles buildAll)

variable {n : Nat} {fin : Ending} {more : List (TokenKind × String)}

/-- The rules of a body with recursion and loops of depth up to `n` inside it. -/
def rulesOf (n : Nat) : Rules :=
  ⟨n, Expr.parse n .any, parseBody n⟩

/-! ## §2. Tags without a body -/

theorem takes_perform {phrase : Phrase} (hn : 2 * phrase.words.length + 2 ≤ n) (pos : Position) :
    Takes (parseTag (rulesOf n) "do" pos) (Facing ⟨.tag, more⟩ phrase.words)
      (fun ss => ∃ s, ss = [s] ∧ s.unplaced = .perform .start phrase.expr) (· = more) := by
  apply (phrase.read n hn).last.bind
  intro e he
  refine takes_endTag.bind fun _ _ => Takes.pure ⟨_, rfl, ?_⟩
  rw [unplaced, he]

/-- A phrase that could be left out but is there. -/
theorem takes_some {phrase : Phrase} (h : phrase.Read n) {rest : List Word}
    (hrest : EndsPhrase rest) :
    Takes (some <$> (rulesOf n).expr) (Facing fin (phrase.words ++ rest))
      (·.map Expr.unplaced = some phrase.expr) (Facing fin rest) := by
  rw [map_eq_pure_bind]
  refine (h rest hrest).bind fun e he => Takes.pure ?_
  rw [Option.map_some, he]

/-- A phrase after a word of its own, if both are there, and what comes after it. -/
theorem takes_optional {α : Type} {word : Word} {kind : TokenKind} {value : String}
    (hword : word.shapes = [(kind, value)]) {phrase : Option Phrase}
    (hread : ∀ e ∈ phrase, e.Read n) {after : List Word} (hends : EndsPhrase after)
    (hafter : leadOf fin after ≠ (kind, value))
    {k : Option Expr → Parse α} {Q : α → Prop} {P : List (TokenKind × String) → Prop}
    (hk : ∀ e, e.map Expr.unplaced = phrase.map Phrase.expr →
      Takes (k e) (Facing fin after) Q P) :
    Takes (do
      if ← accept kind value then k (← some <$> (rulesOf n).expr)
      else k (← Pure.pure none))
      (Facing fin ((phrase.map fun e => word :: e.words).getD [] ++ after)) Q P := by
  cases phrase with
  | none =>
    refine (takes_accept_of_ne hafter).bind ?_
    rintro _ rfl
    exact hk none rfl
  | some phrase =>
    refine (takes_accept word hword _).bind ?_
    rintro _ rfl
    exact (takes_some (hread phrase rfl) hends).bind hk

/-- Whether the template may be missing, and what comes after that. -/
theorem takes_missingWords {α : Type} (ignoreMissing : Bool) {after : List Word}
    (hafter : leadOf fin after ≠ (.name, "ignore"))
    {k : Bool → Parse α} {Q : α → Prop} {P : List (TokenKind × String) → Prop}
    (hk : Takes (k ignoreMissing) (Facing fin after) Q P) :
    Takes (do
      if ← accept .name "ignore" then
        let _ ← expectValue .name "missing"
        k (← Pure.pure true)
      else k (← Pure.pure false))
      (Facing fin (Clause.missingWords ignoreMissing ++ after)) Q P := by
  cases ignoreMissing with
  | false =>
    refine (takes_accept_of_ne hafter).bind ?_
    rintro _ rfl
    exact hk
  | true =>
    refine (takes_accept (.name ⟨"ignore", by decide⟩) rfl _).bind ?_
    rintro _ rfl
    exact (takes_expectValue (.name ⟨"missing", by decide⟩) rfl _).bind fun _ _ => hk

/-- Whether the template gets no other variables, at the end of the tag. -/
theorem takes_onlyWords (only : Bool) :
    Takes (accept .name "only") (Facing ⟨.tag, more⟩ (Clause.onlyWords only)) (· = only)
      (Facing ⟨.tag, more⟩ []) := by
  cases only with
  | false => exact takes_accept_of_ne (leadOf_endTag nofun)
  | true => exact takes_accept (.name ⟨"only", by decide⟩) rfl []

theorem takes_parseInclusion {template : Phrase} {ignoreMissing : Bool} {bindings : Option Phrase}
    {only : Bool}
    (hn : 2 * (Clause.inclusionWords template ignoreMissing bindings only).length + 2 ≤ n)
    (pos : Position) :
    Takes (parseInclusion (rulesOf n) pos)
      (Facing ⟨.tag, more⟩ (Clause.inclusionWords template ignoreMissing bindings only))
      (·.unplaced = ⟨.start, template.expr, bindings.map Phrase.expr, only, ignoreMissing⟩)
      (Facing ⟨.tag, more⟩ []) := by
  simp only [Clause.inclusionWords, List.length_append] at hn
  have hends : EndsPhrase (Clause.missingWords ignoreMissing ++
      (Clause.bindingWords bindings ++ Clause.onlyWords only)) := by
    cases ignoreMissing <;> cases bindings <;> cases only <;> rfl
  have hends' : EndsPhrase (Clause.onlyWords only) := by cases only <;> rfl
  have hignore : leadOf ⟨.tag, more⟩ (Clause.bindingWords bindings ++ Clause.onlyWords only) ≠
      (.name, "ignore") := by
    cases bindings <;> cases only <;>
      simp [Clause.bindingWords, Clause.onlyWords, leadOf, Word.lead, Fence.closeShape]
  have hwith : leadOf ⟨.tag, more⟩ (Clause.onlyWords only) ≠ (.name, "with") := by
    cases only <;> simp [Clause.onlyWords, leadOf, Word.lead, Fence.closeShape]
  have hbindings : ∀ e ∈ bindings, e.Read n := by
    rintro e ⟨⟩
    simp only [Clause.bindingWords, Option.map_some, Option.getD_some, List.length_cons] at hn
    exact e.read n (by omega)
  apply (template.read n (by omega) _ hends).bind
  intro e he
  refine takes_missingWords ignoreMissing hignore ?_
  refine takes_optional rfl hbindings hends' hwith fun found hfound => ?_
  refine (takes_onlyWords only).bind ?_
  rintro _ rfl
  exact Takes.pure (by rw [Inclusion.unplaced, he, hfound])

theorem takes_includes {template : Phrase} {ignoreMissing : Bool} {bindings : Option Phrase}
    {only : Bool}
    (hn : 2 * (Clause.inclusionWords template ignoreMissing bindings only).length + 2 ≤ n)
    (pos : Position) :
    Takes (parseTag (rulesOf n) "include" pos)
      (Facing ⟨.tag, more⟩ (Clause.inclusionWords template ignoreMissing bindings only))
      (fun ss => ∃ s, ss = [s] ∧ s.unplaced =
        .includes ⟨.start, template.expr, bindings.map Phrase.expr, only, ignoreMissing⟩)
      (· = more) := by
  apply (takes_parseInclusion hn pos).bind
  intro inclusion hinclusion
  refine takes_endTag.bind fun _ _ => Takes.pure ⟨_, rfl, ?_⟩
  rw [unplaced, hinclusion]

/-- A block of another template and its name here. -/
theorem takes_pair (a : PlainWord × PlainWord) (after : List Word) :
    Takes (do
      let own ← Parse.name
      let _ ← expectValue .name "as"
      Pure.pure (own, ← Parse.name))
      (Facing fin (Clause.aliasWords a ++ after)) (· = (a.1.text, a.2.text))
      (Facing fin after) := by
  refine (takes_plainWord a.1 _).bind ?_
  rintro _ rfl
  refine (takes_expectValue (.name ⟨"as", by decide⟩) rfl _).bind fun _ _ =>
    (takes_plainWord a.2 after).bind ?_
  rintro _ rfl
  exact Takes.pure rfl

theorem takes_parseUse {template : Phrase} {aliases : List (PlainWord × PlainWord)}
    (hn : 2 * (Clause.reuseWords template aliases).length + 2 ≤ n) (pos : Position) :
    Takes (parseUse (rulesOf n) pos) (Facing ⟨.tag, more⟩ (Clause.reuseWords template aliases))
      (·.unplaced = .reuses ⟨.start, template.expr, aliases.map fun a => (a.1.text, a.2.text)⟩)
      (· = more) := by
  cases aliases with
  | nil =>
    apply (template.read n hn).last.bind
    intro e he
    have hlead : leadOf ⟨.tag, more⟩ [] ≠ (.name, "with") := leadOf_endTag nofun
    refine (takes_accept_of_ne hlead).bind ?_
    rintro _ rfl
    refine takes_endTag.bind fun _ _ => Takes.pure ?_
    rw [unplaced, Reuse.unplaced, he]
    rfl
  | cons first others =>
    simp only [Clause.reuseWords, List.length_append, List.length_cons] at hn
    have hcount : others.length < n := by
      have := (count_inRow (by decide : ',' ∈ punctuation) Clause.aliasWords first others).2
      omega
    rw [Clause.reuseWords]
    have hends : EndsPhrase (.name ⟨"with", by decide⟩ ::
      inRow (c := ',') (by decide) (Clause.aliasWords first) (others.map Clause.aliasWords)) := rfl
    apply (template.read n (by omega) _ hends).bind
    intro e he
    refine (takes_accept (.name ⟨"with", by decide⟩) rfl _).bind ?_
    rintro _ rfl
    refine (takes_commaSeparated_last Clause.aliasWords (fun a => (a.1.text, a.2.text)) id
      (fun _ => True) (fun a _ after _ => takes_pair a after) (fun _ => trivial) trivial
      hcount).bind fun pairs hpairs => ?_
    refine takes_endTag.bind fun _ _ => Takes.pure ?_
    rw [List.map_id] at hpairs
    rw [unplaced, Reuse.unplaced, he, hpairs]

theorem takes_parseImport {template : Phrase} (newName : PlainWord)
    (hn : 2 * template.words.length + 2 ≤ n) (pos : Position) :
    Takes (parseImport (rulesOf n) pos)
      (Facing ⟨.tag, more⟩ (template.words ++ [.name ⟨"as", by decide⟩, .name newName]))
      (·.unplaced = .importAll .start template.expr newName.text) (· = more) := by
  have hends : EndsPhrase [.name ⟨"as", by decide⟩, .name newName] := rfl
  apply (template.read n hn _ hends).bind
  intro e he
  refine (takes_expectValue (.name ⟨"as", by decide⟩) rfl _).bind fun _ _ =>
    (takes_plainWord newName []).bind ?_
  rintro _ rfl
  refine takes_endTag.bind fun _ _ => Takes.pure ?_
  rw [unplaced, he]

/-- Whether another name does not follow a name. -/
def WithoutAs (words : List Word) : Prop :=
  ∀ fin : Ending, leadOf fin words ≠ (.name, "as")

/-- A macro of another template, and its name here if it gets one. -/
theorem takes_alias (a : Alias) {after : List Word} (hafter : WithoutAs after) :
    Takes (do
      let own ← Parse.name
      Pure.pure (own, (← parseAlias? "as").getD own))
      (Facing fin (a.words ++ after)) (· = a.names) (Facing fin after) := by
  obtain ⟨own, newName⟩ := a
  refine (takes_plainWord own _).bind ?_
  rintro _ rfl
  have halias : Takes (parseAlias? "as")
      (Facing fin
        ((newName.map fun name => [.name ⟨"as", by decide⟩, .name name]).getD [] ++ after))
      (· = newName.map PlainWord.text) (Facing fin after) := by
    cases newName with
    | none =>
      refine (takes_accept_of_ne (hafter fin)).bind ?_
      rintro _ rfl
      exact Takes.pure rfl
    | some name =>
      refine (takes_accept (.name ⟨"as", by decide⟩) rfl _).bind ?_
      rintro _ rfl
      refine (takes_plainWord name after).bind ?_
      rintro _ rfl
      exact Takes.pure rfl
  refine halias.bind ?_
  rintro _ rfl
  exact Takes.pure rfl

theorem takes_parseFrom {template : Phrase} {first : Alias} {others : List Alias}
    (hn : 2 * (Clause.importWords template first others).length + 2 ≤ n) (pos : Position) :
    Takes (parseFrom (rulesOf n) pos)
      (Facing ⟨.tag, more⟩ (Clause.importWords template first others))
      (·.unplaced = .importSome .start template.expr ((first :: others).map Alias.names))
      (· = more) := by
  simp only [Clause.importWords, List.length_append, List.length_cons] at hn
  have hcount : others.length < n := by
    have := (count_inRow (by decide : ',' ∈ punctuation) Alias.words first others).2
    omega
  have hends : EndsPhrase (.name ⟨"import", by decide⟩ ::
    inRow (c := ',') (by decide) first.words (others.map Alias.words)) := rfl
  apply (template.read n (by omega) _ hends).bind
  intro e he
  refine (takes_expectValue (.name ⟨"import", by decide⟩) rfl _).bind fun _ _ => ?_
  have hcomma : ∀ after, WithoutAs (.mark ',' (by decide) :: after) := fun _ _ => nofun
  have hnil : WithoutAs [] := by rintro ⟨⟨⟩, more⟩ <;> nofun
  refine (takes_commaSeparated_last Alias.words Alias.names id WithoutAs
    (fun a _ _ hafter => takes_alias a hafter) hcomma hnil hcount).bind fun names hnames => ?_
  refine takes_endTag.bind fun _ _ => Takes.pure ?_
  rw [List.map_id] at hnames
  rw [unplaced, he, hnames]

/-- Names, up to a word that is not a comma. -/
theorem takes_targets {first : PlainWord × Phrase} {others : List (PlainWord × Phrase)}
    {rest : List Word} (hrest : leadOf fin rest ≠ (.punctuation, ",")) (hn : others.length < n) :
    Takes (commaSeparated n Parse.name)
      (Facing fin (inRow (c := ',') (by decide) [.name first.1]
        (others.map fun a => [.name a.1]) ++ rest))
      (· = (first :: others).map (·.1.text)) (Facing fin rest) := by
  refine (takes_commaSeparated (fun a => [.name a.1]) (·.1.text) id (fun _ => True)
    (fun a _ after _ => takes_plainWord a.1 after) (fun _ => trivial) trivial hrest hn).mono
    fun names hnames => ?_
  rwa [List.map_id] at hnames

/-- Names and as many values. -/
theorem takes_assign {first : PlainWord × Phrase} {others : List (PlainWord × Phrase)}
    (hn : 2 * (Clause.assignWords first others).length + 2 ≤ n) (pos : Position) :
    Takes (parseSet (rulesOf n) pos) (Facing ⟨.tag, more⟩ (Clause.assignWords first others))
      (·.unplaced = .assign .start ((first :: others).map (·.1.text))
        ((first :: others).map (·.2.expr))) (· = more) := by
  simp only [Clause.assignWords, List.length_append, List.length_cons] at hn
  obtain ⟨hvalues, hcount⟩ :=
    count_inRow (by decide : ',' ∈ punctuation) (fun a => a.2.words) first others
  have hlength : others.length < n := by omega
  have hlead : ∀ words, leadOf ⟨.tag, more⟩ (.mark '=' (by decide) :: words) ≠
      (.punctuation, ",") := by
    intro words
    simp [leadOf, Word.lead]
  refine (takes_targets (hlead _) hlength).bind ?_
  rintro _ rfl
  refine (takes_accept (.mark '=' (by decide)) rfl _).bind ?_
  rintro _ rfl
  have hread : ∀ a ∈ first :: others, a.2.Read n := by
    intro a ha
    have := hvalues a ha
    exact a.2.read n (by omega)
  refine (takes_commaSeparated_last (fun a => a.2.words) (·.2.expr) Expr.unplaced EndsPhrase
    (fun a ha after hafter => hread a ha after hafter) (fun _ => rfl) rfl hlength).bind
    fun values hvalues => ?_
  refine takes_endTag.bind fun _ _ => ?_
  have hsame : values.length = ((first :: others).map (·.1.text)).length := by
    have := congrArg List.length hvalues
    simpa using this
  rw [if_neg (not_not_intro hsame)]
  exact Takes.pure (by rw [unplaced, hvalues])

/-! ## §3. The head of a tag with a body -/

/-- Arguments that may be missing, and what comes after them. -/
theorem takes_optionalArgs {α : Type} {args : List Phrase} (hargs : ∀ arg ∈ args, arg.Read n)
    (hn : args.length < n) {after : List Word} (hafter : leadOf fin after ≠ (.parensOpen, "("))
    {k : List Expr → Parse α} {Q : α → Prop} {P : List (TokenKind × String) → Prop}
    (hk : ∀ es, es.map Expr.unplaced = args.map Phrase.expr → Takes (k es) (Facing fin after) Q P) :
    Takes (do
      if ← accept .parensOpen "(" then
        k (← listUntil n .parensClose (Expr.parse n .any))
      else k (← Pure.pure []))
      (Facing fin ((if args.isEmpty then [] else argWords args) ++ after)) Q P := by
  cases args with
  | nil =>
    refine (takes_accept_of_ne hafter).bind ?_
    rintro _ rfl
    exact hk [] rfl
  | cons arg args =>
    rw [List.isEmpty_cons, if_neg nofun, argWords, enclosed_append]
    refine (takes_accept (.opening .parens) rfl _).bind ?_
    rintro _ rfl
    exact (Expr.takes_phrases hargs hn .parens after).bind hk

/-- The arguments of a filter are read if there is enough for its words. -/
theorem read_filterArgs {f : FilterPhrase} (hn : 2 * f.words.length + 2 ≤ n) :
    (∀ arg ∈ f.args, arg.Read n) ∧ f.args.length < n := by
  by_cases hempty : f.args = []
  · rw [hempty]
    exact ⟨by simp, by simp; omega⟩
  · have hwords : f.words = .name f.name :: argWords f.args := by
      simp [FilterPhrase.words, hempty]
    rw [hwords, List.length_cons] at hn
    have hcount : 2 * (enclosed .parens (commas (f.args.map Phrase.words))).length ≤ n := by
      unfold argWords at hn
      omega
    obtain ⟨hargs, hlength⟩ := count_phrases hcount
    exact ⟨Phrase.readAll f.args n hargs, hlength⟩

theorem takes_parseFilterCalls {first : FilterPhrase} {others : List FilterPhrase}
    (hn : 2 * (Clause.filterWords first others).length + 2 ≤ n) :
    Takes (parseFilterCalls (rulesOf n)) (Facing ⟨.tag, more⟩ (Clause.filterWords first others))
      (·.map FilterCall.unplaced = (first :: others).map FilterPhrase.call)
      (Facing ⟨.tag, more⟩ []) := by
  obtain ⟨hfilters, hcount⟩ :=
    count_inRow (by decide : '|' ∈ punctuation) FilterPhrase.words first others
  unfold Clause.filterWords at hn
  have hargs : ∀ f ∈ first :: others, (∀ arg ∈ f.args, arg.Read n) ∧ f.args.length < n := by
    intro f hf
    have hlength := hfilters f hf
    exact read_filterArgs (by omega)
  have hcall : ∀ (f : FilterPhrase) (filter : Token) (es : List Expr),
      filter.shape = (.name, f.name.text) → es.map Expr.unplaced = f.args.map Phrase.expr →
      (⟨filter.position, filter.value, es⟩ : FilterCall).unplaced = f.call := by
    intro f filter es hfilter hes
    have hname : filter.value = f.name.text := congrArg Prod.snd hfilter
    rw [FilterCall.unplaced, FilterPhrase.call, hname, hes]
  have hlength : others.length < n := by omega
  have hends : leadOf ⟨.tag, more⟩ [] ≠ (.parensOpen, "(") := leadOf_endTag nofun
  have hlast : leadOf ⟨.tag, more⟩ [] ≠ (.punctuation, "|") := leadOf_endTag nofun
  rw [← List.append_nil (Clause.filterWords first others)]
  refine takes_row (by decide) FilterPhrase.words FilterPhrase.call FilterCall.unplaced first others
    (fun f hf before after => ?_) (fun f hf before => ?_) [] hlength
  · refine (takes_expect rfl rfl _).bind fun filter hfilter => ?_
    refine takes_optionalArgs (hargs f hf).1 (hargs f hf).2 (by simp [leadOf, Word.lead])
      fun es hes => ?_
    refine (takes_accept (.mark '|' (by decide)) rfl after).bind ?_
    rintro _ rfl
    exact Takes.pure ⟨_, rfl, _, rfl, hcall f filter es hfilter hes⟩
  · refine (takes_expect rfl rfl _).bind fun filter hfilter => ?_
    refine takes_optionalArgs (hargs f hf).1 (hargs f hf).2 hends fun es hes => ?_
    refine (takes_accept_of_ne hlast).bind ?_
    rintro _ rfl
    exact Takes.pure ⟨_, rfl, _, rfl, hcall f filter es hfilter hes⟩

/-- Items with commas between them are items in a row. -/
theorem commas_cons (first : List Word) (others : List (List Word)) :
    commas (first :: others) = inRow (c := ',') (by decide) first others := by
  induction others generalizing first with
  | nil => simp [commas, inRow]
  | cons second others ih => simp [commas, ih, inRow]

/-- The parameters of a macro, after the parenthesis. -/
theorem takes_parseParams {params : List ParamPhrase}
    (hn : 2 * (commas (params.map ParamPhrase.words)).length + 2 ≤ n) :
    Takes (parseParams (rulesOf n))
      (Facing ⟨.tag, more⟩ (commas (params.map ParamPhrase.words) ++ [.closing .parens]))
      (·.map Param.unplaced = params.map ParamPhrase.param) (Facing ⟨.tag, more⟩ []) := by
  have hread : ∀ p ∈ params, ∀ e ∈ p.fallback, e.Read n := by
    intro p hp e he
    have hlength := length_le_commas (List.mem_map_of_mem (f := ParamPhrase.words) hp)
    have hfallback : p.fallback = some e := he
    simp only [ParamPhrase.words, hfallback, Option.map_some, Option.getD_some,
      List.length_cons] at hlength
    exact e.read n (by omega)
  have hparam : ∀ (p : ParamPhrase) (token : Token) (e : Option Expr),
      token.shape = (.name, p.name.text) → e.map Expr.unplaced = p.fallback.map Phrase.expr →
      (⟨token.value, e⟩ : Param).unplaced = p.param := by
    intro p token e htoken he
    have hname : token.value = p.name.text := congrArg Prod.snd htoken
    rw [Param.unplaced, ParamPhrase.param, hname, he]
  obtain ⟨m, rfl⟩ : ∃ m, n = m + 1 := ⟨n - 1, by omega⟩
  cases params with
  | nil =>
    refine Takes.done ((takes_word rfl []).bind fun token htoken => ?_)
    have hkind : token.kind = .parensClose := congrArg Prod.fst htoken
    simp only [hkind]
    exact Takes.pure ⟨_, rfl, rfl⟩
  | cons first others =>
    rw [List.map_cons, commas_cons] at hn ⊢
    have hcount := (count_inRow (by decide : ',' ∈ punctuation) ParamPhrase.words first others).2
    have hlength : others.length < m + 1 := by omega
    refine takes_row (by decide) ParamPhrase.words ParamPhrase.param Param.unplaced first others
      (fun p hp before after => ?_) (fun p hp before => ?_) [] hlength
    · have hends : EndsPhrase (.mark ',' (by decide) :: after) := rfl
      refine (takes_word rfl _).bind fun token htoken => ?_
      have hkind : token.kind = .name := congrArg Prod.fst htoken
      simp only [hkind]
      refine takes_optional rfl (hread p hp) hends (by simp [leadOf, Word.lead]) fun e he => ?_
      refine (takes_accept (.mark ',' (by decide)) rfl after).bind ?_
      rintro _ rfl
      exact Takes.pure ⟨_, rfl, _, rfl, hparam p token e htoken he⟩
    · have hends : EndsPhrase [.closing .parens] := rfl
      have hequals : leadOf ⟨.tag, more⟩ [.closing .parens] ≠ (.punctuation, "=") := nofun
      have hcomma : leadOf ⟨.tag, more⟩ [.closing .parens] ≠ (.punctuation, ",") := nofun
      refine (takes_word rfl _).bind fun token htoken => ?_
      have hkind : token.kind = .name := congrArg Prod.fst htoken
      simp only [hkind]
      refine takes_optional rfl (hread p hp) hends hequals fun e he => ?_
      refine (takes_accept_of_ne hcomma).bind ?_
      rintro _ rfl
      refine (takes_expect rfl rfl []).bind fun _ _ => ?_
      exact Takes.pure ⟨_, rfl, _, rfl, hparam p token e htoken he⟩

/-- A loop that takes a dot and a part in each turn, up to a blank. -/
theorem takes_parts {turn : String → Parse (Turn String String)} {words : List Word}
    (hblank : ∀ joined, Takes (turn joined) (· = blankShape :: ahead fin words)
      (· = .done joined) (Facing fin words))
    (hpart : ∀ joined part ks, Takes (turn joined) (· = (.punctuation, ".") :: (.name, part) :: ks)
      (· = .more (joined ++ "." ++ part)) (· = ks))
    (parts : List PlainWord) (joined : String) (hn : parts.length < n) :
    Takes (iterate turn n joined)
      (· = parts.flatMap (fun part => [(.punctuation, "."), (.name, part.text)]) ++
        blankShape :: ahead fin words)
      (· = parts.foldl (fun joined part => joined ++ "." ++ part.text) joined)
      (Facing fin words) := by
  obtain ⟨n, rfl⟩ : ∃ m, n = m + 1 := ⟨n - 1, by omega⟩
  induction parts generalizing joined n with
  | nil => exact Takes.done ((hblank joined).mono fun r hr => ⟨joined, hr, rfl⟩)
  | cons part parts ih =>
    obtain ⟨n, rfl⟩ : ∃ m, n = m + 1 := ⟨n - 1, by simp at hn; omega⟩
    refine ((hpart joined part.text _).mono fun r hr => ⟨_, hr, rfl⟩).more ?_
    rintro _ rfl
    exact ih _ n (by simpa using hn)

/-- A name with dots, all of it: the blank after it is looked at and taken back. -/
theorem takes_parseDottedName {name : DottedName} (hn : name.more.length < n)
    (words : List Word) :
    Takes (parseDottedName n) (Facing fin (.dotted name :: words)) (· = name.text)
      (Facing fin words) := by
  have hfirst : Takes Parse.name (Facing fin (.dotted name :: words)) (· = name.first.text)
      (· = othersOf fin (.dotted name :: words)) := by
    have hname : Takes (expect [.name]) (Facing fin (.dotted name :: words))
        (·.shape = (.name, name.first.text)) (· = othersOf fin (.dotted name :: words)) := by
      refine (takes_nextSolid _).bind fun token htoken => ?_
      have hkind : token.kind = .name := congrArg Prod.fst htoken
      rw [hkind, if_pos (by decide)]
      exact Takes.pure htoken
    exact hname.bind fun token htoken => Takes.pure (congrArg Prod.snd htoken)
  refine hfirst.bind ?_
  rintro _ rfl
  refine takes_parts (fun joined s hs => ?_) (fun joined part ks => ?_) name.more _ hn
  · obtain ⟨token, c, hrun, hfinal, htoken, -, hback⟩ := (finds_next hs).run (by simp [blankShape])
    have his : token.is .punctuation "." = false := by
      rw [is_eq_decide, htoken]
      rfl
    refine ⟨_, c.backup, ?_, c.final_backup.trans hfinal, .inr hback, rfl⟩
    rw [next, run_bind_ok hrun, his]
    rfl
  · refine (takes_next (.punctuation, ".") _ (by simp)).bind fun dot hdot => ?_
    rw [is_eq_decide, hdot, if_pos (decide_eq_true rfl)]
    refine (takes_next (.name, part) _ (by simp)).bind fun token htoken => ?_
    have hkind : token.kind = .name := congrArg Prod.fst htoken
    have hvalue : token.value = part := congrArg Prod.snd htoken
    rw [if_pos hkind, hvalue]
    exact Takes.pure rfl

/-- An end tag that does not repeat the name of what it ends. -/
theorem takes_parseNamedEnd (opened : String) :
    Takes (parseNamedEnd n opened) (Facing ⟨.tag, more⟩ []) (fun _ => True) (· = more) := by
  refine (takes_peek []).bind fun token htoken => ?_
  have hkind : token.kind = .tagClose := congrArg Prod.fst htoken
  rw [hkind, if_neg nofun]
  exact takes_endTag

end Stmt

end Stencil
