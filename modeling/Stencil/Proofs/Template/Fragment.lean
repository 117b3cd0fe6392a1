import Stencil.Proofs.Expr.Lexing
import Stencil.Proofs.Template.Clause
import Mathlib.Data.List.Chain

/-!
The tokens of a page.

Outside of all regions the lexer goes from fragment to fragment: literal text ends where a delimiter
begins, and code where its own delimiter ends it.  So the tokens of a page are those of its
fragments one after the other, if no two of them are literal text next to each other and if the
words of the others are ones that the lexer takes apart.
-/

namespace Stencil

open Stencil.Text Stencil.Token

/-! ## §1. Words of tags -/

/-- The lexer makes of words what it should, in any region of code and with any brackets open. -/
def Lexed (words : List Word) : Prop :=
  ∀ (fence : Fence) (brackets : List Bracket) (outer : List Region) (cs : List Char),
    Lexes (spell words ++ ' ' :: cs) (fence.region brackets :: outer) (shapesOf words) (' ' :: cs)
      (fence.region brackets :: outer)

theorem Closed.lexed {words : List Word} (h : Closed words) : Lexed words :=
  fun _ brackets _ _ => lexes_spell (h brackets)

theorem Lexed.append {words words' : List Word} (h : Lexed words) (h' : Lexed words') :
    Lexed (words ++ words') := by
  intro fence brackets outer cs
  obtain ⟨ds, hds⟩ := exists_spell_append words' cs
  have hfirst := h fence brackets outer ds
  rw [← hds] at hfirst
  have hall := hfirst.trans (h' fence brackets outer cs)
  simpa [spell, shapesOf] using hall

/-- Unlike in an expression, the `in` of a loop may be followed by another operator. -/
theorem lexed_in : Lexed [.binary .isIn] := by
  intro fence brackets outer cs
  have hblank : Lexes (' ' :: 'i' :: 'n' :: ' ' :: cs) (fence.region brackets :: outer)
      [blankShape] ('i' :: 'n' :: ' ' :: cs) (fence.region brackets :: outer) :=
    lexes_blank (by decide)
  have happart : standsApart "in".toList := by decide
  exact hblank.trans (lexes_operator happart (operatorLength_binary .isIn cs)
    (operatorValue_binary .isIn))

theorem closed_inRow {c : Char} (isMark : c ∈ punctuation) {first : List Word}
    {more : List (List Word)} (hfirst : Closed first) (hmore : ∀ item ∈ more, Closed item) :
    Closed (inRow isMark first more) := by
  refine hfirst.append ?_
  induction more with
  | nil => exact fun _ => rfl
  | cons item more ih =>
    obtain ⟨hitem, hmore⟩ := List.forall_mem_cons.mp hmore
    exact (hitem.append (ih hmore)).mark isMark

/-- Words that may be left out leave nothing open if they do not when they are there. -/
theorem closed_getD {α : Type} {o : Option α} {words : α → List Word}
    (h : ∀ a, Closed (words a)) : Closed ((o.map words).getD []) := by
  cases o with
  | none => exact fun _ => rfl
  | some a => exact h a

theorem closed_argWords (args : List Phrase) : Closed (argWords args) := by
  refine ((closed_commas fun item hitem => ?_).enclosed .parens).closed
  obtain ⟨arg, -, rfl⟩ := List.mem_map.mp hitem
  exact arg.closed_words

theorem ParamPhrase.closed_words (p : ParamPhrase) : Closed p.words :=
  (Closed.name (closed_getD fun e => e.closed_words.mark _) p.name).closed

theorem FilterPhrase.closed_words (f : FilterPhrase) : Closed f.words := by
  refine (Closed.name ?_ f.name).closed
  split
  · exact fun _ => rfl
  · exact closed_argWords f.args

theorem Alias.closed_words (a : Alias) : Closed a.words :=
  (Closed.name (closed_getD fun _ _ => rfl) a.own).closed

namespace Clause

theorem closed_params (name : PlainWord) (params : List ParamPhrase) :
    Closed (.name name :: enclosed .parens (commas (params.map ParamPhrase.words))) := by
  refine (Closed.name ((closed_commas fun item hitem => ?_).enclosed .parens).closed name).closed
  obtain ⟨p, -, rfl⟩ := List.mem_map.mp hitem
  exact p.closed_words

theorem lexed_loopWords (key : Option PlainWord) (value : PlainWord) (iterable : Phrase) :
    Lexed (loopWords key value iterable) := by
  have hkey : Closed ((key.map fun key => [Word.name key, .mark ',' (by decide)]).getD []) :=
    closed_getD fun _ _ => rfl
  have hvalue : Closed [Word.name value] := fun _ => rfl
  exact hkey.lexed.append (hvalue.lexed.append (lexed_in.append iterable.closed_words.lexed))

theorem closed_inclusionWords (template : Phrase) (ignoreMissing : Bool)
    (bindings : Option Phrase) (only : Bool) :
    Closed (inclusionWords template ignoreMissing bindings only) := by
  have hmissing : Closed (missingWords ignoreMissing) := by
    cases ignoreMissing <;> exact fun _ => rfl
  have hbindings : Closed (bindingWords bindings) :=
    closed_getD fun e => (e.closed_words.name _).closed
  have honly : Closed (onlyWords only) := by
    cases only <;> exact fun _ => rfl
  exact template.closed_words.append (hmissing.append (hbindings.append honly))

theorem closed_reuseWords (template : Phrase) (aliases : List (PlainWord × PlainWord)) :
    Closed (reuseWords template aliases) := by
  cases aliases with
  | nil => exact template.closed_words
  | cons first more =>
    refine template.closed_words.append (Closed.name (closed_inRow _ ?_ ?_) _).closed
    · exact fun _ => rfl
    · intro item hitem
      obtain ⟨a, -, rfl⟩ := List.mem_map.mp hitem
      exact fun _ => rfl

theorem closed_assignWords (first : PlainWord × Phrase) (more : List (PlainWord × Phrase)) :
    Closed (assignWords first more) := by
  refine (closed_inRow _ (fun _ => rfl) fun item hitem => ?_).append
    ((closed_inRow _ first.2.closed_words fun item hitem => ?_).mark _)
  · obtain ⟨a, -, rfl⟩ := List.mem_map.mp hitem
    exact fun _ => rfl
  · obtain ⟨a, -, rfl⟩ := List.mem_map.mp hitem
    exact a.2.closed_words

theorem closed_filterWords (first : FilterPhrase) (more : List FilterPhrase) :
    Closed (filterWords first more) := by
  refine closed_inRow _ first.closed_words fun item hitem => ?_
  obtain ⟨f, -, rfl⟩ := List.mem_map.mp hitem
  exact f.closed_words

theorem closed_importWords (template : Phrase) (first : Alias) (more : List Alias) :
    Closed (importWords template first more) := by
  refine template.closed_words.append
    (Closed.name (closed_inRow _ first.closed_words fun item hitem => ?_) _).closed
  obtain ⟨a, -, rfl⟩ := List.mem_map.mp hitem
  exact a.closed_words

end Clause

/-! ## §2. Fragments of clauses -/

namespace Fragment

/-- Whether a fragment is code. -/
def isCode : Fragment → Bool
  | .prose _ => false
  | .code .. => true

/-- Whether the lexer makes what it should of the words of a fragment, if it is code. -/
def Lexed : Fragment → Prop
  | .prose _ => True
  | .code _ words => Stencil.Lexed words

/-- Whether no two fragments in a row are literal text. -/
def Apart (fragments : List Fragment) : Prop :=
  fragments.IsChain fun a b => a.isCode ∨ b.isCode

theorem lexed_tag (name : PlainWord) {words : List Word} (h : Stencil.Lexed words) :
    (tag name words).Lexed := by
  have hname : Closed [Word.name name] := fun _ => rfl
  exact hname.lexed.append h

/-- A tag by itself is no more than its name. -/
theorem lexed_tag_nil (name : PlainWord) : (tag name []).Lexed :=
  lexed_tag name (Closed.lexed fun _ => rfl)

theorem Apart.cons_tag {fragments : List Fragment} (h : Apart fragments) (name : PlainWord)
    (words : List Word) : Apart (.tag name words :: fragments) :=
  List.isChain_cons.mpr ⟨fun _ _ => .inl rfl, h⟩

/-- What stands before a tag does not matter to it. -/
theorem Apart.append_tag {fragments more : List Fragment} (h : Apart fragments)
    {name : PlainWord} {words : List Word} (h' : Apart (.tag name words :: more)) :
    Apart (fragments ++ .tag name words :: more) := by
  refine List.isChain_append.mpr ⟨h, h', fun x _ y hy => ?_⟩
  cases hy
  exact .inr rfl

end Fragment

namespace Clause

open Fragment

/-- An alternative and the tag after it. -/
theorem apart_alternative {orElse : List Fragment} (h : Apart orElse) (name : PlainWord) :
    Apart (alternative orElse ++ [.tag name []]) := by
  have hend : Apart [Fragment.tag name []] := List.isChain_singleton _
  unfold alternative
  split
  · exact hend
  · exact (h.append_tag hend).cons_tag _ _

/-- A body with a tag before it, and with an alternative that may be left out. -/
theorem apart_branches {body orElse : List Fragment} (hbody : Apart body)
    (horElse : Apart orElse) (name : PlainWord) (words : List Word) (last : PlainWord) :
    Apart (.tag name words :: (body ++ (alternative orElse ++ [.tag last []]))) := by
  have hrest := apart_alternative horElse last
  -- With an alternative or without one, the body ends at a tag.
  cases orElse with
  | nil => exact (hbody.append_tag hrest).cons_tag _ _
  | cons first more => exact (hbody.append_tag hrest).cons_tag _ _

/-- A body between two tags. -/
theorem apart_enclosed {body : List Fragment} (hbody : Apart body) (name : PlainWord)
    (words : List Word) (last : PlainWord) :
    Apart (.tag name words :: (body ++ [.tag last []])) :=
  (hbody.append_tag (List.isChain_singleton _)).cons_tag _ _

/-- A clause begins and ends with code unless it is literal text. -/
theorem isCode_of_not_isText {clause : Clause} (h : clause.isText = false) :
    (∀ fragment ∈ clause.fragments.head?, fragment.isCode) ∧
      ∀ fragment ∈ clause.fragments.getLast?, fragment.isCode := by
  cases clause <;> cases h
  all_goals
    simp only [fragments, List.getLast?_cons, List.getLast?_append, Option.mem_def, List.head?_cons]
    constructor
    · rintro _ ⟨⟩
      rfl
    · rintro _ ⟨⟩
      rfl

mutual

theorem apart_fragments : (clause : Clause) → clause.Spaced → Apart clause.fragments
  | .text _ | .print _ | .perform _ | .includes .. | .reuses .. | .assign .. | .importAll ..
  | .importSome .. => fun _ => List.isChain_singleton _
  | .branch _ body orElse | .loop _ _ _ body orElse => fun h =>
    apart_branches (apart_allFragments body h.1) (apart_allFragments orElse h.2) _ _ _
  | .block _ body | .defines _ _ body | .capture _ body | .filtered _ _ body => fun h =>
    apart_enclosed (apart_allFragments body h) _ _ _

theorem apart_allFragments : (clauses : List Clause) → AllSpaced clauses →
    Apart (allFragments clauses)
  | [] => fun _ => List.isChain_nil
  | clause :: clauses => fun ⟨hclause, hnext, hclauses⟩ => by
    refine List.isChain_append.mpr ⟨apart_fragments clause hclause,
      apart_allFragments clauses hclauses, fun x hx y hy => ?_⟩
    cases htext : clause.isText with
    | false => exact .inl ((isCode_of_not_isText htext).2 x hx)
    | true =>
      -- After literal text comes no other, so what comes begins with code.
      cases clauses with
      | nil => cases hy
      | cons next more =>
        have hcode := (isCode_of_not_isText (by simpa using hnext htext : next.isText = false)).1
        refine .inr (hcode y ?_)
        rw [allFragments, List.head?_append] at hy
        cases hhead : next.fragments.head? with
        | none =>
          have := List.head?_eq_none_iff.mp hhead
          cases next <;> cases this
        | some fragment =>
          rw [hhead] at hy
          exact hy

end

theorem lexed_alternative {orElse : List Fragment} (h : ∀ fragment ∈ orElse, fragment.Lexed) :
    ∀ fragment ∈ alternative orElse, fragment.Lexed := by
  unfold alternative
  split
  · simp
  · exact List.forall_mem_cons.mpr ⟨lexed_tag_nil _, h⟩

theorem lexed_enclosed {body : List Fragment} (hbody : ∀ fragment ∈ body, fragment.Lexed)
    (name : PlainWord) {words : List Word} (hwords : Stencil.Lexed words) (last : PlainWord) :
    ∀ fragment ∈ .tag name words :: (body ++ [.tag last []]), fragment.Lexed :=
  List.forall_mem_cons.mpr ⟨lexed_tag name hwords,
    List.forall_mem_append.mpr ⟨hbody, List.forall_mem_singleton.mpr (lexed_tag_nil last)⟩⟩

theorem lexed_branches {body orElse : List Fragment} (hbody : ∀ fragment ∈ body, fragment.Lexed)
    (horElse : ∀ fragment ∈ orElse, fragment.Lexed) (name : PlainWord) {words : List Word}
    (hwords : Stencil.Lexed words) (last : PlainWord) :
    ∀ fragment ∈ .tag name words :: (body ++ (alternative orElse ++ [.tag last []])),
      fragment.Lexed := by
  have hall := lexed_enclosed
    (List.forall_mem_append.mpr ⟨hbody, lexed_alternative horElse⟩) name hwords last
  rwa [List.append_assoc] at hall

mutual

theorem lexed_fragments : (clause : Clause) → ∀ fragment ∈ clause.fragments, fragment.Lexed
  | .text _ => List.forall_mem_singleton.mpr True.intro
  | .print phrase => List.forall_mem_singleton.mpr phrase.closed_words.lexed
  | .perform phrase => List.forall_mem_singleton.mpr (lexed_tag _ phrase.closed_words.lexed)
  | .branch cond body orElse => lexed_branches (lexed_allFragments body)
    (lexed_allFragments orElse) _ cond.closed_words.lexed _
  | .loop key value iterable body orElse => lexed_branches (lexed_allFragments body)
    (lexed_allFragments orElse) _ (lexed_loopWords key value iterable) _
  | .block _ body => lexed_enclosed (lexed_allFragments body) _ (Closed.lexed fun _ => rfl) _
  | .defines name params body =>
    lexed_enclosed (lexed_allFragments body) _ (closed_params name params).lexed _
  | .includes template ignoreMissing bindings only => List.forall_mem_singleton.mpr
    (lexed_tag _ (closed_inclusionWords template ignoreMissing bindings only).lexed)
  | .reuses template aliases => List.forall_mem_singleton.mpr
    (lexed_tag _ (closed_reuseWords template aliases).lexed)
  | .assign first more => List.forall_mem_singleton.mpr
    (lexed_tag _ (closed_assignWords first more).lexed)
  | .capture _ body => lexed_enclosed (lexed_allFragments body) _ (Closed.lexed fun _ => rfl) _
  | .filtered first more body =>
    lexed_enclosed (lexed_allFragments body) _ (closed_filterWords first more).lexed _
  | .importAll template _ => List.forall_mem_singleton.mpr
    (lexed_tag _ (template.closed_words.append fun _ => rfl).lexed)
  | .importSome template first more => List.forall_mem_singleton.mpr
    (lexed_tag _ (closed_importWords template first more).lexed)

theorem lexed_allFragments : (clauses : List Clause) →
    ∀ fragment ∈ allFragments clauses, fragment.Lexed
  | [] => nofun
  | clause :: clauses =>
    List.forall_mem_append.mpr ⟨lexed_fragments clause, lexed_allFragments clauses⟩

end

end Clause

/-! ## §3. Lexing fragments -/

/-- Where literal text ends: at the end of the source, or at a delimiter without a trim marker. -/
def EndsProse (cs : List Char) : Prop :=
  cs = [] ∨ ∃ (fence : Fence) (ds : List Char), cs = fence.opener ++ ' ' :: ds

theorem literalRun_prose {ds cs : List Char}
    (hfree : ∀ c ∈ ['{', '%', '#'], ¬ ['{', c] <:+: ds) (hends : ds.getLast? ≠ some '{')
    (hcs : EndsProse cs) : literalRun (ds ++ cs) = ds := by
  induction ds with
  | nil =>
    rcases hcs with rfl | ⟨fence, es, rfl⟩
    · rfl
    · cases fence <;> rfl
  | cons d ds ih =>
    have hmore : literalRun (ds ++ cs) = ds := by
      refine ih (fun c hc h => hfree c hc (h.trans (List.infix_cons (List.infix_refl _)))) ?_
      cases ds with
      | nil => nofun
      | cons e ds => simpa using hends
    have hopens : opensRegion (d :: (ds ++ cs)) = false := by
      by_cases hd : d = '{'
      · subst hd
        cases ds with
        | nil => exact absurd rfl hends
        | cons e ds =>
          -- The two characters would be a delimiter inside the text.
          have hinside : ['{', e] <:+: '{' :: e :: ds := ⟨[], ds, rfl⟩
          have hne : ∀ c ∈ ['{', '%', '#'], e ≠ c := by
            rintro c hc rfl
            exact hfree e hc hinside
          simp only [List.forall_mem_cons] at hne
          simp [opensRegion, hne]
      · cases ds <;> cases cs <;> simp [opensRegion, hd]
    rw [List.cons_append, literalRun, hopens, hmore]
    rfl

theorem lexes_prose (p : Prose) {cs : List Char} (hcs : EndsProse cs) :
    Lexes (p.text.toList ++ cs) [] [(.text, p.text)] cs [] := by
  have hrun := literalRun_prose p.free p.ends hcs
  have htrim : cs[2]? ≠ some '-' := by
    rcases hcs with rfl | ⟨⟨⟩, ds, rfl⟩ <;> simp [Fence.opener]
  intro position
  refine ⟨position.past p.text.toList, [⟨.text, p.text, position⟩], ?_, rfl⟩
  have hnext : Scan.next ⟨p.text.toList ++ cs, position, [], false⟩ =
      Scan.takeText ⟨p.text.toList ++ cs, position, [], false⟩ p.text.toList := by
    have hne : p.text.toList ≠ [] := fun h => p.nonempty (String.toList_eq_nil_iff.mp h)
    unfold Scan.next Scan.nextOutside
    simp only [hrun]
    split <;> simp_all
  have hdrop : (p.text.toList ++ cs).drop (p.text.toList.length + 2) = cs.drop 2 := by
    simp
  have htake : Scan.takeText ⟨p.text.toList ++ cs, position, [], false⟩ p.text.toList =
      .lexeme ⟨p.text.toList, some ⟨.text, p.text, position⟩⟩
        ⟨cs, position.past p.text.toList, [], false⟩ := by
    simp [Scan.takeText, Scan.move, hdrop, htrim, p.nonempty]
  exact .step (hnext.trans htake) (.refl _)

/-- What comes after literal text in a page ends it. -/
theorem endsProse_spelling {p : Prose} {fragments : List Fragment}
    (h : Fragment.Apart (.prose p :: fragments)) :
    EndsProse (fragments.flatMap Fragment.spelling) := by
  cases fragments with
  | nil => exact .inl rfl
  | cons fragment fragments =>
    have hcode := (List.isChain_cons_cons.mp h).1
    cases fragment with
    | prose => rcases hcode with h | h <;> cases h
    | code fence words =>
      obtain ⟨ds, hds⟩ := exists_spell_append words
        (fence.closer ++ fragments.flatMap Fragment.spelling)
      refine .inr ⟨fence, ds, ?_⟩
      rw [← hds]
      simp [Fragment.spelling]

/-- The lexer makes of fragments the tokens of each. -/
theorem lexes_fragments {fragments : List Fragment} (hapart : Fragment.Apart fragments)
    (hlexed : ∀ fragment ∈ fragments, fragment.Lexed) :
    Lexes (fragments.flatMap Fragment.spelling) [] (fragments.flatMap Fragment.shapes) [] [] := by
  induction fragments with
  | nil => exact Lexes.refl [] []
  | cons fragment fragments ih =>
    obtain ⟨hfragment, hmore⟩ := List.forall_mem_cons.mp hlexed
    have hrest := ih (List.isChain_cons.mp hapart).2 hmore
    cases fragment with
    | prose p => exact (lexes_prose p (endsProse_spelling hapart)).trans hrest
    | code fence words => exact (lexes_code fence (hfragment fence [] []) _).trans hrest

/-- The tokens of a page are those of its fragments. -/
theorem Page.lex_text (page : Page) :
    (lex page.text).tokens.map Token.shape = page.fragments.flatMap Fragment.shapes ∧
      (lex page.text).final.kind = .eof := by
  have hapart := Clause.apart_allFragments page.clauses page.spaced
  have hlexed := Clause.lexed_allFragments page.clauses
  apply Lexes.lex_eq
  rw [Page.text, String.toList_ofList]
  apply lexes_fragments
  · unfold Page.fragments
    cases page.parent with
    | none => exact hapart
    | some parent => exact hapart.cons_tag _ _
  · unfold Page.fragments
    cases page.parent with
    | none => exact hlexed
    | some parent =>
      exact List.forall_mem_cons.mpr
        ⟨Fragment.lexed_tag _ parent.closed_words.lexed, hlexed⟩

end Stencil
