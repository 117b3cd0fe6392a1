import Stencil.Proofs.Template.Bodies
import Stencil.Proofs.Template.Fragment

/-!
Templates printed and parsed.

Every clause is read, by recursion over the clauses inside it, and so is every page.  The number
that counts down recursion and loops goes down by one for each construct that is open, while the
tokens of a construct are more than those inside it; so a count of twice the tokens is enough.
-/

namespace Stencil

open Stencil.Text Stencil.Token Parse

/-! ## §1. Counting -/

/-- Each word has a blank and a token at least. -/
theorem length_le_shapesOf (words : List Word) : 2 * words.length ≤ (shapesOf words).length := by
  induction words with
  | nil => exact Nat.zero_le _
  | cons word words ih =>
    simp only [shapesOf_cons, Word.shapes_eq, List.length_append, List.length_cons]
    omega

theorem Fragment.length_code (fence : Fence) (words : List Word) :
    2 * words.length + 3 ≤ (Fragment.code fence words).shapes.length := by
  have := length_le_shapesOf words
  simp only [Fragment.shapes, List.length_append, List.length_cons, List.length_nil]
  omega

namespace Clause

/-- How many tokens a clause has. -/
def weight (clause : Clause) : Nat :=
  (clause.fragments.flatMap Fragment.shapes).length

/-- How many tokens clauses have. -/
def weightOf (clauses : List Clause) : Nat :=
  ((allFragments clauses).flatMap Fragment.shapes).length

theorem weightOf_cons (clause : Clause) (clauses : List Clause) :
    weightOf (clause :: clauses) = clause.weight + weightOf clauses := by
  simp [weightOf, weight, allFragments]

theorem weight_pos (clause : Clause) : 0 < clause.weight := by
  cases clause <;>
    simp [weight, fragments, Fragment.shapes, Fragment.tag]

theorem length_le_weightOf (clauses : List Clause) : clauses.length ≤ weightOf clauses := by
  induction clauses with
  | nil => exact Nat.zero_le _
  | cons clause clauses ih =>
    have := clause.weight_pos
    rw [weightOf_cons, List.length_cons]
    omega

/-- What a clause has inside it is less than the clause, by the words of its tag. -/
theorem length_inner (clause : Clause) {name : PlainWord} {words : List Word}
    {inner : List Fragment} (h : clause.fragments = .tag name words :: inner) :
    2 * words.length + 5 + (inner.flatMap Fragment.shapes).length ≤ clause.weight := by
  have := Fragment.length_code .tag (.name name :: words)
  rw [weight, h, List.flatMap_cons, List.length_append, Fragment.tag]
  rw [List.length_cons] at this
  omega

/-- The tokens of two bodies, the second one if there is one, and of the tag that ends them. -/
theorem weightOf_branches (body orElse : List Clause) (last : PlainWord) :
    weightOf body + weightOf orElse ≤
      ((allFragments body ++ (alternative (allFragments orElse) ++
        [Fragment.tag last []])).flatMap Fragment.shapes).length := by
  simp only [weightOf, List.flatMap_append, List.length_append]
  rcases alternative_or orElse with ⟨rfl, halternative⟩ | halternative
  · simp [allFragments]
  · simp only [halternative, List.flatMap_cons, List.length_append]
    omega

/-- The tokens of a body and of the tag that ends it. -/
theorem weightOf_enclosed (body : List Clause) (last : PlainWord) :
    weightOf body ≤
      ((allFragments body ++ [Fragment.tag last []]).flatMap Fragment.shapes).length := by
  simp [weightOf]

/-- The name of a block has no more parts than the block has tokens. -/
theorem length_le_weight_block (name : DottedName) (body : List Clause) :
    name.more.length < (block name body).weight := by
  have hparts : name.more.length ≤ (Word.dotted name).shapes.length := by
    simp only [Word.shapes_eq, Word.others, List.length_cons, List.length_flatMap]
    induction name.more with
    | nil => exact Nat.zero_le _
    | cons part more ih =>
      simp only [List.map_cons, List.sum_cons, List.length_cons, List.length_nil] at ih ⊢
      omega
  simp only [weight, fragments, Fragment.tag, Fragment.shapes, shapesOf_cons, List.flatMap_cons,
    List.length_append, List.length_cons]
  omega

/-! ## §2. Clauses -/

variable {n : Nat}

/-- A clause is read if its tag is read with what belongs to it. -/
theorem read_of_tag {clause : Clause} {name : PlainWord} {words : List Word}
    {inner : List Fragment} (hfragments : clause.fragments = .tag name words :: inner)
    (hname : name.text ∈ openers)
    (htag : ∀ (more : List (TokenKind × String)) (d : Collected) (pos : Position),
      d.Fresh clause.titles → Gathers (Stmt.parseTag (Stmt.rulesOf n) name.text pos)
        (Facing ⟨.tag, inner.flatMap Fragment.shapes ++ more⟩ words) d
        (fun ss => ∃ s, ss = [s] ∧ s.unplaced = (clause.build d).1) (· = more)
        (clause.build d).2) : clause.Read n := by
  intro stops opening before more d hopeners hfresh
  rw [hfragments, List.flatMap_cons, List.append_assoc]
  refine (Stmt.gathers_tag (hopeners _ hname) fun pos => htag more d pos hfresh).mono ?_
  rintro _ ⟨_, rfl, s, rfl, hs⟩
  exact ⟨s, rfl, hs⟩

/-- A clause that is a tag and nothing else. -/
theorem read_of_takes {clause : Clause} {name : PlainWord} {words : List Word} {stmt : Stmt}
    (hfragments : clause.fragments = [.tag name words]) (hname : name.text ∈ openers)
    (hbuild : ∀ d, clause.build d = (stmt, d))
    (htag : ∀ (more : List (TokenKind × String)) (pos : Position),
      Takes (Stmt.parseTag (Stmt.rulesOf n) name.text pos) (Facing ⟨.tag, more⟩ words)
        (fun ss => ∃ s, ss = [s] ∧ s.unplaced = stmt) (· = more)) : clause.Read n := by
  refine read_of_tag hfragments hname fun more d pos _ => ?_
  rw [hbuild]
  exact Gathers.of_takes (htag more pos) d

/-- A clause that is a tag, a body and the tag that ends it. -/
theorem read_of_enclosed {clause : Clause} {name : PlainWord} {words : List Word}
    {body : List Clause} {last : PlainWord}
    (hfragments : clause.fragments = .tag name words :: (allFragments body ++ [.tag last []]))
    (hname : name.text ∈ openers)
    (htag : ∀ (more : List (TokenKind × String)) (d : Collected) (pos : Position),
      d.Fresh clause.titles → Gathers (Stmt.parseTag (Stmt.rulesOf n) name.text pos)
        (Facing ⟨.tag, (allFragments body).flatMap Fragment.shapes ++
          ((Fragment.tag last []).shapes ++ more)⟩ words) d
        (fun ss => ∃ s, ss = [s] ∧ s.unplaced = (clause.build d).1) (· = more)
        (clause.build d).2) : clause.Read n := by
  refine read_of_tag hfragments hname fun more d pos hfresh => ?_
  rw [List.flatMap_append, List.flatMap_singleton, List.append_assoc]
  exact htag more d pos hfresh

/-- A clause with an alternative besides. -/
theorem read_of_branches {clause : Clause} {name : PlainWord} {words : List Word}
    {body orElse : List Clause} {last : PlainWord}
    (hfragments : clause.fragments = .tag name words ::
      (allFragments body ++ (alternative (allFragments orElse) ++ [.tag last []])))
    (hname : name.text ∈ openers)
    (htag : ∀ (more : List (TokenKind × String)) (d : Collected) (pos : Position),
      d.Fresh clause.titles → Gathers (Stmt.parseTag (Stmt.rulesOf n) name.text pos)
        (Facing ⟨.tag, (allFragments body).flatMap Fragment.shapes ++
          ((alternative (allFragments orElse)).flatMap Fragment.shapes ++
            ((Fragment.tag last []).shapes ++ more))⟩ words) d
        (fun ss => ∃ s, ss = [s] ∧ s.unplaced = (clause.build d).1) (· = more)
        (clause.build d).2) : clause.Read n := by
  refine read_of_tag hfragments hname fun more d pos hfresh => ?_
  rw [List.flatMap_append, List.flatMap_append, List.flatMap_singleton, List.append_assoc,
    List.append_assoc]
  exact htag more d pos hfresh

/-- A body is read if its clauses are and there is enough for them. -/
theorem readBody_of_weight {clauses : List Clause}
    (hread : ∀ m, 2 * weightOf clauses ≤ m → ∀ clause ∈ clauses, clause.Read m)
    (hn : 2 * weightOf clauses + 2 ≤ n) : ReadBody n clauses := by
  obtain ⟨n, rfl⟩ : ∃ m, n = m + 1 := ⟨n - 1, by omega⟩
  have := length_le_weightOf clauses
  exact readBody (hread n (by omega)) (by omega)

end Clause

namespace Parse

variable {α : Type} {x : Parse α} {P P' : List (TokenKind × String) → Prop} {Q : α → Prop}
  {d d' : Collected}

/-- A parser of a statement, as one of statements. -/
theorem Gathers.single (hx : Gathers x P d Q P' d') :
    Gathers (do Pure.pure [← x]) P d (fun xs => ∃ a, xs = [a] ∧ Q a) P' d' :=
  hx.bind fun a ha => Gathers.pure ⟨a, rfl, ha⟩

theorem Takes.single (hx : Takes x P Q P') :
    Takes (do Pure.pure [← x]) P (fun xs => ∃ a, xs = [a] ∧ Q a) P' :=
  hx.bind fun a ha => Takes.pure ⟨a, rfl, ha⟩

end Parse

namespace Clause

variable {n : Nat}

theorem read_text (prose : Prose) : (text prose).Read n := by
  intro stops opening before more d _ _
  have hnext := takes_next (.text, prose.text) more nofun
  refine Gathers.of_takes (hnext.bind fun token htoken => ?_) d
  have hkind : token.kind = .text := congrArg Prod.fst htoken
  have hvalue : token.value = prose.text := congrArg Prod.snd htoken
  simp only [hkind, hvalue]
  exact Takes.pure ⟨_, rfl, rfl⟩

theorem read_print {phrase : Phrase} (hphrase : phrase.Read n) : (print phrase).Read n := by
  intro stops opening before more d _ _
  rw [fragments, List.flatMap_singleton, Fragment.shapes_code]
  refine Gathers.of_takes ((Stmt.takes_print (Stmt.rulesOf n) hphrase rfl stops opening before
    more).mono ?_) d
  rintro _ ⟨pos, e, rfl, he⟩
  exact ⟨_, rfl, by rw [Stmt.unplaced, he, build]⟩

mutual

/-- Every clause is read if there is enough for its tokens. -/
theorem read : (clause : Clause) → ∀ n, 2 * clause.weight ≤ n → clause.Read n
  | .text prose => fun _ _ => read_text prose
  | .print phrase => fun n hn => by
    have := Fragment.length_code .print phrase.words
    rw [weight, fragments, List.flatMap_singleton] at hn
    exact read_print (phrase.read n (by omega))
  | .perform phrase => fun n hn => by
    have := length_inner (.perform phrase) rfl
    exact read_of_takes rfl (by decide) (fun _ => rfl) fun _ pos =>
      Stmt.takes_perform (by omega) pos
  | .branch cond body orElse => fun n hn => by
    have := length_inner (.branch cond body orElse) rfl
    have := weightOf_branches body orElse ⟨"endif", by decide⟩
    refine read_of_branches rfl (by decide) fun _ _ pos hfresh => ?_
    exact Stmt.gathers_parseIf (cond.read n (by omega))
      (readBody_of_weight (readEach body) (by omega))
      (readBody_of_weight (readEach orElse) (by omega)) (by omega) hfresh pos
  | .loop key value iterable body orElse => fun n hn => by
    have hwords := length_inner (.loop key value iterable body orElse) rfl
    have := weightOf_branches body orElse ⟨"endfor", by decide⟩
    have hiterable : 2 * iterable.words.length + 2 ≤ n := by
      simp only [loopWords, List.length_append, List.length_cons] at hwords
      omega
    refine read_of_branches rfl (by decide) fun _ _ pos hfresh => ?_
    exact (Stmt.gathers_parseFor (iterable.read n hiterable)
      (readBody_of_weight (readEach body) (by omega))
      (readBody_of_weight (readEach orElse) (by omega)) hfresh pos).single
  | .block name body => fun n hn => by
    have := length_inner (.block name body) rfl
    have := weightOf_enclosed body ⟨"endblock", by decide⟩
    have hparts := length_le_weight_block name body
    refine read_of_enclosed rfl (by decide) fun _ _ pos hfresh => ?_
    exact (Stmt.gathers_parseBlock (readBody_of_weight (readEach body) (by omega)) (by omega) hfresh
      pos).single
  | .defines name params body => fun n hn => by
    have hwords := length_inner (.defines name params body) rfl
    rw [List.length_cons] at hwords
    have := weightOf_enclosed body ⟨"endmacro", by decide⟩
    refine read_of_enclosed rfl (by decide) fun _ _ pos hfresh => ?_
    exact (Stmt.gathers_parseMacro (readBody_of_weight (readEach body) (by omega)) (by omega) hfresh
      pos).single
  | .includes template ignoreMissing bindings only => fun n hn => by
    have := length_inner (.includes template ignoreMissing bindings only) rfl
    exact read_of_takes rfl (by decide) (fun _ => rfl) fun _ pos =>
      Stmt.takes_includes (by omega) pos
  | .reuses template aliases => fun n hn => by
    have := length_inner (.reuses template aliases) rfl
    exact read_of_takes rfl (by decide) (fun _ => rfl) fun _ pos =>
      (Stmt.takes_parseUse (by omega) pos).single
  | .assign first more => fun n hn => by
    have := length_inner (.assign first more) rfl
    exact read_of_takes rfl (by decide) (fun _ => rfl) fun _ pos =>
      (Stmt.takes_assign (by omega) pos).single
  | .capture name body => fun n hn => by
    have := length_inner (.capture name body) rfl
    have := weightOf_enclosed body ⟨"endset", by decide⟩
    refine read_of_enclosed rfl (by decide) fun _ _ pos hfresh => ?_
    exact (Stmt.gathers_capture (readBody_of_weight (readEach body) (by omega)) (by omega) hfresh
      pos).single
  | .filtered first more body => fun n hn => by
    have := length_inner (.filtered first more body) rfl
    have := weightOf_enclosed body ⟨"endfilter", by decide⟩
    refine read_of_enclosed rfl (by decide) fun _ _ pos hfresh => ?_
    exact (Stmt.gathers_parseFiltered (readBody_of_weight (readEach body) (by omega)) (by omega)
      hfresh pos).single
  | .importAll template newName => fun n hn => by
    have := length_inner (.importAll template newName) rfl
    have htemplate : 2 * template.words.length + 2 ≤ n := by
      simp only [List.length_append] at this
      omega
    exact read_of_takes rfl (by decide) (fun _ => rfl) fun _ pos =>
      (Stmt.takes_parseImport newName htemplate pos).single
  | .importSome template first more => fun n hn => by
    have := length_inner (.importSome template first more) rfl
    exact read_of_takes rfl (by decide) (fun _ => rfl) fun _ pos =>
      (Stmt.takes_parseFrom (by omega) pos).single

theorem readEach : (clauses : List Clause) → ∀ n, 2 * weightOf clauses ≤ n →
    ∀ clause ∈ clauses, clause.Read n
  | [] => fun _ _ => nofun
  | clause :: clauses => fun n hn => by
    rw [weightOf_cons] at hn
    exact List.forall_mem_cons.mpr
      ⟨clause.read n (by omega), readEach clauses n (by omega)⟩

end

end Clause

/-! ## §3. Pages -/

namespace Stmt

variable {n : Nat} {more : List (TokenKind × String)} {d : Collected} {opening : Option Opening}
  {before : List Stmt}

/-- The template that is extended, if it is the first one. -/
theorem gathers_parseExtends {parent : Phrase} (hparent : parent.Read n) (hd : d.parent = none)
    (pos : Position) :
    Gathers (parseExtends (rulesOf n) pos) (Facing ⟨.tag, more⟩ parent.words) d (fun _ => True)
      (· = more) (d.extend ⟨.start, parent.expr⟩) := by
  have hread : Gathers (do
      let template ← Expr.parse n .any
      endTag
      modify fun s => { s with parent := some ⟨pos, template⟩ })
      (Facing ⟨.tag, more⟩ parent.words) d (fun _ => True) (· = more)
      (d.extend ⟨.start, parent.expr⟩) := by
    refine hparent.last.gathers fun e he => takes_endTag.gathers fun _ _ => ?_
    rintro s hs rfl htables
    refine ⟨(), { s with parent := some ⟨pos, e⟩ }, rfl, rfl, hs, ?_, htables, trivial⟩
    simp [ParseState.collected, Collected.unplaced, Collected.extend, Extends.unplaced, he]
  rintro s hs rfl htables
  have hnone : s.parent = none := Option.map_eq_none_iff.mp hd
  obtain ⟨_, s', hrun, hrest⟩ := hread s hs rfl htables
  refine ⟨(), s', ?_, hrest⟩
  rw [← hrun]
  -- As nothing is extended yet, the rest of the tag is read.
  show (if s.parent.isSome = true then _ else _ : Parse Unit).run s = _
  rw [hnone]
  rfl

/-- The piece of a body that extends a template; it leaves no statement. -/
theorem gathers_extends {parent : Phrase} (hparent : parent.Read n) (hd : d.parent = none) :
    Gathers (parsePiece (rulesOf n) [] opening before)
      (· = (Fragment.tag ⟨"extends", by decide⟩ parent.words).shapes ++ more) d
      (· = .more before) (· = more) (d.extend ⟨.start, parent.expr⟩) := by
  have htag : ∀ pos, Gathers (parseTag (rulesOf n) "extends" pos)
      (Facing ⟨.tag, more⟩ parent.words) d (· = []) (· = more)
      (d.extend ⟨.start, parent.expr⟩) := fun pos =>
    (gathers_parseExtends hparent hd pos).bind fun _ _ => Gathers.pure rfl
  refine (gathers_tag List.not_mem_nil htag).mono ?_
  rintro _ ⟨_, rfl, rfl⟩
  rfl

end Stmt

/-- Clauses up to the end of the source are read as the rest of a body that is in no tag. -/
theorem Clause.run_clauses {n : Nat} {clauses : List Clause}
    (hread : ∀ clause ∈ clauses, clause.Read n) {k : Nat} (hk : clauses.length < k)
    {s : ParseState} (hs : s.cursor.shapes = (allFragments clauses).flatMap Fragment.shapes)
    (hfinal : s.cursor.final.kind = .eof) {d : Collected} (hd : s.collected.unplaced = d)
    (htables : s.blockTables ≠ []) (hfresh : d.Fresh (allTitles clauses)) :
    ∃ body s', (iterate (Stmt.parsePiece (Stmt.rulesOf n) [] none) k []).run s = .ok (body, s') ∧
      body.statements.map Stmt.unplaced = (buildAll clauses d).1 ∧
      s'.collected.unplaced = (buildAll clauses d).2 := by
  obtain ⟨k, rfl⟩ : ∃ m, k = m + 1 + clauses.length := ⟨k - 1 - clauses.length, by omega⟩
  rw [← List.append_nil (List.flatMap _ _)] at hs
  have hstops : ∀ tag ∈ openers, tag ∉ [] := fun _ _ => List.not_mem_nil
  obtain ⟨after, s₁, hrun, hfinal₁, hs₁, hd₁, -, hafter⟩ :=
    run_pieces hread hstops none (k + 1) [] hs hd htables hfresh
  obtain ⟨c, hend⟩ := Stmt.run_parsePiece_eof (Stmt.rulesOf n) [] after hs₁ (hfinal₁ ▸ hfinal)
  refine ⟨⟨after.reverse, none⟩, { s₁ with cursor := c }, ?_, hafter, hd₁⟩
  rw [hrun]
  exact run_iterate_done hend

namespace Page

/-- Nothing is defined before the clauses of a page. -/
theorem fresh_opening (page : Page) : page.opening.Fresh (Clause.allTitles page.clauses) := by
  have htables : page.opening.blockTable = [] ∧ page.opening.macroTable = [] := by
    unfold opening
    cases page.parent <;> exact ⟨rfl, rfl⟩
  refine ⟨page.distinct, fun t _ => ?_⟩
  cases t <;> simp [Collected.Holds, htables, Table.has]

/-- The tokens of a page include those of its clauses, and those of the tag before them. -/
theorem weightOf_clauses (page : Page) :
    Clause.weightOf page.clauses +
        (page.parent.map fun parent => 2 * parent.words.length + 5).getD 0 ≤
      (page.fragments.flatMap Fragment.shapes).length := by
  unfold fragments
  cases page.parent with
  | none => simp [Clause.weightOf]
  | some parent =>
    have := Fragment.length_code .tag (.name ⟨"extends", by decide⟩ :: parent.words)
    simp only [Option.map_some, Option.getD_some, Option.toList_some, List.singleton_append,
      List.flatMap_cons, List.length_append, Clause.weightOf, Fragment.tag]
    rw [List.length_cons] at this
    omega

/-- A page is read as a body that is in no tag. -/
theorem run_parseBody (page : Page) {n : Nat}
    (hn : 2 * (page.fragments.flatMap Fragment.shapes).length + 2 ≤ n) {s : ParseState}
    (hs : s.cursor.shapes = page.fragments.flatMap Fragment.shapes)
    (hfinal : s.cursor.final.kind = .eof) (hd : s.collected.unplaced = .empty)
    (htables : s.blockTables ≠ []) :
    ∃ body s', (Stmt.parseBody (n + 1) [] none).run s = .ok (body, s') ∧
      body.statements.map Stmt.unplaced = (Clause.buildAll page.clauses page.opening).1 ∧
      s'.collected.unplaced = (Clause.buildAll page.clauses page.opening).2 := by
  have hweight := page.weightOf_clauses
  have hlength := Clause.length_le_weightOf page.clauses
  have hread := Clause.readEach page.clauses n (by omega)
  have hfresh := page.fresh_opening
  cases hparent : page.parent with
  | none =>
    have hfragments : page.fragments = Clause.allFragments page.clauses := by
      simp [fragments, hparent]
    have hopening : page.opening = .empty := by simp [opening, hparent]
    rw [hopening] at hfresh ⊢
    rw [hfragments] at hs
    exact Clause.run_clauses hread (by omega) hs hfinal hd htables hfresh
  | some parent =>
    have hfragments : page.fragments =
        .tag ⟨"extends", by decide⟩ parent.words :: Clause.allFragments page.clauses := by
      simp [fragments, hparent]
    have hopening : page.opening = Collected.empty.extend ⟨.start, parent.expr⟩ := by
      simp [opening, hparent]
    rw [hopening] at hfresh ⊢
    rw [hfragments, List.flatMap_cons] at hs
    rw [hparent, Option.map_some, Option.getD_some] at hweight
    -- The first turn reads the tag of the template that is extended.
    obtain ⟨n, rfl⟩ : ∃ m, n = m + 1 := ⟨n - 1, by omega⟩
    obtain ⟨_, s₁, hrun, hfinal₁, hs₁, hd₁, htables₁, rfl⟩ :=
      Stmt.gathers_extends (parent.read (n + 1) (by omega)) rfl s hs hd htables
    have hk : page.clauses.length < n := by omega
    obtain ⟨body, s₂, hrest, hbody⟩ :=
      Clause.run_clauses hread hk hs₁ (hfinal₁ ▸ hfinal) hd₁ htables₁ hfresh
    refine ⟨body, s₂, ?_, hbody⟩
    show (iterate (Stmt.parsePiece (Stmt.rulesOf (n + 1)) [] none) (n + 1) []).run s = _
    rw [run_iterate_more hrun]
    exact hrest

end Page

/-- A page printed and parsed is the template that the page means, up to the places of its nodes. -/
theorem Template.parse_page (page : Page) (name : String) :
    ∃ t, Template.parse name page.text = .ok t ∧ t.unplaced = page.template name := by
  obtain ⟨htokens, hfinal⟩ := page.lex_text
  have hlength : (lex page.text).tokens.length =
      (page.fragments.flatMap Fragment.shapes).length := by
    rw [← htokens, List.length_map]
  obtain ⟨n, hn⟩ : ∃ n, parseDepth (lex page.text).tokens.length = n + 1 :=
    ⟨parseDepth (lex page.text).tokens.length - 1, by unfold parseDepth; omega⟩
  obtain ⟨body, s, hrun, hbody, hd⟩ := page.run_parseBody (n := n)
    (s := Parse.startState (lex page.text)) (by unfold parseDepth at hn; omega) htokens hfinal rfl
    (List.cons_ne_nil _ _)
  refine ⟨⟨name, s.parent, body.statements, s.blocks, s.blockTables.headD [], s.macros,
    s.macroTable⟩, ?_, ?_⟩
  · rw [Template.parse, Template.parseWithin, hn, hrun]
    rfl
  · show _ = (⟨name, _, _, _, _, _, _⟩ : Template)
    rw [← hbody, ← hd]
    rfl

-- The inner block ends first, so it comes first.
example :
    let page : Page := ⟨none, [.block ⟨⟨"main", by decide⟩, []⟩
      [.block ⟨⟨"main", by decide⟩, [⟨"title", by decide⟩]⟩ [.print (.operand (.string "Hi"))]]],
      by simp [Clause.AllSpaced, Clause.Spaced], by decide⟩
    page.text = "\x7b% block main %\x7d\x7b% block main.title %\x7d\x7b\x7b \"Hi\" \x7d\x7d" ++
        "\x7b% endblock %\x7d\x7b% endblock %\x7d" ∧
      (page.template "page").blocks.map Block.name = ["main.title", "main"] := by
  decide +kernel

end Stencil
