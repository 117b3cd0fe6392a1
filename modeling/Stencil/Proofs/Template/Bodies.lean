import Stencil.Proofs.Template.Tags

/-!
Reading bodies.

If the clauses of a body are read one by one, so is the body, up to the name of the tag that ends
it.  And if bodies are read, so are the clauses with a body: each asks for its own end tag, and no
tag that begins a clause is one of those.  What a clause defines is collected after what its body
defines.
-/

namespace Stencil

open Stencil.Text Stencil.Token Parse

/-! ## §1. Pieces of a body -/

/-- The tokens of code are an opening delimiter and then words as a parser faces them. -/
theorem Fragment.shapes_code (fence : Fence) (words : List Word)
    (more : List (TokenKind × String)) :
    (Fragment.code fence words).shapes ++ more =
      fence.openShape :: blankShape :: ahead ⟨fence, more⟩ words := by
  rw [← shapesOf_append_ending ⟨fence, more⟩ words]
  simp [Fragment.shapes]

namespace Clause

/-- The names of the tags that begin clauses. -/
def openers : List String :=
  ["do", "if", "for", "block", "macro", "include", "use", "set", "filter", "import", "from"]

/-- A clause is read as a piece of a body that does not end at its tag. -/
def Read (n : Nat) (clause : Clause) : Prop :=
  ∀ (stops : List String) (opening : Option Stmt.Opening) (before : List Stmt)
    (more : List (TokenKind × String)) (d : Collected),
    (∀ tag ∈ openers, tag ∉ stops) → d.Fresh clause.titles →
    Gathers (Stmt.parsePiece (Stmt.rulesOf n) stops opening before)
      (· = clause.fragments.flatMap Fragment.shapes ++ more) d
      (fun r => ∃ s, r = .more (s :: before) ∧ s.unplaced = (clause.build d).1)
      (· = more) (clause.build d).2

/-- Clauses are read as the body of a construct, with the name of the tag that ends it. -/
def ReadBody (n : Nat) (clauses : List Clause) : Prop :=
  ∀ (stops : List String) (opening : Option Stmt.Opening) (last : PlainWord)
    (more : List (TokenKind × String)) (d : Collected),
    (∀ tag ∈ openers, tag ∉ stops) → last.text ∈ stops → d.Fresh (allTitles clauses) →
    Gathers (Stmt.parseBody n stops opening)
      (· = (allFragments clauses).flatMap Fragment.shapes ++
        ((Fragment.tag last []).shapes ++ more)) d
      (fun body => body.ended = some last.text ∧
        body.statements.map Stmt.unplaced = (buildAll clauses d).1)
      (Facing ⟨.tag, more⟩ []) (buildAll clauses d).2

end Clause

namespace Stmt

variable {n : Nat} {more : List (TokenKind × String)} {d d' : Collected} {stops : List String}
  {opening : Option Opening} {before : List Stmt}

/-- A tag is opened and then has a name. -/
theorem takes_opening (words : List Word) :
    Takes next (· = (.tagOpen, "\x7b%") :: blankShape :: ahead ⟨.tag, more⟩ words)
      (fun token => token.kind = .tagOpen) (· = blankShape :: ahead ⟨.tag, more⟩ words) :=
  (takes_next (.tagOpen, "\x7b%") _ nofun).mono fun _ htoken => congrArg Prod.fst htoken

/-- A tag that does not end the body. -/
theorem gathers_tag {name : PlainWord} (hname : name.text ∉ stops) {words : List Word}
    {Q : List Stmt → Prop} {rest : List (TokenKind × String)}
    (htag : ∀ pos, Gathers (parseTag (rulesOf n) name.text pos) (Facing ⟨.tag, rest⟩ words) d
      Q (· = more) d') :
    Gathers (parsePiece (rulesOf n) stops opening before)
      (· = (Fragment.tag name words).shapes ++ rest) d
      (fun r => ∃ ss, r = .more (ss ++ before) ∧ Q ss) (· = more) d' := by
  rw [Fragment.tag, Fragment.shapes_code]
  refine (takes_opening _).gathers fun token htoken => ?_
  simp only [htoken]
  refine (takes_plainWord name words).of_blank.gathers ?_
  rintro _ rfl
  have hstops : ¬ stops.contains name.text = true := by simpa using hname
  rw [if_neg hstops]
  exact (htag token.position).bind fun ss hss => Gathers.pure ⟨ss, rfl, hss⟩

/-- The tag that ends the body, up to its name. -/
theorem takes_last {last : PlainWord} (hlast : last.text ∈ stops) :
    Takes (parsePiece (rulesOf n) stops opening before)
      (· = (Fragment.tag last []).shapes ++ more)
      (· = .done ⟨before.reverse, some last.text⟩) (Facing ⟨.tag, more⟩ []) := by
  rw [Fragment.tag, Fragment.shapes_code]
  refine (takes_opening _).bind fun token htoken => ?_
  simp only [htoken]
  refine (takes_plainWord last []).of_blank.bind ?_
  rintro _ rfl
  have hstops : stops.contains last.text = true := by simpa using hlast
  rw [if_pos hstops]
  exact Takes.pure rfl

end Stmt

/-! ## §2. Bodies -/

namespace Clause

variable {n : Nat} {stops : List String}

/-- Clauses that are read one by one are read by the loop of a body, which then stands at what comes
after them. -/
theorem run_pieces {clauses : List Clause} (hread : ∀ clause ∈ clauses, clause.Read n)
    (hopeners : ∀ tag ∈ openers, tag ∉ stops) (opening : Option Stmt.Opening) (k : Nat)
    (before : List Stmt) {rest : List (TokenKind × String)} {s : ParseState}
    (hs : s.cursor.shapes = (allFragments clauses).flatMap Fragment.shapes ++ rest)
    {d : Collected} (hd : s.collected.unplaced = d) (htables : s.blockTables ≠ [])
    (hfresh : d.Fresh (allTitles clauses)) :
    ∃ after s',
      (iterate (Stmt.parsePiece (Stmt.rulesOf n) stops opening) (k + clauses.length) before).run s =
        (iterate (Stmt.parsePiece (Stmt.rulesOf n) stops opening) k after).run s' ∧
      s'.cursor.final = s.cursor.final ∧ s'.cursor.shapes = rest ∧
      s'.collected.unplaced = (buildAll clauses d).2 ∧ s'.blockTables ≠ [] ∧
      after.reverse.map Stmt.unplaced =
        before.reverse.map Stmt.unplaced ++ (buildAll clauses d).1 := by
  -- Each clause puts one statement in front of those before it.
  induction clauses generalizing before s d with
  | nil => exact ⟨before, s, rfl, rfl, hs, hd, htables, by simp [buildAll]⟩
  | cons clause clauses ih =>
    obtain ⟨hclause, hclauses⟩ := List.forall_mem_cons.mp hread
    rw [allFragments, List.flatMap_append, List.append_assoc] at hs
    obtain ⟨_, s₁, hrun, hfinal, hs₁, hd₁, htables₁, piece, rfl, hpiece⟩ :=
      hclause stops opening before _ d hopeners hfresh.left s hs hd htables
    obtain ⟨after, s₂, hmore, hfinal', hs₂, hd₂, htables₂, hafter⟩ :=
      ih hclauses (piece :: before) hs₁ hd₁ htables₁ (hfresh.right (clause.holds_build d))
    refine ⟨after, s₂, ?_, hfinal'.trans hfinal, hs₂, hd₂, htables₂, ?_⟩
    · rw [List.length_cons, ← Nat.add_assoc, run_iterate_more hrun]
      exact hmore
    · rw [hafter]
      simp [buildAll, hpiece]

/-- So they are read as a body. -/
theorem readBody {clauses : List Clause} (hread : ∀ clause ∈ clauses, clause.Read n)
    (hn : clauses.length < n) : ReadBody (n + 1) clauses := by
  intro stops opening last more d hopeners hlast hfresh s hs hd htables
  obtain ⟨k, hk⟩ : ∃ k, n = k + 1 + clauses.length := ⟨n - 1 - clauses.length, by omega⟩
  obtain ⟨after, s₁, hrun, hfinal, hs₁, hd₁, htables₁, hafter⟩ :=
    run_pieces hread hopeners opening (k + 1) [] hs hd htables hfresh
  have hend : Takes (iterate (Stmt.parsePiece (Stmt.rulesOf n) stops opening) (k + 1) after)
      (· = (Fragment.tag last []).shapes ++ more)
      (· = ⟨after.reverse, some last.text⟩) (Facing ⟨.tag, more⟩ []) :=
    Takes.done ((Stmt.takes_last hlast).mono fun r hr => ⟨_, hr, rfl⟩)
  obtain ⟨_, s₂, hlast, hfinal', hs₂, hd₂, htables₂, rfl⟩ :=
    Gathers.of_takes hend _ s₁ hs₁ hd₁ htables₁
  refine ⟨⟨after.reverse, some last.text⟩, s₂, ?_, hfinal'.trans hfinal, hs₂, hd₂, htables₂, rfl,
    hafter⟩
  rw [← hlast, ← hrun, ← hk]
  rfl

/-- An alternative is there if it is not empty. -/
theorem alternative_or (orElse : List Clause) :
    (orElse = [] ∧ alternative (allFragments orElse) = []) ∨
      alternative (allFragments orElse) =
        .tag ⟨"else", by decide⟩ [] :: allFragments orElse := by
  cases orElse with
  | nil => exact .inl ⟨rfl, rfl⟩
  | cons clause clauses =>
    refine .inr (if_neg ?_)
    cases clause <;> simp [allFragments, fragments]

end Clause

/-! ## §3. Clauses with bodies -/

namespace Stmt

open Clause (allFragments allTitles alternative buildAll ReadBody)

variable {n : Nat} {more : List (TokenKind × String)} {d : Collected} {body orElse : List Clause}

theorem gathers_parseIf {cond : Phrase} (hcond : cond.Read n) (hbody : ReadBody n body)
    (horElse : ReadBody n orElse) (hn : 0 < n)
    (hfresh : d.Fresh (allTitles body ++ allTitles orElse)) (pos : Position) :
    Gathers (parseIf (rulesOf n) pos)
      (Facing ⟨.tag, (allFragments body).flatMap Fragment.shapes ++
        ((alternative (allFragments orElse)).flatMap Fragment.shapes ++
          ((Fragment.tag ⟨"endif", by decide⟩ []).shapes ++ more))⟩ cond.words) d
      (fun ss => ∃ s, ss = [s] ∧ s.unplaced = .branch .start cond.expr (buildAll body d).1
        (buildAll orElse (buildAll body d).2).1)
      (· = more) (buildAll orElse (buildAll body d).2).2 := by
  obtain ⟨n, rfl⟩ : ∃ m, n = m + 1 := ⟨n - 1, by omega⟩
  refine Gathers.done (hcond.last.gathers fun e he => takes_endTag.gathers fun _ _ => ?_)
  rcases Clause.alternative_or orElse with ⟨rfl, halternative⟩ | halternative
  · rw [halternative]
    refine (hbody _ _ ⟨"endif", by decide⟩ more d (by decide) (by decide) hfresh.left).bind ?_
    rintro ⟨ss, _⟩ ⟨rfl, hss⟩
    refine takes_endTag.gathers fun _ _ => Gathers.pure ⟨_, rfl, _, rfl, ?_⟩
    simp [unplaced, he, hss, buildAll]
  · rw [halternative, List.flatMap_cons, List.append_assoc]
    have hlead : ∀ ks, leadOf ⟨.tag, ks⟩ [] ≠ (.name, "if") := fun _ => leadOf_endTag (by simp)
    refine (hbody _ _ ⟨"else", by decide⟩ _ d (by decide) (by decide) hfresh.left).bind ?_
    rintro ⟨ss, _⟩ ⟨rfl, hss⟩
    refine (takes_accept_of_ne (hlead _)).gathers ?_
    rintro _ rfl
    refine takes_endTag.gathers fun _ _ => ?_
    refine (horElse _ _ ⟨"endif", by decide⟩ more _ (by decide) (by decide)
      (hfresh.right (Clause.holds_buildAll body d))).bind ?_
    rintro ⟨ss', _⟩ ⟨rfl, hss'⟩
    refine takes_endTag.gathers fun _ _ => Gathers.pure ⟨_, rfl, _, rfl, ?_⟩
    simp [unplaced, he, hss, hss']

/-- The names of a loop, and what comes after them. -/
theorem gathers_loopNames {α : Type} {fin : Ending} {key : Option PlainWord} {value : PlainWord}
    {rest : List Word} (hrest : leadOf fin rest ≠ (.punctuation, ","))
    {k : Option String × String → Parse α} {Q : α → Prop}
    {P : List (TokenKind × String) → Prop} {d' : Collected}
    (hk : Gathers (k (key.map PlainWord.text, value.text)) (Facing fin rest) d Q P d') :
    Gathers (do
      let first ← Parse.name
      if ← accept .punctuation "," then k (← Pure.pure (some first, ← Parse.name))
      else k (← Pure.pure (none, first)))
      (Facing fin ((key.map fun key => [.name key, .mark ',' (by decide)]).getD [] ++
        .name value :: rest)) d Q P d' := by
  cases key with
  | none =>
    refine (takes_plainWord value rest).gathers ?_
    rintro _ rfl
    refine (takes_accept_of_ne hrest).gathers ?_
    rintro _ rfl
    exact hk
  | some key =>
    refine (takes_plainWord key _).gathers ?_
    rintro _ rfl
    refine (takes_accept (.mark ',' (by decide)) rfl _).gathers ?_
    rintro _ rfl
    refine (takes_plainWord value rest).gathers ?_
    rintro _ rfl
    exact hk

theorem gathers_parseFor {key : Option PlainWord} {value : PlainWord} {iterable : Phrase}
    (hiterable : iterable.Read n) (hbody : ReadBody n body) (horElse : ReadBody n orElse)
    (hfresh : d.Fresh (allTitles body ++ allTitles orElse)) (pos : Position) :
    Gathers (parseFor (rulesOf n) pos)
      (Facing ⟨.tag, (allFragments body).flatMap Fragment.shapes ++
        ((alternative (allFragments orElse)).flatMap Fragment.shapes ++
          ((Fragment.tag ⟨"endfor", by decide⟩ []).shapes ++ more))⟩
        (Clause.loopWords key value iterable)) d
      (·.unplaced = .loop .start (key.map PlainWord.text) value.text iterable.expr
        (buildAll body d).1 (buildAll orElse (buildAll body d).2).1)
      (· = more) (buildAll orElse (buildAll body d).2).2 := by
  have hin : ∀ ks, leadOf ⟨.tag, ks⟩ (.binary .isIn :: iterable.words) ≠ (.punctuation, ",") :=
    fun _ => nofun
  have hlead : ∀ ks, leadOf ⟨.tag, ks⟩ [] ≠ (.name, "if") := fun _ => leadOf_endTag nofun
  refine gathers_loopNames (hin _) ?_
  refine (takes_expectValue (.binary .isIn) rfl _).gathers fun _ _ => ?_
  refine hiterable.last.gathers fun e he => ?_
  refine (takes_accept_of_ne (hlead _)).gathers ?_
  rintro _ rfl
  simp only [Bool.false_eq_true, if_false, pure_bind]
  refine takes_endTag.gathers fun _ _ => ?_
  rcases Clause.alternative_or orElse with ⟨rfl, halternative⟩ | halternative
  · rw [halternative]
    refine (hbody _ _ ⟨"endfor", by decide⟩ more d (by decide) (by decide) hfresh.left).bind ?_
    rintro ⟨ss, _⟩ ⟨rfl, hss⟩
    refine takes_endTag.gathers fun _ _ => ?_
    rw [if_neg (by simp)]
    refine Gathers.pure ?_
    simp [unplaced, he, hss, buildAll]
  · rw [halternative, List.flatMap_cons, List.append_assoc]
    refine (hbody _ _ ⟨"else", by decide⟩ _ d (by decide) (by decide) hfresh.left).bind ?_
    rintro ⟨ss, _⟩ ⟨rfl, hss⟩
    refine takes_endTag.gathers fun _ _ => ?_
    rw [if_pos rfl]
    refine (horElse _ _ ⟨"endfor", by decide⟩ more _ (by decide) (by decide)
      (hfresh.right (Clause.holds_buildAll body d))).bind ?_
    rintro ⟨ss', _⟩ ⟨rfl, hss'⟩
    refine takes_endTag.gathers fun _ _ => Gathers.pure ?_
    simp [unplaced, he, hss, hss']

theorem gathers_parseBlock {name : DottedName} (hbody : ReadBody n body)
    (hn : name.more.length < n) (hfresh : d.Fresh (allTitles body ++ [.block name.text]))
    (pos : Position) :
    Gathers (parseBlock (rulesOf n) pos)
      (Facing ⟨.tag, (allFragments body).flatMap Fragment.shapes ++
        ((Fragment.tag ⟨"endblock", by decide⟩ []).shapes ++ more)⟩ [.dotted name]) d
      (·.unplaced = .block .start (buildAll body d).2.blocks.length) (· = more)
      ((buildAll body d).2.addBlock ⟨name.text, .start, (buildAll body d).1⟩) := by
  have hfree : (buildAll body d).2.Fresh [.block name.text] :=
    hfresh.right (Clause.holds_buildAll body d)
  refine (takes_parseDottedName hn []).gathers ?_
  rintro _ rfl
  refine (takes_peek []).gathers fun token htoken => ?_
  have hkind : token.kind = .tagClose := congrArg Prod.fst htoken
  rw [hkind, if_pos rfl]
  refine takes_endTag.gathers fun _ _ => ?_
  refine (hbody _ _ ⟨"endblock", by decide⟩ more d (by decide) (by decide) hfresh.left).bind ?_
  rintro ⟨ss, _⟩ ⟨rfl, hss⟩
  refine (takes_parseNamedEnd name.text).gathers fun _ _ => ?_
  have hadd := gathers_addBlock (P := (· = more)) (b := ⟨name.text, pos, ss⟩)
    (hfree.free _ List.mem_cons_self)
  rw [Block.unplaced, hss] at hadd
  change Gathers (addBlock ⟨name.text, pos, ss⟩ >>= fun id => Pure.pure (block pos id)) _ _ _ _ _
  refine hadd.bind ?_
  rintro _ rfl
  exact Gathers.pure rfl

theorem gathers_parseMacro {name : PlainWord} {params : List ParamPhrase}
    (hbody : ReadBody n body)
    (hn : 2 * (enclosed .parens (commas (params.map ParamPhrase.words))).length ≤ n)
    (hfresh : d.Fresh (allTitles body ++ [.macroDef name.text])) (pos : Position) :
    Gathers (parseMacro (rulesOf n) pos)
      (Facing ⟨.tag, (allFragments body).flatMap Fragment.shapes ++
        ((Fragment.tag ⟨"endmacro", by decide⟩ []).shapes ++ more)⟩
        (.name name :: enclosed .parens (commas (params.map ParamPhrase.words)))) d
      (·.unplaced = .defines .start (buildAll body d).2.macros.length) (· = more)
      ((buildAll body d).2.addMacro
        ⟨name.text, .start, params.map ParamPhrase.param, (buildAll body d).1⟩) := by
  have hfree : (buildAll body d).2.Fresh [.macroDef name.text] :=
    hfresh.right (Clause.holds_buildAll body d)
  rw [length_enclosed] at hn
  refine (takes_plainWord name _).gathers ?_
  rintro _ rfl
  refine (takes_expect rfl rfl _).gathers fun _ _ => ?_
  refine (takes_parseParams (by omega)).gathers fun read hread => ?_
  refine takes_endTag.gathers fun _ _ => ?_
  refine (hbody _ _ ⟨"endmacro", by decide⟩ more d (by decide) (by decide) hfresh.left).bind ?_
  rintro ⟨ss, _⟩ ⟨rfl, hss⟩
  refine (takes_parseNamedEnd name.text).gathers fun _ _ => ?_
  have hadd := gathers_addMacro (P := (· = more)) (m := ⟨name.text, pos, read, ss⟩)
    (hfree.free _ List.mem_cons_self)
  rw [MacroDef.unplaced, hread, hss] at hadd
  refine hadd.bind ?_
  rintro _ rfl
  exact Gathers.pure rfl

/-- An assignment of what a body renders. -/
theorem gathers_capture {name : PlainWord} (hbody : ReadBody n body) (hn : 0 < n)
    (hfresh : d.Fresh (allTitles body)) (pos : Position) :
    Gathers (parseSet (rulesOf n) pos)
      (Facing ⟨.tag, (allFragments body).flatMap Fragment.shapes ++
        ((Fragment.tag ⟨"endset", by decide⟩ []).shapes ++ more)⟩ [.name name]) d
      (·.unplaced = .capture .start name.text (buildAll body d).1) (· = more)
      (buildAll body d).2 := by
  have hcomma : ∀ ks, leadOf ⟨.tag, ks⟩ [] ≠ (.punctuation, ",") := fun _ => leadOf_endTag nofun
  have heq : ∀ ks, leadOf ⟨.tag, ks⟩ [] ≠ (.punctuation, "=") := fun _ => leadOf_endTag nofun
  have htarget : ∀ ks, Takes (commaSeparated n Parse.name) (Facing ⟨.tag, ks⟩ [.name name])
      (· = [name.text]) (Facing ⟨.tag, ks⟩ []) := by
    intro ks
    obtain ⟨m, rfl⟩ : ∃ m, n = m + 1 := ⟨n - 1, by omega⟩
    refine Takes.done ((takes_plainWord name []).bind ?_)
    rintro _ rfl
    refine (takes_accept_of_ne (hcomma ks)).bind ?_
    rintro _ rfl
    exact Takes.pure ⟨_, rfl, rfl⟩
  refine (htarget _).gathers ?_
  rintro _ rfl
  refine (takes_accept_of_ne (heq _)).gathers ?_
  rintro _ rfl
  refine takes_endTag.gathers fun _ _ => ?_
  refine (hbody _ _ ⟨"endset", by decide⟩ more d (by decide) (by decide) hfresh).bind ?_
  rintro ⟨ss, _⟩ ⟨rfl, hss⟩
  refine takes_endTag.gathers fun _ _ => Gathers.pure ?_
  rw [unplaced, unplacedAll_eq, hss]

theorem gathers_parseFiltered {first : FilterPhrase} {others : List FilterPhrase}
    (hbody : ReadBody n body) (hn : 2 * (Clause.filterWords first others).length + 2 ≤ n)
    (hfresh : d.Fresh (allTitles body)) (pos : Position) :
    Gathers (parseFiltered (rulesOf n) pos)
      (Facing ⟨.tag, (allFragments body).flatMap Fragment.shapes ++
        ((Fragment.tag ⟨"endfilter", by decide⟩ []).shapes ++ more)⟩
        (Clause.filterWords first others)) d
      (·.unplaced = .filtered .start ((first :: others).map FilterPhrase.call)
        (buildAll body d).1) (· = more) (buildAll body d).2 := by
  refine (takes_parseFilterCalls hn).gathers fun filters hfilters => ?_
  refine takes_endTag.gathers fun _ _ => ?_
  refine (hbody _ _ ⟨"endfilter", by decide⟩ more d (by decide) (by decide) hfresh).bind ?_
  rintro ⟨ss, _⟩ ⟨rfl, hss⟩
  refine takes_endTag.gathers fun _ _ => Gathers.pure ?_
  rw [unplaced, hfilters, unplacedAll_eq, hss]

end Stmt

end Stencil
