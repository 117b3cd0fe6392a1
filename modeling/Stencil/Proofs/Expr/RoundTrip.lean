import Stencil.Proofs.Expr.Operand
import Stencil.Template.Statement.Parser

/-!
Parsing inverts printing.

Every phrase, printed and parsed, is the tree that it means.  The proof goes through the forms of a
phrase once, from the inside out: what is known of the parts of a phrase, wherever they stand, gives
what happens to the phrase.

Recursion and loops of the parser are counted down.  A phrase of `n` words needs a count of
`2 * n + 2`, which a source of as many tokens provides.
-/

namespace Stencil

open Stencil.Text Stencil.Token Parse

variable {fin : Ending}

/-! ## §1. Operators -/

namespace Expr

variable {n : Nat}

/-- Where no operator follows, a climb ends with what it has. -/
theorem takes_noOperator {rest : List Word} (h : (leadOf fin rest).1 ≠ .operator) (minimum m : Nat)
    {left e : Expr} (hleft : left.unplaced = e) :
    Takes (iterate (climb n (parse n) minimum) (m + 1) left) (Facing fin rest) (·.unplaced = e)
      (Facing fin rest) := by
  apply Takes.done
  apply (takes_peek rest).bind
  intro token htoken
  have hkind : token.kind = (leadOf fin rest).1 := congrArg Prod.fst htoken
  rw [if_pos (by rw [hkind]; exact h)]
  exact Takes.pure ⟨_, rfl, hleft⟩

/-- An operand is read wherever it may be an operand of operators of any precedence. -/
theorem takes_atLeast {operand : Operand} (h : operand.Read n) (hn : operand.links < n)
    {rest : List Word} (hrest : Separate rest) (hend : (leadOf fin rest).1 ≠ .operator)
    (minimum : Nat) :
    Takes (parse (n + 1) (.atLeast minimum)) (Facing fin (operand.words ++ rest))
      (·.unplaced = operand.expr) (Facing fin rest) := by
  -- The one turn of the climb finds no operator.
  obtain ⟨m, rfl⟩ : ∃ m, n = m + 1 := ⟨n - 1, by omega⟩
  apply (h.takes hn hrest).bind
  intro e he
  exact takes_noOperator hend minimum m he

theorem ofSpelling?_binary (op : BinaryOp) : BinaryOp.ofSpelling? op.spelling = some op := by
  cases op <;> decide

theorem ofSpelling?_unary (op : UnaryOp) : UnaryOp.ofSpelling? op.spelling = some op := by
  cases op <;> decide

/-- An operator and its right operand. -/
theorem takes_binary (op : BinaryOp) (left : Expr) {right : Operand} {rest : List Word}
    (hright : Takes (parse n (.atLeast op.rightMinimum)) (Facing fin (right.words ++ rest))
      (·.unplaced = right.expr) (Facing fin rest)) :
    Takes (climb n (parse n) 0 left) (Facing fin (.binary op :: right.words ++ rest))
      (fun r => ∃ e, r = .more e ∧ e.unplaced = .binary .start op left.unplaced right.expr)
      (Facing fin rest) := by
  apply (takes_peek _).bind
  intro token htoken
  have hkind : token.kind = .operator := congrArg Prod.fst htoken
  have hvalue : token.value = op.spelling := congrArg Prod.snd htoken
  -- The operators of tests are not among the binary ones.
  have htest : (op.spelling == "is" || op.spelling == "is not") = false := by cases op <;> decide
  rw [if_neg (not_not_intro hkind), hvalue, htest, if_neg nofun, ofSpelling?_binary]
  -- The climb began with no precedence to be kept, so none is too low for it.
  show Takes (if op.precedence < 0 then _ else _) _ _ _
  rw [if_neg (Nat.not_lt_zero _)]
  refine (takes_word rfl _).bind fun _ _ => hright.bind fun e he => ?_
  exact Takes.pure ⟨_, rfl, by rw [unplaced, he]⟩

/-- The name and the arguments of a test. -/
theorem takes_parseTest (pos : Position) (subject : Expr) (first : PlainWord)
    (second : Option PlainWord) {args : List Phrase} (hargs : ∀ arg ∈ args, arg.Read n)
    (hn : args.length < n) (rest : List Word) :
    Takes (parseTest n (parse n) pos false subject)
      (Facing fin (.name first :: ((second.map Word.name).toList ++
        (enclosed .parens (commas (args.map Phrase.words)) ++ rest))))
      (·.unplaced = .test .start (testName first second) subject.unplaced (args.map Phrase.expr))
      (Facing fin rest) := by
  apply (takes_word rfl _).bind
  intro token htoken
  have hkind : token.kind = .name := congrArg Prod.fst htoken
  have hvalue : token.value = first.text := congrArg Prod.snd htoken
  extract_lets test named
  -- What is left of the test once its name is read, in one word or in two.
  have htest : ∀ name, name = testName first second → Takes (test name)
      (Facing fin (enclosed .parens (commas (args.map Phrase.words)) ++ rest))
      (·.unplaced = .test .start (testName first second) subject.unplaced (args.map Phrase.expr))
      (Facing fin rest) := by
    rintro _ rfl
    apply (takes_parseArgs? hargs hn rest).bind
    rintro _ ⟨es, rfl, hes⟩
    exact Takes.pure (by simp [unplaced, hes])
  rw [if_neg (not_not_intro hkind)]
  cases second with
  | none =>
    apply (takes_peek _).bind
    intro second hsecond
    have hsecond : second.kind = .parensOpen := congrArg Prod.fst hsecond
    rw [if_neg (by rw [hsecond]; decide)]
    exact htest _ hvalue
  | some second =>
    apply (takes_peek _).bind
    intro token' htoken'
    have hkind' : token'.kind = .name := congrArg Prod.fst htoken'
    have hvalue' : token'.value = second.text := congrArg Prod.snd htoken'
    rw [if_pos hkind']
    apply (takes_word rfl _).bind
    intro _ _
    exact htest _ (by rw [hvalue, hvalue', testName])

/-- A test. -/
theorem takes_test (left : Expr) (first : PlainWord) (second : Option PlainWord)
    {args : List Phrase} (hargs : ∀ arg ∈ args, arg.Read n) (hn : args.length < n)
    (rest : List Word) :
    Takes (climb n (parse n) 0 left)
      (Facing fin (.is :: .name first :: ((second.map Word.name).toList ++
        (enclosed .parens (commas (args.map Phrase.words)) ++ rest))))
      (fun r => ∃ e, r = .more e ∧ e.unplaced =
        .test .start (testName first second) left.unplaced (args.map Phrase.expr))
      (Facing fin rest) := by
  apply (takes_peek _).bind
  intro token htoken
  have hkind : token.kind = .operator := congrArg Prod.fst htoken
  have hvalue : token.value = "is" := congrArg Prod.snd htoken
  have his : ("is" == "is" || "is" == "is not") = true := by decide
  have hplain : ("is" == "is not") = false := by decide
  rw [if_neg (not_not_intro hkind), hvalue, if_pos his, if_neg (Nat.not_lt_zero _), hplain]
  apply (takes_word rfl _).bind
  intro _ _
  apply (takes_parseTest token.position left first second hargs hn rest).bind
  intro e he
  exact Takes.pure ⟨e, rfl, he⟩

/-- An operand and one operator after it, with all that belongs to the operator. -/
theorem takes_climb {operand : Operand} {e : Expr} {after rest : List Word}
    (hoperand : operand.Read n) (hlinks : operand.links < n) (hn : 2 ≤ n) (hafter : Separate after)
    (hfirst : ∀ left : Expr, left.unplaced = operand.expr →
      Takes (climb n (parse n) 0 left) (Facing fin after)
        (fun r => ∃ e', r = .more e' ∧ e'.unplaced = e) (Facing fin rest))
    (hrest : (leadOf fin rest).1 ≠ .operator) :
    Takes (parse (n + 1) (.atLeast 0)) (Facing fin (operand.words ++ after)) (·.unplaced = e)
      (Facing fin rest) := by
  -- Two turns: the operator, and the one that finds no further operator.
  obtain ⟨m, rfl⟩ : ∃ m, n = m + 2 := ⟨n - 2, by omega⟩
  apply (hoperand.takes hlinks hafter).bind
  intro left hleft
  apply (hfirst left hleft).more
  intro e' he'
  exact takes_noOperator hrest 0 m he'

/-- A prefix operator and its operand. -/
theorem takes_unary (op : UnaryOp) {operand : Operand} {rest : List Word} (hn : 1 ≤ n)
    (hoperand : Takes (parse n (.atLeast op.precedence)) (Facing fin (operand.words ++ rest))
      (·.unplaced = operand.expr) (Facing fin rest))
    (hrest : (leadOf fin rest).1 ≠ .operator) :
    Takes (parse (n + 1) (.atLeast 0)) (Facing fin (.unary op :: operand.words ++ rest))
      (·.unplaced = .unary .start op operand.expr) (Facing fin rest) := by
  obtain ⟨m, rfl⟩ : ∃ m, n = m + 1 := ⟨n - 1, by omega⟩
  have hunary : Takes (parseOperand (m + 1) (parse (m + 1)))
      (Facing fin (.unary op :: operand.words ++ rest))
      (·.unplaced = .unary .start op operand.expr) (Facing fin rest) := by
    apply (takes_peek _).bind
    intro token htoken
    have hkind : token.kind = .operator := congrArg Prod.fst htoken
    have hvalue : token.value = op.spelling := congrArg Prod.snd htoken
    rw [if_pos hkind, hvalue, ofSpelling?_unary]
    refine (takes_word rfl _).bind fun _ _ => hoperand.bind fun e he => ?_
    exact Takes.pure (by rw [unplaced, he])
  -- No operator is left for the climb after the operand.
  apply hunary.bind
  intro e he
  exact takes_noOperator hrest 0 m he

/-! ## §2. Conditionals -/

/-- No conditional. -/
theorem takes_unconditional {P : List (TokenKind × String) → Prop} {rest : List Word} {e : Expr}
    (h : Takes (parse (n + 1) (.atLeast 0)) P (·.unplaced = e) (Facing fin rest))
    (hrest : leadOf fin rest ≠ (.punctuation, "?")) :
    Takes (parse (n + 2) .any) P (·.unplaced = e) (Facing fin rest) := by
  refine h.bind fun e' he' => (takes_accept_of_ne hrest).bind ?_
  rintro _ rfl
  exact Takes.pure he'

theorem takes_conditional {cond : Operand} {whenTrue whenFalse : Phrase} {rest : List Word}
    (hcond : Takes (parse (n + 1) (.atLeast 0))
      (Facing fin (cond.words ++ (.mark '?' (by decide) :: (whenTrue.words ++
        (.mark ':' (by decide) :: (whenFalse.words ++ rest))))))
      (·.unplaced = cond.expr)
      (Facing fin (.mark '?' (by decide) :: (whenTrue.words ++
        (.mark ':' (by decide) :: (whenFalse.words ++ rest))))))
    (htrue : whenTrue.Read (n + 1)) (hfalse : whenFalse.Read (n + 1)) (hrest : EndsPhrase rest) :
    Takes (parse (n + 2) .any)
      (Facing fin (cond.words ++ (.mark '?' (by decide) :: (whenTrue.words ++
        (.mark ':' (by decide) :: (whenFalse.words ++ rest))))))
      (·.unplaced = .conditional .start cond.expr whenTrue.expr whenFalse.expr)
      (Facing fin rest) := by
  refine hcond.bind fun e he => (takes_accept (.mark '?' (by decide)) rfl _).bind ?_
  rintro _ rfl
  apply (htrue (.mark ':' _ :: _) rfl).bind
  intro e₁ he₁
  extract_lets conditional
  apply (takes_accept (.mark ':' (by decide)) rfl _).bind
  rintro _ rfl
  apply (hfalse rest hrest).bind
  intro e₂ he₂
  exact Takes.pure (by rw [unplaced, he, he₁, he₂])

end Expr

/-! ## §3. All phrases -/

mutual

theorem Operand.read : (operand : Operand) → ∀ n, 2 * operand.words.length ≤ n → operand.Read n
  | .name name => fun n _ => .primary rfl fun rest hrest => Expr.takes_name name hrest
  | .null => fun n _ => .primary rfl fun rest _ => Expr.takes_null rest
  | .bool value => fun n _ => .primary rfl fun rest _ => Expr.takes_bool value rest
  | .number whole fraction => fun n _ => .primary rfl fun rest _ =>
    Expr.takes_number whole fraction rest
  | .string text => fun n hn => .primary rfl fun rest _ => Expr.takes_string hn text rest
  | .call function args => by
    intro n hn
    simp only [Operand.words, Phrase.allWords_eq, List.length_cons] at hn
    have hcount : 2 * (enclosed .parens (commas (args.map Phrase.words))).length ≤ n := by omega
    obtain ⟨hargs, hlength⟩ := count_phrases hcount
    refine .primary rfl fun rest _ => ?_
    simp only [Operand.words, Operand.expr, Phrase.allWords_eq, Phrase.exprs_eq]
    exact Expr.takes_call function (Phrase.readAll args n hargs) hlength rest
  | .group inner => by
    intro n hn
    simp only [Operand.words, length_enclosed] at hn
    exact .primary rfl fun rest _ => Expr.takes_group (inner.read n (by omega)) rest
  | .array items => by
    intro n hn
    simp only [Operand.words, Phrase.allWords_eq] at hn
    obtain ⟨hitems, hlength⟩ := count_phrases hn
    refine .primary rfl fun rest _ => ?_
    simp only [Operand.words, Operand.expr, Phrase.allWords_eq, Phrase.exprs_eq]
    exact Expr.takes_array (Phrase.readAll items n hitems) hlength rest
  | .hash entries => by
    intro n hn
    simp only [Operand.words, Phrase.entryWords_eq] at hn
    obtain ⟨hentries, hlength⟩ := count_entries hn
    have htwo : 2 ≤ n := by
      rw [length_enclosed] at hn
      omega
    refine .primary rfl fun rest _ => ?_
    simp only [Operand.words, Operand.expr, Phrase.entryWords_eq, Phrase.entryExprs_eq]
    exact Expr.takes_hash htwo (Phrase.readEntries entries n hentries) hlength rest
  | .attribute object word => by
    intro n hn
    simp only [Operand.words, List.length_append] at hn
    refine (object.read n (by omega)).link rfl rfl (fun _ => nofun) fun e rest he hrest => ?_
    rw [Operand.expr, ← he]
    exact Expr.takes_attribute e word hrest
  | .subscript object key => by
    intro n hn
    simp only [Operand.words, List.length_append, length_enclosed] at hn
    refine (object.read n (by omega)).link rfl rfl (fun _ => nofun) fun e rest he _ => ?_
    rw [Operand.expr, ← he]
    exact Expr.takes_subscript e (key.read n (by omega)) rest
  | .method object word args => by
    intro n hn
    simp only [Operand.words, Phrase.allWords_eq, List.length_append, List.length_cons] at hn
    have hcount : 2 * (enclosed .parens (commas (args.map Phrase.words))).length ≤ n := by omega
    obtain ⟨hargs, hlength⟩ := count_phrases hcount
    refine (object.read n (by omega)).link rfl rfl (fun _ => nofun) fun e rest he _ => ?_
    simp only [Operand.expr, ← he, Phrase.allWords_eq, Phrase.exprs_eq]
    exact Expr.takes_method e word (Phrase.readAll args n hargs) hlength rest
  | .filter subject name => by
    intro n hn
    simp only [Operand.words, List.length_append] at hn
    refine (subject.read n (by omega)).link rfl rfl (fun _ => nofun) fun e rest he hrest => ?_
    rw [Operand.expr, ← he]
    refine Expr.takes_bar e name ((Expr.takes_parseArgs?_none hrest).mono ?_)
    rintro _ rfl
    rfl
  | .filterCall subject name args => by
    intro n hn
    simp only [Operand.words, Phrase.allWords_eq, List.length_append, List.length_cons] at hn
    have hcount : 2 * (enclosed .parens (commas (args.map Phrase.words))).length ≤ n := by omega
    obtain ⟨hargs, hlength⟩ := count_phrases hcount
    refine (subject.read n (by omega)).link rfl rfl (fun _ => nofun) fun e rest he _ => ?_
    simp only [Operand.expr, ← he, Phrase.allWords_eq, Phrase.exprs_eq]
    refine Expr.takes_bar e name
      ((Expr.takes_parseArgs? (Phrase.readAll args n hargs) hlength rest).mono ?_)
    rintro _ ⟨es, rfl, hes⟩
    exact hes

theorem Phrase.read : (phrase : Phrase) → ∀ n, 2 * phrase.words.length + 2 ≤ n → phrase.Read n
  | .operand operand => by
    intro n hn fin rest hrest
    obtain ⟨m, rfl⟩ : ∃ m, n = m + 2 := ⟨n - 2, by omega⟩
    simp only [Phrase.words] at hn
    have hlinks := operand.links_lt
    have hoperand := Expr.takes_atLeast (operand.read m (by omega)) (by omega) hrest.separate
      (hrest.leadOf fin).1 0
    exact Expr.takes_unconditional hoperand (hrest.leadOf fin).2
  | .unary op operand => by
    intro n hn fin rest hrest
    simp only [Phrase.words, List.length_cons] at hn
    obtain ⟨m, rfl⟩ : ∃ m, n = m + 3 := ⟨n - 3, by omega⟩
    have hlinks := operand.links_lt
    have hoperand := Expr.takes_atLeast (operand.read m (by omega)) (by omega) hrest.separate
      (hrest.leadOf fin).1 op.precedence
    exact Expr.takes_unconditional (Expr.takes_unary op (by omega) hoperand (hrest.leadOf fin).1)
      (hrest.leadOf fin).2
  | .binary op left right => by
    intro n hn fin rest hrest
    simp only [Phrase.words, List.length_append, List.length_cons] at hn
    obtain ⟨m, rfl⟩ : ∃ m, n = m + 3 := ⟨n - 3, by omega⟩
    have hlinks := left.links_lt
    have hlinks' := right.links_lt
    have hright := Expr.takes_atLeast (right.read m (by omega)) (by omega) hrest.separate
      (hrest.leadOf fin).1 op.rightMinimum
    refine Expr.takes_unconditional ?_ (hrest.leadOf fin).2
    rw [Phrase.words, List.append_assoc]
    refine Expr.takes_climb (left.read (m + 1) (by omega)) (by omega) (by omega) rfl
      (fun e he => ?_) (hrest.leadOf fin).1
    rw [Phrase.expr, ← he]
    exact Expr.takes_binary op e hright
  | .test subject first second args => by
    intro n hn fin rest hrest
    obtain ⟨m, rfl⟩ : ∃ m, n = m + 2 := ⟨n - 2, by omega⟩
    simp only [Phrase.words, Phrase.allWords_eq, List.length_append, List.length_cons] at hn
    have hcount : 2 * (enclosed .parens (commas (args.map Phrase.words))).length ≤ m := by omega
    obtain ⟨hargs, hlength⟩ := count_phrases hcount
    have hlinks := subject.links_lt
    refine Expr.takes_unconditional ?_ (hrest.leadOf fin).2
    simp only [Phrase.words, Phrase.expr, Phrase.allWords_eq, Phrase.exprs_eq]
    rw [List.append_assoc, List.append_assoc]
    refine Expr.takes_climb (subject.read m (by omega)) (by omega) (by omega) ?_
      (fun e he => ?_) (hrest.leadOf fin).1
    · exact rfl
    · rw [← he]
      exact Expr.takes_test e first second (Phrase.readAll args m hargs) hlength rest
  | .conditional cond whenTrue whenFalse => by
    intro n hn fin rest hrest
    obtain ⟨m, rfl⟩ : ∃ m, n = m + 2 := ⟨n - 2, by omega⟩
    simp only [Phrase.words, List.length_append, List.length_cons] at hn
    have hlinks := cond.links_lt
    simp only [Phrase.words, Phrase.expr, List.append_assoc, List.cons_append]
    refine Expr.takes_conditional
      (Expr.takes_atLeast (cond.read m (by omega)) (by omega) ?_ ?_ 0)
      (whenTrue.read (m + 1) (by omega)) (whenFalse.read (m + 1) (by omega)) hrest
    · exact rfl
    · exact nofun

theorem Key.read : (key : Key) → ∀ n, 2 * key.words.length ≤ n → key.Read n
  | .string _ => fun _ _ => nofun
  | .number _ _ => fun _ _ => nofun
  | .group inner => by
    intro n hn inner' h
    cases h
    simp only [Key.words, length_enclosed] at hn
    exact inner.read n (by omega)

theorem Phrase.readAll : (phrases : List Phrase) → ∀ n,
    (∀ phrase ∈ phrases, 2 * phrase.words.length + 2 ≤ n) → ∀ phrase ∈ phrases, phrase.Read n
  | [] => fun _ _ => nofun
  | phrase :: phrases => fun n hn => List.forall_mem_cons.mpr
    ⟨phrase.read n (hn phrase List.mem_cons_self),
      Phrase.readAll phrases n fun p hp => hn p (List.mem_cons_of_mem _ hp)⟩

theorem Phrase.readEntries : (entries : List (Key × Phrase)) → ∀ n,
    (∀ entry ∈ entries, 2 * entry.1.words.length ≤ n ∧ 2 * entry.2.words.length + 2 ≤ n) →
      ∀ entry ∈ entries, entry.1.Read n ∧ entry.2.Read n
  | [] => fun _ _ => nofun
  | (key, value) :: entries => fun n hn => List.forall_mem_cons.mpr
    ⟨⟨key.read n (hn _ List.mem_cons_self).1, value.read n (hn _ List.mem_cons_self).2⟩,
      Phrase.readEntries entries n fun entry hentry => hn entry (List.mem_cons_of_mem _ hentry)⟩

end

/-! ## §4. A template that prints a phrase -/

/-- A phrase at the end of a print or of a tag. -/
theorem Phrase.Read.last {n : Nat} {phrase : Phrase} (h : phrase.Read n) {fin : Ending} :
    Takes (Expr.parse n .any) (Facing fin phrase.words) (·.unplaced = phrase.expr)
      (Facing fin []) := by
  have hread : Takes (Expr.parse n .any) (Facing fin (phrase.words ++ [])) _ _ := h [] rfl
  rwa [List.append_nil] at hread

namespace Stmt

/-- The end of a print or of a tag. -/
theorem takes_closer (fin : Ending) :
    Takes (expect [fin.fence.closeShape.1]) (Facing fin []) (fun _ => True) (· = fin.more) := by
  apply (takes_nextSolid []).bind
  intro token htoken
  have hkind : token.kind = fin.fence.closeShape.1 := congrArg Prod.fst htoken
  rw [hkind, if_pos (by simp)]
  exact Takes.pure trivial

/-- A piece of a body that is a print of some expression. -/
theorem takes_printed (rules : Rules) {ks more : List (TokenKind × String)} {e : Expr}
    (hexpr : Takes rules.expr (· = ks) (·.unplaced = e) (Facing ⟨.print, more⟩ []))
    (stops : List String) (opening : Option Opening) (before : List Stmt) :
    Takes (parsePiece rules stops opening before) (· = (.printOpen, "\x7b\x7b") :: ks)
      (fun r => ∃ pos e', r = .more (.print pos e' :: before) ∧ e'.unplaced = e) (· = more) := by
  apply (takes_next (.printOpen, "\x7b\x7b") _ nofun).bind
  intro token htoken
  have hkind : token.kind = .printOpen := congrArg Prod.fst htoken
  simp only [hkind]
  refine hexpr.bind fun e he => (takes_closer ⟨.print, more⟩).bind fun _ _ => ?_
  exact Takes.pure ⟨_, _, rfl, he⟩

/-- A piece of a body that is a print of a phrase. -/
theorem takes_print (rules : Rules) {phrase : Phrase} {n : Nat} (hphrase : phrase.Read n)
    (hrules : rules.expr = Expr.parse n .any) (stops : List String) (opening : Option Opening)
    (before : List Stmt) (more : List (TokenKind × String)) :
    Takes (parsePiece rules stops opening before)
      (· = (.printOpen, "\x7b\x7b") :: blankShape :: ahead ⟨.print, more⟩ phrase.words)
      (fun r => ∃ pos e, r = .more (.print pos e :: before) ∧ e.unplaced = phrase.expr)
      (· = more) := by
  -- A print has a blank after its delimiter, which a parser of expressions passes.
  refine takes_printed rules ?_ stops opening before
  rw [hrules]
  exact hphrase.last.of_blank

/-- At the end of the source a body that is not in a tag ends. -/
theorem run_parsePiece_eof (rules : Rules) (stops : List String) (before : List Stmt)
    {s : ParseState} (hs : s.cursor.shapes = []) (hfinal : s.cursor.final.kind = .eof) :
    ∃ c, (parsePiece rules stops none before).run s =
      .ok (.done ⟨before.reverse, none⟩, { s with cursor := c }) := by
  have hupcoming : s.cursor.upcoming = [] := List.map_eq_nil_iff.mp hs
  have hnext : s.cursor.next.1 = s.cursor.final := by
    rw [Cursor.next, hupcoming]
  have hrun : (consume Cursor.next).run s = _ :=
    run_consume (by rw [hnext, hfinal]; decide)
  refine ⟨s.cursor.next.2, ?_⟩
  rw [parsePiece, next, run_bind_ok hrun, hnext]
  dsimp only
  rw [hfinal]
  rfl

/-- A body that is a print of some expression and nothing else. -/
theorem run_printed {n : Nat} {ks : List (TokenKind × String)} {e : Expr}
    (hexpr : Takes (Expr.parse (n + 2) .any) (· = ks) (·.unplaced = e) (Facing .lastPrint []))
    {s : ParseState} (hs : s.cursor.shapes = (.printOpen, "\x7b\x7b") :: ks)
    (hfinal : s.cursor.final.kind = .eof) :
    ∃ pos e' c, (parseBody (n + 3) [] none).run s =
      .ok (⟨[.print pos e'], none⟩, { s with cursor := c }) ∧ e'.unplaced = e := by
  let rules : Rules := ⟨n + 2, Expr.parse (n + 2) .any, parseBody (n + 2)⟩
  -- The print is the first piece of the body, and the end of the source is the second.
  obtain ⟨_, c, hprint, hc, hshapes, pos, e', rfl, he⟩ :=
    takes_printed rules hexpr [] none [] s hs
  obtain ⟨d, hend⟩ := run_parsePiece_eof rules [] [.print pos e'] (s := { s with cursor := c })
    hshapes (by rw [← hfinal, ← hc])
  refine ⟨pos, e', d, ?_, he⟩
  show (iterate (parsePiece rules [] none) (n + 2) []).run s = _
  rw [run_iterate_more hprint]
  exact run_iterate_done hend

/-- A body that is a print of a phrase and nothing else. -/
theorem run_parseBody {phrase : Phrase} {n : Nat} (hphrase : phrase.Read (n + 2)) {s : ParseState}
    (hs : s.cursor.shapes = (.printOpen, "\x7b\x7b") :: blankShape :: ahead .lastPrint phrase.words)
    (hfinal : s.cursor.final.kind = .eof) :
    ∃ pos e c, (parseBody (n + 3) [] none).run s =
      .ok (⟨[.print pos e], none⟩, { s with cursor := c }) ∧ e.unplaced = phrase.expr :=
  run_printed hphrase.last.of_blank hs hfinal

end Stmt

theorem length_le_ahead_of (fin : Ending) (words : List Word) :
    words.length ≤ (ahead fin words).length := by
  induction words with
  | nil => exact Nat.zero_le _
  | cons word words ih =>
    rw [ahead, Word.shapes_eq, List.length_append, List.length_cons, List.length_cons,
      List.length_cons]
    omega

theorem length_le_ahead (words : List Word) :
    words.length ≤ (ahead .lastPrint words).length :=
  length_le_ahead_of .lastPrint words

/-- A phrase printed and parsed is a template that prints the tree of the phrase, up to the places
of its nodes. -/
theorem Template.parse_text (phrase : Phrase) (name : String) :
    ∃ pos e, Template.parse name phrase.text =
        .ok ⟨name, none, [.print pos e], [], [], [], []⟩ ∧ e.unplaced = phrase.expr := by
  obtain ⟨htokens, hfinal⟩ := lex_printed (phrase.closed_words [])
  change (lex phrase.text).tokens.map Token.shape = _ at htokens
  change (lex phrase.text).final.kind = .eof at hfinal
  rw [List.cons_append, ← closeShape, shapesOf_append_close] at htokens
  have hlength : phrase.words.length ≤ (lex phrase.text).tokens.length := by
    have := congrArg List.length htokens
    rw [List.length_map, List.length_cons, List.length_cons] at this
    have := length_le_ahead phrase.words
    omega
  -- The body, the expression and its first operand each take one off the count.
  obtain ⟨n, hn⟩ : ∃ n, parseDepth (lex phrase.text).tokens.length = n + 3 :=
    ⟨parseDepth (lex phrase.text).tokens.length - 3, by unfold parseDepth; omega⟩
  have hphrase := phrase.read (n + 2) (by unfold parseDepth at hn; omega)
  obtain ⟨pos, e, c, hbody, he⟩ :=
    Stmt.run_parseBody (s := Parse.startState (lex phrase.text)) hphrase htokens hfinal
  refine ⟨pos, e, ?_, he⟩
  rw [Template.parse, Template.parseWithin, hn, hbody]
  rfl

example :
    (Phrase.test (.attribute (.name ⟨⟨"page", by decide⟩, by decide +kernel⟩) ⟨"number", by decide⟩)
      ⟨"divisible", by decide⟩ (some ⟨"by", by decide⟩)
      [.operand (.number ⟨"3", by decide, by decide⟩ none)]).text =
      "\x7b\x7b page . number is divisible by ( 3 ) \x7d\x7d" := by
  decide +kernel

end Stencil
