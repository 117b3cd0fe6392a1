import Stencil.Token.Lexer

/-!
Every step of the lexer takes something.

A lexeme is a nonempty span at the head of the source that is left, and what is left after it is the
rest.  So a source of `n` characters has at most `n` lexemes, and the number of steps that
`Scan.lexemes` is given is never what ends a stream.  This lets the other proofs about lexing speak
of chains of steps, without a count.
-/

namespace Stencil

open Stencil.Text Stencil.Token

/-! ## §1. Extents are positive -/

namespace Token

theorem wordsLength_pos {word : String} {more : List String} {cs : List Char} {n : Nat}
    (hword : word ≠ "") (h : wordsLength (word :: more) cs = some n) : 0 < n := by
  have hlength : 0 < word.toList.length := by
    rw [List.length_pos_iff]
    intro hnil
    exact hword (String.toList_eq_nil_iff.mp hnil)
  simp only [wordsLength] at h
  -- The first word is there, and what comes after it can only add to its length.
  split at h
  · generalize (if more.isEmpty = true then 0 else _) = gap at h
    split at h
    · cases h
    · obtain ⟨m, -, hm⟩ := Option.map_eq_some_iff.mp h
      omega
  · cases h

/-- An operator takes a character or more. -/
theorem operatorLength_pos {cs : List Char} {n : Nat} (h : operatorLength cs = some n) : 0 < n := by
  unfold operatorLength at h
  have hmem := List.max?_mem h
  -- The longest operator is a symbol or a sequence of words.
  rcases List.mem_append.mp hmem with hmem | hmem
  · obtain ⟨symbol, hsymbol, hn⟩ := List.mem_filterMap.mp hmem
    have hpos : ∀ symbol ∈ symbolOperators, 0 < symbol.toList.length := by decide
    unfold symbolLength at hn
    split at hn
    · cases hn
      exact hpos symbol hsymbol
    · cases hn
  · obtain ⟨words, hwords, hn⟩ := List.mem_filterMap.mp hmem
    have hhead : ∀ words ∈ wordOperators, words.head?.any (· != "") := by decide
    have hhead := hhead words hwords
    cases words with
    | nil => simp at hhead
    | cons word more => exact wordsLength_pos (by simpa using hhead) hn

end Token

theorem two_le_commentLength {cs : List Char} {n : Nat} (h : commentLength cs = some n) :
    2 ≤ n := by
  fun_induction commentLength cs generalizing n with
  | case1 => cases h
  | case2 => cases h; exact Nat.le_refl 2
  | case3 c cs _ ih =>
    obtain ⟨m, hm, rfl⟩ := Option.map_eq_some_iff.mp h
    have := ih hm
    omega

/-- Literal text in a string is empty only before what ends it. -/
theorem stringRunLength_pos {quote : Char} {cs : List Char} {n : Nat}
    (hquote : cs.head? ≠ some quote) (hopen : ¬ (quote = '"' ∧ ['#', '{'].isPrefixOf cs))
    (h : stringRunLength quote cs = some n) : 0 < n := by
  revert h
  fun_cases stringRunLength quote cs with
  | case1 => nofun
  | case2 => nofun
  | case3 c cs =>
    intro h
    obtain ⟨m, -, rfl⟩ := Option.map_eq_some_iff.mp h
    omega
  | case4 c cs _ _ hends =>
    -- The run would end at once, at the quote or at an interpolation, and both are excluded.
    exfalso
    simp only [Bool.or_eq_true, Bool.and_eq_true, beq_iff_eq] at hends
    rcases hends with rfl | ⟨⟨rfl, rfl⟩, hbrace⟩
    · exact hquote rfl
    · obtain ⟨cs, rfl⟩ := List.head?_eq_some_iff.mp hbrace
      exact hopen ⟨rfl, by simp⟩
  | case5 c cs =>
    intro h
    obtain ⟨m, -, rfl⟩ := Option.map_eq_some_iff.mp h
    omega

/-! ## §2. One step -/

namespace Scan

/-- What is taken is taken off the head of the source, and it is not nothing. -/
def Step.Consumes (rest : List Char) : Step → Prop
  | .lexeme found next => found.span ≠ [] ∧ found.span ++ next.rest = rest
  | .final _ => True

variable {s : Scan}

theorem take_ne_nil {α : Type} {n : Nat} {cs : List α} (hn : 0 < n) (hcs : cs ≠ []) :
    cs.take n ≠ [] := by
  intro h
  rcases List.take_eq_nil_iff.mp h with rfl | h
  · exact Nat.lt_irrefl 0 hn
  · exact hcs h

theorem consumes_emit {n : Nat} (hn : 0 < n) (hs : s.rest ≠ []) (kind : TokenKind) (value : String)
    (regions : List Region) : (s.emit kind value n regions).Consumes s.rest :=
  ⟨take_ne_nil hn hs, List.take_append_drop n s.rest⟩

theorem consumes_take {n : Nat} (hn : 0 < n) (hs : s.rest ≠ []) (kind : TokenKind)
    (regions : List Region) : (s.take kind n regions).Consumes s.rest :=
  consumes_emit hn hs kind _ regions

theorem consumes_takeOpener (hs : s.rest ≠ []) (kind : TokenKind) (region : Region) :
    (s.takeOpener kind region).Consumes s.rest := by
  unfold takeOpener
  refine consumes_emit (s := { s with trimNext := false }) ?_ hs kind _ _
  split <;> omega

theorem literalRun_append_drop (cs : List Char) :
    literalRun cs ++ cs.drop (literalRun cs).length = cs := by
  induction cs with
  | nil => rfl
  | cons c cs ih =>
    rw [literalRun]
    split
    · rfl
    · simp [ih]

theorem consumes_nextOutside (s : Scan) : s.nextOutside.Consumes s.rest := by
  unfold nextOutside
  split
  · trivial
  · next hs _ =>
    split
    · next n hn =>
      have := two_le_commentLength hn
      have hne : s.rest ≠ [] := by rw [hs]; simp
      exact ⟨take_ne_nil (by omega) hne, List.take_append_drop n s.rest⟩
    · trivial
  · next hs _ => exact consumes_takeOpener (by rw [hs]; simp) _ _
  · next hne _ _ => exact consumes_takeOpener hne _ _
  · next hrun _ _ => exact ⟨hrun, literalRun_append_drop s.rest⟩

theorem consumes_nextCloser (hs : s.rest ≠ []) (c : Char) (bracket : Bracket) (region : Region)
    (outer : List Region) : (s.nextCloser c bracket region outer).Consumes s.rest := by
  unfold nextCloser
  split
  · split
    · exact consumes_take Nat.one_pos hs _ _
    · trivial
  · split
    · exact consumes_take Nat.one_pos hs _ _
    · trivial
  · trivial

/-- A run of characters of a class is not empty where one stands first. -/
theorem takeWhile_length_pos {p : Char → Bool} {c : Char} {cs : List Char} (hc : p c = true) :
    0 < ((c :: cs).takeWhile p).length := by
  simp [hc]

theorem consumes_nextPlain {c : Char} {cs : List Char} (hs : s.rest = c :: cs) (region : Region)
    (outer : List Region) : (s.nextPlain c region outer).Consumes s.rest := by
  have hne : s.rest ≠ [] := by rw [hs]; exact List.cons_ne_nil c cs
  unfold nextPlain
  -- In the order of the lexer: an opening bracket, a closing one, quotes, marks, digits, names.
  split
  · exact consumes_take Nat.one_pos hne _ _
  · exact consumes_nextCloser hne _ _ _ _
  · split
    · exact consumes_take Nat.one_pos hne _ _
    · split
      · exact consumes_take Nat.one_pos hne _ _
      · split
        · next hdigit =>
          refine consumes_take ?_ hne _ _
          rw [hs]
          exact takeWhile_length_pos hdigit
        · split
          · next hname =>
            refine consumes_take ?_ hne _ _
            rw [hs]
            exact takeWhile_length_pos hname
          · trivial

/-- A delimiter that closes a region is a character or more. -/
theorem closing?_pos {region : Region} {cs : List Char} {kind : TokenKind} {n : Nat}
    {trims : Bool} (h : region.closing? cs = some (kind, n, trims)) : 0 < n := by
  unfold Region.closing? at h
  split at h
  · next kind' delimiter hdelimiter _ =>
    have hpos : 0 < delimiter.length := by
      cases region <;> cases hdelimiter <;> exact Nat.two_pos
    split at h
    · cases h
      exact hpos
    · split at h
      · cases h
        omega
      · cases h
  · cases h

theorem consumes_nextInside (s : Scan) (region : Region) (outer : List Region) :
    (s.nextInside region outer).Consumes s.rest := by
  unfold nextInside
  split
  · trivial
  · next c cs hs =>
    have hne : s.rest ≠ [] := by rw [hs]; exact List.cons_ne_nil c cs
    split
    · next hblank =>
      refine consumes_take ?_ hne _ _
      rw [hs]
      exact takeWhile_length_pos hblank
    · split
      · next kind n trims hclosing =>
        exact consumes_take (s := { s with trimNext := trims }) (closing?_pos hclosing) hne kind
          outer
      · split
        · trivial
        · split
          · next hoperator => exact consumes_emit (operatorLength_pos hoperator) hne _ _ _
          · exact consumes_nextPlain hs region outer

theorem consumes_nextInString (s : Scan) (quote : Char) (outer : List Region) :
    (s.nextInString quote outer).Consumes s.rest := by
  unfold nextInString
  split
  · next hclose =>
    refine consumes_take Nat.one_pos ?_ _ _
    intro hnil
    simp [hnil] at hclose
  · next hclose =>
    split
    · next hopen =>
      refine consumes_take Nat.two_pos ?_ _ _
      intro hnil
      simp [hnil] at hopen
    · next hopen =>
      split
      · next n hn =>
        have hpos : 0 < n :=
          stringRunLength_pos (by simpa using hclose) (by simpa using hopen) hn
        refine consumes_take hpos ?_ _ _
        intro hnil
        rw [hnil] at hn
        cases hn
      · trivial

/-- A step takes a span off the head of the source, and the span is not empty. -/
theorem consumes_next (s : Scan) : s.next.Consumes s.rest := by
  unfold next
  split
  · exact consumes_nextOutside s
  · exact consumes_nextInString s _ _
  · exact consumes_nextInside s _ _

theorem length_rest_lt {t : Scan} {found : Lexeme} (h : s.next = .lexeme found t) :
    t.rest.length < s.rest.length := by
  have hconsumes := consumes_next s
  rw [h] at hconsumes
  obtain ⟨hspan, hrest⟩ := hconsumes
  have := List.length_pos_iff.mpr hspan
  rw [← hrest, List.length_append]
  omega

/-! ## §3. Chains of steps -/

/-- Lexing gets from one state to another and leaves these tokens behind. -/
inductive Yields : Scan → List Token → Scan → Prop
  | refl (s : Scan) : Yields s [] s
  | step {s t u : Scan} {found : Lexeme} {tokens : List Token} :
      s.next = .lexeme found t → Yields t tokens u → Yields s (found.token.toList ++ tokens) u

namespace Yields

variable {t u : Scan} {ks ls : List Token}

theorem trans (hst : Yields s ks t) (htu : Yields t ls u) : Yields s (ks ++ ls) u := by
  induction hst with
  | refl => exact htu
  | step hnext _ ih =>
    rw [List.append_assoc]
    exact .step hnext (ih htu)

/-- The stream of a source is what a chain of steps up to its end yields. -/
theorem lexemes_eq {final : Token} (h : Yields s ks t) (hfinal : t.next = .final final) (n : Nat)
    (hn : s.rest.length < n) :
    (s.lexemes n).1.filterMap Lexeme.token = ks ∧ (s.lexemes n).2 = final := by
  -- One step for each lexeme, and one more for the end of the source.
  induction h generalizing n with
  | refl s =>
    obtain ⟨n, rfl⟩ : ∃ m, n = m + 1 := ⟨n - 1, by omega⟩
    simp [lexemes, hfinal]
  | @step s t u found tokens hnext _ ih =>
    obtain ⟨n, rfl⟩ : ∃ m, n = m + 1 := ⟨n - 1, by omega⟩
    have hlt := length_rest_lt hnext
    obtain ⟨htokens, hlast⟩ := ih hfinal n (by omega)
    rw [lexemes, hnext]
    refine ⟨?_, hlast⟩
    cases htoken : found.token with
    | none => simpa [htoken] using htokens
    | some token => simpa [htoken] using htokens

end Yields

/-- Lexing gets from one state to another and takes these lexemes. -/
inductive Steps : Scan → List Lexeme → Scan → Prop
  | refl (s : Scan) : Steps s [] s
  | step {s t u : Scan} {found : Lexeme} {more : List Lexeme} :
      s.next = .lexeme found t → Steps t more u → Steps s (found :: more) u

namespace Steps

variable {t : Scan} {found : List Lexeme}

/-- What was taken is gone from the source. -/
theorem rest_eq (h : Steps s found t) : s.rest = found.flatMap Lexeme.span ++ t.rest := by
  induction h with
  | refl => rfl
  | @step s t u found more hnext _ ih =>
    have hconsumes := consumes_next s
    rw [hnext] at hconsumes
    rw [List.flatMap_cons, List.append_assoc, ← ih, hconsumes.2]

/-- The lexemes of a source go on with those from a state that is reached. -/
theorem lexemes_eq (h : Steps s found t) {n : Nat} (hn : s.rest.length < n) :
    ∃ m, t.rest.length < m ∧
      s.lexemes n = (found ++ (t.lexemes m).1, (t.lexemes m).2) := by
  induction h generalizing n with
  | refl s => exact ⟨n, hn, rfl⟩
  | @step s t u found more hnext _ ih =>
    obtain ⟨n, rfl⟩ : ∃ m, n = m + 1 := ⟨n - 1, by omega⟩
    have hlt := length_rest_lt hnext
    obtain ⟨m, hm, hlexemes⟩ := ih (n := n) (by omega)
    refine ⟨m, hm, ?_⟩
    rw [lexemes, hnext]
    simp only [hlexemes, List.cons_append]

/-- What a step takes in a state that is reached is a lexeme of the source. -/
theorem exists_lexemes {source : String} {lexeme : Lexeme} (h : (start source).Steps found s)
    (hnext : s.next = .lexeme lexeme t) :
    ∃ later, (Stencil.lexemes source).1 = found ++ lexeme :: later := by
  obtain ⟨m, hm, hlexemes⟩ := h.lexemes_eq (Nat.lt_succ_self _)
  obtain ⟨m, rfl⟩ : ∃ k, m = k + 1 := ⟨m - 1, by omega⟩
  refine ⟨(t.lexemes m).1, (congrArg Prod.fst hlexemes).trans ?_⟩
  rw [lexemes, hnext]

/-- Where no step goes on the source is at its end. -/
theorem lexemes_of_final {source : String} {token : Token} (h : (start source).Steps found s)
    (hnext : s.next = .final token) : Stencil.lexemes source = (found, token) := by
  obtain ⟨m, hm, hlexemes⟩ := h.lexemes_eq (Nat.lt_succ_self _)
  obtain ⟨m, rfl⟩ : ∃ k, m = k + 1 := ⟨m - 1, by omega⟩
  refine hlexemes.trans ?_
  rw [lexemes, hnext, List.append_nil]

end Steps

/-- Lexing gets to a state where no step goes on. -/
theorem exists_steps_final (n : Nat) (s : Scan) (hn : s.rest.length < n) :
    ∃ t, Steps s (s.lexemes n).1 t ∧ t.next = .final (s.lexemes n).2 := by
  induction n generalizing s with
  | zero => exact absurd hn (Nat.not_lt_zero _)
  | succ n ih =>
    rw [lexemes]
    cases hnext : s.next with
    | final token => exact ⟨s, .refl s, hnext⟩
    | lexeme found next =>
      have hlt := length_rest_lt hnext
      obtain ⟨t, hsteps, hfinal⟩ := ih next (by omega)
      exact ⟨t, .step hnext hsteps, hfinal⟩

/-- Every lexeme is taken in a step that lexing gets to. -/
theorem exists_steps_of_mem (n : Nat) (s : Scan) {found : Lexeme}
    (hfound : found ∈ (s.lexemes n).1) :
    ∃ earlier, ∃ t u : Scan, Steps s earlier t ∧ t.next = .lexeme found u := by
  induction n generalizing s with
  | zero => cases hfound
  | succ n ih =>
    rw [lexemes] at hfound
    cases hnext : s.next with
    | final token =>
      rw [hnext] at hfound
      cases hfound
    | lexeme first next =>
      rw [hnext] at hfound
      rcases List.mem_cons.mp hfound with rfl | hfound
      · exact ⟨[], s, next, .refl s, hnext⟩
      · obtain ⟨earlier, t, u, hsteps, hstep⟩ := ih next hfound
        exact ⟨first :: earlier, t, u, .step hnext hsteps, hstep⟩

end Scan

end Stencil
