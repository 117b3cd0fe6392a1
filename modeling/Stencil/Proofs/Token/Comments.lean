import Stencil.Proofs.Token.Places

/-!
Where comments end.

A comment reaches from its opener to the first closer in the source, and leaves no token.  The
closer is looked for from the opener on, which shares a character with it: where a brace comes right
after the opener, the two of them overlap and the comment is `{#}`, whatever comes later.
Everywhere else the comment ends with the first closer that comes after the whole opener, and if
there is none the source is broken off at the opener.
-/

namespace Stencil

open Stencil.Text Stencil.Token

/-! ## §1. The first closer -/

/-- What comes before and after the first closer of comments in a text. -/
structure FirstCloser (cs body after : List Char) : Prop where
  text : cs = body ++ '#' :: '}' :: after
  first : ∀ body' after', cs = body' ++ '#' :: '}' :: after' → body.length ≤ body'.length

theorem FirstCloser.eq {cs body after body' after' : List Char} (h : FirstCloser cs body after)
    (h' : FirstCloser cs body' after') : body = body' ∧ after = after' := by
  have hlength : body.length = body'.length :=
    Nat.le_antisymm (h.first _ _ h'.text) (h'.first _ _ h.text)
  obtain ⟨hbody, hafter⟩ := List.append_inj (h.text.symm.trans h'.text) hlength
  exact ⟨hbody, (List.cons.inj (List.cons.inj hafter).2).2⟩

/-- A closer is found, or one before it. -/
theorem exists_commentLength (body after : List Char) :
    ∃ n, commentLength (body ++ '#' :: '}' :: after) = some n ∧ n ≤ body.length + 2 := by
  induction body with
  | nil => exact ⟨2, rfl, le_refl _⟩
  | cons c body ih =>
    obtain ⟨n, hn, hle⟩ := ih
    rw [List.cons_append]
    generalize body ++ '#' :: '}' :: after = cs at hn ⊢
    unfold commentLength
    split
    · rename_i heq
      cases heq
    · exact ⟨2, rfl, by simp⟩
    · rename_i heq
      cases heq
      exact ⟨n + 1, by rw [hn]; rfl, by rw [List.length_cons]; omega⟩

theorem firstCloser_of_commentLength {cs : List Char} {n : Nat} (h : commentLength cs = some n) :
    ∃ body, FirstCloser cs body (cs.drop n) ∧ cs.take n = body ++ ['#', '}'] := by
  obtain ⟨body, hbody, hspan, rfl⟩ := exists_of_commentLength h
  refine ⟨body, ⟨?_, fun body' after' htext => ?_⟩, hspan⟩
  · have hsplit := List.take_append_drop (body.length + 2) cs
    rw [hspan, List.append_assoc] at hsplit
    exact hsplit.symm
  · obtain ⟨n, hn, hle⟩ := exists_commentLength body' after'
    rw [← htext, h] at hn
    cases hn
    omega

theorem commentLength_eq_none_iff {cs : List Char} :
    commentLength cs = none ↔ ∀ body after, cs ≠ body ++ '#' :: '}' :: after := by
  constructor
  · rintro hnone body after rfl
    obtain ⟨n, hn, -⟩ := exists_commentLength body after
    rw [hnone] at hn
    cases hn
  · intro h
    cases hlength : commentLength cs with
    | none => rfl
    | some n =>
      obtain ⟨body, hfirst, -⟩ := firstCloser_of_commentLength hlength
      exact absurd hfirst.text (h _ _)

/-- The closer is looked for from the opener on. -/
theorem commentLength_opener (cs : List Char) :
    commentLength ('{' :: '#' :: cs) =
      if cs.head? = some '}' then some 3 else (commentLength cs).map (· + 2) := by
  cases cs with
  | nil => rfl
  | cons c cs =>
    by_cases hc : c = '}'
    · subst hc
      rfl
    · rw [if_neg (by simpa using hc), commentLength, commentLength, Option.map_map]
      · rfl
      · simp_all
      · simp

/-! ## §2. Comments in a source -/

/-- What an opener outside of all regions stands for, after the lexemes before it: a comment up to
the first closer in the text after the opener, or the end of the stream if there is none. -/
structure BeginsComment (source : String) (before : List Lexeme) (cs : List Char) : Prop where
  /-- The comment has no token, and every token shows its own part of the source. -/
  closed : ∀ body after, FirstCloser cs body after → ∃ later,
    (lexemes source).1 = before ++ ⟨'{' :: '#' :: (body ++ ['#', '}']), none⟩ :: later ∧
    ∀ lexeme ∈ before ++ later, ∀ token ∈ lexeme.token, ∃ rest, token.Shows lexeme.span rest
  unclosed : (∀ body after, cs ≠ body ++ '#' :: '}' :: after) → lexemes source =
    (before, ⟨.error, "unclosed comment", Position.start.past (before.flatMap Lexeme.span)⟩)

namespace Scan

variable {source : String} {before : List Lexeme} {s : Scan} {cs : List Char} {n : Nat}

/-- Every token shows its own part of the source. -/
theorem shows_of_mem {lexeme : Lexeme} {token : Token} (hlexeme : lexeme ∈ (lexemes n s).1)
    (htoken : lexeme.token = some token) : ∃ rest, token.Shows lexeme.span rest := by
  obtain ⟨-, t, u, -, hnext⟩ := exists_steps_of_mem n s hlexeme
  exact ⟨t.rest, shows_of_next hnext htoken⟩

/-- An opener leads to a search for the closer. -/
theorem next_opener (hregions : s.regions = []) (hrest : s.rest = '{' :: '#' :: cs) :
    s.next = ((commentLength s.rest).map s.takeComment).getD (s.fail "unclosed comment") := by
  have hrun : literalRun s.rest = [] := by
    rw [hrest]
    rfl
  have hnext : s.next = s.nextOutside := by rw [next, hregions]
  rw [hnext, nextOutside, hrun, hrest]
  cases commentLength ('{' :: '#' :: cs) <;> rfl

variable (hsteps : (start source).Steps before s) (hregions : s.regions = [])
  (hrest : s.rest = '{' :: '#' :: cs)

include hsteps hregions hrest

/-- A comment that is closed is a lexeme without a token. -/
theorem exists_lexemes_of_closed (hlength : commentLength s.rest = some n) :
    ∃ later, (Stencil.lexemes source).1 = before ++ ⟨s.rest.take n, none⟩ :: later := by
  have hnext := next_opener hregions hrest
  rw [hlength] at hnext
  exact hsteps.exists_lexemes hnext

/-- Where a brace comes right after the opener, that is the comment. -/
theorem exists_lexemes_of_overlap (hbrace : cs.head? = some '}') :
    ∃ later, (Stencil.lexemes source).1 = before ++ ⟨['{', '#', '}'], none⟩ :: later := by
  obtain ⟨more, rfl⟩ := List.head?_eq_some_iff.mp hbrace
  have hlength : commentLength s.rest = some 3 := by rw [hrest, commentLength_opener, if_pos hbrace]
  obtain ⟨later, hlexemes⟩ := exists_lexemes_of_closed hsteps hregions hrest hlength
  rw [hrest] at hlexemes
  exact ⟨later, hlexemes⟩

/-- Otherwise the comment reaches to the first closer after the opener. -/
theorem beginsComment_of_head (hbrace : cs.head? ≠ some '}') : BeginsComment source before cs := by
  have hlength : commentLength s.rest = (commentLength cs).map (· + 2) := by
    rw [hrest, commentLength_opener, if_neg hbrace]
  refine ⟨fun body after hfirst => ?_, fun hopen => ?_⟩
  · cases hcs : commentLength cs with
    | none => exact absurd hfirst.text (commentLength_eq_none_iff.mp hcs body after)
    | some n =>
      obtain ⟨body', hfirst', hspan⟩ := firstCloser_of_commentLength hcs
      obtain ⟨rfl, -⟩ := hfirst.eq hfirst'
      rw [hcs] at hlength
      obtain ⟨later, hlexemes⟩ := exists_lexemes_of_closed hsteps hregions hrest hlength
      rw [hrest, List.take_succ_cons, List.take_succ_cons, hspan] at hlexemes
      refine ⟨later, hlexemes, fun lexeme hlexeme token htoken => ?_⟩
      refine shows_of_mem (n := source.toList.length + 1) (s := start source) ?_ htoken
      show lexeme ∈ (Stencil.lexemes source).1
      rw [hlexemes]
      simp only [List.mem_append, List.mem_cons] at hlexeme ⊢
      exact hlexeme.imp_right .inr
  · have hnext := next_opener hregions hrest
    rw [hlength, commentLength_eq_none_iff.mpr hopen] at hnext
    have hlexemes := hsteps.lexemes_of_final hnext
    rw [hlexemes, hsteps.position_eq]
    rfl

end Scan

/-- **Where a comment ends.**  At an opener that lexing gets to outside of all regions, a comment
begins that ends with the first closer after the opener, or the source is broken off, exactly if no
brace comes right after the opener.  If one does, the comment is the opener and that brace. -/
theorem beginsComment_iff {source : String} {before : List Lexeme} {s : Scan} {cs : List Char}
    (hsteps : (Scan.start source).Steps before s) (hregions : s.regions = [])
    (hrest : s.rest = '{' :: '#' :: cs) :
    (BeginsComment source before cs ↔ cs.head? ≠ some '}') ∧
      (cs.head? = some '}' →
        ∃ later, (lexemes source).1 = before ++ ⟨['{', '#', '}'], none⟩ :: later) := by
  refine ⟨⟨fun h hbrace => ?_, Scan.beginsComment_of_head hsteps hregions hrest⟩,
    Scan.exists_lexemes_of_overlap hsteps hregions hrest⟩
  obtain ⟨later, hlexemes⟩ := Scan.exists_lexemes_of_overlap hsteps hregions hrest hbrace
  -- The comment would be longer, or there would be none.
  cases hlength : commentLength cs with
  | none =>
    rw [h.unclosed (commentLength_eq_none_iff.mp hlength)] at hlexemes
    simp at hlexemes
  | some n =>
    obtain ⟨body, hfirst, -⟩ := firstCloser_of_commentLength hlength
    obtain ⟨later', hlexemes', -⟩ := h.closed body _ hfirst
    rw [hlexemes', List.append_cancel_left_eq] at hlexemes
    obtain ⟨hspan, -⟩ := List.cons.inj hlexemes
    have hshort := congrArg (List.length ∘ Lexeme.span) hspan
    simp at hshort

/-- In the first source the text after the brace is not hidden; in the second one it is. -/
theorem beginsComment_iff_overlap :
    ¬ BeginsComment "\x7b#\x7d hidden #\x7dx" [] "\x7d hidden #\x7dx".toList ∧
      BeginsComment "\x7b# \x7d hidden #\x7dx" [] " \x7d hidden #\x7dx".toList := by
  constructor
  · rw [(beginsComment_iff (.refl _) rfl rfl).1]
    decide
  · rw [(beginsComment_iff (.refl _) rfl rfl).1]
    decide

end Stencil
