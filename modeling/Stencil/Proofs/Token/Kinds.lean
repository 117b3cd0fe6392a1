import Stencil.Proofs.Token.Choices
import Mathlib.Data.List.Chain

/-!
Which tokens a stream consists of.

No token but the last one ends a stream.  An interpolation is opened where the source says so, and
what comes after the text of a string is never more text of it: a run of text goes as far as it can.
-/

namespace Stencil

open Stencil.Token

namespace Scan

variable {s t u : Scan} {found more : Lexeme} {token : Token}

/-! ## §1. One step -/

/-- What closes a region is what is said to close it. -/
theorem delimiter_of_closing? {region : Region} {cs : List Char} {kind : TokenKind} {n : Nat}
    {trims : Bool} (h : region.closing? cs = some (kind, n, trims)) :
    ∃ delimiter, region.delimiter? = some (kind, delimiter) := by
  unfold Region.closing? at h
  split at h
  · next delimiter hdelimiter _ =>
    split at h
    · cases h
      exact ⟨_, hdelimiter⟩
    · split at h <;> cases h
      exact ⟨_, hdelimiter⟩
  · cases h

/-- A stream ends with the end of the source or with an error. -/
theorem isFinal_of_next (h : s.next = .final token) : token.kind.isFinal = true := by
  have hchoice := s.choice_next
  rw [h] at hchoice
  cases hchoice <;> rfl

/-- What is known of a step that leaves a token behind. -/
structure Gives (s t : Scan) (token : Token) : Prop where
  isFinal : token.kind.isFinal = false
  opens : token.kind = .interpolateOpen → ['#', '{'] <+: s.rest
  text : token.kind = .stringText → ∃ quote outer n, s.regions = .string quote :: outer ∧
    stringRunLength quote s.rest = some n ∧ t.regions = s.regions ∧ t.rest = s.rest.drop n
  operator : token.kind = .operator → ∃ n, operatorLength s.rest = some n ∧
    token.value = operatorValue (s.rest.take n) ∧ t.rest = s.rest.drop n
  plain : token.kind ∈ plainKinds → ∃ n, s.Reaches token.kind n ∧
    token.value = .ofList (s.rest.take n) ∧ t.rest = s.rest.drop n

theorem gives_of_next (h : s.next = .lexeme found t) (htoken : found.token = some token) :
    s.Gives t token := by
  have hchoice := s.choice_next
  rw [h] at hchoice
  generalize hstep : Step.lexeme found t = step at hchoice
  cases hchoice with
  | atEnd | failed => cases hstep
  | comment =>
    cases hstep
    cases htoken
  | text =>
    cases hstep
    obtain ⟨-, heq⟩ := Option.ite_none_left_eq_some.mp htoken
    cases heq
    exact ⟨rfl, nofun, nofun, nofun, nofun⟩
  | @plain region outer kind n hs hcode hkind hreaches =>
    cases hstep
    cases htoken
    simp only [plainKinds, List.mem_cons, List.not_mem_nil, or_false] at hkind
    rcases hkind with rfl | rfl | rfl | rfl <;>
      exact ⟨rfl, nofun, nofun, nofun, fun _ => ⟨n, hreaches, rfl, rfl⟩⟩
  | operator _ _ hoperator =>
    cases hstep
    cases htoken
    exact ⟨rfl, nofun, nofun, fun _ => ⟨_, hoperator, rfl, rfl⟩, nofun⟩
  | @closes region outer kind n trims hs hclosing =>
    cases hstep
    cases htoken
    obtain ⟨delimiter, hdelimiter⟩ := delimiter_of_closing? hclosing
    cases region <;> cases hdelimiter <;> exact ⟨rfl, nofun, nofun, nofun, nofun⟩
  | opensBracket bracket =>
    cases hstep
    cases htoken
    cases bracket <;> exact ⟨rfl, nofun, nofun, nofun, nofun⟩
  | @closesBracket region outer bracket =>
    cases hstep
    cases htoken
    cases bracket <;> exact ⟨rfl, nofun, nofun, nofun, nofun⟩
  | opensInterpolation hs hrest =>
    cases hstep
    cases htoken
    refine ⟨rfl, fun _ => ?_, nofun, nofun, nofun⟩
    rw [hrest]
    exact ⟨_, rfl⟩
  | stringText hs hlength =>
    cases hstep
    cases htoken
    exact ⟨rfl, nofun, fun _ => ⟨_, _, _, hs, hlength, rfl, rfl⟩, nofun, nofun⟩
  | tag | print | closesInterpolation | opensString | closesString =>
    cases hstep
    cases htoken
    exact ⟨rfl, nofun, nofun, nofun, nofun⟩

/-- Literal text in a string ends before the quote or before an interpolation. -/
theorem drop_stringRunLength {quote : Char} {cs : List Char} {n : Nat}
    (h : stringRunLength quote cs = some n) :
    (cs.drop n).head? = some quote ∨ quote = '"' ∧ ['#', '{'] <+: cs.drop n := by
  fun_induction stringRunLength quote cs generalizing n with
  | case1 | case2 => cases h
  | case3 c cs ih =>
    obtain ⟨m, hm, rfl⟩ := Option.map_eq_some_iff.mp h
    exact ih hm
  | case4 c cs _ _ hends =>
    cases h
    simp only [Bool.or_eq_true, Bool.and_eq_true, beq_iff_eq] at hends
    rcases hends with rfl | ⟨⟨rfl, rfl⟩, hbrace⟩
    · exact .inl rfl
    · obtain ⟨more, rfl⟩ := List.head?_eq_some_iff.mp hbrace
      exact .inr ⟨rfl, more, rfl⟩
  | case5 c cs _ _ _ ih =>
    obtain ⟨m, hm, rfl⟩ := Option.map_eq_some_iff.mp h
    exact ih hm

/-- After literal text in a string comes the token that it ends before. -/
theorem token_after_text (h : s.Gives t token) (hkind : token.kind = .stringText)
    (hnext : t.next = .lexeme found u) :
    ∃ token', found.token = some token' ∧ token'.kind ≠ .stringText := by
  obtain ⟨quote, outer, n, hs, hlength, hregions, hrest⟩ := h.text hkind
  have hnext' : t.next = t.nextInString quote outer := by
    unfold next
    rw [hregions, hs]
  rw [hnext', nextInString] at hnext
  rcases drop_stringRunLength hlength with hquote | ⟨rfl, hopens⟩
  · rw [← hrest] at hquote
    rw [if_pos (by rw [hquote]; exact beq_self_eq_true _)] at hnext
    cases hnext
    exact ⟨_, rfl, nofun⟩
  · rw [← hrest, ← List.isPrefixOf_iff_prefix] at hopens
    split at hnext
    · cases hnext
      exact ⟨_, rfl, nofun⟩
    · rw [if_pos (by rw [hopens]; rfl)] at hnext
      cases hnext
      exact ⟨_, rfl, nofun⟩

/-! ## §2. Streams -/

/-- What holds of no tokens, and wherever it holds after a step, holds of the tokens of a source
whether or not it is read to its end. -/
theorem tokens_induction {motive : Scan → List Token → Prop} (last : ∀ s, motive s [])
    (more : ∀ s found t rest, s.next = .lexeme found t → motive t rest →
      motive s (found.token.toList ++ rest))
    (n : Nat) (s : Scan) : motive s ((s.lexemes n).1.filterMap Lexeme.token) := by
  induction n generalizing s with
  | zero => exact last s
  | succ n ih =>
    rw [lexemes]
    cases hnext : s.next with
    | final => exact last s
    | lexeme found t =>
      have hmore := more s found t _ hnext (ih t)
      cases htoken : found.token with
      | none => simpa [htoken] using hmore
      | some token => simpa [htoken] using hmore

/-- Every token of a stream is left behind by a step. -/
theorem exists_gives (n : Nat) (s : Scan) :
    ∀ token ∈ (s.lexemes n).1.filterMap Lexeme.token,
      ∃ t u, t.rest <:+ s.rest ∧ Gives t u token := by
  refine tokens_induction (motive := fun s tokens => ∀ token ∈ tokens,
    ∃ t u, t.rest <:+ s.rest ∧ Gives t u token) (fun _ => nofun) ?_ n s
  intro s found t rest hnext ih token hmem
  rcases List.mem_append.mp hmem with hmem | hmem
  · exact ⟨s, t, List.suffix_refl _, gives_of_next hnext (Option.mem_toList.mp hmem)⟩
  · obtain ⟨t', u, hsuffix, hgives⟩ := ih token hmem
    have hconsumes := consumes_next s
    rw [hnext] at hconsumes
    exact ⟨t', u, hsuffix.trans ⟨found.span, hconsumes.2⟩, hgives⟩

/-- Literal text in a string comes after something else. -/
theorem isChain_text (n : Nat) (s : Scan) :
    ((s.lexemes n).1.filterMap Lexeme.token).IsChain fun token token' =>
      token.kind = .stringText → token'.kind ≠ .stringText := by
  -- A state behind the text of a string does not go on with text.
  let Behind (s : Scan) : Prop := ∃ r token, Gives r s token ∧ token.kind = .stringText
  refine (tokens_induction (motive := fun s tokens => tokens.IsChain _ ∧
    (Behind s → ∀ token ∈ tokens.head?, token.kind ≠ .stringText))
    (fun s => ⟨.nil, fun _ => nofun⟩) ?_ n s).1
  intro s found t rest hnext ⟨hchain, hfirst⟩
  cases htoken : found.token with
  | none =>
    refine ⟨hchain, fun ⟨r, token, hgives, hkind⟩ => ?_⟩
    obtain ⟨token', htoken', -⟩ := token_after_text hgives hkind hnext
    rw [htoken] at htoken'
    cases htoken'
  | some token =>
    have hgives := gives_of_next hnext htoken
    refine ⟨List.isChain_cons.mpr ⟨fun token' hmem hkind => ?_, hchain⟩, ?_⟩
    · exact hfirst ⟨s, token, hgives, hkind⟩ token' hmem
    · rintro ⟨r, earlier, hearlier, hkind⟩ token' hmem
      obtain ⟨token'', htoken', hne⟩ := token_after_text hearlier hkind hnext
      rw [htoken] at htoken'
      cases htoken'
      cases hmem
      exact hne

end Scan

/-- Every stream has such an end. -/
theorem isFinal_lex (source : String) : (lex source).final.kind.isFinal = true := by
  have hlexemes : ∀ n s, (Scan.lexemes n s).2.kind.isFinal = true := by
    intro n
    induction n with
    | zero => exact fun s => rfl
    | succ n ih =>
      intro s
      rw [Scan.lexemes]
      cases hstep : s.next with
      | lexeme found t => exact ih t
      | final token => exact s.isFinal_of_next hstep
  exact hlexemes (source.toList.length + 1) (.start source)

/-- No token before the last one ends a stream. -/
theorem isFinal_of_mem_lex {source : String} {token : Token} (h : token ∈ (lex source).tokens) :
    token.kind.isFinal = false := by
  obtain ⟨t, u, -, hgives⟩ :=
    Scan.exists_gives (source.toList.length + 1) (.start source) token h
  exact hgives.isFinal

end Stencil
