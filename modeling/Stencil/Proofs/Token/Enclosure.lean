import Stencil.Proofs.Token.Coverage
import Stencil.Proofs.Token.Nesting
import Stencil.Proofs.Token.Respacing
import Stencil.Proofs.Expr.Lexing
import Mathlib.Data.List.TakeWhile

/-!
The same code in a print and in an interpolation.

A print is closed by two braces and an interpolation by one.  Where a blank stands before the
braces, no lexeme of the code before it reaches over it, so that the lexer does the same in both
until it comes to the closing brace.  Only where the code itself closes the print it is different:
then more text comes after the print, and the source has text or another print in it.
-/

namespace Stencil

open Stencil.Text Stencil.Token

/-! ## §1. Code before a closing brace -/

/-- A text that is empty or ends with a blank. -/
def BlankEnd (cs : List Char) : Prop :=
  ∀ c ∈ cs.getLast?, isBlank c = true

theorem isBlank_brace : isBlank '}' = false := rfl

namespace BlankEnd

variable {before rest : List Char}

theorem nil : BlankEnd [] :=
  nofun

theorem concat (cs : List Char) : BlankEnd (cs ++ [' ']) := by
  intro c hc
  rw [List.getLast?_concat] at hc
  cases hc
  rfl

theorem of_suffix (h : BlankEnd before) {cs : List Char} (hsuffix : cs <:+ before) :
    BlankEnd cs := by
  obtain ⟨front, rfl⟩ := hsuffix
  intro c hc
  apply h
  rw [List.getLast?_append, Option.mem_def.mp hc]
  rfl

/-- A text that is not empty and ends with a blank has it as its last character. -/
theorem exists_concat (h : BlankEnd before) (hne : before ≠ []) :
    ∃ front b, before = front ++ [b] ∧ isBlank b = true := by
  obtain ⟨front, b, rfl⟩ := (List.eq_nil_or_concat' before).resolve_left hne
  exact ⟨front, b, rfl, h b (by simp)⟩

/-- A text without blanks that begins here ends before the last blank. -/
theorem isPrefixOf (h : BlankEnd before) (hne : before ≠ []) {ds : List Char}
    (hds : ∀ c ∈ ds, isBlank c = false) (rest : List Char) :
    ds.isPrefixOf (before ++ rest) = ds.isPrefixOf before := by
  obtain ⟨front, b, rfl, hb⟩ := h.exists_concat hne
  have hcut : ∀ more, ds.isPrefixOf (front ++ b :: more) = ds.isPrefixOf front := fun _ =>
    isPrefixOf_cut hds hb
  rw [List.append_assoc, List.singleton_append, hcut, hcut]

/-- So does a run of characters that are no blanks. -/
theorem takeWhile (h : BlankEnd before) (hne : before ≠ []) {p : Char → Bool}
    (hp : ∀ c, p c = true → isBlank c = false) (rest : List Char) :
    (before ++ rest).takeWhile p = before.takeWhile p := by
  obtain ⟨front, b, rfl, hb⟩ := h.exists_concat hne
  have hcut : ∀ more, (front ++ b :: more).takeWhile p = front.takeWhile p := fun _ =>
    takeWhile_cut hp hb
  rw [List.append_assoc, List.singleton_append, hcut, hcut]

end BlankEnd

/-- A run of blanks ends before a brace. -/
theorem takeWhile_isBlank_brace (before rest : List Char) :
    (before ++ '}' :: rest).takeWhile isBlank = before.takeWhile isBlank := by
  induction before with
  | nil => simp [isBlank_brace]
  | cons c before ih => cases hc : isBlank c <;> simp [hc, ih]

section Operators

variable {before : List Char} (h : BlankEnd before) (rest : List Char)

include h

theorem symbolLength_brace {symbol : String} (hsymbol : IsWord symbol)
    (hhead : symbol.toList.head?.any (· != '}')) :
    symbolLength symbol (before ++ '}' :: rest) = symbolLength symbol before ∧
      ∀ n ∈ symbolLength symbol before, n ≤ before.length := by
  constructor
  · by_cases hne : before = []
    · obtain ⟨c, cs, hcs⟩ := List.exists_cons_of_ne_nil hsymbol.1
      subst hne
      rw [List.nil_append, symbolLength_of_head hhead rfl, symbolLength, hcs]
      rfl
    · rw [symbolLength, symbolLength, h.isPrefixOf hne hsymbol.2]
  · intro n hn
    unfold symbolLength at hn
    split at hn
    · next hprefix =>
      cases hn
      exact (List.isPrefixOf_iff_prefix.mp hprefix).length_le
    · cases hn

theorem wordsLength_brace {words : List String}
    (hwords : ∀ word ∈ words, IsWord word ∧ word.toList.head?.any (· != '}')) :
    wordsLength words (before ++ '}' :: rest) = wordsLength words before ∧
      ∀ n ∈ wordsLength words before, n ≤ before.length := by
  induction words generalizing before with
  | nil =>
    have hcontinues : continuesName (before ++ '}' :: rest) = continuesName before := by
      cases before with
      | nil => exact (by decide +kernel : isNameChar '}' = false)
      | cons => rfl
    rw [wordsLength, wordsLength, hcontinues]
    refine ⟨rfl, fun n hn => ?_⟩
    split at hn <;> cases hn
    exact Nat.zero_le _
  | cons word more ih =>
    obtain ⟨⟨hword, hhead⟩, hmore⟩ := List.forall_mem_cons.mp hwords
    by_cases hne : before = []
    · obtain ⟨c, cs, hcs⟩ := List.exists_cons_of_ne_nil hword.1
      subst hne
      have hnone : wordsLength (word :: more) [] = none := by
        rw [wordsLength, hcs]
        rfl
      rw [List.nil_append, wordsLength_of_head (p := (· != '}')) (by simpa using hhead) rfl, hnone]
      exact ⟨rfl, by simp⟩
    · rw [wordsLength, wordsLength, h.isPrefixOf hne hword.2]
      by_cases hprefix : word.toList.isPrefixOf before = true
      · obtain ⟨before, rfl⟩ := List.isPrefixOf_iff_prefix.mp hprefix
        have hbefore := h.of_suffix (List.suffix_append word.toList before)
        simp only [if_pos hprefix, List.append_assoc, List.drop_left, takeWhile_isBlank_brace]
        -- The words after this one begin behind the gap.
        generalize hgap : (if more.isEmpty then 0 else (before.takeWhile isBlank).length) = gap
        have hle : gap ≤ before.length := by
          rw [← hgap]
          split
          · exact Nat.zero_le _
          · exact (List.takeWhile_prefix _).length_le
        obtain ⟨heq, hlength⟩ := ih (hbefore.of_suffix (List.drop_suffix gap before)) hmore
        rw [List.drop_append_of_le_length hle, heq]
        refine ⟨rfl, fun n hn => ?_⟩
        split at hn
        · cases hn
        · obtain ⟨k, hk, rfl⟩ := Option.map_eq_some_iff.mp hn
          have := hlength k hk
          simp only [List.length_drop, List.length_append] at this ⊢
          omega
      · rw [if_neg hprefix, if_neg hprefix]
        exact ⟨rfl, by simp⟩

/-- The brace does not take part in an operator before it. -/
theorem operatorLength_brace :
    operatorLength (before ++ '}' :: rest) = operatorLength before ∧
      ∀ n ∈ operatorLength before, n ≤ before.length := by
  have hsymbols : ∀ symbol ∈ symbolOperators, symbol.toList ≠ [] ∧
      symbol.toList.any isBlank = false ∧ symbol.toList.head?.any (· != '}') := by decide
  have hheads : ∀ words ∈ wordOperators, ∀ word ∈ words,
      word.toList.head?.any (· != '}') := by decide
  have hsymbol : ∀ symbol ∈ symbolOperators, _ := fun symbol hmem =>
    symbolLength_brace h rest
      ⟨(hsymbols symbol hmem).1, not_blank_of_any (hsymbols symbol hmem).2.1⟩
      (hsymbols symbol hmem).2.2
  have hwords : ∀ words ∈ wordOperators, _ := fun words hmem =>
    wordsLength_brace h rest fun word hword =>
      ⟨isWord_of_operator hmem hword, hheads words hmem word hword⟩
  constructor
  · rw [operatorLength, operatorLength,
      List.filterMap_congr fun symbol hmem => (hsymbol symbol hmem).1,
      List.filterMap_congr fun words hmem => (hwords words hmem).1]
  · intro n hn
    rcases List.mem_append.mp (List.max?_mem hn) with hn | hn
    · obtain ⟨symbol, hmem, hn⟩ := List.mem_filterMap.mp hn
      exact (hsymbol symbol hmem).2 n hn
    · obtain ⟨words, hmem, hn⟩ := List.mem_filterMap.mp hn
      exact (hwords words hmem).2 n hn

end Operators

/-- Literal text in a string does not end at braces, and does not end after them if nothing else
comes. -/
theorem stringRunLength_brace {quote : Char} (hquote : quote ≠ '}') {before : List Char} {n : Nat}
    (h : stringRunLength quote (before ++ ['}', '}']) = some n) (rest : List Char) :
    stringRunLength quote (before ++ '}' :: rest) = some n ∧ n ≤ before.length := by
  have hbrace : ('}' == quote) = false := beq_eq_false_iff_ne.mpr hquote.symm
  -- Whether an interpolation begins with the last character does not show, as no brace that opens
  -- one comes after it.
  have hcons : ∀ {c : Char}, c ≠ '\\' → ∀ cs more,
      stringRunLength quote (c :: (cs ++ '}' :: more)) =
      if c == quote || (quote == '"' && c == '#' && cs.head? == some '{') then some 0
      else (stringRunLength quote (cs ++ '}' :: more)).map (· + 1) := by
    intro c hc cs more
    have hhead : ((cs ++ '}' :: more).head? == some '{') = (cs.head? == some '{') := by
      cases cs <;> simp
    rw [stringRunLength, hhead]
    · exact fun h => absurd h hc
    · exact fun _ _ h => absurd h hc
  have hplain : ∀ {c : Char} {cs : List Char}, (c = '\\' → cs = [] → False) →
      (∀ d ds, c = '\\' → cs = d :: ds → False) → c ≠ '\\' := by
    intro c cs hnil hmore hc
    cases cs with
    | nil => exact hnil hc rfl
    | cons d ds => exact hmore d ds hc rfl
  fun_induction stringRunLength quote before generalizing n with
  | case1 => simp [stringRunLength, hbrace] at h
  | case2 => simp [stringRunLength, hbrace] at h
  | case3 c cs ih =>
    simp only [List.cons_append, stringRunLength] at h ⊢
    obtain ⟨m, hm, rfl⟩ := Option.map_eq_some_iff.mp h
    obtain ⟨hrest, hlength⟩ := ih hm
    rw [hrest]
    exact ⟨rfl, by simpa using hlength⟩
  | case4 c cs hnil hmore hends =>
    rw [List.cons_append, hcons (hplain hnil hmore), if_pos hends] at h ⊢
    exact ⟨h, by cases h; exact Nat.zero_le _⟩
  | case5 c cs hnil hmore hends ih =>
    rw [List.cons_append, hcons (hplain hnil hmore), if_neg hends] at h ⊢
    obtain ⟨m, hm, rfl⟩ := Option.map_eq_some_iff.mp h
    obtain ⟨hrest, hlength⟩ := ih hm
    rw [hrest]
    exact ⟨rfl, by simpa using hlength⟩

/-! ## §2. Sources that are read to their end -/

namespace Scan

/-- The lexemes from a state on, where the source is read to its end. -/
inductive Finishes : Scan → List Lexeme → Prop
  | last {s : Scan} {token : Token} : s.next = .final token → token.kind = .eof → Finishes s []
  | more {s t : Scan} {found : Lexeme} {rest : List Lexeme} : s.next = .lexeme found t →
      Finishes t rest → Finishes s (found :: rest)

variable {s t : Scan} {found : Lexeme} {rest : List Lexeme} {previous : Option Lexeme}

/-- Where nothing is left of a source, nothing is open. -/
theorem Finishes.regions_eq_nil (h : Finishes s rest) (hs : s.rest = []) : s.regions = [] := by
  cases h with
  | last hnext hkind =>
    have hchoice := choice_next s
    rw [hnext] at hchoice
    generalize hstep : Step.final _ = step at hchoice
    cases hchoice with
    | atEnd hregions => exact hregions
    | failed =>
      cases hstep
      cases hkind
    | _ => cases hstep
  | more hnext =>
    have hlt := length_rest_lt hnext
    simp [hs] at hlt

/-- What closes a region is the first part of the text, and has at least two characters. -/
theorem exists_of_closing? {region : Region} {cs : List Char} {kind : TokenKind} {n : Nat}
    {trims : Bool} (h : region.closing? cs = some (kind, n, trims)) :
    ∃ delimiter, region.delimiter? = some (kind, delimiter) ∧ region.brackets = [] ∧
      (cs.take n = delimiter ∨ cs.take n = '-' :: delimiter) ∧ 2 ≤ n ∧ n ≤ cs.length := by
  unfold Region.closing? at h
  split at h
  · next kind' delimiter hdelimiter hbrackets =>
    have htwo : delimiter.length = 2 := by cases region <;> cases hdelimiter <;> rfl
    split at h
    · next hprefix =>
      cases h
      have hprefix := List.isPrefixOf_iff_prefix.mp hprefix
      exact ⟨_, hdelimiter, hbrackets, .inl (List.prefix_iff_eq_take.mp hprefix).symm,
        Nat.le_of_eq htwo.symm, hprefix.length_le⟩
    · split at h
      · next hprefix =>
        cases h
        have hprefix := List.isPrefixOf_iff_prefix.mp hprefix
        exact ⟨_, hdelimiter, hbrackets, .inr (List.prefix_iff_eq_take.mp hprefix).symm,
          by omega, hprefix.length_le⟩
      · cases h
  · cases h

/-- A text of which a closing brace is the last character, and one before it if there is any. -/
def EndsBraces (cs : List Char) : Prop :=
  ∃ front, cs = front ++ ['}'] ∧ ∀ c ∈ front.getLast?, c = '}'

theorem EndsBraces.of_suffix {cs ds : List Char} (h : EndsBraces cs) (hsuffix : ds <:+ cs)
    (hds : ds ≠ []) : EndsBraces ds := by
  obtain ⟨front, rfl, hfront⟩ := h
  obtain ⟨start, hstart⟩ := hsuffix
  obtain ⟨ds, d, rfl⟩ := (List.eq_nil_or_concat' ds).resolve_left hds
  rw [← List.append_assoc] at hstart
  obtain ⟨rfl, rfl⟩ := List.append_singleton_inj.mp hstart
  refine ⟨ds, rfl, fun c hc => hfront c ?_⟩
  rw [List.getLast?_append, Option.mem_def.mp hc]
  rfl

/-- What ends with another character before a brace does not end with two. -/
theorem not_endsBraces (cs : List Char) {c : Char} (hc : c ≠ '}') :
    ¬ EndsBraces (cs ++ [c, '}']) := by
  rintro ⟨front, heq, hfront⟩
  rw [show cs ++ [c, '}'] = (cs ++ [c]) ++ ['}'] by simp] at heq
  obtain ⟨rfl, -⟩ := List.append_singleton_inj.mp heq
  exact hc (hfront c (by simp))

/-- The last lexeme of a source that ends with braces is text or closes a print. -/
theorem token_of_last (hs : Grounded s.regions) (hnext : s.next = .lexeme found t)
    (hregions : t.regions = []) (hrest : t.rest = []) (hends : EndsBraces s.rest) :
    ∃ token, found.token = some token ∧ (token.kind = .text ∨ token.kind = .printClose) := by
  have hall : ∀ n, s.rest.drop n = [] → s.rest.take n = s.rest := fun n hn =>
    List.take_of_length_le (List.drop_eq_nil_iff.mp hn)
  have hchoice := choice_next s
  rw [hnext] at hchoice
  generalize hstep : Step.lexeme found t = step at hchoice
  cases hchoice with
  | atEnd | failed => cases hstep
  | @comment cs n hs' hcs hlength =>
    cases hstep
    obtain ⟨body, -, hspan, -⟩ := exists_of_commentLength hlength
    rw [hall n hrest] at hspan
    rw [hspan] at hends
    exact absurd hends (not_endsBraces body (by decide))
  | text hs' hrun =>
    -- All that is left is text, and its last character is no blank.
    have hdrop : s.rest.drop (literalRun s.rest).length = [] := by
      unfold takeText at hstep
      cases hstep
      exact hrest
    have hwhole := literalRun_append_drop s.rest
    rw [hdrop, List.append_nil] at hwhole
    have hmark : (s.rest.drop (s.rest.length + 2)).head? = none := by simp
    obtain ⟨front, hfront, -⟩ := hends
    have hbrace : '}' ∈ s.rest := by simp [hfront]
    have htrimmed : trimStart s.rest ≠ [] := fun hnil =>
      absurd (List.dropWhile_eq_nil_iff.mp hnil _ hbrace) (by decide)
    have htext : (if s.trimNext then trimStart s.rest else s.rest).isEmpty = false := by
      split <;> simp [htrimmed, List.ne_nil_of_mem hbrace]
    rw [hwhole, takeText, hmark] at hstep
    cases hstep
    refine ⟨_, if_neg ?_, .inl rfl⟩
    simpa using htext
  | tag | print =>
    cases hstep
    cases hregions
  | @plain _ _ _ _ hs' | operator hs' | stringText hs' =>
    cases hstep
    have hnil : s.regions = [] := hregions
    rw [hs'] at hnil
    cases hnil
  | @closes region outer kind n trims hs' hclosing =>
    cases hstep
    obtain ⟨delimiter, hdelimiter, -, hspan, -, -⟩ := exists_of_closing? hclosing
    rw [hall n hrest] at hspan
    refine ⟨_, rfl, .inr ?_⟩
    cases region with
    | print => exact (Prod.mk.inj (Option.some.inj hdelimiter)).1.symm
    | tag =>
      cases hdelimiter
      rcases hspan with hspan | hspan <;> rw [hspan] at hends
      · exact absurd hends (not_endsBraces [] (by decide))
      · exact absurd hends (not_endsBraces ['-'] (by decide))
    | interpolation | string => cases hdelimiter
  | opensBracket | closesBracket | opensString | opensInterpolation =>
    cases hstep
    cases hregions
  | closesInterpolation hs' | closesString hs' =>
    cases hstep
    rw [hs'] at hs
    exact absurd hregions (hs.ne_nil rfl)

/-- A source that ends with braces has text or the end of a print. -/
theorem Finishes.exists_token (h : Finishes s rest) (hs : s.Follows previous)
    (hends : EndsBraces s.rest) :
    ∃ token ∈ rest.filterMap Lexeme.token, token.kind = .text ∨ token.kind = .printClose := by
  induction h generalizing previous with
  | last hnext hkind =>
    obtain ⟨front, hfront, -⟩ := hends
    rw [rest_eq_nil_of_final hnext hkind] at hfront
    simp at hfront
  | @more s t found rest hnext hrest ih =>
    have hconsumes := consumes_next s
    rw [hnext] at hconsumes
    by_cases hnil : t.rest = []
    · obtain ⟨token, htoken, hkind⟩ :=
        token_of_last hs.grounded hnext (hrest.regions_eq_nil hnil) hnil hends
      exact ⟨token, List.mem_filterMap.mpr ⟨found, List.mem_cons_self, htoken⟩, hkind⟩
    · obtain ⟨token, hmem, hkind⟩ := ih (taken_next hs hnext).follows
        (hends.of_suffix ⟨found.span, hconsumes.2⟩ hnil)
      obtain ⟨more, hmore, htoken⟩ := List.mem_filterMap.mp hmem
      exact ⟨token, List.mem_filterMap.mpr ⟨more, List.mem_cons_of_mem _ hmore, htoken⟩, hkind⟩

/-- A step closes one thing at most, and two characters close a tag or a print. -/
theorem length_frames_le (hs : Grounded s.regions) (hnext : s.next = .lexeme found t) :
    (framesOf s.regions).length ≤ (framesOf t.regions).length + 1 ∧
      (s.regions ≠ [] → t.regions = [] → 2 ≤ s.rest.length) := by
  have hchoice := choice_next s
  rw [hnext] at hchoice
  generalize hstep : Step.lexeme found t = step at hchoice
  cases hchoice with
  | atEnd | failed => cases hstep
  | comment hs' | tag hs' | print hs' | text hs' =>
    rw [hs']
    exact ⟨Nat.zero_le _, fun hne => absurd rfl hne⟩
  | @plain _ _ _ _ hs' | operator hs' | stringText hs' =>
    cases hstep
    exact ⟨Nat.le_succ _, fun hne hnil => absurd hnil hne⟩
  | @closes region outer kind n trims hs' hclosing =>
    have ht : t.regions = outer := by
      cases hstep
      rfl
    obtain ⟨_, -, -, -, htwo, hle⟩ := exists_of_closing? hclosing
    rw [ht, hs', framesOf_cons, frames_of_closing? hclosing]
    exact ⟨Nat.le_refl _, fun _ _ => Nat.le_trans htwo hle⟩
  | @opensBracket region outer bracket hs' hcode =>
    cases hstep
    rw [hs', framesOf_cons, framesOf_cons, Region.frames_withBrackets hcode, Region.frames]
    refine ⟨?_, by simp⟩
    simp
    omega
  | @closesBracket region outer bracket brackets hs' hcode hbrackets =>
    cases hstep
    rw [hs', framesOf_cons, framesOf_cons, Region.frames_withBrackets hcode, Region.frames,
      hbrackets]
    refine ⟨?_, by simp⟩
    simp
  | @closesInterpolation outer hs' | @closesString _ outer hs' =>
    have ht : t.regions = outer := by
      cases hstep
      rfl
    rw [hs'] at hs ⊢
    rw [ht]
    exact ⟨Nat.le_refl _, fun _ hnil => absurd hnil (hs.ne_nil rfl)⟩
  | opensString hs' | opensInterpolation hs' =>
    cases hstep
    rw [hs']
    refine ⟨?_, by simp⟩
    simp
    omega

/-- Whatever is open takes a character to close, and the outermost region takes two. -/
theorem Finishes.length_frames_lt (h : Finishes s rest) (hs : s.Follows previous)
    (hne : s.regions ≠ []) : (framesOf s.regions).length < s.rest.length := by
  induction h generalizing previous with
  | @last s token hnext hkind =>
    have hfinishes : Finishes s [] := .last hnext hkind
    exact absurd (hfinishes.regions_eq_nil (rest_eq_nil_of_final hnext hkind)) hne
  | @more s t found rest hnext hrest ih =>
    obtain ⟨hframes, htwo⟩ := length_frames_le hs.grounded hnext
    by_cases hnil : t.regions = []
    · have := htwo hne hnil
      rw [hnil, framesOf_nil] at hframes
      exact Nat.lt_of_le_of_lt hframes this
    · have := ih (taken_next hs hnext).follows hnil
      have := length_rest_lt hnext
      omega

/-! ## §3. The same step in both -/

/-- What a token of code does to the regions that are open. -/
inductive Edit
  | stays
  | opens (bracket : Bracket)
  | closes
  | quotes (quote : Char)
  | leaves

/-- The regions that are open after a token, by the innermost one before it. -/
def Edit.apply : Edit → Region → List Region → List Region
  | .stays, region, outer => region :: outer
  | .opens bracket, region, outer => region.withBrackets (bracket :: region.brackets) :: outer
  | .closes, region, outer => region.withBrackets region.brackets.tail :: outer
  | .quotes quote, region, outer => .string quote :: region :: outer
  | .leaves, _, outer => outer

/-- What a token does has to do with the innermost region only. -/
theorem Edit.apply_append (edit : Edit) (region : Region) (outer outer' : List Region) :
    edit.apply region (outer ++ outer') = edit.apply region outer ++ outer' := by
  cases edit <;> rfl

/-- A token of code at a character, and what it does to the regions that are open. -/
structure PlainMove (s : Scan) (c : Char) (kind : TokenKind) (n : Nat) (edit : Edit) : Prop where
  kind_ne : kind ≠ .printClose
  quotes : ∀ quote, edit = .quotes quote → quote = '\'' ∨ quote = '"'
  length : n = 1 ∨ n = (s.rest.takeWhile Char.isDigit).length ∨
    n = (s.rest.takeWhile isNameChar).length
  /-- It is the same wherever the text begins with the same digits or characters of a name, and the
  same brackets are open. -/
  next_eq : ∀ (s' : Scan) (region : Region) (outer : List Region), s'.regions = region :: outer →
    (s'.rest.takeWhile Char.isDigit).length = (s.rest.takeWhile Char.isDigit).length →
    (s'.rest.takeWhile isNameChar).length = (s.rest.takeWhile isNameChar).length →
    ∀ {region' outer'}, s.regions = region' :: outer' → region.brackets = region'.brackets →
    (region' = .interpolation [] → region = .interpolation []) →
    s'.nextPlain c region outer = s'.take kind n (edit.apply region outer)

section Closer

variable {region : Region} {c : Char} {bracket : Bracket} {outer : List Region}

/-- A closing bracket closes an interpolation or the innermost bracket. -/
theorem closed_of_nextCloser (h : s.nextCloser c bracket region outer = .lexeme found t) :
    (region = .interpolation [] ∧ bracket = .hash) ∨
      ∃ brackets, region.brackets = bracket :: brackets := by
  unfold nextCloser at h
  split at h
  · split at h
    · next hbracket => exact .inl ⟨rfl, hbracket⟩
    · cases h
  · next top brackets _ hbrackets =>
    split at h
    · next htop => exact .inr ⟨brackets, htop ▸ hbrackets⟩
    · cases h
  · cases h

theorem nextCloser_of_brackets {brackets : List Bracket}
    (h : region.brackets = bracket :: brackets) :
    s.nextCloser c bracket region outer =
      s.take bracket.closeKind 1 (region.withBrackets brackets :: outer) := by
  unfold nextCloser
  split
  · cases h
  · next heq =>
    obtain ⟨rfl, rfl⟩ := List.cons.inj (heq.symm.trans h)
    exact if_pos rfl
  · next heq =>
    rw [h] at heq
    cases heq

end Closer

theorem exists_plainMove {region : Region} {outer : List Region} (hs : s.regions = region :: outer)
    {c : Char} (h : s.nextPlain c region outer = .lexeme found t) :
    ∃ kind n edit, s.PlainMove c kind n edit ∧ (edit = .leaves → region = .interpolation []) := by
  unfold nextPlain at h
  -- In the order of the lexer: an opening bracket, a closing one, quotes, marks, digits, names.
  cases hopened : Bracket.opened? c with
  | some bracket =>
    refine ⟨bracket.openKind, 1, .opens bracket, ⟨?_, by simp, .inl rfl, ?_⟩, by simp⟩
    · cases bracket <;> decide
    · intros
      simp only [nextPlain, hopened, Edit.apply]
  | none =>
    cases hclosed : Bracket.closed? c with
    | some bracket =>
      simp only [hopened, hclosed] at h
      rcases closed_of_nextCloser h with ⟨rfl, rfl⟩ | ⟨brackets, hbrackets⟩
      · refine ⟨.interpolateClose, 1, .leaves, ⟨by simp, by simp, .inl rfl, ?_⟩, fun _ => rfl⟩
        intro s' region outer _ _ _ region' outer' hs' _ hsame
        obtain ⟨rfl, rfl⟩ := List.cons.inj (hs'.symm.trans hs)
        obtain rfl := hsame rfl
        simp only [nextPlain, hopened, hclosed]
        rfl
      · refine ⟨bracket.closeKind, 1, .closes, ⟨?_, by simp, .inl rfl, ?_⟩, by simp⟩
        · cases bracket <;> decide
        · intro s' region₁ outer₁ _ _ _ region' outer' hs' hsame _
          obtain ⟨rfl, rfl⟩ := List.cons.inj (hs'.symm.trans hs)
          rw [hbrackets] at hsame
          simp only [nextPlain, hopened, hclosed, Edit.apply, hsame, List.tail_cons]
          exact nextCloser_of_brackets hsame
    | none =>
      simp only [hopened, hclosed] at h
      by_cases hquote : (c == '\'' || c == '"') = true
      · refine ⟨.stringOpen, 1, .quotes c, ⟨by simp, ?_, .inl rfl, ?_⟩, by simp⟩
        · rintro _ ⟨⟩
          simpa using hquote
        · intros
          simp only [nextPlain, hopened, hclosed, hquote]
          rfl
      rw [if_neg hquote] at h
      by_cases hmark : punctuation.contains c = true
      · refine ⟨.punctuation, 1, .stays, ⟨by simp, by simp, .inl rfl, ?_⟩, by simp⟩
        intro s' region' outer' hs' _ _ _ _ _ _ _
        simp only [nextPlain, hopened, hclosed, hs', if_neg hquote, if_pos hmark]
        rfl
      rw [if_neg hmark] at h
      by_cases hdigit : c.isDigit = true
      · refine ⟨.number, _, .stays, ⟨by simp, by simp, .inr (.inl rfl), ?_⟩, by simp⟩
        intro s' region' outer' hs' hlength _ _ _ _ _ _
        simp only [nextPlain, hopened, hclosed, hs', if_neg hquote, if_neg hmark, if_pos hdigit,
          hlength]
        rfl
      rw [if_neg hdigit] at h
      by_cases hname : isNameChar c = true
      · refine ⟨.name, _, .stays, ⟨by simp, by simp, .inr (.inr rfl), ?_⟩, by simp⟩
        intro s' region' outer' hs' _ hlength _ _ _ _ _
        simp only [nextPlain, hopened, hclosed, hs', if_neg hquote, if_neg hmark, if_neg hdigit,
          if_pos hname, hlength]
        rfl
      rw [if_neg hname] at h
      cases h

/-- The same step of a print, or of an interpolation in it, and of an interpolation with the same
brackets open: the token and its length, and what it does to the regions. -/
structure Move (s : Scan) (region : Region) (outer : List Region) (before : List Char)
    (kind : TokenKind) (value : String) (n : Nat) (edit : Edit) : Prop where
  kind_ne : kind ≠ .printClose
  quotes : ∀ quote, edit = .quotes quote → quote = '\'' ∨ quote = '"'
  leaves : edit = .leaves → region = .interpolation []
  length : n ≤ before.length
  next_eq : s.nextInside region outer = s.emit kind value n (edit.apply region outer)
  other : ∀ rest position outer',
    nextInside ⟨before ++ '}' :: rest, position, .interpolation region.brackets :: outer', false⟩
        (.interpolation region.brackets) outer' =
      emit ⟨before ++ '}' :: rest, position, .interpolation region.brackets :: outer', false⟩ kind
        value n (edit.apply (.interpolation region.brackets) outer')

/-- What is taken before the brace does not depend on what comes after it. -/
theorem take_eq_emit {before rest : List Char} (hrest : s.rest = before ++ rest) {n : Nat}
    (hn : n ≤ before.length) (kind : TokenKind) (regions : List Region) :
    s.take kind n regions = s.emit kind (.ofList (before.take n)) n regions := by
  rw [take, hrest, List.take_append_of_le_length hn]

/-- What is found at a character that is no blank, if nothing closes, depends on the operator
there, which ends before the brace. -/
theorem nextInside_of_solid {before rest : List Char} (hblank : BlankEnd before) {c : Char}
    {cs : List Char} (hbefore : before = c :: cs) (hc : isBlank c = false) {region : Region}
    (outer : List Region) (hrest : s.rest = before ++ '}' :: rest)
    (hclosing : region.closing? s.rest = none) (hunbalanced : region.unbalanced? s.rest = none) :
    s.nextInside region outer =
      match operatorLength before with
      | some n => s.emit .operator (operatorValue (s.rest.take n)) n s.regions
      | none => s.nextPlain c region outer := by
  have hcs : s.rest = c :: (cs ++ '}' :: rest) := by rw [hrest, hbefore, List.cons_append]
  rw [← (operatorLength_brace hblank rest).1, ← hrest]
  cases hoperator : operatorLength s.rest <;>
    simp only [nextInside_solid hcs hc, hclosing, hunbalanced, hoperator]

section Inside

variable {before : List Char} {region : Region} {outer : List Region}
  (hrest : s.rest = before ++ ['}', '}']) (hs : s.regions = region :: outer)

include hrest hs

/-- Blanks are one token in both. -/
theorem move_blank {c : Char} {cs : List Char} (hbefore : before = c :: cs)
    (hc : isBlank c = true) :
    ∃ value n, s.Move region outer before .whitespace value n .stays := by
  have hlength : (before.takeWhile isBlank).length ≤ before.length :=
    (List.takeWhile_prefix _).length_le
  have hnext : ∀ {s' : Scan} {rest region outer}, s'.rest = before ++ '}' :: rest →
      s'.regions = region :: outer → s'.nextInside region outer = s'.emit .whitespace
        (.ofList (before.take (before.takeWhile isBlank).length))
        (before.takeWhile isBlank).length (region :: outer) := by
    intro s' rest region outer hrest' hs'
    have hcs : s'.rest = c :: (cs ++ '}' :: rest) := by rw [hrest', hbefore, List.cons_append]
    rw [nextInside_blank hcs hc, take_eq_emit hrest', hrest', takeWhile_isBlank_brace, hs']
    rw [hrest', takeWhile_isBlank_brace]
    exact hlength
  exact ⟨_, _, nofun, nofun, nofun, hlength, hnext hrest hs, fun _ _ _ => hnext rfl rfl⟩

/-- At any other character the same token is found, if the print does not close. -/
theorem move_solid (hblank : BlankEnd before) {c : Char} {cs : List Char}
    (hbefore : before = c :: cs) (hc : isBlank c = false)
    (hclosing : region.closing? s.rest = none)
    (hnext : s.nextInside region outer = .lexeme found t) :
    ∃ kind value n edit, s.Move region outer before kind value n edit := by
  have hne : before ≠ [] := hbefore ▸ List.cons_ne_nil c cs
  have hunbalanced : region.unbalanced? s.rest = none := by
    cases hunbalanced : region.unbalanced? s.rest with
    | none => rfl
    | some bracket =>
      have hcs : s.rest = c :: (cs ++ ['}', '}']) := by rw [hrest, hbefore, List.cons_append]
      unfold nextInside at hnext
      rw [hcs] at hclosing hunbalanced hnext
      simp only [hc, hclosing, hunbalanced] at hnext
      cases hnext
  have hother : ∀ rest position outer', _ := fun rest position outer' =>
    nextInside_of_solid (s := ⟨before ++ '}' :: rest, position,
        .interpolation region.brackets :: outer', false⟩) hblank hbefore hc outer' rfl
      (rfl : (Region.interpolation region.brackets).closing? _ = none) rfl
  have hthis := nextInside_of_solid hblank hbefore hc outer hrest hclosing hunbalanced
  rw [hthis] at hnext
  cases hoperator : operatorLength before with
  | some n =>
    have hn := (operatorLength_brace hblank []).2 n hoperator
    simp only [hoperator, hs, hrest, List.take_append_of_le_length hn] at hthis hother
    exact ⟨.operator, operatorValue (before.take n), n, .stays, by simp, by simp, by simp, hn,
      hthis, hother⟩
  | none =>
    simp only [hoperator] at hthis hother hnext
    obtain ⟨kind, n, edit, hmove, hleaves⟩ := exists_plainMove hs hnext
    have hdigits : ∀ rest, _ := hblank.takeWhile hne fun c (hc : c.isDigit = true) =>
      isBlank_of_isNameChar (isNameChar_of_isDigit hc)
    have hnames : ∀ rest, _ := hblank.takeWhile hne fun c (hc : isNameChar c = true) =>
      isBlank_of_isNameChar hc
    have hn : n ≤ before.length := by
      rcases hmove.length with rfl | rfl | rfl
      · exact List.length_pos_iff.mpr hne
      · rw [hrest, hdigits]
        exact (List.takeWhile_prefix _).length_le
      · rw [hrest, hnames]
        exact (List.takeWhile_prefix _).length_le
    refine ⟨kind, .ofList (before.take n), n, edit, hmove.kind_ne, hmove.quotes, hleaves, hn, ?_,
      fun rest position outer' => ?_⟩
    · rw [hthis, hmove.next_eq s _ _ hs rfl rfl hs rfl id, take_eq_emit hrest hn]
    · rw [hother, hmove.next_eq ⟨before ++ '}' :: rest, position,
        .interpolation region.brackets :: outer', false⟩ (.interpolation region.brackets) outer' rfl
        (by simp only [hrest, hdigits]) (by simp only [hrest, hnames]) hs rfl
        fun h => by rw [h]; rfl]
      exact take_eq_emit rfl hn kind _

end Inside

end Scan

/-! ## §4. A print and what is inside it -/

/-- The regions that may be open inside a print: interpolations and the strings around them. -/
def Region.IsInner : Region → Prop
  | .interpolation _ => True
  | .string quote => quote = '\'' ∨ quote = '"'
  | .tag _ | .print _ => False

namespace Scan

variable {s t : Scan} {found : Lexeme} {rest : List Lexeme} {previous : Option Lexeme}
  {before : List Char} {inner : List Region} {brackets : List Bracket}

/-- What a token opens inside of an interpolation is inside of the print. -/
theorem Edit.isInner_apply {edit : Edit} {brackets : List Bracket} {outer : List Region}
    (hquotes : ∀ quote, edit = .quotes quote → quote = '\'' ∨ quote = '"')
    (houter : ∀ region ∈ outer, region.IsInner) :
    ∀ region ∈ edit.apply (.interpolation brackets) outer, region.IsInner := by
  have hcons : ∀ region : Region, region.IsInner → ∀ r ∈ region :: outer, r.IsInner :=
    fun region hregion => List.forall_mem_cons.mpr ⟨hregion, houter⟩
  cases edit with
  | stays | opens | closes => exact hcons _ trivial
  | quotes quote => exact List.forall_mem_cons.mpr ⟨hquotes quote rfl, hcons _ trivial⟩
  | leaves => exact houter

/-- The lexer is in a print or in something inside it, before a text and the two braces. -/
structure InPrint (s : Scan) (before : List Char) (inner : List Region) (brackets : List Bracket) :
    Prop where
  rest : s.rest = before ++ ['}', '}']
  regions : s.regions = inner ++ [.print brackets]
  blank : BlankEnd before
  inner : ∀ region ∈ inner, region.IsInner

/-- A step inside a print that would be the same inside an interpolation in its place. -/
def Shared (before : List Char) (inner : List Region) (brackets : List Bracket) (found : Lexeme)
    (t : Scan) : Prop :=
  ∃ token before' inner' brackets', found.token = some token ∧ token.kind ≠ .printClose ∧
    t.InPrint before' inner' brackets' ∧ ∀ rest outer,
      Lexes (before ++ '}' :: rest) (inner ++ .interpolation brackets :: outer) [token.shape]
        (before' ++ '}' :: rest) (inner' ++ .interpolation brackets' :: outer)

theorem shared_emit (h : s.InPrint before inner brackets) {kind : TokenKind} {value : String}
    {n : Nat} {inner' : List Region} {brackets' : List Bracket}
    (hstep : s.next = s.emit kind value n (inner' ++ [.print brackets']))
    (hkind : kind ≠ .printClose) (hn : n ≤ before.length)
    (hinner : ∀ region ∈ inner', region.IsInner)
    (hother : ∀ rest position outer,
      next ⟨before ++ '}' :: rest, position, inner ++ .interpolation brackets :: outer, false⟩ =
        emit ⟨before ++ '}' :: rest, position, inner ++ .interpolation brackets :: outer, false⟩
          kind value n (inner' ++ .interpolation brackets' :: outer))
    (hnext : s.next = .lexeme found t) : Shared before inner brackets found t := by
  rw [hstep] at hnext
  cases hnext
  refine ⟨_, before.drop n, inner', brackets', rfl, hkind, ⟨?_, rfl, ?_, hinner⟩, ?_⟩
  · show s.rest.drop n = _
    rw [h.rest, List.drop_append_of_le_length hn]
  · exact h.blank.of_suffix (List.drop_suffix n before)
  · intro rest outer
    have htake : before.take n ++ (before.drop n ++ '}' :: rest) = before ++ '}' :: rest := by
      rw [← List.append_assoc, List.take_append_drop]
    have hlexes : Lexes (before.take n ++ (before.drop n ++ '}' :: rest))
        (inner ++ .interpolation brackets :: outer) [(kind, value)] (before.drop n ++ '}' :: rest)
        (inner' ++ .interpolation brackets' :: outer) := by
      apply Lexes.emit
      intro position
      rw [htake, List.length_take_of_le hn]
      exact hother rest position outer
    rwa [htake] at hlexes

/-- What a token of code does inside a print it also does inside an interpolation in its place. -/
theorem exists_apply {edit : Edit} {region : Region} {outer : List Region}
    (hregions : inner ++ [.print brackets] = region :: outer)
    (hinner : ∀ region ∈ inner, region.IsInner) (hcode : region.IsCode)
    (hleaves : edit = .leaves → region = .interpolation [])
    (hquotes : ∀ quote, edit = .quotes quote → quote = '\'' ∨ quote = '"') :
    ∃ inner' brackets', (∀ region ∈ inner', region.IsInner) ∧
      edit.apply region outer = inner' ++ [.print brackets'] ∧ ∀ outside, ∃ outer',
        inner ++ .interpolation brackets :: outside = .interpolation region.brackets :: outer' ∧
          edit.apply (.interpolation region.brackets) outer' =
            inner' ++ .interpolation brackets' :: outside := by
  cases inner with
  | nil =>
    obtain ⟨rfl, rfl⟩ := List.cons.inj hregions
    cases edit with
    | stays => exact ⟨[], brackets, nofun, rfl, fun outside => ⟨outside, rfl, rfl⟩⟩
    | opens bracket =>
      exact ⟨[], bracket :: brackets, nofun, rfl, fun outside => ⟨outside, rfl, rfl⟩⟩
    | closes => exact ⟨[], brackets.tail, nofun, rfl, fun outside => ⟨outside, rfl, rfl⟩⟩
    | quotes quote =>
      exact ⟨[.string quote], brackets, List.forall_mem_singleton.mpr (hquotes quote rfl), rfl,
        fun outside => ⟨outside, rfl, rfl⟩⟩
    | leaves => cases hleaves rfl
  | cons top inner =>
    obtain ⟨rfl, rfl⟩ := List.cons.inj hregions
    obtain ⟨htop, hmore⟩ := List.forall_mem_cons.mp hinner
    cases top with
    | interpolation bs =>
      exact ⟨edit.apply (.interpolation bs) inner, brackets, edit.isInner_apply hquotes hmore,
        edit.apply_append _ _ _, fun outside => ⟨inner ++ .interpolation brackets :: outside, rfl,
          edit.apply_append _ _ _⟩⟩
    | string => cases hcode
    | tag | print => cases htop

/-- A step of code, where the print itself or an interpolation is innermost. -/
theorem shared_of_move (h : s.InPrint before inner brackets) {region : Region}
    {outer : List Region} (hs : s.regions = region :: outer) (hcode : region.IsCode)
    (hinside : s.next = s.nextInside region outer) {kind : TokenKind} {value : String} {n : Nat}
    {edit : Edit} (hmove : s.Move region outer before kind value n edit)
    (hnext : s.next = .lexeme found t) : Shared before inner brackets found t := by
  obtain ⟨inner', brackets', hinner', happly, houter⟩ :=
    exists_apply (h.regions.symm.trans hs) h.inner hcode hmove.leaves hmove.quotes
  rw [hmove.next_eq, happly] at hinside
  refine shared_emit h hinside hmove.kind_ne hmove.length hinner' (fun rest position outside => ?_)
    hnext
  obtain ⟨outer', hregions, happly'⟩ := houter outside
  rw [hregions, ← happly']
  exact hmove.other rest position outer'

/-- What is found inside a string is seen in the part before the brace. -/
theorem next_of_string {before rest : List Char} (hblank : BlankEnd before) {quote : Char}
    (hbrace : quote ≠ '}') {outer : List Region} (hrest : s.rest = before ++ '}' :: rest)
    (hs : s.regions = .string quote :: outer) :
    s.next =
      if before.head? == some quote then s.take .stringClose 1 outer
      else if quote == '"' && ['#', '{'].isPrefixOf before then
        s.take .interpolateOpen 2 (.interpolation [] :: .string quote :: outer)
      else
        match stringRunLength quote (before ++ '}' :: rest) with
        | some n => s.take .stringText n (.string quote :: outer)
        | none => s.fail "unclosed string" := by
  have hhead : ((before ++ '}' :: rest).head? == some quote) = (before.head? == some quote) := by
    cases before <;> simp [hbrace.symm]
  have hopens : ['#', '{'].isPrefixOf (before ++ '}' :: rest) = ['#', '{'].isPrefixOf before := by
    by_cases hne : before = []
    · rw [hne]
      rfl
    · exact hblank.isPrefixOf hne (not_blank_of_any (by decide)) _
  have hnext : s.next = s.nextInString quote outer := by
    rw [next, hs]
  cases hrun : stringRunLength quote (before ++ '}' :: rest) <;>
    simp only [hnext, nextInString, hs, hrest, hhead, hopens, hrun]

/-- A step inside a string. -/
theorem shared_of_string (h : s.InPrint before inner brackets) {quote : Char}
    {outer : List Region} (hs : s.regions = .string quote :: outer)
    (hnext : s.next = .lexeme found t) : Shared before inner brackets found t := by
  have hregions := h.regions.symm.trans hs
  cases inner with
  | nil => cases hregions
  | cons top inner =>
    obtain ⟨rfl, rfl⟩ := List.cons.inj hregions
    obtain ⟨hquote, hinner⟩ := List.forall_mem_cons.mp h.inner
    have hbrace : quote ≠ '}' := by rcases hquote with rfl | rfl <;> decide
    have hregions : s.regions = .string quote :: (inner ++ [.print brackets]) := h.regions
    have hstep := next_of_string h.blank hbrace h.rest hregions
    have hother : ∀ rest position outside, _ := fun rest position outside =>
      next_of_string (s := ⟨before ++ '}' :: rest, position,
        .string quote :: (inner ++ .interpolation brackets :: outside), false⟩)
        h.blank hbrace rfl rfl
    by_cases hclose : (before.head? == some quote) = true
    · have hlength : 1 ≤ before.length := by
        cases before with
        | nil => cases hclose
        | cons => simp
      simp only [if_pos hclose] at hstep hother
      rw [take_eq_emit h.rest hlength] at hstep
      refine shared_emit h hstep (by simp) hlength hinner (fun rest position outside => ?_) hnext
      exact (hother rest position outside).trans (take_eq_emit rfl hlength _ _)
    simp only [if_neg hclose] at hstep hother
    by_cases hopen : (quote == '"' && ['#', '{'].isPrefixOf before) = true
    · have hlength : 2 ≤ before.length := by
        rw [Bool.and_eq_true, List.isPrefixOf_iff_prefix] at hopen
        exact hopen.2.length_le
      simp only [if_pos hopen] at hstep hother
      rw [take_eq_emit h.rest hlength, ← List.cons_append, ← List.cons_append] at hstep
      have hopened : ∀ region ∈ Region.interpolation [] :: .string quote :: inner,
          region.IsInner := List.forall_mem_cons.mpr ⟨trivial, h.inner⟩
      refine shared_emit h hstep (by simp) hlength hopened (fun rest position outside => ?_) hnext
      exact (hother rest position outside).trans (take_eq_emit rfl hlength _ _)
    simp only [if_neg hopen] at hstep hother
    cases hrun : stringRunLength quote (before ++ ['}', '}']) with
    | none =>
      rw [hrun] at hstep
      rw [hstep] at hnext
      cases hnext
    | some n =>
      obtain ⟨-, hlength⟩ := stringRunLength_brace hbrace hrun []
      simp only [(stringRunLength_brace hbrace hrun _).1] at hstep hother
      rw [take_eq_emit h.rest hlength, ← List.cons_append] at hstep
      refine shared_emit h hstep (by simp) hlength h.inner (fun rest position outside => ?_) hnext
      exact (hother rest position outside).trans (take_eq_emit rfl hlength _ _)

/-- The closing delimiter of a print stands in the text before the two braces if there is any. -/
theorem length_le_of_closing? (hblank : BlankEnd before) (hne : before ≠ []) {region : Region}
    {kind : TokenKind} {n : Nat} {trims : Bool} {rest : List Char}
    (h : region.closing? (before ++ rest) = some (kind, n, trims)) : n ≤ before.length := by
  obtain ⟨delimiter, hdelimiter, -, htake, -, hn⟩ := exists_of_closing? h
  have hsolid := Respacing.Splits.not_blank_of_delimiter? hdelimiter
  have hprefix : ∀ ds : List Char, (∀ c ∈ ds, isBlank c = false) → (before ++ rest).take n = ds →
      n ≤ before.length := by
    intro ds hds htake
    have hlength : ds.length = n := by rw [← htake, List.length_take_of_le hn]
    have hcs : ds.isPrefixOf (before ++ rest) = true :=
      List.isPrefixOf_iff_prefix.mpr (htake ▸ List.take_prefix n _)
    rw [hblank.isPrefixOf hne hds] at hcs
    exact hlength ▸ (List.isPrefixOf_iff_prefix.mp hcs).length_le
  rcases htake with htake | htake
  · exact hprefix delimiter (List.forall_mem_cons.mp hsolid).2 htake
  · exact hprefix ('-' :: delimiter) hsolid htake

/-- Code before a blank goes on as it would in an interpolation, or it closes the print. -/
theorem shared_or_closes (h : s.InPrint before inner brackets) (hne : before ≠ [])
    (hnext : s.next = .lexeme found t) :
    Shared before inner brackets found t ∨
      (∃ token, found.token = some token ∧ token.kind = .printClose) ∧ EndsBraces t.rest := by
  obtain ⟨c, cs, hcs⟩ := List.exists_cons_of_ne_nil hne
  obtain ⟨region, outer, hs⟩ : ∃ region outer, s.regions = region :: outer :=
    List.exists_cons_of_ne_nil (by rw [h.regions]; simp)
  by_cases hcode : region.IsCode
  · have hinside : s.next = s.nextInside region outer := by
      rw [next, hs]
      cases region <;> first | rfl | cases hcode
    cases hc : isBlank c with
    | true =>
      obtain ⟨value, n, hmove⟩ := move_blank h.rest hs hcs hc
      exact .inl (shared_of_move h hs hcode hinside hmove hnext)
    | false =>
      cases hclosing : region.closing? s.rest with
      | none =>
        obtain ⟨kind, value, n, edit, hmove⟩ :=
          move_solid h.rest hs h.blank hcs hc hclosing (hinside ▸ hnext)
        exact .inl (shared_of_move h hs hcode hinside hmove hnext)
      | some p =>
        obtain ⟨kind, n, trims⟩ := p
        have hstep : s.next = ({ s with trimNext := trims } : Scan).take kind n outer := by
          have hrest : s.rest = c :: (cs ++ ['}', '}']) := by rw [h.rest, hcs, List.cons_append]
          rw [hinside, nextInside, hrest]
          rw [hrest] at hclosing
          simp only [hc, hclosing]
          rfl
        rw [hstep] at hnext
        cases hnext
        rw [h.rest] at hclosing
        have hn := length_le_of_closing? h.blank hne hclosing
        refine .inr ⟨⟨_, rfl, ?_⟩, before.drop n ++ ['}'], ?_, ?_⟩
        · -- Only a print is closed by a delimiter here.
          obtain ⟨delimiter, hdelimiter, -⟩ := exists_of_closing? hclosing
          have hregion := h.regions.symm.trans hs
          cases inner with
          | nil =>
            cases hregion
            exact (Prod.mk.inj (Option.some.inj hdelimiter)).1.symm
          | cons top inner =>
            cases hregion
            have htop := h.inner _ List.mem_cons_self
            cases region with
            | tag | print => cases htop
            | interpolation | string => cases hdelimiter
        · show s.rest.drop n = _
          rw [h.rest, List.drop_append_of_le_length hn]
          simp
        · intro c hc
          rw [List.getLast?_concat] at hc
          exact (Option.some.inj hc).symm
  · cases region with
    | string quote => exact .inl (shared_of_string h hs hnext)
    | _ => exact absurd trivial hcode

/-- Between the last blank and the two braces nothing but the print is open, if the source is read
to its end. -/
theorem closes_of_nil (h : s.InPrint [] inner brackets) (hs : s.Follows previous)
    (hfinishes : Finishes s (found :: rest)) (hnext : s.next = .lexeme found t) :
    inner = [] ∧ brackets = [] ∧ t.rest = [] ∧
      ∃ token, found.token = some token ∧ token.kind = .printClose := by
  have hlt := hfinishes.length_frames_lt hs (by rw [h.regions]; simp)
  rw [h.rest, h.regions, framesOf, List.flatMap_append, List.length_append] at hlt
  have hbrackets : brackets = [] := by
    cases brackets with
    | nil => rfl
    | cons =>
      simp [Region.frames, Region.brackets] at hlt
      omega
  have hinner : inner = [] := by
    cases inner with
    | nil => rfl
    | cons top inner =>
      simp [Region.frames] at hlt
      omega
  subst hbrackets hinner
  obtain ⟨srest, position, regions, trimNext⟩ := s
  obtain rfl : srest = ['}', '}'] := h.rest
  obtain rfl : regions = [.print []] := h.regions
  cases hnext
  exact ⟨rfl, rfl, rfl, _, rfl, rfl⟩

/-- Tokens that are outside of all code of a print: text, and what closes the print. -/
def isOutside (token : Token) : Bool :=
  token.kind == .text || token.kind == .printClose

/-- **A print and an interpolation of the same code.**  If the code in a print goes on to the end of
the source, it leaves the same tokens in an interpolation.  Otherwise there is more than one token
outside of the code. -/
theorem Finishes.enclosed (h : Finishes s rest) (hs : s.Follows previous)
    (hprint : s.InPrint before inner brackets) :
    (∃ tokens close, rest.filterMap Lexeme.token = tokens ++ [close] ∧ close.kind = .printClose ∧
      (∀ token ∈ tokens, token.kind ≠ .printClose) ∧ ∀ more outer,
        Lexes (before ++ '}' :: more) (inner ++ .interpolation brackets :: outer)
          (tokens.map Token.shape ++ [(.interpolateClose, "\x7d")]) more outer) ∨
    2 ≤ (rest.filterMap Lexeme.token).countP isOutside := by
  induction h generalizing previous before inner brackets with
  | @last s token hnext hkind =>
    have hrest := rest_eq_nil_of_final hnext hkind
    rw [hprint.rest] at hrest
    simp at hrest
  | @more s t found rest hnext hrest ih =>
    by_cases hne : before = []
    · subst hne
      obtain ⟨rfl, rfl, hnil, close, hclose, hkind⟩ :=
        closes_of_nil hprint hs (.more hnext hrest) hnext
      obtain rfl : rest = [] := by
        cases hrest with
        | last => rfl
        | more hnext =>
          have hlt := length_rest_lt hnext
          simp [hnil] at hlt
      refine .inl ⟨[], close, by simp [hclose], hkind, nofun, fun more outer => ?_⟩
      exact Lexes.take ['}'] fun _ => rfl
    · rcases shared_or_closes hprint hne hnext with hshared | ⟨⟨close, hclose, hkind⟩, hends⟩
      · obtain ⟨token, before', inner', brackets', htoken, hkind, hprint', hlexes⟩ := hshared
        simp only [List.filterMap_cons, htoken]
        rcases ih (taken_next hs hnext).follows hprint' with
          ⟨tokens, close, htokens, hclose, hkinds, hmore⟩ | hcount
        · refine .inl ⟨token :: tokens, close, by rw [htokens, List.cons_append], hclose,
            List.forall_mem_cons.mpr ⟨hkind, hkinds⟩, fun more outer => ?_⟩
          exact (hlexes more outer).trans (hmore more outer)
        · rw [List.countP_cons]
          exact .inr (Nat.le_trans hcount (Nat.le_add_right _ _))
      · -- The print closes here, and the source still ends with braces.
        obtain ⟨token, hmem, htoken⟩ := hrest.exists_token (taken_next hs hnext).follows hends
        have hpos : 0 < (rest.filterMap Lexeme.token).countP isOutside :=
          List.countP_pos_iff.mpr ⟨token, hmem, by
            rcases htoken with h | h <;> rw [isOutside, h] <;> rfl⟩
        have hout : isOutside close = true := by rw [isOutside, hkind]; rfl
        simp only [List.filterMap_cons, hclose, List.countP_cons, hout, if_true]
        exact .inr (by omega)

end Scan

/-! ## §6. A source that is a print -/

/-- The source that prints some code. -/
def printing (code : String) : String :=
  "\x7b\x7b " ++ code ++ " \x7d\x7d"

theorem finishes_of_lex {source : String} (heof : (lex source).final.kind = .eof) :
    (Scan.start source).Finishes (lexemes source).1 :=
  lexemes_source_induction (fun _ _ hnext hkind => .last hnext hkind)
    (fun _ _ _ _ hnext hrest => .more hnext hrest) heof

/-- The token that closes a print is that for what opens one. -/
theorem Area.kinds_of_opened? {area inner : Area} {opener : Token} {kind : TokenKind}
    (h : area.opened? opener = some (inner, kind)) :
    (kind = .printClose ↔ opener.kind = .printOpen) ∧ opener.kind ≠ .printClose ∧
      kind ≠ .printOpen := by
  unfold opened? at h
  split at h <;> cases h <;> simp_all

/-- Nested tokens close as many prints as they open. -/
theorem Nested.countP_printClose {area : Area} {tokens : List Token} (h : Nested area tokens) :
    tokens.countP (·.kind == .printClose) = tokens.countP (·.kind == .printOpen) := by
  induction h with
  | nil => rfl
  | @single area token more hholds _ ih =>
    have hkind : token.kind ≠ .printClose ∧ token.kind ≠ .printOpen := by
      constructor <;> intro hkind <;> rw [hkind] at hholds <;> cases area <;> cases hholds
    simp [hkind, ih]
  | enclosed hopened _ _ ih₁ ih₂ =>
    obtain ⟨hkind, hopener, hcloser⟩ := Area.kinds_of_opened? hopened
    simp [List.countP_cons, List.countP_append, ih₁, ih₂, hkind, hopener, hcloser]
    omega

theorem nested_of_lex {source : String} (heof : (lex source).final.kind = .eof) :
    Nested .outside (lex source).tokens := by
  refine lexemes_source_induction
    (motive := fun s found => Closes (framesOf s.regions) (found.filterMap Lexeme.token))
    (fun s token hnext hkind => ?_) (fun s found t rest hnext ih => ?_) heof
  · have hnests := Scan.nests_next s
    rw [hnext] at hnests
    rw [hnests hkind]
    exact .nil .outside
  · have hnests := Scan.nests_next s
    rw [hnext] at hnests
    cases htoken : found.token with
    | none => simpa [htoken] using hnests _ ih
    | some token => simpa [htoken] using hnests _ ih

/-- **The code of a print in an interpolation.**  If a source is a print and has nothing outside of
the code but what closes the print, then in an interpolation the code leaves the same tokens. -/
theorem exists_lexes_of_printing {code : String} (heof : (lex (printing code)).final.kind = .eof)
    (hone : (lex (printing code)).tokens.countP Scan.isOutside ≤ 1) :
    ∃ opener tokens close, (lex (printing code)).tokens = opener :: (tokens ++ [close]) ∧
      opener.kind = .printOpen ∧ close.kind = .printClose ∧
      (∀ token ∈ tokens, token.kind ≠ .printClose) ∧ ∀ more outer,
        Lexes (' ' :: (code.toList ++ ' ' :: '}' :: more)) (.interpolation [] :: outer)
          (tokens.map Token.shape ++ [(.interpolateClose, "\x7d")]) more outer := by
  have hfinishes := finishes_of_lex heof
  have htokens : (lex (printing code)).tokens =
      (lexemes (printing code)).1.filterMap Lexeme.token := rfl
  rw [htokens] at hone ⊢
  generalize (lexemes (printing code)).1 = found at hfinishes hone ⊢
  have hstart : Scan.start (printing code) =
      ⟨'{' :: '{' :: (' ' :: code.toList ++ [' '] ++ ['}', '}']), .start, [], false⟩ := by
    simp [Scan.start, printing]
  have hfollows : (Scan.start (printing code)).Follows none := ⟨nofun, fun _ => rfl, nofun⟩
  rw [hstart] at hfinishes hfollows
  cases hfinishes with
  | last hnext => cases hnext
  | @more _ t opener rest hnext hrest =>
    have hstep := Scan.taken_next hfollows hnext
    have hprint : t.InPrint (' ' :: code.toList ++ [' ']) [] [] := by
      cases hnext
      exact ⟨rfl, rfl, .concat _, nofun⟩
    obtain ⟨token, htoken, hkind⟩ :
        ∃ token, opener.token = some token ∧ token.kind = .printOpen := by
      cases hnext
      exact ⟨_, rfl, rfl⟩
    rw [List.filterMap_cons_some htoken] at hone ⊢
    rcases hrest.enclosed hstep.follows hprint with
      ⟨tokens, close, hall, hclose, hkinds, hmore⟩ | htwo
    · refine ⟨token, tokens, close, by rw [hall], hkind, hclose, hkinds, fun more outer => ?_⟩
      simpa using hmore more outer
    · have hsublist := List.sublist_cons_self token (rest.filterMap Lexeme.token)
      exact absurd (htwo.trans hsublist.countP_le) (by omega)

end Stencil
