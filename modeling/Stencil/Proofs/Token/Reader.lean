import Stencil.Proofs.Token.Extents
import Stencil.Proofs.Token.Kinds
import Stencil.Proofs.Token.Respacing
import Stencil.Proofs.Token.Coverage

/-!
A reader gives the tokens of its source.

A reader that counts bytes and the lexer that counts characters go through a source side by side:
`Tracks` says that both stand at the same place, with the same regions open.  Each call of the
reader is then a chain of steps of the lexer, of which the last one alone leaves a token behind.
What follows for readers is that the calls give one token after the other, that each but the last
takes bytes off the source, and that no call comes back without a token before the stream has
ended.
-/

namespace Stencil

open Stencil.Text Stencil.Token
open String (utf8Len)

/-! ## §1. Side by side -/

/-- Counting lines byte by byte gives the place that is reached character by character. -/
theorem countLines_eq (run : List Char) (n : Nat) (place : Nat × Nat) (h : place.2 ≤ n) :
    (countLines run n place).2 ≤ n + utf8Len run ∧
      (⟨(countLines run n place).1, n + utf8Len run - (countLines run n place).2 + 1⟩ : Position) =
        Position.past ⟨place.1, n - place.2 + 1⟩ run := by
  induction run generalizing n place with
  | nil => exact ⟨h, rfl⟩
  | cons c run ih =>
    have hadd : n + utf8Len (c :: run) = n + c.utf8Size + utf8Len run := by
      rw [String.utf8Len_cons]
      omega
    rw [countLines, Position.past_cons, Position.after, hadd]
    by_cases hc : c = '\n'
    · subst hc
      have hsize : ('\n' : Char).utf8Size = 1 := rfl
      have hline := ih (n + 1) (place.1 + 1, n + 1) (Nat.le_refl _)
      simpa [hsize] using hline
    · have hline := ih (n + c.utf8Size) place (by omega)
      have hcolumn : n + c.utf8Size - place.2 + 1 = n - place.2 + 1 + c.utf8Size := by omega
      simpa [hc, hcolumn] using hline

/-- At a closing bracket the innermost open one decides, unless it may end an interpolation. -/
theorem Scan.nextCloser_of_ne {s : Scan} {c : Char} {bracket : Bracket} {region : Region}
    {outer : List Region} (h : region ≠ .interpolation []) :
    s.nextCloser c bracket region outer =
      match region.brackets with
      | [] => s.fail ("unexpected '" ++ String.singleton c ++ "'")
      | top :: brackets =>
        if top = bracket then s.take bracket.closeKind 1 (region.withBrackets brackets :: outer)
        else s.fail ("unexpected '" ++ String.singleton c ++ "'") := by
  unfold nextCloser
  split
  · exact absurd rfl h
  · next hbrackets => rw [hbrackets]
  · next hbrackets => rw [hbrackets]

/-- A string ends at a quote of one byte. -/
def Region.OneByte : Region → Prop
  | .string quote => quote.utf8Size = 1
  | .tag _ | .print _ | .interpolation _ => True

theorem Region.OneByte.withBrackets {region : Region} (h : region.OneByte)
    (brackets : List Bracket) : (region.withBrackets brackets).OneByte := by
  cases region <;> exact h

namespace Reader

/-- A reader of a source and the lexer stand at the same place. -/
structure Tracks (source : List Char) (r : Reader) (s : Scan) : Prop where
  input : r.input = source
  split : ∃ before, source = before ++ s.rest ∧ r.offset = utf8Len before
  here : r.here = s.position
  lineStart_le : r.lineStart ≤ r.offset
  regions : r.regions = s.regions
  quotes : ∀ region ∈ s.regions, region.OneByte
  trimNext : r.trimNext = s.trimNext
  going : r.done = false

theorem tracks_start (source : String) :
    Tracks source.toList (start source) (.start source) where
  input := rfl
  split := ⟨[], rfl, rfl⟩
  here := rfl
  lineStart_le := Nat.le_refl 0
  regions := rfl
  quotes := nofun
  trimNext := rfl
  going := rfl

namespace Tracks

variable {source : List Char} {r : Reader} {s : Scan}

theorem rest_eq (h : Tracks source r s) : r.rest = s.rest := by
  obtain ⟨before, hsource, hoffset⟩ := h.split
  rw [rest, h.input, hsource, hoffset, dropBytes?_append, Option.getD_some]

/-- The bytes that are read and those that are left are all. -/
theorem offset_add (h : Tracks source r s) : r.offset + utf8Len s.rest = utf8Len source := by
  obtain ⟨before, hsource, hoffset⟩ := h.split
  rw [hsource, hoffset, String.utf8Len_append]

theorem between_eq (h : Tracks source r s) (n : Nat) :
    r.between r.offset (r.offset + utf8Len (s.rest.take n)) = s.rest.take n := by
  obtain ⟨before, hsource, hoffset⟩ := h.split
  rw [between, h.input, hsource, hoffset, dropBytes?_append, Option.bind_some,
    Nat.add_sub_cancel_left, takeBytes?_take, Option.getD_some]

/-- What comes after the next characters. -/
theorem dropBytes?_eq (h : Tracks source r s) (n : Nat) :
    dropBytes? (r.offset + utf8Len (s.rest.take n)) r.input = some (s.rest.drop n) := by
  obtain ⟨before, hsource, hoffset⟩ := h.split
  have hcut := dropBytes?_append (before ++ s.rest.take n) (s.rest.drop n)
  rwa [String.utf8Len_append, List.append_assoc, List.take_append_drop, ← hsource, ← hoffset,
    ← h.input] at hcut

theorem withRegions (h : Tracks source r s) {regions : List Region}
    (quotes : ∀ region ∈ regions, region.OneByte) :
    Tracks source { r with regions := regions } { s with regions := regions } :=
  { h with regions := rfl, quotes := quotes }

theorem withTrim (h : Tracks source r s) (trimNext : Bool) :
    Tracks source { r with trimNext := trimNext } { s with trimNext := trimNext } :=
  { h with trimNext := rfl }

/-- Both move on by some characters. -/
theorem advance (h : Tracks source r s) (n : Nat) :
    Tracks source (r.advance (utf8Len (s.rest.take n))) (s.move n) := by
  have hplace := countLines_eq (s.rest.take n) _ (r.line, r.lineStart) h.lineStart_le
  have hstart : (⟨r.line, r.offset - r.lineStart + 1⟩ : Position) = s.position := h.here
  obtain ⟨before, hsource, hoffset⟩ := h.split
  rw [hstart] at hplace
  simp only [Reader.advance, advanceTo, h.between_eq]
  exact {
    input := h.input
    split := by
      refine ⟨before ++ s.rest.take n, ?_, ?_⟩
      · rw [hsource, List.append_assoc]
        exact congrArg _ (List.take_append_drop n s.rest).symm
      · rw [String.utf8Len_append, hoffset]
    here := hplace.2
    lineStart_le := hplace.1
    regions := h.regions
    quotes := h.quotes
    trimNext := h.trimNext
    going := h.going }

end Tracks

/-! ## §2. A call and a step -/

/-- A call is answered with the token of a step, and the reader stands where the step leads to; or
the stream ends with both. -/
def Mirrors (source : List Char) (a : Answer) : Scan.Step → Prop
  | .lexeme found t => found.token.isSome ∧ a.1 = found.token ∧ Tracks source a.2 t
  | .final token => a.1 = some token ∧ a.2.done = true

namespace Tracks

variable {source : List Char} {r : Reader} {s : Scan}

theorem mirrors_fail (h : Tracks source r s) (message : String) :
    Mirrors source (r.fail message) (s.fail message) := by
  rw [fail, finish, h.here]
  exact ⟨rfl, rfl⟩

theorem mirrors_slice (h : Tracks source r s) {n bytes : Nat} {kind : TokenKind} {value : String}
    {token : List Char → Token} (hbytes : bytes = utf8Len (s.rest.take n))
    (htoken : token (s.rest.take n) = ⟨kind, value, s.position⟩) :
    Mirrors source (r.slice bytes token) (s.emit kind value n s.regions) := by
  rw [slice, hbytes, h.rest_eq, takeBytes?_take]
  exact ⟨rfl, congrArg some htoken, h.advance n⟩

theorem mirrors_sliceBehind (h : Tracks source r s) {n bytes : Nat} {kind : TokenKind}
    {value : String} {token : List Char → Token} (hbytes : bytes = utf8Len (s.rest.take n))
    (htoken : token (s.rest.take n) = ⟨kind, value, s.position⟩) :
    Mirrors source (r.sliceBehind bytes token) (s.emit kind value n s.regions) := by
  rw [sliceBehind, hbytes, h.rest_eq, takeBytes?_take]
  exact ⟨rfl, congrArg some htoken, h.advance n⟩

theorem token_eq (h : Tracks source r s) (kind : TokenKind) (value : List Char) :
    r.token kind value = ⟨kind, .ofList value, s.position⟩ := by
  rw [token, h.here]

/-- The innermost region and those around it have quotes of one byte. -/
theorem quotes_cons (h : Tracks source r s) {region : Region} {outer : List Region}
    (hregions : s.regions = region :: outer) :
    region.OneByte ∧ ∀ region ∈ outer, region.OneByte :=
  List.forall_mem_cons.mp (hregions ▸ h.quotes)

/-- A character of one byte is taken by its byte. -/
theorem one_eq {c : Char} {cs : List Char} (hs : s.rest = c :: cs) (hc : c.utf8Size = 1) :
    1 = utf8Len (s.rest.take 1) := by
  simp [hs, hc]

/-! ## §3. Code -/

theorem mirrors_lexCloser (h : Tracks source r s) {c : Char} {cs : List Char}
    (hs : s.rest = c :: cs) {bracket : Bracket} (hc : Bracket.closed? c = some bracket)
    {region : Region} {outer : List Region} (hregions : s.regions = region :: outer) :
    Mirrors source (r.lexCloser c bracket region outer) (s.nextCloser c bracket region outer) := by
  obtain ⟨hregion, houter⟩ := h.quotes_cons hregions
  have hone : 1 = utf8Len (s.rest.take 1) := by
    refine one_eq hs ?_
    unfold Bracket.closed? at hc
    split at hc <;> first | rfl | cases hc
  unfold lexCloser
  by_cases hempty : region = .interpolation []
  · subst hempty
    unfold Scan.nextCloser
    by_cases hbracket : bracket = .hash
    · subst hbracket
      -- Only a brace closes a hash.
      have hbrace : c = '}' := by
        unfold Bracket.closed? at hc
        split at hc <;> first | rfl | cases hc
      have htoken : (⟨.interpolateClose, "\x7d", r.here⟩ : Token) =
          ⟨.interpolateClose, .ofList (s.rest.take 1), s.position⟩ := by
        rw [h.here, hs, hbrace]
        rfl
      rw [if_pos ⟨rfl, rfl⟩]
      dsimp only
      rw [if_pos rfl]
      have hmoved := (h.withRegions houter).advance 1
      rw [← hone] at hmoved
      exact ⟨rfl, congrArg some htoken, hmoved⟩
    · rw [if_neg fun hboth => hbracket hboth.2]
      dsimp only
      rw [if_neg hbracket]
      exact h.mirrors_fail _
  · rw [if_neg fun hboth => hempty hboth.1, Scan.nextCloser_of_ne hempty]
    cases region.brackets with
    | nil => exact h.mirrors_fail _
    | cons top brackets =>
      dsimp only
      split
      · have hinner := List.forall_mem_cons.mpr ⟨hregion.withBrackets brackets, houter⟩
        exact (h.withRegions hinner).mirrors_slice hone (h.token_eq _ _)
      · exact h.mirrors_fail _

theorem mirrors_lexPlain (h : Tracks source r s) {c : Char} {cs : List Char}
    (hs : s.rest = c :: cs) {region : Region} {outer : List Region}
    (hregions : s.regions = region :: outer) :
    Mirrors source (r.lexPlain c region outer) (s.nextPlain c region outer) := by
  obtain ⟨hregion, houter⟩ := h.quotes_cons hregions
  unfold lexPlain Scan.nextPlain
  cases hopened : Bracket.opened? c with
  | some bracket =>
    have hc : c.utf8Size = 1 := by
      unfold Bracket.opened? at hopened
      split at hopened <;> first | rfl | cases hopened
    have hinner := List.forall_mem_cons.mpr
      ⟨hregion.withBrackets (bracket :: region.brackets), houter⟩
    exact (h.withRegions hinner).mirrors_sliceBehind (one_eq hs hc) (h.token_eq _ _)
  | none =>
    cases hclosed : Bracket.closed? c with
    | some bracket => exact h.mirrors_lexCloser hs hclosed hregions
    | none =>
      dsimp only
      split
      · next hquote =>
        have hc : c.utf8Size = 1 := by
          rcases (by simpa using hquote : c = '\'' ∨ c = '"') with rfl | rfl <;> rfl
        have hinner : ∀ region ∈ .string c :: s.regions, region.OneByte :=
          List.forall_mem_cons.mpr ⟨hc, h.quotes⟩
        rw [h.regions, ← hregions]
        exact (h.withRegions hinner).mirrors_sliceBehind (one_eq hs hc) (h.token_eq _ _)
      · split
        · next hmark =>
          have hc : c.utf8Size = 1 := by
            have hall : punctuation.all (·.utf8Size == 1) = true := rfl
            simpa using List.all_eq_true.mp hall c (List.contains_iff_mem.mp hmark)
          exact h.mirrors_sliceBehind (one_eq hs hc) (h.token_eq _ _)
        · split
          · rw [h.rest_eq]
            exact h.mirrors_sliceBehind (runBytes_eq_take _ _) (h.token_eq _ _)
          · split
            · rw [h.rest_eq]
              exact h.mirrors_sliceBehind (runBytes_eq_take _ _) (h.token_eq _ _)
            · exact h.mirrors_fail _

theorem mirrors_lexExpression (h : Tracks source r s) {region : Region} {outer : List Region}
    (hregions : s.regions = region :: outer) :
    Mirrors source (r.lexExpression region outer) (s.nextInside region outer) := by
  have hrest := h.rest_eq
  unfold lexExpression Scan.nextInside
  -- Both look at the first character that is left.
  split
  · next hr =>
    split
    · exact h.mirrors_fail _
    · next hs =>
      rw [hrest, hs] at hr
      cases hr
  next c cs hr =>
  rw [hrest] at hr
  split
  · next hs =>
    rw [hr] at hs
    cases hs
  next c' cs' hs =>
  obtain ⟨rfl, rfl⟩ : c = c' ∧ cs = cs' := List.cons.inj (hr.symm.trans hs)
  rw [lexCode, closing?_eq, hrest]
  split
  · exact h.mirrors_sliceBehind (runBytes_eq_take _ _) (h.token_eq _ _)
  · cases hclosing : region.closing? s.rest with
    | some closing =>
      obtain ⟨kind, n, trims⟩ := closing
      have houter := (h.quotes_cons hregions).2
      exact ((h.withRegions houter).withTrim trims).mirrors_slice rfl (h.token_eq _ _)
    | none =>
      dsimp only [Option.map_none]
      cases region.unbalanced? s.rest with
      | some bracket => exact h.mirrors_fail _
      | none =>
        dsimp only
        rw [operatorBytes?_eq]
        cases operatorLength s.rest with
        | some n =>
          refine h.mirrors_slice rfl ?_
          rw [h.here]
        | none => exact h.mirrors_lexPlain hs hregions

theorem mirrors_lexString (h : Tracks source r s) {quote : Char} {outer : List Region}
    (hregions : s.regions = .string quote :: outer) :
    Mirrors source (r.lexString quote outer) (s.nextInString quote outer) := by
  obtain ⟨hquote, houter⟩ := h.quotes_cons hregions
  unfold lexString Scan.nextInString
  rw [h.rest_eq]
  split
  · next hclose =>
    obtain ⟨cs, hs⟩ := List.head?_eq_some_iff.mp (beq_iff_eq.mp hclose)
    exact (h.withRegions houter).mirrors_sliceBehind (one_eq hs hquote) (h.token_eq _ _)
  · split
    · next hopen =>
      obtain ⟨cs, hs⟩ := List.isPrefixOf_iff_prefix.mp (Bool.and_eq_true_iff.mp hopen).2
      have htwo : 2 = utf8Len (s.rest.take 2) := by
        rw [← hs]
        rfl
      have hinner : ∀ region ∈ .interpolation [] :: s.regions, region.OneByte :=
        List.forall_mem_cons.mpr ⟨trivial, h.quotes⟩
      rw [h.regions]
      exact (h.withRegions hinner).mirrors_sliceBehind htwo (h.token_eq _ _)
    · rw [stringEnd?_eq]
      cases hrun : stringRunLength quote s.rest with
      | some n => exact h.mirrors_sliceBehind rfl (h.token_eq _ _)
      | none => exact h.mirrors_fail _

end Tracks

end Reader

/-! ## §4. Literal text and comments -/

theorem length_le_utf8Len (cs : List Char) : cs.length ≤ utf8Len cs := by
  induction cs with
  | nil => exact Nat.le_refl 0
  | cons c cs ih =>
    have := c.utf8Size_pos
    rw [List.length_cons, String.utf8Len_cons]
    omega

/-- A trim marker is looked for behind the two characters of a delimiter. -/
theorem marked_eq {cs : List Char} (h : cs = [] ∨ opensRegion cs = true) :
    Reader.marked (some cs) = ((cs.drop 2).head? == some '-') := by
  rcases h with rfl | h
  · rfl
  · obtain ⟨c, more, rfl, hc⟩ := eq_of_opensRegion h
    have htwo : utf8Len ['{', c] = 2 := by rcases hc with rfl | rfl | rfl <;> rfl
    have hdrop := dropBytes?_append ['{', c] more
    rw [htwo] at hdrop
    rw [Reader.marked, Option.bind_some, show '{' :: c :: more = ['{', c] ++ more from rfl, hdrop]
    rfl

/-- A comment ends with two characters of one byte each. -/
theorem utf8Len_comment {cs : List Char} {n : Nat} (h : commentLength cs = some n) :
    utf8Len (cs.take n) = utf8Len (cs.take (n - 2)) + 2 := by
  fun_induction commentLength cs generalizing n with
  | case1 => cases h
  | case2 => cases h; rfl
  | case3 c cs _ ih =>
    obtain ⟨m, hm, rfl⟩ := Option.map_eq_some_iff.mp h
    obtain ⟨k, rfl⟩ := Nat.exists_eq_add_of_le' (two_le_commentLength hm)
    have hk := ih hm
    show utf8Len ((c :: cs).take (k + 2 + 1)) = utf8Len ((c :: cs).take (k + 1)) + 2
    rw [List.take_succ_cons, List.take_succ_cons, String.utf8Len_cons, String.utf8Len_cons]
    simp only [Nat.add_sub_cancel] at hk
    omega

/-- A comment is as short as its opening delimiter in bytes if it is so in characters. -/
theorem two_lt_utf8Len_take (cs : List Char) (n : Nat) :
    2 < utf8Len (('{' :: '#' :: cs).take n) ↔ 2 < (('{' :: '#' :: cs).take n).length := by
  have hle := length_le_utf8Len (('{' :: '#' :: cs).take n)
  refine ⟨fun h => ?_, fun h => Nat.lt_of_lt_of_le h hle⟩
  match n, cs with
  | 0, _ | 1, _ | 2, _ | _ + 3, [] => exact h
  | m + 3, c :: cs => simp

namespace Scan

variable {s : Scan}

theorem nextOutside_delimiter {c : Char} {cs : List Char} (h : s.rest = '{' :: c :: cs)
    (hc : c = '%' ∨ c = '{' ∨ c = '#') :
    s.nextOutside =
      if c = '#' then
        match commentLength s.rest with
        | some n => s.takeComment n
        | none => s.fail "unclosed comment"
      else if c = '%' then s.takeOpener .tagOpen (.tag [])
      else s.takeOpener .printOpen (.print []) := by
  rcases hc with rfl | rfl | rfl
  · exact nextOutside_tag h
  · exact nextOutside_print h
  · exact nextOutside_comment h

end Scan

namespace Reader

/-- A turn does what a step does: one that gives nothing leaves no token behind. -/
def MirrorsTurn (source : List Char) : Turn → Scan.Step → Prop
  | .answer a, step => Mirrors source a step
  | .again r, .lexeme found t => found.token = none ∧ Tracks source r t
  | .again _, .final _ => False

namespace Tracks

variable {source : List Char} {r : Reader} {s : Scan}

theorem mirrors_turnText (h : Tracks source r s) :
    MirrorsTurn source (r.turnText (r.offset + utf8Len (literalRun s.rest)))
      (s.takeText (literalRun s.rest)) := by
  have hrun : s.rest.take (literalRun s.rest).length = literalRun s.rest :=
    (List.prefix_iff_eq_take.mp ⟨_, Scan.literalRun_append_drop s.rest⟩).symm
  have hbetween := h.between_eq (literalRun s.rest).length
  have hbehind := h.dropBytes?_eq (literalRun s.rest).length
  have hmoved := (h.withTrim false).advance (literalRun s.rest).length
  rw [hrun] at hbetween hbehind
  dsimp only at hmoved
  rw [hrun] at hmoved
  have hmarked : marked (some (s.rest.drop (literalRun s.rest).length)) =
      ((s.rest.drop ((literalRun s.rest).length + 2)).head? == some '-') := by
    rw [marked_eq (opensRegion_of_literalRun (literalRun_drop s.rest)), List.drop_drop]
  -- Both trim the same text in the same way.
  have htext : r.trimmedText (r.offset + utf8Len (literalRun s.rest)) =
      (if (s.rest.drop ((literalRun s.rest).length + 2)).head? == some '-' then
        trimEnd (if s.trimNext then trimStart (literalRun s.rest) else literalRun s.rest)
      else if s.trimNext then trimStart (literalRun s.rest) else literalRun s.rest) := by
    rw [trimmedText, hbetween, hbehind, hmarked, h.trimNext]
  rw [turnText, h.token_eq, Scan.takeText, ← htext]
  dsimp only
  cases hempty : (r.trimmedText (r.offset + utf8Len (literalRun s.rest))).isEmpty with
  | true => exact ⟨rfl, hmoved⟩
  | false => exact ⟨rfl, rfl, hmoved⟩

theorem mirrors_turnComment (h : Tracks source r s) {cs : List Char}
    (hs : s.rest = '{' :: '#' :: cs) :
    MirrorsTurn source r.turnComment
      (match commentLength s.rest with
        | some n => s.takeComment n
        | none => s.fail "unclosed comment") := by
  rw [turnComment, h.rest_eq, findBytes?_comment]
  cases hlength : commentLength s.rest with
  | none => exact h.mirrors_fail _
  | some n =>
    have hbody : (takeBytes? (utf8Len (s.rest.take (n - 2))) s.rest).getD [] =
        s.rest.take (n - 2) := by
      rw [takeBytes?_take, Option.getD_some]
    refine ⟨rfl, ?_⟩
    dsimp only
    rw [hbody, ← utf8Len_comment hlength]
    have hlong := two_lt_utf8Len_take cs (n - 2)
    rw [← hs] at hlong
    simp only [hlong]
    exact (h.withTrim _).advance n

theorem mirrors_turnOpener (h : Tracks source r s) {c : Char} {cs : List Char}
    (hs : s.rest = '{' :: c :: cs) (hc : c = '%' ∨ c = '{') :
    Mirrors source { r with trimNext := false }.turnOpener
      (if c = '%' then s.takeOpener .tagOpen (.tag [])
      else s.takeOpener .printOpen (.print [])) := by
  have hopens : opensRegion s.rest = true := by
    rw [hs]
    rcases hc with rfl | rfl <;> rfl
  have hmarked := marked_eq (.inr hopens)
  have hrest : ({ r with trimNext := false } : Reader).rest = s.rest := h.rest_eq
  -- The delimiter and its marker are characters of one byte each.
  have hbytes : (if marked (some s.rest) then 3 else 2) =
      utf8Len (s.rest.take (if (s.rest.drop 2).head? == some '-' then 3 else 2)) := by
    rw [hmarked, hs]
    split
    · next hdash =>
      obtain ⟨more, rfl⟩ : ∃ more, cs = '-' :: more :=
        List.head?_eq_some_iff.mp (by simpa using hdash)
      rcases hc with rfl | rfl <;> rfl
    · rcases hc with rfl | rfl <;> rfl
  unfold turnOpener Scan.takeOpener
  rw [hrest, hbytes]
  have hmoved (region : Region) (hregion : region.OneByte) := ((h.withTrim false).advance
    (if (s.rest.drop 2).head? == some '-' then 3 else 2)).withRegions
      (List.forall_mem_cons.mpr ⟨hregion, h.quotes⟩)
  have hhere : ({ r with trimNext := false } : Reader).here = s.position := h.here
  rw [hhere]
  rcases hc with rfl | rfl
  · have htag : ['{', '%'].isPrefixOf s.rest = true := by
      rw [hs]
      rfl
    rw [htag, if_pos rfl, if_pos rfl]
    refine ⟨rfl, ?_, h.regions ▸ hmoved (.tag []) trivial⟩
    rw [hs]
    rfl
  · have htag : ['{', '%'].isPrefixOf s.rest = false := by
      rw [hs]
      rfl
    rw [htag, if_neg Bool.false_ne_true]
    simp only [show ('{' : Char) ≠ '%' by decide, if_false]
    refine ⟨rfl, ?_, h.regions ▸ hmoved (.print []) trivial⟩
    rw [hs]
    rfl

/-- One turn of the reader is one step of the lexer. -/
theorem mirrors_turn (h : Tracks source r s) : MirrorsTurn source r.turn s.nextOutside := by
  have htotal : utf8Len r.input = r.offset + utf8Len s.rest := by
    rw [h.input, h.offset_add]
  have hlast : ((openerAt? r.rest).map (r.offset + ·)).getD (utf8Len r.input) =
      r.offset + utf8Len (literalRun s.rest) := by
    rw [h.rest_eq, htotal, ← openerAt?_getD]
    cases openerAt? s.rest <;> rfl
  unfold turn
  rw [hlast, htotal]
  by_cases hnil : s.rest = []
  · have hend : r.offset + utf8Len s.rest ≤ r.offset := by
      rw [hnil]
      exact Nat.le_refl _
    rw [if_pos hend, finish, h.here, Scan.nextOutside_nil hnil]
    exact ⟨rfl, rfl⟩
  · have hmore : 0 < utf8Len s.rest :=
      Nat.pos_of_ne_zero fun hzero => hnil (String.utf8Len_eq_zero.mp hzero)
    rw [if_neg (by omega)]
    dsimp only
    by_cases hrun : literalRun s.rest = []
    · -- A delimiter stands here.
      obtain ⟨c, cs, hs, hc⟩ :=
        eq_of_opensRegion ((opensRegion_of_literalRun hrun).resolve_left hnil)
      have hrest : ({ r with trimNext := false } : Reader).rest = s.rest := h.rest_eq
      have hnone : ¬ r.offset < r.offset + utf8Len (literalRun s.rest) := by
        rw [hrun]
        exact Nat.lt_irrefl _
      rw [if_neg hnone, hrest, Scan.nextOutside_delimiter hs hc]
      by_cases hcomment : c = '#'
      · subst hcomment
        rw [if_pos (by rw [hs]; rfl), if_pos rfl]
        exact (h.withTrim false).mirrors_turnComment hs
      · have hplain : ¬ ['{', '#'].isPrefixOf s.rest = true := by
          rw [hs]
          simpa [List.isPrefixOf] using Ne.symm hcomment
        rw [if_neg hplain, if_neg hcomment]
        exact h.mirrors_turnOpener hs (by tauto)
    · have hpos : 0 < utf8Len (literalRun s.rest) :=
        Nat.pos_of_ne_zero fun hzero => hrun (String.utf8Len_eq_zero.mp hzero)
      rw [if_pos (by omega), Scan.nextOutside_text hrun]
      exact h.mirrors_turnText

end Tracks

/-! ## §5. Calls -/

/-- What a call comes to: a token that steps of the lexer leave behind, with more of the source
read, or the token that ends the stream. -/
inductive Follows (source : List Char) (s : Scan) (a : Answer) : Prop
  | token {token : Token} {t : Scan} : s.Yields [token] t → t.rest.length < s.rest.length →
    utf8Len t.rest < utf8Len s.rest → a.1 = some token → Tracks source a.2 t → Follows source s a
  | last {token : Token} {t : Scan} : s.Yields [] t → t.next = .final token →
    a.1 = some token → a.2.done = true → Follows source s a

/-- A step leaves fewer bytes. -/
theorem utf8Len_rest_lt {s t : Scan} {found : Lexeme} (h : s.next = .lexeme found t) :
    utf8Len t.rest < utf8Len s.rest := by
  have hconsumes := s.consumes_next
  rw [h] at hconsumes
  obtain ⟨hspan, hrest⟩ := hconsumes
  have hpos := Nat.pos_of_ne_zero fun hzero => hspan (String.utf8Len_eq_zero.mp hzero)
  rw [← hrest, String.utf8Len_append]
  omega

theorem Mirrors.follows {source : List Char} {s : Scan} {a : Answer}
    (h : Mirrors source a s.next) : Follows source s a := by
  cases hnext : s.next with
  | lexeme found t =>
    rw [hnext] at h
    obtain ⟨hsome, hanswer, htracks⟩ := h
    obtain ⟨token, htoken⟩ := Option.isSome_iff_exists.mp hsome
    have hyields : s.Yields (found.token.toList ++ []) t := .step hnext (.refl t)
    rw [htoken] at hyields hanswer
    exact .token hyields (Scan.length_rest_lt hnext) (utf8Len_rest_lt hnext) hanswer htracks
  | final token =>
    rw [hnext] at h
    exact .last (.refl s) hnext h.1 h.2

/-- A step that leaves nothing behind may come first. -/
theorem Follows.of_step {source : List Char} {s t : Scan} {found : Lexeme} {a : Answer}
    (hnext : s.next = .lexeme found t) (hnone : found.token = none) (h : Follows source t a) :
    Follows source s a := by
  have hyields {tokens : List Token} {u : Scan} (h : t.Yields tokens u) : s.Yields tokens u := by
    have hmore : s.Yields (found.token.toList ++ tokens) u := .step hnext h
    rwa [hnone] at hmore
  cases h with
  | token hsteps hlt hbytes hanswer htracks =>
    exact .token (hyields hsteps) (hlt.trans (Scan.length_rest_lt hnext))
      (hbytes.trans (utf8Len_rest_lt hnext)) hanswer htracks
  | last hsteps hfinal hanswer hdone => exact .last (hyields hsteps) hfinal hanswer hdone

namespace Tracks

variable {source : List Char} {r : Reader} {s : Scan}

/-- Outside of all regions a call takes one turn after the other. -/
theorem follows_lexData {r : Reader} {s : Scan} (h : Tracks source r s)
    (hregions : s.regions = []) : Follows source s r.lexData := by
  have hnext : s.next = s.nextOutside := by rw [Scan.next, hregions]
  have hturn := h.mirrors_turn
  rw [← hnext] at hturn
  rw [lexData]
  split
  · next a ha =>
    rw [ha] at hturn
    exact Mirrors.follows hturn
  · next next hagain =>
    rw [hagain] at hturn
    cases hstep : s.next with
    | final token =>
      rw [hstep] at hturn
      cases hturn
    | lexeme found t =>
      rw [hstep] at hturn
      obtain ⟨hnone, htracks⟩ := hturn
      have hlt := Scan.length_rest_lt hstep
      have houtside : t.regions = [] := by
        rw [← htracks.regions, (turn_again hagain).2.1, h.regions, hregions]
      exact .of_step hstep hnone (follows_lexData htracks houtside)
termination_by s.rest.length

/-- A call does what steps of the lexer do. -/
theorem follows_next (h : Tracks source r s) : Follows source s r.next := by
  rw [next, h.going, if_neg Bool.false_ne_true, h.regions]
  split
  · next hregions => exact h.follows_lexData hregions
  · next quote outer hregions =>
    have hnext : s.next = s.nextInString quote outer := by rw [Scan.next, hregions]
    have hmirrors := h.mirrors_lexString hregions
    rw [← hnext] at hmirrors
    exact hmirrors.follows
  · next region outer hstring hregions =>
    have hnext : s.next = s.nextInside region outer := by
      unfold Scan.next
      rw [hregions]
      cases region with
      | tag | print | interpolation => rfl
      | string quote => exact absurd rfl (hstring quote)
    have hmirrors := h.mirrors_lexExpression hregions
    rw [← hnext] at hmirrors
    exact hmirrors.follows

end Tracks

/-! ## §6. All calls -/

/-- The calls of a reader give tokens, each from more of the source, and then the token that ends
the stream. -/
inductive Gives : Reader → List Token → Token → Prop
  | last {r : Reader} {final : Token} : r.done = false → r.next.1 = some final →
    r.next.2.done = true → Gives r [] final
  | more {r : Reader} {token final : Token} {tokens : List Token} : r.done = false →
    r.next.1 = some token → r.offset < r.next.2.offset → Gives r.next.2 tokens final →
    Gives r (token :: tokens) final

/-- A reader gives what the lexer leaves behind from the same place, and not more tokens than bytes
are left. -/
theorem Tracks.gives {source : List Char} {r : Reader} {s : Scan} (h : Tracks source r s) :
    ∃ tokens t final, s.Yields tokens t ∧ t.next = .final final ∧ r.Gives tokens final ∧
      tokens.length ≤ utf8Len s.rest := by
  cases h.follows_next with
  | last hsteps hfinal hanswer hdone =>
    exact ⟨[], _, _, hsteps, hfinal, .last h.going hanswer hdone, Nat.zero_le _⟩
  | @token token t hsteps hlt hbytes hanswer htracks =>
    obtain ⟨tokens, u, final, hmore, hfinal, hgives, hcount⟩ := htracks.gives
    have hoffset : r.offset < r.next.2.offset := by
      have hhere := h.offset_add
      have hthere := htracks.offset_add
      omega
    refine ⟨token :: tokens, u, final, hsteps.trans hmore, hfinal,
      .more h.going hanswer hoffset hgives, ?_⟩
    rw [List.length_cons]
    omega
termination_by s.rest.length

namespace Gives

variable {r : Reader} {tokens : List Token} {final : Token}

theorem next_of_done {r : Reader} (h : r.done = true) : r.next = (none, r) := by
  rw [next, if_pos h]

theorem after_of_done {r : Reader} (h : r.done = true) (n : Nat) : r.after n = r := by
  induction n with
  | zero => rfl
  | succ n ih => rw [after, next_of_done h, ih]

/-- The answers are the tokens, the last one, and nothing from then on. -/
theorem answer_eq (h : r.Gives tokens final) (n : Nat) :
    r.answer n = (tokens ++ [final])[n]? := by
  induction h generalizing n with
  | last _ hanswer hdone =>
    cases n with
    | zero => exact hanswer
    | succ n => rw [answer, after, after_of_done hdone, next_of_done hdone]; rfl
  | more _ hanswer _ _ ih =>
    cases n with
    | zero => exact hanswer
    | succ n => exact ih n

/-- Every token but the last takes bytes off the source. -/
theorem offset_lt (h : r.Gives tokens final) {n : Nat} (hn : n < tokens.length) :
    (r.after n).offset < (r.after (n + 1)).offset := by
  induction h generalizing n with
  | last => exact absurd hn (Nat.not_lt_zero n)
  | more _ _ hoffset _ ih =>
    cases n with
    | zero => exact hoffset
    | succ n => exact ih (Nat.lt_of_succ_lt_succ hn)

/-- As long as the stream has not ended, there is an answer. -/
theorem isSome_next (h : r.Gives tokens final) (n : Nat) (hgoing : (r.after n).done = false) :
    (r.after n).next.1.isSome = true := by
  induction h generalizing n with
  | last _ hanswer hdone =>
    cases n with
    | zero => exact Option.isSome_iff_exists.mpr ⟨_, hanswer⟩
    | succ n =>
      rw [after, after_of_done hdone, hdone] at hgoing
      cases hgoing
  | more _ hanswer _ _ ih =>
    cases n with
    | zero => exact Option.isSome_iff_exists.mpr ⟨_, hanswer⟩
    | succ n => exact ih n hgoing

end Gives

/-- The reader of a source gives its stream. -/
theorem gives_lex (source : String) :
    (start source).Gives (lex source).tokens (lex source).final ∧
      (lex source).tokens.length ≤ source.utf8ByteSize := by
  obtain ⟨tokens, t, final, hsteps, hfinal, hgives, hcount⟩ := (tracks_start source).gives
  obtain ⟨htokens, hlast⟩ := hsteps.lexemes_eq hfinal _ (Nat.lt_succ_self _)
  have hlex : lex source = ⟨tokens, final⟩ := by
    rw [← htokens, ← hlast]
    rfl
  rw [hlex]
  exact ⟨hgives, by rwa [← String.utf8Len_toList]⟩

/-- **Calls of a reader.**  The calls give the tokens of the source one after the other and nothing
once the stream has ended.  There is at most one token more than the source has bytes: each but the
last takes at least one byte, and the last one alone is an error or the end of the input.  A call
without an answer is made only after the end, so that every length that is cut off is a place to
cut at. -/
theorem answer_eq_lex (source : String) :
    (∀ n, (start source).answer n = (lex source).all[n]?) ∧
      (lex source).all.length ≤ source.utf8ByteSize + 1 ∧
      (∀ n < (lex source).tokens.length,
        ((start source).after n).offset < ((start source).after (n + 1)).offset) ∧
      (∀ token ∈ (lex source).tokens, token.kind ≠ .eof ∧ token.kind ≠ .error) ∧
      ((lex source).final.kind = .eof ∨ (lex source).final.kind = .error) ∧
      ∀ n, ((start source).after n).done = false →
        ((start source).after n).next.1.isSome = true := by
  obtain ⟨hgives, hcount⟩ := gives_lex source
  refine ⟨hgives.answer_eq, ?_, fun n hn => hgives.offset_lt hn, fun token htoken => ?_, ?_,
    fun n => hgives.isSome_next n⟩
  · rw [TokenStream.all, List.length_append, List.length_singleton]
    omega
  · have hkind := isFinal_of_mem_lex htoken
    constructor <;> · intro h; rw [h] at hkind; cases hkind
  · have hkind := isFinal_lex source
    generalize (lex source).final.kind = kind at hkind
    cases kind <;> first | exact .inl rfl | exact .inr rfl | cases hkind

end Reader

end Stencil
