import Stencil.Proofs.Token.Choices
import Stencil.Proofs.Token.Spelling

/-!
What becomes of the text of a source.

Every character of a source belongs to exactly one lexeme.  A comment leaves nothing behind.  A
lexeme of code leaves a token whose value is its text.  Literal text, which reaches from one
construct to the next, leaves its text without the blanks that trim markers beside it remove, and no
token if that is nothing.

Whether literal text is trimmed at its start was seen by the lexer a step earlier and is remembered
in its state, so what a lexeme stands for depends on the one before it.  `Scan.Follows` says what a
state knows about that lexeme, and one step keeps it.
-/

namespace Stencil

open Stencil.Text Stencil.Token

/-! ## §1. What a span of source becomes -/

namespace Token

/-- A token whose value is the text of a span.  The trim marker of an opening delimiter is not part
of the value, and in the value of an operator a space stands for each run of blanks. -/
def Spells (token : Token) (span : List Char) : Prop :=
  match token.kind with
  | .tagOpen | .printOpen => span = token.value.toList ∨ span = token.value.toList ++ ['-']
  | .operator => token.value.toList = squeezed span
  | _ => token.value.toList = span

end Token

namespace Lexeme

/-- Whether a lexeme is a comment. -/
def isComment (lexeme : Lexeme) : Bool :=
  lexeme.token.isNone && ['{', '#'].isPrefixOf lexeme.span && ['#', '}'].isSuffixOf lexeme.span

/-- Whether a lexeme is a comment or begins a tag or a print. -/
def opens (lexeme : Lexeme) : Bool :=
  lexeme.isComment || lexeme.token.any fun token => [.tagOpen, .printOpen].contains token.kind

/-- Whether a lexeme is a comment or ends a tag or a print. -/
def closes (lexeme : Lexeme) : Bool :=
  lexeme.isComment || lexeme.token.any fun token => [.tagClose, .printClose].contains token.kind

/-- Whether a comment, a tag or a print ends with a trim marker, which stands before the two
characters of its delimiter. -/
def trimsAfter (lexeme : Lexeme) : Bool :=
  lexeme.closes && lexeme.span.reverse[2]? == some '-'

/-- What is left of a run of literal text: without the blanks at its start where the construct
before it ends with a trim marker, and without those at its end where the delimiter after it, of two
characters, is followed by one. -/
def kept (before : Option Lexeme) (run : List Char) (after : List Lexeme) : List Char :=
  let text := if before.any trimsAfter then trimStart run else run
  if (after.flatMap Lexeme.span)[2]? == some '-' then trimEnd text else text

/-- A run of literal text between the lexeme before it and those after it. -/
structure IsLiteral (before : Option Lexeme) (lexeme : Lexeme) (after : List Lexeme) : Prop where
  nonempty : lexeme.span ≠ []
  /-- Literal text does not go further back. -/
  preceded : ∀ previous ∈ before, previous.closes
  /-- It does not go further on. -/
  followed : ∀ next ∈ after.head?, next.opens
  /-- No delimiter begins in it. -/
  uninterrupted : ∀ cs ds, lexeme.span = cs ++ ds → ds ≠ [] →
    opensRegion (ds ++ after.flatMap Lexeme.span) = false
  /-- Its token is the text that is kept, and there is none if that is nothing. -/
  text : lexeme.token.map (fun token => (token.kind, token.value)) =
    if kept before lexeme.span after = [] then none
    else some (.text, .ofList (kept before lexeme.span after))

/-- What a lexeme is between the one before it and those after it. -/
inductive Fits (before : Option Lexeme) (lexeme : Lexeme) (after : List Lexeme) : Prop
  | comment : lexeme.isComment → Fits before lexeme after
  | code (token : Token) : lexeme.token = some token → token.kind ≠ .text → lexeme.span ≠ [] →
      token.Spells lexeme.span → Fits before lexeme after
  | literal : lexeme.IsLiteral before after → Fits before lexeme after

end Lexeme

/-- Lexemes that fit where they stand, after the one before them. -/
def Fit (before : Option Lexeme) : List Lexeme → Prop
  | [] => True
  | lexeme :: after => lexeme.Fits before after ∧ Fit (some lexeme) after

/-! ## §2. Extents -/

/-- A comment is what comes before the first `#}`, and that. -/
theorem exists_of_commentLength {cs : List Char} {n : Nat} (h : commentLength cs = some n) :
    ∃ body, body <+: cs ∧ cs.take n = body ++ ['#', '}'] ∧ n = body.length + 2 := by
  induction cs using commentLength.induct generalizing n with
  | case1 => cases h
  | case2 more =>
    cases h
    exact ⟨[], List.nil_prefix, rfl, rfl⟩
  | case3 c cs hne ih =>
    rw [commentLength] at h
    · obtain ⟨m, hm, rfl⟩ := Option.map_eq_some_iff.mp h
      obtain ⟨body, hbody, hspan, rfl⟩ := ih hm
      refine ⟨c :: body, (List.prefix_cons_inj c).mpr hbody, ?_, rfl⟩
      rw [List.take_succ_cons, hspan, List.cons_append]
    · exact hne

theorem isComment_take {cs more : List Char} {n : Nat} (hcs : cs = '{' :: '#' :: more)
    (h : commentLength cs = some n) : (Lexeme.mk (cs.take n) none).isComment = true := by
  obtain ⟨body, -, hspan, rfl⟩ := exists_of_commentLength h
  have hstart : ['{', '#'].isPrefixOf (cs.take (body.length + 2)) = true := by
    rw [hcs, List.take_succ_cons, List.take_succ_cons]
    rfl
  have hend : ['#', '}'].isSuffixOf (cs.take (body.length + 2)) = true := by
    rw [hspan, List.isSuffixOf_iff_suffix]
    exact List.suffix_append _ _
  simp [Lexeme.isComment, hstart, hend]

/-- Whether a comment trims is to be seen at its end. -/
theorem trims_of_commentLength {cs more : List Char} {n : Nat} (hcs : cs = '{' :: '#' :: more)
    (h : commentLength cs = some n) :
    (decide (2 < (cs.take (n - 2)).length) && (cs.take (n - 2)).getLast? == some '-') =
      ((cs.take n).reverse[2]? == some '-') := by
  obtain ⟨body, hbody, hspan, rfl⟩ := exists_of_commentLength h
  have hlast : (body ++ ['#', '}']).reverse[2]? = body.getLast? := by
    rw [List.getLast?_eq_head?_reverse, List.head?_eq_getElem?, List.reverse_append]
    rfl
  have htake : cs.take (body.length + 2 - 2) = body := (List.prefix_iff_eq_take.mp hbody).symm
  rw [htake, hspan, hlast]
  by_cases hlong : 2 < body.length
  · simp [hlong]
  -- The first two characters of a comment are no marker.
  · have hnone : body.getLast? ≠ some '-' := by
      rw [hcs] at hbody
      match body with
      | [] => nofun
      | [c] =>
        obtain ⟨rfl, -⟩ := List.cons_prefix_cons.mp hbody
        decide
      | [c, d] =>
        obtain ⟨-, hbody⟩ := List.cons_prefix_cons.mp hbody
        obtain ⟨rfl, -⟩ := List.cons_prefix_cons.mp hbody
        nofun
      | _ :: _ :: _ :: _ => simp at hlong
    simp [hlong, hnone]

/-- After a run of literal text comes a delimiter or the end. -/
theorem literalRun_drop (cs : List Char) : literalRun (cs.drop (literalRun cs).length) = [] := by
  induction cs with
  | nil => rfl
  | cons c cs ih =>
    by_cases hopens : opensRegion (c :: cs) = true
    · simp [literalRun, hopens]
    · simpa [literalRun, hopens] using ih

/-- No delimiter begins in a run of literal text. -/
theorem opensRegion_of_literalRun_eq {cs ds es : List Char} (h : literalRun cs = ds ++ es)
    (hes : es ≠ []) : opensRegion (es ++ cs.drop (literalRun cs).length) = false := by
  induction cs generalizing ds with
  | nil =>
    obtain ⟨-, hnil⟩ := List.append_eq_nil_iff.mp h.symm
    exact absurd hnil hes
  | cons c cs ih =>
    by_cases hopens : opensRegion (c :: cs) = true
    · rw [literalRun, if_pos hopens] at h
      obtain ⟨-, hnil⟩ := List.append_eq_nil_iff.mp h.symm
      exact absurd hnil hes
    · have hrun : literalRun (c :: cs) = c :: literalRun cs := by rw [literalRun, if_neg hopens]
      rw [hrun] at h ⊢
      rw [List.length_cons, List.drop_succ_cons]
      cases ds with
      | nil =>
        rw [List.nil_append] at h
        rw [← h, List.cons_append, Scan.literalRun_append_drop]
        simpa using hopens
      | cons d ds =>
        obtain ⟨-, h⟩ := List.cons.inj h
        exact ih h

/-- What closes a tag or a print says with a marker whether it trims. -/
theorem trims_of_closing? {region : Region} {cs : List Char} {kind : TokenKind} {n : Nat}
    {trims : Bool} (h : region.closing? cs = some (kind, n, trims)) :
    [TokenKind.tagClose, .printClose].contains kind ∧
      ((cs.take n).reverse[2]? == some '-') = trims := by
  unfold Region.closing? at h
  split at h
  · next kind' delimiter hdelimiter _ =>
    have hlength : delimiter.length = 2 := by cases region <;> cases hdelimiter <;> rfl
    have hkind : [TokenKind.tagClose, .printClose].contains kind' := by
      cases region <;> cases hdelimiter <;> rfl
    by_cases hplain : delimiter.isPrefixOf cs = true
    · rw [if_pos hplain] at h
      cases h
      have hspan := List.prefix_iff_eq_take.mp (List.isPrefixOf_iff_prefix.mp hplain)
      refine ⟨hkind, ?_⟩
      rw [← hspan, List.getElem?_eq_none (by simp [hlength])]
      rfl
    · rw [if_neg hplain] at h
      by_cases hmarked : ('-' :: delimiter).isPrefixOf cs = true
      · rw [if_pos hmarked] at h
        cases h
        have hspan := List.prefix_iff_eq_take.mp (List.isPrefixOf_iff_prefix.mp hmarked)
        rw [List.length_cons] at hspan
        refine ⟨hkind, ?_⟩
        rw [← hspan, List.reverse_cons, List.getElem?_append_right (by simp [hlength])]
        simp [hlength]
      · rw [if_neg hmarked] at h
        cases h
  · cases h

/-! ## §3. What a state knows about the lexeme before it -/

/-- The outermost of the regions that are open is a tag or a print. -/
def Grounded (regions : List Region) : Prop :=
  ∀ region ∈ regions.getLast?, region.delimiter?.isSome

namespace Grounded

variable {region : Region} {outer : List Region}

theorem of_eq_nil {regions : List Region} (h : regions = []) : Grounded regions := by
  rw [h]
  nofun

theorem push (h : Grounded (region :: outer)) (inner : Region) :
    Grounded (inner :: region :: outer) := by
  unfold Grounded
  rwa [List.getLast?_cons_cons]

theorem pop (h : Grounded (region :: outer)) : Grounded outer := by
  cases outer with
  | nil => nofun
  | cons next outer =>
    unfold Grounded at h
    rwa [List.getLast?_cons_cons] at h

theorem withBrackets (h : Grounded (region :: outer)) (brackets : List Bracket) :
    Grounded (region.withBrackets brackets :: outer) := by
  cases outer with
  | nil =>
    have hregion := h region rfl
    rintro _ ⟨⟩
    cases region <;> first | rfl | exact hregion
  | cons next outer => exact h.pop.push _

/-- What is neither a tag nor a print is inside of something. -/
theorem ne_nil (h : Grounded (region :: outer)) (hregion : region.delimiter? = none) :
    outer ≠ [] := by
  rintro rfl
  have hsome := h region rfl
  rw [hregion] at hsome
  cases hsome

end Grounded

namespace Scan

/-- A state after a lexeme. -/
structure Follows (s : Scan) (before : Option Lexeme) : Prop where
  grounded : Grounded s.regions
  /-- A trim marker is remembered until the next lexeme outside of all regions. -/
  trims : s.regions = [] → s.trimNext = before.any Lexeme.trimsAfter
  /-- Literal text does not come after literal text. -/
  closed : s.regions = [] → literalRun s.rest ≠ [] → ∀ previous ∈ before, previous.closes

/-- What is taken in a step fits between the lexeme before it and any lexemes that make up the rest
of the source. -/
structure Step.Taken (s : Scan) (before : Option Lexeme) (found : Lexeme) (next : Scan) : Prop where
  follows : next.Follows (some found)
  opens : s.regions = [] → literalRun s.rest = [] → found.opens
  fits : ∀ after, after.flatMap Lexeme.span = next.rest →
    (next.regions = [] → literalRun next.rest = [] → ∀ lexeme ∈ after.head?, lexeme.opens) →
    found.Fits before after

/-! ## §4. One step -/

variable {s t : Scan} {before : Option Lexeme}

/-- A token of code that leaves the lexer in code. -/
theorem taken_code {found : Lexeme} {token : Token} {region : Region} {outer : List Region}
    (hs : s.regions = region :: outer) (ht : t.regions ≠ []) (hground : Grounded t.regions)
    (htoken : found.token = some token) (hkind : token.kind ≠ .text) (hspan : found.span ≠ [])
    (hspells : token.Spells found.span) :
    Step.Taken s before found t where
  follows := ⟨hground, fun hnil => absurd hnil ht, fun hnil => absurd hnil ht⟩
  opens := fun hnil => absurd (hs.symm.trans hnil) (List.cons_ne_nil region outer)
  fits := fun _ _ _ => .code token htoken hkind hspan hspells

/-- A token whose value is its text, of a kind that makes no exception. -/
theorem spells_of_value {token : Token} {span : List Char}
    (hkind : token.kind ∉ [.tagOpen, .printOpen, .operator]) (hvalue : token.value = .ofList span) :
    token.Spells span := by
  have hvalue : token.value.toList = span := by rw [hvalue, String.toList_ofList]
  unfold Token.Spells
  split
  · next h => simp [h] at hkind
  · next h => simp [h] at hkind
  · next h => simp [h] at hkind
  · exact hvalue

theorem taken_take {kind : TokenKind} {n : Nat} {regions : List Region} {region : Region}
    {outer : List Region} (hs : s.regions = region :: outer) (ht : regions ≠ [])
    (hground : Grounded regions) (hkind : kind ∉ [.text, .tagOpen, .printOpen, .operator])
    (hspan : s.rest.take n ≠ []) :
    Step.Taken s before ⟨s.rest.take n, some ⟨kind, .ofList (s.rest.take n), s.position⟩⟩
      { s.move n with regions := regions } := by
  obtain ⟨htext, hother⟩ := not_or.mp (List.mem_cons.not.mp hkind)
  exact taken_code hs ht hground rfl htext hspan (spells_of_value hother rfl)

/-- A comment leaves its trim marker to the text after it. -/
theorem taken_comment {cs : List Char} {n : Nat} (hs : s.regions = [])
    (hrest : s.rest = '{' :: '#' :: cs) (hlength : commentLength s.rest = some n)
    (trimNext : Bool)
    (htrim : trimNext = ((s.rest.take n).reverse[2]? == some '-')) :
    Step.Taken s before ⟨s.rest.take n, none⟩ { s.move n with trimNext := trimNext } := by
  have hcomment := isComment_take hrest hlength
  refine ⟨⟨?_, fun _ => ?_, fun _ _ => ?_⟩, fun _ _ => ?_, fun _ _ _ => .comment hcomment⟩
  · exact .of_eq_nil hs
  · simp [Lexeme.trimsAfter, Lexeme.closes, hcomment, htrim]
  · rintro _ ⟨⟩
    simp [Lexeme.closes, hcomment]
  · simp [Lexeme.opens, hcomment]

/-- An opening delimiter is two characters, and its trim marker if there is one. -/
theorem take_opener (cs : List Char) {n : Nat}
    (hn : n = if (cs.drop 2).head? == some '-' then 3 else 2) :
    cs.take n = cs.take 2 ∨ cs.take n = cs.take 2 ++ ['-'] := by
  by_cases hmarked : ((cs.drop 2).head? == some '-') = true
  · rw [if_pos hmarked] at hn
    have hmarker : cs[2]? = some '-' := by simpa using hmarked
    exact .inr (by rw [hn, List.take_add_one, hmarker]; rfl)
  · rw [if_neg hmarked] at hn
    exact .inl (by rw [hn])

theorem taken_opener {kind : TokenKind} {region : Region} (hs : s.regions = [])
    (hkind : kind = .tagOpen ∨ kind = .printOpen) (hregion : region.delimiter?.isSome) {n : Nat}
    (hn : n = if (s.rest.drop 2).head? == some '-' then 3 else 2) (hspan : s.rest.take n ≠ []) :
    Step.Taken s before ⟨s.rest.take n, some ⟨kind, .ofList (s.rest.take 2), s.position⟩⟩
      { s.move n with regions := region :: s.regions, trimNext := false } := by
  have hspells := take_opener s.rest hn
  refine ⟨⟨?_, nofun, nofun⟩, fun _ _ => ?_, fun _ _ _ => .code _ rfl ?_ hspan ?_⟩
  · rw [hs]
    rintro _ ⟨⟩
    exact hregion
  · rcases hkind with rfl | rfl <;> simp [Lexeme.opens]
  · rcases hkind with rfl | rfl <;> nofun
  · rcases hkind with rfl | rfl <;> simpa [Token.Spells] using hspells

/-- What closes a tag or a print leaves its trim marker to the text after it. -/
theorem taken_closer {region : Region} {outer : List Region} {kind : TokenKind} {n : Nat}
    {trims : Bool} (hs : s.regions = region :: outer) (hground : Grounded s.regions)
    (hclosing : region.closing? s.rest = some (kind, n, trims)) (hspan : s.rest.take n ≠ []) :
    Step.Taken s before ⟨s.rest.take n, some ⟨kind, .ofList (s.rest.take n), s.position⟩⟩
      { s.move n with regions := outer, trimNext := trims } := by
  obtain ⟨hkind, htrims⟩ := trims_of_closing? hclosing
  have hcloses : ∀ value, (Lexeme.mk (s.rest.take n) (some ⟨kind, value, s.position⟩)).closes := by
    intro value
    simp only [Lexeme.closes, Option.any_some, hkind, Bool.or_true]
  have hother : kind ≠ .text ∧ kind ∉ [.tagOpen, .printOpen, .operator] := by
    simp only [List.contains_cons, List.contains_nil, Bool.or_false, Bool.or_eq_true,
      beq_iff_eq] at hkind
    rcases hkind with rfl | rfl <;> decide
  rw [hs] at hground
  refine ⟨⟨hground.pop, fun _ => ?_, fun _ _ => ?_⟩, fun hnil => ?_,
    fun _ _ _ => .code _ rfl hother.1 hspan (spells_of_value hother.2 rfl)⟩
  · simp [Lexeme.trimsAfter, hcloses, htrims]
  · rintro _ ⟨⟩
    exact hcloses _
  · rw [hs] at hnil
    cases hnil

/-- Literal text is trimmed as the constructs beside it say. -/
theorem taken_text (hs : s.regions = []) (hfollows : s.Follows before)
    (hrun : literalRun s.rest ≠ []) :
    ∃ found next, s.takeText (literalRun s.rest) = .lexeme found next ∧
      Step.Taken s before found next := by
  unfold takeText
  extract_lets text kept token
  refine ⟨_, _, rfl, ?_⟩
  have happend := literalRun_append_drop s.rest
  have hplain : opensRegion s.rest = false := by
    simpa [happend] using opensRegion_of_literalRun_eq (List.nil_append _).symm hrun
  -- A run of literal text does not look like a comment, so nothing is trimmed after it.
  have hcomment : ['{', '#'].isPrefixOf (literalRun s.rest) = false := by
    cases hprefix : ['{', '#'].isPrefixOf (literalRun s.rest) with
    | false => rfl
    | true =>
      obtain ⟨more, hmore⟩ := List.isPrefixOf_iff_prefix.mp hprefix
      rw [← happend, ← hmore] at hplain
      cases hplain
  have hcloses : Lexeme.closes ⟨literalRun s.rest, token⟩ = false := by
    by_cases hempty : kept.isEmpty = true <;>
      simp [Lexeme.closes, Lexeme.isComment, hcomment, token, hempty]
  refine ⟨⟨?_, fun _ => ?_, fun _ hne => ?_⟩, fun _ hnil => absurd hnil hrun,
    fun after hafter hopens => .literal ?_⟩
  · exact .of_eq_nil hs
  · simp [Lexeme.trimsAfter, hcloses]
  · exact absurd (literalRun_drop s.rest) hne
  · have hafter : after.flatMap Lexeme.span = s.rest.drop (literalRun s.rest).length := hafter
    refine ⟨hrun, hfollows.closed hs hrun, hopens hs (literalRun_drop s.rest), ?_, ?_⟩
    · intro cs ds hspan hds
      rw [hafter]
      exact opensRegion_of_literalRun_eq hspan hds
    · have hkept : Lexeme.kept before (literalRun s.rest) after = kept := by
        rw [Lexeme.kept, hafter, List.getElem?_drop, ← List.head?_drop, ← hfollows.trims hs]
      rw [hkept]
      by_cases hempty : kept = [] <;> simp [token, hempty]

/-- Every step takes something that fits. -/
theorem taken_next {found : Lexeme} {next : Scan} (hfollows : s.Follows before)
    (hnext : s.next = .lexeme found next) : Step.Taken s before found next := by
  have hspan : found.span ≠ [] := by
    have hconsumes := consumes_next s
    rw [hnext] at hconsumes
    exact hconsumes.1
  have hground : ∀ {region outer}, s.regions = region :: outer → Grounded (region :: outer) :=
    fun hs => hs ▸ hfollows.grounded
  have hchoice := choice_next s
  rw [hnext] at hchoice
  generalize hstep : Step.lexeme found next = step at hchoice
  cases hchoice with
  | atEnd | failed => cases hstep
  | comment hs hrest hlength =>
    cases hstep
    exact taken_comment hs hrest hlength _ (trims_of_commentLength hrest hlength)
  | tag hs =>
    cases hstep
    exact taken_opener hs (.inl rfl) rfl rfl hspan
  | print hs =>
    cases hstep
    exact taken_opener hs (.inr rfl) rfl rfl hspan
  | text hs hrun =>
    obtain ⟨found', next', htake, htaken⟩ := taken_text hs hfollows hrun
    rw [htake] at hstep
    cases hstep
    exact htaken
  | @plain region outer kind n hs hcode hkind =>
    cases hstep
    have hother : ∀ kind ∈ plainKinds, kind ∉ [.text, .tagOpen, .printOpen, .operator] := by decide
    exact taken_take hs (by rw [hs]; nofun) hfollows.grounded (hother kind hkind) hspan
  | operator hs hcode hoperator =>
    cases hstep
    exact taken_code hs (by rw [hs]; nofun) hfollows.grounded rfl nofun hspan
      (operatorValue_of_operatorLength hoperator)
  | closes hs hclosing =>
    cases hstep
    exact taken_closer hs hfollows.grounded hclosing hspan
  | @opensBracket region outer bracket hs hcode =>
    cases hstep
    exact taken_take hs (List.cons_ne_nil _ _) ((hground hs).withBrackets _)
      (by cases bracket <;> decide) hspan
  | @closesBracket region outer bracket brackets hs hcode hbrackets =>
    cases hstep
    exact taken_take hs (List.cons_ne_nil _ _) ((hground hs).withBrackets _)
      (by cases bracket <;> decide) hspan
  | closesInterpolation hs =>
    cases hstep
    exact taken_take hs ((hground hs).ne_nil rfl) (hground hs).pop (by decide) hspan
  | opensString hs hcode hrest =>
    cases hstep
    exact taken_take hs (List.cons_ne_nil _ _) ((hground hs).push _) (by decide) hspan
  | closesString hs =>
    cases hstep
    exact taken_take hs ((hground hs).ne_nil rfl) (hground hs).pop (by decide) hspan
  | opensInterpolation hs _ =>
    cases hstep
    exact taken_take hs (List.cons_ne_nil _ _) (hs ▸ (hground hs).push _) (by decide) hspan
  | stringText hs _ =>
    cases hstep
    exact taken_take hs (by rw [hs]; nofun) hfollows.grounded (by decide) hspan

/-- A stream that is complete ends where the source does. -/
theorem rest_eq_nil_of_final {token : Token} (hnext : s.next = .final token)
    (hkind : token.kind = .eof) : s.rest = [] := by
  have hchoice := choice_next s
  rw [hnext] at hchoice
  generalize hstep : Step.final token = step at hchoice
  cases hchoice with
  | atEnd _ hrest => exact hrest
  | failed =>
    cases hstep
    cases hkind
  | _ => cases hstep

end Scan

/-! ## §5. The lexemes of a source -/

/-- The lexemes of a source that is read to its end make it up, the tokens are theirs, and each fits
where it stands. -/
theorem exists_lexemes_of_lex {source : String} (heof : (lex source).final.kind = .eof) :
    ∃ found : List Lexeme, found.flatMap Lexeme.span = source.toList ∧
      found.filterMap Lexeme.token = (lex source).tokens ∧ Fit none found := by
  -- From a state on the lexemes make up the rest of the source, and where no literal text is left
  -- outside of all regions the first one begins a construct.
  have hfound := lexemes_source_induction
    (motive := fun s found => ∀ before, s.Follows before → found.flatMap Lexeme.span = s.rest ∧
      (s.regions = [] → literalRun s.rest = [] → ∀ lexeme ∈ found.head?, lexeme.opens) ∧
      Fit before found)
    (fun s token hnext hkind before _ => ?_)
    (fun s found t rest hnext ih before hfollows => ?_) heof
  · have hstart : (Scan.start source).Follows none := ⟨nofun, fun _ => rfl, nofun⟩
    obtain ⟨hspans, -, hfit⟩ := hfound none hstart
    exact ⟨(lexemes source).1, hspans, rfl, hfit⟩
  · rw [Scan.rest_eq_nil_of_final hnext hkind]
    exact ⟨rfl, nofun, trivial⟩
  · have htaken := Scan.taken_next hfollows hnext
    have hconsumes := Scan.consumes_next s
    rw [hnext] at hconsumes
    obtain ⟨hspans, hopens, hfit⟩ := ih (some found) htaken.follows
    refine ⟨?_, fun hs hrun => ?_, htaken.fits rest hspans hopens, hfit⟩
    · rw [List.flatMap_cons, hspans, hconsumes.2]
    · rintro _ ⟨⟩
      exact htaken.opens hs hrun

/-- An operator of two words, and text between trim markers. -/
theorem exists_lexemes_of_lex_trimmed :
    (lex "a \x7b\x7b- b is  not c -\x7d\x7d d \x7b#- -#\x7d e").final.kind = .eof ∧
      ∃ found : List Lexeme,
        found.flatMap Lexeme.span = "a \x7b\x7b- b is  not c -\x7d\x7d d \x7b#- -#\x7d e".toList ∧
        found.filterMap Lexeme.token =
          (lex "a \x7b\x7b- b is  not c -\x7d\x7d d \x7b#- -#\x7d e").tokens ∧
        Fit none found := by
  have heof : (lex "a \x7b\x7b- b is  not c -\x7d\x7d d \x7b#- -#\x7d e").final.kind = .eof := by
    decide +kernel
  exact ⟨heof, exists_lexemes_of_lex heof⟩

end Stencil
