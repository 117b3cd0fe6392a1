import Stencil.Proofs.Token.Choices

/-!
How tokens nest.

A stream of tokens is a nested word.  Literal text is outside, a tag or a print opens code, code
opens brackets and strings, and a string in double quotes opens code again.  What is opened is
closed by its own kind of token before anything around it is, and each token has an area in which
alone it may stand.

The lexer keeps the regions and brackets that are open, and reads from left to right.  Its streams
are nested because of what is still to come: from any state on, the tokens close what is open there,
innermost first, and are nested in between.  A step that opens something takes one closing token off
what is required of the rest, a step that closes something adds one.
-/

namespace Stencil

open Stencil.Text Stencil.Token

/-! ## §1. Nested words -/

/-- Where a token stands: outside of all regions, in code, or in a string with its quote. -/
inductive Area
  | outside
  | code
  | string (quote : String)
deriving DecidableEq, Repr

namespace Area

/-- Whether tokens of a kind stand by themselves in an area. -/
def holds : Area → TokenKind → Bool
  | .outside, kind => kind == .text
  | .code, kind => [.name, .number, .operator, .punctuation, .whitespace].contains kind
  | .string _, kind => kind == .stringText

/-- What a token opens in an area: the area inside, and the kind of token that closes it. -/
def opened? (area : Area) (token : Token) : Option (Area × TokenKind) :=
  match area, token.kind with
  | .outside, .tagOpen => some (.code, .tagClose)
  | .outside, .printOpen => some (.code, .printClose)
  | .code, .parensOpen => some (.code, .parensClose)
  | .code, .arrayOpen => some (.code, .arrayClose)
  | .code, .hashOpen => some (.code, .hashClose)
  | .code, .stringOpen => some (.string token.value, .stringClose)
  | .string "\"", .interpolateOpen => some (.code, .interpolateClose)
  | _, _ => none

end Area

/-- Tokens that are nested where they stand. -/
inductive Nested : Area → List Token → Prop
  | nil (area : Area) : Nested area []
  /-- A token by itself. -/
  | single {area : Area} {token : Token} {more : List Token} : area.holds token.kind →
      Nested area more → Nested area (token :: more)
  /-- An opening token, what it encloses, and the token that closes it. -/
  | enclosed {area inner : Area} {opener closer : Token} {inside more : List Token} :
      area.opened? opener = some (inner, closer.kind) → Nested inner inside → Nested area more →
      Nested area (opener :: (inside ++ closer :: more))

/-! ## §2. What is open -/

/-- An area that is open and the kind of token that will close it. -/
abbrev Opened := Area × TokenKind

/-- The innermost of the areas that are open. -/
def innermost : List Opened → Area
  | [] => .outside
  | (area, _) :: _ => area

/-- Tokens that close all that is open, innermost first, and are nested in between. -/
def Closes : List Opened → List Token → Prop
  | [], tokens => Nested .outside tokens
  | (area, kind) :: outer, tokens => ∃ inside closer more,
      tokens = inside ++ closer :: more ∧ closer.kind = kind ∧
        Nested area inside ∧ Closes outer more

namespace Closes

variable {opened : List Opened} {token : Token} {more : List Token}

theorem single (htoken : (innermost opened).holds token.kind) (h : Closes opened more) :
    Closes opened (token :: more) := by
  cases opened with
  | nil => exact .single htoken h
  | cons frame outer =>
    obtain ⟨inside, closer, rest, rfl, hcloser, hinside, hrest⟩ := h
    exact ⟨token :: inside, closer, rest, rfl, hcloser, .single htoken hinside, hrest⟩

theorem opens {inner : Area} {kind : TokenKind}
    (htoken : (innermost opened).opened? token = some (inner, kind))
    (h : Closes ((inner, kind) :: opened) more) : Closes opened (token :: more) := by
  obtain ⟨inside, closer, rest, rfl, rfl, hinside, hrest⟩ := h
  cases opened with
  | nil => exact .enclosed htoken hinside hrest
  | cons frame outer =>
    -- What the token encloses comes before the rest of what the innermost area holds.
    obtain ⟨inside', closer', rest', rfl, hcloser', hinside', hrest'⟩ := hrest
    refine ⟨token :: (inside ++ closer :: inside'), closer', rest', by simp, hcloser', ?_, hrest'⟩
    exact .enclosed htoken hinside hinside'

theorem closes (area : Area) (h : Closes opened more) :
    Closes ((area, token.kind) :: opened) (token :: more) :=
  ⟨[], token, more, rfl, rfl, .nil area, h⟩

end Closes

/-! ## §3. The regions of the lexer -/

namespace Region

/-- The area inside a region and what closes it. -/
def frame : Region → Opened
  | .tag _ => (.code, .tagClose)
  | .print _ => (.code, .printClose)
  | .interpolation _ => (.code, .interpolateClose)
  | .string quote => (.string (.singleton quote), .stringClose)

/-- What a region has open: its brackets and itself. -/
def frames (region : Region) : List Opened :=
  region.brackets.map (fun bracket => (.code, bracket.closeKind)) ++ [region.frame]

theorem frames_withBrackets {region : Region} (hcode : region.IsCode) (brackets : List Bracket) :
    (region.withBrackets brackets).frames =
      brackets.map (fun bracket => (.code, bracket.closeKind)) ++ [region.frame] := by
  cases region <;> first | rfl | cases hcode

end Region

/-- What regions have open, innermost first. -/
def framesOf (regions : List Region) : List Opened :=
  regions.flatMap Region.frames

@[simp] theorem framesOf_nil : framesOf [] = [] := rfl

@[simp] theorem framesOf_cons (region : Region) (outer : List Region) :
    framesOf (region :: outer) = region.frames ++ framesOf outer := rfl

/-- In a region of code, brackets or not, the tokens of code stand. -/
theorem innermost_of_isCode {region : Region} (hcode : region.IsCode) (outer : List Region) :
    innermost (framesOf (region :: outer)) = .code := by
  rw [framesOf_cons, Region.frames]
  cases hbrackets : region.brackets with
  | nil => cases region <;> first | rfl | cases hcode
  | cons bracket brackets => rfl

namespace Scan

/-- If what comes after a step closes what is open then, it closes with the token of the step what
was open before. -/
def Step.Nests (regions : List Region) : Step → Prop
  | .lexeme found next => ∀ more, Closes (framesOf next.regions) more →
      Closes (framesOf regions) (found.token.toList ++ more)
  | .final token => token.kind = .eof → regions = []

variable {s : Scan} {region : Region} {outer : List Region} {kind : TokenKind} {n : Nat}

/-- A delimiter closes the region that it belongs to, when no bracket is open there. -/
theorem frames_of_closing? {trims : Bool} (h : region.closing? s.rest = some (kind, n, trims)) :
    region.frames = [(.code, kind)] := by
  unfold Region.closing? at h
  split at h
  · next kind' delimiter hdelimiter hbrackets =>
    have hkind : kind = kind' := by
      split at h
      · cases h; rfl
      · split at h <;> cases h
        rfl
    subst hkind
    rw [Region.frames, hbrackets]
    cases region <;> cases hdelimiter <;> rfl
  · cases h

theorem opened?_bracket (bracket : Bracket) {token : Token} (h : token.kind = bracket.openKind) :
    Area.code.opened? token = some (.code, bracket.closeKind) := by
  unfold Area.opened?
  rw [h]
  cases bracket <;> rfl

/-- Literal text is outside, and a run that is trimmed away leaves no token. -/
theorem nests_takeText (hs : s.regions = []) (run : List Char) : (s.takeText run).Nests [] := by
  unfold takeText
  extract_lets text kept token
  intro more hmore
  have hmore : Closes (framesOf s.regions) more := hmore
  rw [hs] at hmore
  show Closes [] (token.toList ++ more)
  by_cases hempty : kept.isEmpty = true
  · simpa [token, hempty] using hmore
  · simpa [token, hempty] using hmore.single rfl

/-- Every step nests. -/
theorem nests_next (s : Scan) : s.next.Nests s.regions := by
  have hchoice := choice_next s
  generalize s.next = step at hchoice ⊢
  cases hchoice with
  | atEnd hs => exact fun _ => hs
  | failed => nofun
  | comment => exact fun more hmore => hmore
  | tag hs | print hs =>
    intro more hmore
    rw [hs] at hmore ⊢
    show Closes [] _
    exact hmore.opens rfl
  | text hs =>
    rw [hs]
    exact nests_takeText hs _
  | @plain region outer kind n hs hcode hkind =>
    intro more hmore
    refine hmore.single ?_
    rw [hs, innermost_of_isCode hcode]
    have hholds : ∀ kind ∈ plainKinds, Area.code.holds kind := by decide
    exact hholds kind hkind
  | operator hs hcode =>
    intro more hmore
    refine hmore.single ?_
    rw [hs, innermost_of_isCode hcode]
    rfl
  | closes hs hclosing =>
    intro more hmore
    rw [hs, framesOf_cons, frames_of_closing? hclosing]
    exact hmore.closes .code
  | @opensBracket region outer bracket hs hcode =>
    intro more hmore
    rw [framesOf_cons, Region.frames_withBrackets hcode] at hmore
    have hmore : Closes ((.code, bracket.closeKind) :: framesOf (region :: outer)) more := hmore
    rw [hs]
    refine hmore.opens ?_
    rw [innermost_of_isCode hcode]
    exact opened?_bracket bracket rfl
  | @closesBracket region outer bracket brackets hs hcode hbrackets =>
    intro more hmore
    rw [framesOf_cons, Region.frames_withBrackets hcode] at hmore
    rw [hs, framesOf_cons, Region.frames, hbrackets]
    exact hmore.closes .code
  | closesInterpolation hs =>
    intro more hmore
    rw [hs]
    exact hmore.closes .code
  | @opensString region outer quote cs hs hcode hrest =>
    intro more hmore
    have hmore : Closes ((.string (.singleton quote), .stringClose) ::
        framesOf (region :: outer)) more := hmore
    rw [hs]
    refine hmore.opens ?_
    rw [innermost_of_isCode hcode, hrest]
    rfl
  | closesString hs =>
    intro more hmore
    rw [hs]
    exact hmore.closes _
  | opensInterpolation hs _ =>
    intro more hmore
    rw [hs] at hmore ⊢
    exact hmore.opens rfl
  | stringText hs _ =>
    intro more hmore
    rw [hs] at hmore ⊢
    exact hmore.single rfl

end Scan

/-! ## §4. The stream of a source -/

/-- The tokens of a source that is read to its end are nested. -/
theorem nested_lex {source : String} (heof : (lex source).final.kind = .eof) :
    Nested .outside (lex source).tokens := by
  refine lexemes_source_induction
    (motive := fun s found => Closes (framesOf s.regions) (found.filterMap Lexeme.token))
    (fun s token hnext hkind => ?_) (fun s found t rest hnext ih => ?_) heof
  · have hnests := Scan.nests_next s
    rw [hnext] at hnests
    rw [hnests hkind]
    exact .nil .outside
  · have hnests := Scan.nests_next s
    rw [hnext] at hnests
    have hcloses := hnests _ ih
    cases htoken : found.token with
    | none => simpa [htoken] using hcloses
    | some token => simpa [htoken] using hcloses

/-- A hash in an interpolation in a string in a call: five tokens close with braces, and each closes
what it should. -/
theorem nested_lex_interpolated_hash :
    (lex "a\x7b\x7b f(\"b#\x7b \x7bc: 'd'\x7d \x7d\") \x7d\x7d").final.kind = .eof ∧
      Nested .outside (lex "a\x7b\x7b f(\"b#\x7b \x7bc: 'd'\x7d \x7d\") \x7d\x7d").tokens := by
  have heof : (lex "a\x7b\x7b f(\"b#\x7b \x7bc: 'd'\x7d \x7d\") \x7d\x7d").final.kind = .eof := by
    decide +kernel
  exact ⟨heof, nested_lex heof⟩

end Stencil
