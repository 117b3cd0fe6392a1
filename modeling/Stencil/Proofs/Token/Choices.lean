import Stencil.Proofs.Token.Progress

/-!
What a step of the lexer can be.

The lexer has four ways of going on, outside of all regions, in code, at a closing bracket and in a
string, and each of them tries one thing after the other.  `Choice` lists what may come of it, with
what the lexer has made sure of by then.  A property of steps is shown by going through this list
once, and a property of streams by induction on the steps that lead to the end of a source.
-/

namespace Stencil

open Stencil.Text Stencil.Token

/-! ## §1. Where literal text ends -/

/-- Where a run of literal text is empty, a delimiter stands or nothing is left. -/
theorem opensRegion_of_literalRun {cs : List Char} (h : literalRun cs = []) :
    cs = [] ∨ opensRegion cs = true := by
  cases cs with
  | nil => exact .inl rfl
  | cons c cs =>
    by_cases hopens : opensRegion (c :: cs) = true
    · exact .inr hopens
    · rw [literalRun, if_neg hopens] at h
      cases h

/-- A delimiter that ends literal text is that of a tag, of a print or of a comment. -/
theorem eq_of_opensRegion {cs : List Char} (h : opensRegion cs = true) :
    ∃ c more, cs = '{' :: c :: more ∧ (c = '%' ∨ c = '{' ∨ c = '#') := by
  unfold opensRegion at h
  split at h
  · next c more =>
    simp only [Bool.or_eq_true, beq_iff_eq] at h
    exact ⟨c, more, rfl, or_assoc.mp h⟩
  · simp at h

namespace Region

/-- A region of code is a tag, a print or an interpolation. -/
def IsCode : Region → Prop
  | .tag _ | .print _ | .interpolation _ => True
  | .string _ => False

end Region

/-! ## §2. The choices -/

namespace Scan

/-- The kinds of tokens in code that leave regions and brackets as they are and are taken as they
stand. -/
def plainKinds : List TokenKind :=
  [.whitespace, .punctuation, .number, .name]

/-- How far a token in code reaches that is taken as it stands.  Numbers and names go on as long as
they can, and a name begins only where no operator does. -/
def Reaches (s : Scan) : TokenKind → Nat → Prop
  | .number, n => s.rest.head?.any Char.isDigit ∧ n = (s.rest.takeWhile Char.isDigit).length
  | .name, n => operatorLength s.rest = none ∧ n = (s.rest.takeWhile isNameChar).length
  | _, _ => True

/-- What the lexer may do in a state. -/
inductive Choice (s : Scan) : Step → Prop
  /-- The source is read to its end. -/
  | atEnd : s.regions = [] → s.rest = [] → Choice s (.final ⟨.eof, "", s.position⟩)
  | failed (message : String) : Choice s (s.fail message)
  | comment {cs : List Char} {n : Nat} : s.regions = [] → s.rest = '{' :: '#' :: cs →
      commentLength s.rest = some n → Choice s (s.takeComment n)
  | tag {cs : List Char} : s.regions = [] → s.rest = '{' :: '%' :: cs →
      Choice s (s.takeOpener .tagOpen (.tag []))
  | print {cs : List Char} : s.regions = [] → s.rest = '{' :: '{' :: cs →
      Choice s (s.takeOpener .printOpen (.print []))
  | text : s.regions = [] → literalRun s.rest ≠ [] → Choice s (s.takeText (literalRun s.rest))
  /-- A token in code that is taken as it stands. -/
  | plain {region : Region} {outer : List Region} {kind : TokenKind} (n : Nat) :
      s.regions = region :: outer → region.IsCode → kind ∈ plainKinds → s.Reaches kind n →
      Choice s (s.take kind n s.regions)
  | operator {region : Region} {outer : List Region} {n : Nat} : s.regions = region :: outer →
      region.IsCode → operatorLength s.rest = some n →
      Choice s (s.emit .operator (operatorValue (s.rest.take n)) n s.regions)
  | closes {region : Region} {outer : List Region} {kind : TokenKind} {n : Nat} {trims : Bool} :
      s.regions = region :: outer → region.closing? s.rest = some (kind, n, trims) →
      Choice s ({ s with trimNext := trims }.take kind n outer)
  | opensBracket {region : Region} {outer : List Region} (bracket : Bracket) :
      s.regions = region :: outer → region.IsCode →
      Choice s (s.take bracket.openKind 1
        (region.withBrackets (bracket :: region.brackets) :: outer))
  | closesBracket {region : Region} {outer : List Region} {bracket : Bracket}
      {brackets : List Bracket} : s.regions = region :: outer → region.IsCode →
      region.brackets = bracket :: brackets →
      Choice s (s.take bracket.closeKind 1 (region.withBrackets brackets :: outer))
  | closesInterpolation {outer : List Region} : s.regions = .interpolation [] :: outer →
      Choice s (s.take .interpolateClose 1 outer)
  | opensString {region : Region} {outer : List Region} {quote : Char} {cs : List Char} :
      s.regions = region :: outer → region.IsCode → s.rest = quote :: cs →
      Choice s (s.take .stringOpen 1 (.string quote :: region :: outer))
  | closesString {quote : Char} {outer : List Region} : s.regions = .string quote :: outer →
      Choice s (s.take .stringClose 1 outer)
  | opensInterpolation {outer : List Region} {cs : List Char} :
      s.regions = .string '"' :: outer → s.rest = '#' :: '{' :: cs →
      Choice s (s.take .interpolateOpen 2 (.interpolation [] :: s.regions))
  | stringText {quote : Char} {outer : List Region} {n : Nat} :
      s.regions = .string quote :: outer → stringRunLength quote s.rest = some n →
      Choice s (s.take .stringText n s.regions)

variable {s : Scan}

theorem choice_nextOutside (hs : s.regions = []) : s.Choice s.nextOutside := by
  unfold nextOutside
  split
  · next hrest => exact .atEnd hs hrest
  · next hrest _ =>
    split
    · next hlength => exact .comment hs hrest hlength
    · exact .failed _
  · next hrest _ => exact .tag hs hrest
  · next hrun hnil hcomment htag =>
    -- A delimiter stands here, and it is neither that of a comment nor that of a tag.
    obtain ⟨c, more, hrest, rfl | rfl | rfl⟩ :=
      eq_of_opensRegion ((opensRegion_of_literalRun hrun).resolve_left hnil)
    · exact absurd hrest (htag more)
    · exact .print hs hrest
    · exact absurd hrest (hcomment more)
  · next hrun _ _ => exact .text hs hrun

theorem choice_nextCloser {region : Region} {outer : List Region} (hs : s.regions = region :: outer)
    (hcode : region.IsCode) (c : Char) (bracket : Bracket) :
    s.Choice (s.nextCloser c bracket region outer) := by
  unfold nextCloser
  split
  · split
    · exact .closesInterpolation hs
    · exact .failed _
  · next top brackets hbrackets =>
    split
    · next htop =>
      subst htop
      exact .closesBracket hs hcode hbrackets
    · exact .failed _
  · exact .failed _

theorem choice_nextPlain {c : Char} {cs : List Char} (hrest : s.rest = c :: cs) {region : Region}
    {outer : List Region} (hs : s.regions = region :: outer) (hcode : region.IsCode)
    (hoperator : operatorLength s.rest = none) :
    s.Choice (s.nextPlain c region outer) := by
  unfold nextPlain
  split
  · exact .opensBracket _ hs hcode
  · exact choice_nextCloser hs hcode c _
  · split
    · exact .opensString hs hcode hrest
    · split
      · exact .plain 1 hs hcode (by decide) trivial
      · split
        · next hdigit => exact .plain _ hs hcode (by decide) ⟨by simp [hrest, hdigit], rfl⟩
        · split
          · exact .plain _ hs hcode (by decide) ⟨hoperator, rfl⟩
          · exact .failed _

theorem choice_nextInside {region : Region} {outer : List Region} (hs : s.regions = region :: outer)
    (hcode : region.IsCode) : s.Choice (s.nextInside region outer) := by
  unfold nextInside
  split
  · exact .failed _
  · next c cs hrest =>
    split
    · exact .plain _ hs hcode (by decide) trivial
    · split
      · next hclosing => exact .closes hs hclosing
      · split
        · exact .failed _
        · split
          · next hoperator => exact .operator hs hcode hoperator
          · next hoperator => exact choice_nextPlain hrest hs hcode hoperator

theorem choice_nextInString {quote : Char} {outer : List Region}
    (hs : s.regions = .string quote :: outer) : s.Choice (s.nextInString quote outer) := by
  unfold nextInString
  split
  · exact .closesString hs
  · split
    · next hopens =>
      simp only [Bool.and_eq_true, beq_iff_eq, List.isPrefixOf_iff_prefix] at hopens
      obtain ⟨rfl, cs, hrest⟩ := hopens
      exact .opensInterpolation hs hrest.symm
    · split
      · next hlength => exact .stringText hs hlength
      · exact .failed _

/-- Every step is one of the choices. -/
theorem choice_next (s : Scan) : s.Choice s.next := by
  unfold next
  split
  · next hs => exact choice_nextOutside hs
  · next hs => exact choice_nextInString hs
  · next region outer hstring hs =>
    refine choice_nextInside hs ?_
    cases region with
    | tag | print | interpolation => trivial
    | string quote => exact absurd rfl (hstring quote)

/-! ## §3. Streams -/

/-- What holds at the end of a source and, with a lexeme in front, wherever it holds after a step,
holds of all lexemes of a source that is read to its end. -/
theorem lexemes_induction {motive : Scan → List Lexeme → Prop}
    (last : ∀ s token, s.next = .final token → token.kind = .eof → motive s [])
    (more : ∀ s found t rest, s.next = .lexeme found t → motive t rest → motive s (found :: rest))
    {n : Nat} {s : Scan} (hn : s.rest.length < n) (heof : (s.lexemes n).2.kind = .eof) :
    motive s (s.lexemes n).1 := by
  induction n generalizing s with
  | zero => omega
  | succ n ih =>
    rw [lexemes] at heof ⊢
    cases hnext : s.next with
    | final token =>
      rw [hnext] at heof
      exact last s token hnext heof
    | lexeme found t =>
      rw [hnext] at heof
      have hlt := length_rest_lt hnext
      exact more s found t _ hnext (ih (by omega) heof)

end Scan

/-- The same of a source from its start. -/
theorem lexemes_source_induction {motive : Scan → List Lexeme → Prop}
    (last : ∀ s token, s.next = .final token → token.kind = .eof → motive s [])
    (more : ∀ s found t rest, s.next = .lexeme found t → motive t rest → motive s (found :: rest))
    {source : String} (heof : (lex source).final.kind = .eof) :
    motive (.start source) (lexemes source).1 :=
  Scan.lexemes_induction last more (Nat.lt_succ_self _) heof

end Stencil
