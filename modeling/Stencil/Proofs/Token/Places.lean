import Mathlib.Data.List.DropRight
import Stencil.Proofs.Token.Reader

/-!
Places are exact.

A reader counts lines as it goes: whenever it moves on, over literal text, a comment, blanks, the
words of an operator or the text of a string, it adds the newlines that it passes and remembers the
byte behind the last one.  The place of a byte can also be said without any reading, by the newlines
before it and the bytes since the last of them.  Both are the same for every token, at the byte where
the reader was when it began that token, and so places never decrease along a stream.

A call may take several turns, of which all but the last pass something that leaves no token behind.
A token is begun in the last of them.
-/

namespace Stencil

open Stencil.Text Stencil.Token
open String (utf8Len)

/-! ## §1. The place of a byte -/

namespace Position

/-- Places in the order of a source. -/
instance : Preorder Position where
  le p q := p.line < q.line ∨ p.line = q.line ∧ p.offset ≤ q.offset
  le_refl p := .inr ⟨rfl, Nat.le_refl _⟩
  le_trans p q r hpq hqr := by omega

/-- The byte at which the last line of a text begins: the one behind its last newline. -/
def lineStart (text : List Char) : Nat :=
  utf8Len (text.rdropWhile (· ≠ '\n'))

/-- The place of a byte of a source. -/
def ofByte (source : List Char) (p : Nat) : Position :=
  let before := (takeBytes? p source).getD []
  ⟨1 + before.count '\n', p - lineStart before + 1⟩

theorem lineStart_le (text : List Char) : lineStart text ≤ utf8Len text :=
  String.utf8Len_le_of_prefix (List.rdropWhile_prefix _ _)

/-- Going through a text character by character leads to its last line, and there as far as that line
goes. -/
theorem past_start (text : List Char) :
    Position.start.past text = ⟨1 + text.count '\n', utf8Len text - lineStart text + 1⟩ := by
  induction text using List.reverseRecOn with
  | nil => rfl
  | append_singleton text c ih =>
    have hle := lineStart_le text
    rw [past_append, past_cons, past_nil, ih, after]
    by_cases hc : c = '\n'
    · subst hc
      have hline : lineStart (text ++ ['\n']) = utf8Len (text ++ ['\n']) := by
        rw [lineStart, List.rdropWhile_concat_neg _ _ _ (by simp)]
      rw [if_pos rfl, hline, Nat.sub_self, List.count_append, List.count_singleton_self]
      rfl
    · have hline : lineStart (text ++ [c]) = lineStart text := by
        rw [lineStart, List.rdropWhile_concat_pos _ _ _ (by simpa using hc), lineStart]
      have hcount : (text ++ [c]).count '\n' = text.count '\n' := by
        rw [List.count_append, List.count_singleton, if_neg (by simpa using hc), Nat.add_zero]
      rw [if_neg hc, hline, hcount, String.utf8Len_append]
      have hlength : utf8Len [c] = c.utf8Size := by simp
      simp only [mk.injEq, true_and]
      omega

theorem ofByte_append (before rest : List Char) :
    ofByte (before ++ rest) (utf8Len before) = Position.start.past before := by
  rw [ofByte, takeBytes?_append, Option.getD_some, past_start]

theorem le_after (p : Position) (c : Char) : p ≤ p.after c := by
  rw [after]
  split
  · exact .inl (Nat.lt_succ_self _)
  · exact .inr ⟨rfl, Nat.le_add_right _ _⟩

theorem le_past (p : Position) (text : List Char) : p ≤ p.past text := by
  induction text generalizing p with
  | nil => exact le_refl p
  | cons c text ih => exact (le_after p c).trans (ih (p.after c))

end Position

/-! ## §2. The place of a step -/

namespace Scan

variable {s t : Scan}

/-- What a step leaves behind has the place of the state that it is taken in, and the state after it
has the place behind what was taken. -/
def Step.Placed (position : Position) : Step → Prop
  | .lexeme found next =>
    (∀ token ∈ found.token, token.position = position) ∧ next.position = position.past found.span
  | .final token => token.position = position

theorem placed_emit (s : Scan) (kind : TokenKind) (value : String) (n : Nat)
    (regions : List Region) : (s.emit kind value n regions).Placed s.position := by
  refine ⟨?_, rfl⟩
  rintro _ ⟨⟩
  rfl

theorem placed_takeText (s : Scan) : (s.takeText (literalRun s.rest)).Placed s.position := by
  have hrun : s.rest.take (literalRun s.rest).length = literalRun s.rest :=
    (List.prefix_iff_eq_take.mp ⟨_, literalRun_append_drop s.rest⟩).symm
  refine ⟨fun token htoken => ?_, ?_⟩
  · obtain ⟨-, heq⟩ := Option.ite_none_left_eq_some.mp htoken
    cases heq
    rfl
  · show s.position.past (s.rest.take (literalRun s.rest).length) = _
    rw [hrun]

theorem placed_next (s : Scan) : s.next.Placed s.position := by
  have hchoice := s.choice_next
  generalize s.next = step at hchoice
  cases hchoice with
  | atEnd | failed => rfl
  | comment => exact ⟨nofun, rfl⟩
  | text => exact placed_takeText s
  | tag | print => exact placed_emit { s with trimNext := false } _ _ _ _
  | closes => exact placed_emit { s with trimNext := _ } _ _ _ _
  | _ => exact placed_emit s _ _ _ _

/-- The lexer has come through a text, which is what is missing of the source. -/
def PlacedIn (source : List Char) (s : Scan) : Prop :=
  ∃ before, source = before ++ s.rest ∧ s.position = Position.start.past before

theorem placedIn_start (source : String) : PlacedIn source.toList (.start source) :=
  ⟨[], rfl, rfl⟩

theorem PlacedIn.step {source : List Char} {found : Lexeme} (h : s.PlacedIn source)
    (hnext : s.next = .lexeme found t) : t.PlacedIn source := by
  obtain ⟨before, hsource, hposition⟩ := h
  have hconsumes := s.consumes_next
  have hplaced := s.placed_next
  rw [hnext] at hconsumes hplaced
  refine ⟨before ++ found.span, ?_, ?_⟩
  · rw [hsource, ← hconsumes.2, List.append_assoc]
  · rw [hplaced.2, hposition, Position.past_append]

theorem Yields.placedIn {source : List Char} {tokens : List Token} (h : s.Yields tokens t)
    (hs : s.PlacedIn source) : t.PlacedIn source := by
  induction h with
  | refl => exact hs
  | step hnext _ ih => exact ih (hs.step hnext)

theorem Steps.position_eq {found : List Lexeme} (h : s.Steps found t) :
    t.position = s.position.past (found.flatMap Lexeme.span) := by
  induction h with
  | refl => rfl
  | @step s t u found more hnext _ ih =>
    have hplaced := s.placed_next
    rw [hnext] at hplaced
    rw [ih, hplaced.2, List.flatMap_cons, Position.past_append]

/-- The places of the tokens from a state on, the one that ends the stream included. -/
def placesFrom (n : Nat) (s : Scan) : List Position :=
  ((s.lexemes n).1.filterMap Lexeme.token ++ [(s.lexemes n).2]).map Token.position

/-- From a state on places do not decrease, nor are they before its own. -/
theorem sorted_placesFrom (n : Nat) (s : Scan) :
    (s.position :: s.placesFrom n).Pairwise (· ≤ ·) := by
  induction n generalizing s with
  | zero => simp [placesFrom, lexemes]
  | succ n ih =>
    have hplaced := s.placed_next
    unfold placesFrom
    rw [lexemes]
    cases hnext : s.next with
    | final token =>
      rw [hnext] at hplaced
      have hposition : token.position = s.position := hplaced
      simp [hposition]
    | lexeme found t =>
      rw [hnext] at hplaced
      have hle : s.position ≤ t.position := hplaced.2 ▸ s.position.le_past found.span
      obtain ⟨hlater, hsorted⟩ := List.pairwise_cons.mp (ih t)
      have hbehind : ∀ p ∈ t.placesFrom n, s.position ≤ p := fun p hp => hle.trans (hlater p hp)
      cases htoken : found.token with
      | none =>
        rw [List.filterMap_cons_none htoken]
        exact List.pairwise_cons.mpr ⟨hbehind, hsorted⟩
      | some token =>
        have hposition : token.position = s.position := hplaced.1 token htoken
        rw [List.filterMap_cons_some htoken, List.cons_append, List.map_cons, hposition]
        exact List.pairwise_cons.mpr
          ⟨List.forall_mem_cons.mpr ⟨le_refl _, hbehind⟩, List.pairwise_cons.mpr ⟨hbehind, hsorted⟩⟩

end Scan

/-- No token stands before the start of a source. -/
theorem start_le_of_mem_all {source : String} {token : Token} (h : token ∈ (lex source).all) :
    Position.start ≤ token.position := by
  have hsorted := Scan.sorted_placesFrom (source.toList.length + 1) (.start source)
  exact (List.pairwise_cons.mp hsorted).1 _ (List.mem_map_of_mem h)

/-- The token after all others stands at the end of the source, if the source is read to its end. -/
theorem final_position_of_lex {source : String} (heof : (lex source).final.kind = .eof) :
    (lex source).final.position = Position.start.past source.toList := by
  obtain ⟨t, hsteps, hfinal⟩ :=
    Scan.exists_steps_final (source.toList.length + 1) (.start source) (Nat.lt_succ_self _)
  have hplaced := t.placed_next
  rw [hfinal] at hplaced
  have hspans := hsteps.rest_eq
  rw [Scan.rest_eq_nil_of_final hfinal heof, List.append_nil] at hspans
  calc (lex source).final.position = t.position := hplaced
    _ = (Scan.start source).position.past ((lexemes source).1.flatMap Lexeme.span) :=
      hsteps.position_eq
    _ = Position.start.past source.toList := congrArg _ hspans.symm

/-! ## §3. What a token shows -/

/-- What a token shows of the text that was taken for it at the head of a source: a token of literal
text is a part of a whole run, and every other token is spelt by it. -/
structure Token.Shows (token : Token) (taken rest : List Char) : Prop where
  text : token.kind = .text → taken = literalRun rest ∧ token.value.toList <:+: taken
  code : token.kind ≠ .text → token.Spells taken

/-- What is kept of literal text is a part of it. -/
theorem infix_trimmed (run : List Char) (start last : Bool) :
    (let text := if start then trimStart run else run
      if last then trimEnd text else text) <:+: run := by
  have hstart : (if start then trimStart run else run) <:+: run := by
    split
    · exact (List.dropWhile_suffix _).isInfix
    · exact List.infix_refl run
  dsimp only
  split
  · exact (List.rdropWhile_prefix _ _).isInfix.trans hstart
  · exact hstart

namespace Scan

variable {s t : Scan}

/-- A token whose value is what was taken, of a kind that makes no exception. -/
theorem shows_take {kind : TokenKind} (hkind : kind ∉ [.text, .tagOpen, .printOpen, .operator])
    (rest : List Char) (n : Nat) (position : Position) :
    Token.Shows ⟨kind, .ofList (rest.take n), position⟩ (rest.take n) rest := by
  obtain ⟨htext, hother⟩ := not_or.mp (List.mem_cons.not.mp hkind)
  exact ⟨fun h => absurd h htext, fun _ => spells_of_value hother rfl⟩

theorem shows_takeText {found : Lexeme} {token : Token}
    (hnext : s.takeText (literalRun s.rest) = .lexeme found t) (htoken : found.token = some token) :
    token.Shows found.span s.rest := by
  cases hnext
  obtain ⟨-, heq⟩ := Option.ite_none_left_eq_some.mp htoken
  cases heq
  refine ⟨fun _ => ⟨rfl, ?_⟩, fun h => absurd rfl h⟩
  rw [String.toList_ofList]
  exact infix_trimmed _ _ _

/-- Every token shows what was taken for it. -/
theorem shows_of_next {found : Lexeme} {token : Token} (hnext : s.next = .lexeme found t)
    (htoken : found.token = some token) : token.Shows found.span s.rest := by
  have hchoice := s.choice_next
  rw [hnext] at hchoice
  generalize hstep : Step.lexeme found t = step at hchoice
  cases hchoice with
  | atEnd | failed => cases hstep
  | text => exact shows_takeText hstep.symm htoken
  | comment =>
    cases hstep
    cases htoken
  | tag | print =>
    cases hstep
    cases htoken
    exact ⟨by rintro ⟨⟩, fun _ => by simpa [Token.Spells] using take_opener s.rest rfl⟩
  | operator hs hcode hoperator =>
    cases hstep
    cases htoken
    exact ⟨by rintro ⟨⟩, fun _ => operatorValue_of_operatorLength hoperator⟩
  | @plain region outer kind n hs hcode hplain =>
    cases hstep
    cases htoken
    have hother : ∀ kind ∈ plainKinds, kind ∉ [.text, .tagOpen, .printOpen, .operator] := by decide
    exact shows_take (hother kind hplain) _ _ _
  | @closes region outer kind n trims hs hclosing =>
    cases hstep
    cases htoken
    obtain ⟨delimiter, hdelimiter⟩ := delimiter_of_closing? hclosing
    refine shows_take ?_ _ _ _
    cases region <;> cases hdelimiter <;> decide
  | opensBracket bracket | @closesBracket _ _ bracket =>
    cases hstep
    cases htoken
    exact shows_take (by cases bracket <;> decide) _ _ _
  | _ =>
    cases hstep
    cases htoken
    exact shows_take (by decide) _ _ _

end Scan

namespace Reader

/-! ## §4. Where a token is begun -/

/-- The reader in the turn that answers a call outside of all regions. -/
def settled (r : Reader) : Reader :=
  match _h : r.turn with
  | .answer _ => r
  | .again next => next.settled
termination_by utf8Len r.input - r.offset
decreasing_by
  obtain ⟨hinput, -, hlt, hmore⟩ := turn_again _h
  rw [hinput]
  omega

/-- The reader when it begins the token of a call. -/
def begun (r : Reader) : Reader :=
  match r.regions with
  | [] => r.settled
  | _ => r

theorem settled_of_answer {r : Reader} {a : Answer} (h : r.turn = .answer a) :
    r.settled = r ∧ r.lexData = a := by
  constructor
  · rw [settled]
    split <;> simp_all
  · rw [lexData]
    split <;> simp_all

theorem settled_of_again {r next : Reader} (h : r.turn = .again next) :
    r.settled = next.settled ∧ r.lexData = next.lexData := by
  constructor
  · rw [settled]
    split <;> simp_all
  · rw [lexData]
    split <;> simp_all

namespace Tracks

variable {source : List Char} {r : Reader} {s : Scan}

/-- The turns before the one that answers are steps that leave nothing behind. -/
theorem exists_settled {r : Reader} {s : Scan} (h : Tracks source r s) (hregions : s.regions = []) :
    ∃ t, s.Yields [] t ∧ Tracks source r.settled t ∧ Mirrors source r.lexData t.next := by
  have hnext : s.next = s.nextOutside := by rw [Scan.next, hregions]
  have hturn := h.mirrors_turn
  rw [← hnext] at hturn
  cases hr : r.turn with
  | answer a =>
    rw [hr] at hturn
    obtain ⟨hsettled, hdata⟩ := settled_of_answer hr
    rw [hsettled, hdata]
    exact ⟨s, .refl s, h, hturn⟩
  | again next =>
    rw [hr] at hturn
    obtain ⟨hsettled, hdata⟩ := settled_of_again hr
    rw [hsettled, hdata]
    cases hstep : s.next with
    | final token =>
      rw [hstep] at hturn
      cases hturn
    | lexeme found t =>
      rw [hstep] at hturn
      obtain ⟨hnone, htracks⟩ := hturn
      have hlt := Scan.length_rest_lt hstep
      have houtside : t.regions = [] := by
        rw [← htracks.regions, (turn_again hr).2.1, h.regions, hregions]
      obtain ⟨u, hyields, hends⟩ := exists_settled htracks houtside
      have hsteps : s.Yields (found.token.toList ++ []) u := .step hstep hyields
      rw [hnone] at hsteps
      exact ⟨u, hsteps, hends⟩
termination_by s.rest.length

/-- A call gives the token of the step that is taken where it was begun. -/
theorem exists_begun (h : Tracks source r s) :
    ∃ t, s.Yields [] t ∧ Tracks source r.begun t ∧ Mirrors source r.next t.next := by
  rw [next, h.going, if_neg Bool.false_ne_true, begun, h.regions]
  cases hregions : s.regions with
  | nil => exact h.exists_settled hregions
  | cons region outer =>
    refine ⟨s, .refl s, h, ?_⟩
    rw [Scan.next, hregions]
    cases region with
    | string quote => exact h.mirrors_lexString hregions
    | tag | print | interpolation => exact h.mirrors_lexExpression hregions

end Tracks

/-! ## §5. Where a reader stops -/

/-- A call that ends the stream takes nothing. -/
def Halts (r : Reader) (a : Answer) : Prop :=
  a.2.done = true → a.2.offset = r.offset

section Halts

variable {r r' : Reader}

theorem halts_slice (hdone : r'.done = false) (n : Nat) (token : List Char → Token) :
    Halts r (r'.slice n token) := by
  intro hends
  unfold slice at hends
  split at hends <;> exact absurd (hends.symm.trans hdone) nofun

theorem halts_sliceBehind (hdone : r'.done = false) (n : Nat) (token : List Char → Token) :
    Halts r (r'.sliceBehind n token) :=
  fun hends => absurd (hends.symm.trans hdone) nofun

variable (hdone : r.done = false)
include hdone

theorem halts_lexCloser (c : Char) (bracket : Bracket) (region : Region) (outer : List Region) :
    Halts r (r.lexCloser c bracket region outer) := by
  unfold lexCloser
  split
  · exact fun hends => absurd (hends.symm.trans hdone) nofun
  · split
    · exact fun _ => rfl
    · dsimp only
      split
      · exact halts_slice (by exact hdone) _ _
      · exact fun _ => rfl

theorem halts_lexPlain (c : Char) (region : Region) (outer : List Region) :
    Halts r (r.lexPlain c region outer) := by
  unfold lexPlain
  split
  · exact halts_sliceBehind (by exact hdone) _ _
  · exact halts_lexCloser hdone _ _ _ _
  · split
    · exact halts_sliceBehind (by exact hdone) _ _
    · split
      · exact halts_sliceBehind (by exact hdone) _ _
      · split
        · exact halts_sliceBehind (by exact hdone) _ _
        · split
          · exact halts_sliceBehind (by exact hdone) _ _
          · exact fun _ => rfl

theorem halts_lexExpression (region : Region) (outer : List Region) :
    Halts r (r.lexExpression region outer) := by
  unfold lexExpression
  split
  · exact fun _ => rfl
  · unfold lexCode
    split
    · exact halts_sliceBehind (by exact hdone) _ _
    · split
      · exact halts_slice (by exact hdone) _ _
      · split
        · exact fun _ => rfl
        · split
          · exact halts_slice (by exact hdone) _ _
          · exact halts_lexPlain hdone _ _ _

theorem halts_lexString (quote : Char) (outer : List Region) :
    Halts r (r.lexString quote outer) := by
  unfold lexString
  split
  · exact halts_sliceBehind (by exact hdone) _ _
  · split
    · exact halts_sliceBehind (by exact hdone) _ _
    · split
      · exact halts_sliceBehind (by exact hdone) _ _
      · exact fun _ => rfl

theorem halts_turn {a : Answer} (h : r.turn = .answer a) : Halts r a := by
  unfold turn at h
  split at h
  · cases h
    exact fun _ => rfl
  · dsimp only at h
    split at h
    · unfold turnText at h
      dsimp only at h
      split at h <;> cases h
      exact fun hends => absurd (hends.symm.trans hdone) nofun
    · split at h
      · unfold turnComment at h
        split at h <;> cases h
        exact fun _ => rfl
      · cases h
        unfold turnOpener
        exact fun hends => absurd (hends.symm.trans hdone) nofun

end Halts

/-- Turns that do not answer do not end the stream. -/
theorem done_of_turn_again {r next : Reader} (h : r.turn = .again next) : next.done = r.done := by
  unfold turn at h
  split at h
  · cases h
  · dsimp only at h
    split at h
    · unfold turnText at h
      dsimp only at h
      split at h <;> cases h
      rfl
    · split at h
      · unfold turnComment at h
        split at h <;> cases h
        rfl
      · cases h

theorem halts_lexData {r : Reader} (hdone : r.done = false) : Halts r.settled r.lexData := by
  cases hr : r.turn with
  | answer a =>
    obtain ⟨hsettled, hdata⟩ := settled_of_answer hr
    rw [hsettled, hdata]
    exact halts_turn hdone hr
  | again next =>
    obtain ⟨hsettled, hdata⟩ := settled_of_again hr
    obtain ⟨hinput, -, hlt, hmore⟩ := turn_again hr
    rw [hsettled, hdata]
    exact halts_lexData ((done_of_turn_again hr).trans hdone)
termination_by utf8Len r.input - r.offset
decreasing_by
  rw [hinput]
  omega

theorem halts_next {r : Reader} (hdone : r.done = false) : Halts r.begun r.next := by
  rw [next, hdone, if_neg Bool.false_ne_true, begun]
  cases r.regions with
  | nil => exact halts_lexData hdone
  | cons region outer =>
    cases region with
    | string quote => exact halts_lexString hdone quote outer
    | tag | print | interpolation => exact halts_lexExpression hdone _ outer

/-! ## §6. Streams -/

/-- What a call takes for its token. -/
def taken (r : Reader) : List Char :=
  r.begun.between r.begun.offset r.next.2.offset

/-- What is known of a token that a reader of a source gives in its next call. -/
structure Begins (source : String) (r : Reader) (token : Token) : Prop where
  answered : r.next.1 = some token
  /-- It is begun where a character begins. -/
  cut : (takeBytes? r.begun.offset source.toList).isSome
  /-- Its place is that of the byte where it is begun. -/
  exact : token.position = .ofByte source.toList r.begun.offset
  /-- What it shows begins at that byte, a run of literal text before it is trimmed. -/
  shows : token.kind.isFinal = false → r.taken ≠ [] ∧ token.Shows r.taken r.begun.rest
  /-- The end of the source is begun there. -/
  ended : token.kind = .eof → r.begun.offset = source.utf8ByteSize
  /-- An error is begun where the reader stops. -/
  stopped : token.kind.isFinal = true → r.next.2.offset = r.begun.offset

/-- Reading begins each token at the byte that its place says. -/
theorem Tracks.begins {source : String} {r : Reader} {s : Scan} (h : Tracks source.toList r s)
    (hs : s.PlacedIn source.toList) {token : Token} (hanswer : r.next.1 = some token) :
    r.Begins source token := by
  obtain ⟨t, hyields, hbegun, hmirrors⟩ := h.exists_begun
  obtain ⟨before, hsource, hposition⟩ := hyields.placedIn hs
  have hoffset : r.begun.offset = utf8Len before := by
    have hadd := hbegun.offset_add
    rw [hsource, String.utf8Len_append] at hadd
    omega
  have hcut : takeBytes? r.begun.offset source.toList = some before := by
    rw [hsource, hoffset, takeBytes?_append]
  have hplace : Position.ofByte source.toList r.begun.offset = t.position := by
    rw [hsource, hoffset, Position.ofByte_append, hposition]
  have hplaced := t.placed_next
  cases hnext : t.next with
  | final last =>
    rw [hnext] at hplaced hmirrors
    obtain ⟨hlast, hdone⟩ := hmirrors
    obtain rfl : last = token := Option.some.inj (hlast.symm.trans hanswer)
    have hfinal : last.kind.isFinal = true := t.isFinal_of_next hnext
    refine ⟨hanswer, by rw [hcut]; rfl, hplaced.trans hplace.symm, ?_, ?_, ?_⟩
    · rw [hfinal]
      nofun
    · intro heof
      have hadd := hbegun.offset_add
      rw [Scan.rest_eq_nil_of_final hnext heof] at hadd
      rw [← String.utf8Len_toList, ← hadd, String.utf8Len_nil, Nat.add_zero]
    · exact fun _ => halts_next h.going hdone
  | lexeme found u =>
    rw [hnext] at hplaced hmirrors
    obtain ⟨-, hfound, hafter⟩ := hmirrors
    have htoken : found.token = some token := hfound.symm.trans hanswer
    have hordinary := (Scan.gives_of_next hnext htoken).isFinal
    have hconsumes := t.consumes_next
    rw [hnext] at hconsumes
    obtain ⟨hspan, hrest⟩ := hconsumes
    have htaken : r.taken = found.span := by
      have hadd := hbegun.offset_add
      have hadd' := hafter.offset_add
      rw [← hrest, String.utf8Len_append] at hadd
      have hto : r.next.2.offset = r.begun.offset + utf8Len (t.rest.take found.span.length) := by
        rw [← hrest, List.take_left]
        omega
      rw [taken, hto, hbegun.between_eq, ← hrest, List.take_left]
    refine ⟨hanswer, by rw [hcut]; rfl, (hplaced.1 token htoken).trans hplace.symm, ?_, ?_, ?_⟩
    · intro _
      rw [htaken, hbegun.rest_eq]
      exact ⟨hspan, Scan.shows_of_next hnext htoken⟩
    · intro heof
      rw [heof] at hordinary
      cases hordinary
    · rw [hordinary]
      nofun

/-- Until its stream has ended, a reader stands where the lexer does. -/
theorem Tracks.exists_after {source : List Char} {r : Reader} {s : Scan} (h : Tracks source r s)
    (hs : s.PlacedIn source) (n : Nat) :
    (r.after n).done = true ∨ ∃ t, Tracks source (r.after n) t ∧ t.PlacedIn source := by
  induction n generalizing r s with
  | zero => exact .inr ⟨s, h, hs⟩
  | succ n ih =>
    cases h.follows_next with
    | token hsteps _ _ _ htracks => exact ih htracks (hsteps.placedIn hs)
    | last _ _ _ hdone =>
      rw [after, Gives.after_of_done hdone]
      exact .inl hdone

/-- **Places are exact.**  A reader that has given the tokens of a source before a certain one gives
that one next.  It begins the token at a byte whose place, counted in newlines and bytes of the
source alone, is that of the token: where the text of the token begins, for literal text the whole
run before it is trimmed; where the source ends, for the end; and where the reader stops, for an
error.  And along the stream places never decrease. -/
theorem begins_of_lex (source : String) :
    (∀ n token, (lex source).all[n]? = some token →
      ((start source).after n).Begins source token) ∧
    ((lex source).all.map Token.position).Pairwise (· ≤ ·) := by
  constructor
  · intro n token htoken
    have hanswer : ((start source).after n).next.1 = some token :=
      ((gives_lex source).1.answer_eq n).trans htoken
    rcases (tracks_start source).exists_after (Scan.placedIn_start source) n with
      hdone | ⟨s, htracks, hs⟩
    · rw [Gives.next_of_done hdone] at hanswer
      cases hanswer
    · exact htracks.begins hs hanswer
  · have hsorted := (Scan.start source).sorted_placesFrom (source.toList.length + 1)
    exact (List.pairwise_cons.mp hsorted).2

/-- Text after a comment with a newline in it, and a print that is not closed. -/
example :
    (lex "é\n\x7b#\n#\x7d x \x7b\x7b- a").all.map (fun token => (token.kind, token.position)) =
      [(.text, ⟨1, 1⟩), (.text, ⟨3, 3⟩), (.printOpen, ⟨3, 6⟩), (.whitespace, ⟨3, 9⟩),
        (.name, ⟨3, 10⟩), (.error, ⟨3, 11⟩)] := by
  decide +kernel

end Reader

end Stencil
