import Stencil.Proofs.Expr.Closing
import Stencil.Proofs.Expr.RoundTrip
import Stencil.Proofs.Template.Content
import Stencil.Proofs.Token.Enclosure

/-!
Strings with expressions in them.

A string in double quotes is written from segments: texts, in which the characters that mean
something in a string are behind a backslash, and expressions in `#{` and `}`.  Read back, it is the
concatenation of exactly these segments.  The lexer and the parser read backslashes each in its own
way, the first to find where a text ends and the second to undo them.

An expression is any code that is one in a print.  What it is there it is in a string as well, and
the strings that are written from segments are expressions again, so they may be nested.
-/

namespace Stencil

open Stencil.Text Stencil.Token Parse

/-! ## §1. Code that is an expression -/

/-- Code of an expression: a source that prints it is parsed as that one print, of this tree without
places. -/
def IsExpression (code : String) (e : Expr) : Prop :=
  ∀ name, ∃ pos e', Template.parse name (printing code) =
    .ok ⟨name, none, [.print pos e'], [], [], [], []⟩ ∧ e'.unplaced = e

/-- Prints alone have no text, and each begins once. -/
theorem Written.content_of_prints {good : Expr → Prop} {l l' : List Token} {d d' : Collected}
    {ss : List Stmt} (h : Written good l d ss l' d') (hss : ∀ s ∈ ss, ∃ pos e, s = .print pos e) :
    textTokens l = textTokens l' ∧ printCount l = ss.length + printCount l' := by
  induction h with
  | pass d hpassed => simpa using hpassed.content_eq
  | append _ _ ih₁ ih₂ =>
    obtain ⟨hss₁, hss₂⟩ := List.forall_mem_append.mp hss
    obtain ⟨htexts₁, hprints₁⟩ := ih₁ hss₁
    obtain ⟨htexts₂, hprints₂⟩ := ih₂ hss₂
    refine ⟨htexts₁.trans htexts₂, ?_⟩
    rw [hprints₁, hprints₂, List.length_append, Nat.add_assoc]
  | @print t l d e hprint =>
    have hkind : t.kind ≠ .text := by
      intro hkind
      simp [opensPrint, opensShorthand, opensTag, hkind] at hprint
    rw [textTokens_cons_of_ne hkind, printCount_cons, hprint, Nat.add_comm]
    exact ⟨rfl, rfl⟩
  | extending => simp
  | @action _ _ s haction =>
    obtain ⟨pos, e, rfl⟩ := hss s List.mem_cons_self
    cases haction
  | text | branch | loop | capture | filtered | block | defines | embeds =>
    obtain ⟨pos, e, heq⟩ := hss _ List.mem_cons_self
    cases heq

theorem countP_isOutside_le (l : List Token) :
    l.countP Scan.isOutside ≤ l.countP (·.kind == .text) + l.countP (·.kind == .printClose) := by
  induction l with
  | nil => exact Nat.zero_le _
  | cons token l ih =>
    have hone : (if Scan.isOutside token then 1 else 0) ≤
        (if token.kind == .text then 1 else 0) + (if token.kind == .printClose then 1 else 0) := by
      unfold Scan.isOutside
      cases token.kind == .text <;> cases token.kind == .printClose <;> simp
    simp only [List.countP_cons]
    omega

/-- A source that is one print has nothing outside of the code but what closes the print. -/
theorem countP_isOutside_of_parse {name source : String} {pos : Position} {e : Expr}
    (h : Template.parse name source = .ok ⟨name, none, [.print pos e], [], [], [], []⟩) :
    (lex source).final.kind = .eof ∧ (lex source).tokens.countP Scan.isOutside ≤ 1 := by
  obtain ⟨-, heof, hwritten⟩ := Template.parse_written (fun n => Expr.quiet_parse n .any) h
  obtain ⟨htexts, hprints⟩ := hwritten.content_of_prints fun s hs =>
    ⟨pos, e, List.mem_singleton.mp hs⟩
  refine ⟨heof, ?_⟩
  have htext : (lex source).tokens.countP (·.kind == .text) = 0 := by
    rw [List.countP_eq_length_filter]
    exact congrArg List.length htexts
  have hopen : (lex source).tokens.countP (·.kind == .printOpen) ≤ 1 := by
    have hone : printCount (lex source).tokens = 1 := hprints
    rw [printCount] at hone
    omega
  rw [← (nested_of_lex heof).countP_printClose] at hopen
  have hor := countP_isOutside_le (lex source).tokens
  omega

/-! ## §2. An expression in an interpolation -/

/-- A piece of a body comes after the statements before it. -/
theorem Stmt.statements_of_parsePiece {rules : Rules} {stops : List String}
    {opening : Option Opening} {before : List Stmt} {s t : ParseState} {r : Turn (List Stmt) Body}
    (h : (parsePiece rules stops opening before).run s = .ok (r, t)) :
    (∃ ss, r = .more (ss ++ before)) ∨ ∃ ended, r = .done ⟨before.reverse, ended⟩ := by
  obtain ⟨token, s₁, -, h⟩ := run_bind_eq_ok h
  cases hkind : token.kind <;> simp only [hkind] at h
  case eof =>
    cases opening with
    | none =>
      cases h
      exact .inr ⟨none, rfl⟩
    | some => cases h
  case text =>
    cases h
    exact .inl ⟨[_], rfl⟩
  case printOpen =>
    obtain ⟨e, s₂, -, h⟩ := run_bind_eq_ok h
    obtain ⟨close, s₃, -, h⟩ := run_bind_eq_ok h
    cases h
    exact .inl ⟨[_], rfl⟩
  case tagOpen =>
    obtain ⟨tag, s₂, -, h⟩ := run_bind_eq_ok h
    split at h
    · cases h
      exact .inr ⟨some tag, rfl⟩
    · obtain ⟨ss, s₃, -, h⟩ := run_bind_eq_ok h
      cases h
      exact .inl ⟨ss, rfl⟩
  all_goals cases h

/-- So a body begins with the statements that were there before its first piece. -/
theorem Stmt.prefix_of_pieces {rules : Rules} {stops : List String} {opening : Option Opening}
    {n : Nat} {before : List Stmt} {s t : ParseState} {body : Body}
    (h : (iterate (parsePiece rules stops opening) n before).run s = .ok (body, t)) :
    before.reverse <+: body.statements := by
  induction n generalizing before s with
  | zero => cases h
  | succ n ih =>
    obtain ⟨r, s₁, hturn, h⟩ := run_bind_eq_ok h
    rcases statements_of_parsePiece hturn with ⟨ss, rfl⟩ | ⟨ended, rfl⟩
    · have hmore := ih h
      rw [List.reverse_append] at hmore
      exact (List.prefix_append _ _).trans hmore
    · cases h
      exact List.prefix_rfl

/-- The parse of a source that is one print goes through the parse of its expression. -/
theorem Template.exists_run_of_parse {name source : String} {pos : Position} {e : Expr}
    {opener : Token} {more : List Token}
    (h : Template.parse name source = .ok ⟨name, none, [.print pos e], [], [], [], []⟩)
    (htokens : (lex source).tokens = opener :: more) (hopener : opener.kind = .printOpen) :
    ∃ s s₁ s₂ close, s.cursor.upcoming = more ∧
      (Expr.parse (parseDepth (lex source).tokens.length - 1) .any).run s = .ok (e, s₁) ∧
      (expect [.printClose]).run s₁ = .ok (close, s₂) := by
  obtain ⟨n, hn⟩ : ∃ n, parseDepth (lex source).tokens.length = n + 2 :=
    ⟨parseDepth (lex source).tokens.length - 2, by unfold parseDepth; omega⟩
  rw [Template.parse, Template.parseWithin, hn] at h
  rw [hn]
  -- The first piece of the body is the print.
  cases hbody : (Stmt.parseBody (n + 2) [] none).run (startState (lex source)) with
  | error => rw [hbody] at h; cases h
  | ok r =>
    obtain ⟨body, t⟩ := r
    rw [hbody] at h
    obtain ⟨r, s₁, hpiece, hpieces⟩ := run_bind_eq_ok hbody
    obtain ⟨token, s₂, hnext, hpiece⟩ := run_bind_eq_ok hpiece
    obtain ⟨htoken, -, rfl⟩ := consume_of_run hnext
    have hmove : (startState (lex source)).cursor.next =
        (opener, ⟨[opener], more, (lex source).final⟩) := by
      simp [Cursor.next, startState, Cursor.ofStream, htokens, Cursor.remember, Cursor.backupDepth]
    rw [hmove] at htoken hpiece
    obtain rfl : opener = token := htoken
    simp only [hopener] at hpiece
    obtain ⟨e', s₃, hexpr, hpiece⟩ := run_bind_eq_ok hpiece
    obtain ⟨close, s₄, hclose, hpiece⟩ := run_bind_eq_ok hpiece
    cases hpiece
    have hprefix := Stmt.prefix_of_pieces hpieces
    have hstatements : body.statements = [.print pos e] :=
      congrArg Template.body (Except.ok.inj h)
    rw [hstatements] at hprefix
    cases List.IsPrefix.eq_of_length hprefix rfl
    exact ⟨_, _, _, close, rfl, hexpr, hclose⟩

/-- Tokens that some code leaves in an interpolation, and the tree that is parsed from them. -/
structure Enclosed (code : String) (e : Expr) (ks : List (TokenKind × String)) : Prop where
  lexes : ∀ more outer, Lexes (' ' :: (code.toList ++ ' ' :: '}' :: more))
    (.interpolation [] :: outer) (ks ++ [interpolateShape]) more outer
  takes : ∀ m more, 4 * ks.length + 23 ≤ m → Takes (Expr.parse m .any)
    (· = ks ++ interpolateShape :: more) (·.unplaced = e) (AfterBlanks (interpolateShape :: more))

/-- An expression is one in an interpolation. -/
theorem IsExpression.exists_enclosed {code : String} {e : Expr} (h : IsExpression code e) :
    ∃ ks, Enclosed code e ks := by
  obtain ⟨pos, e', hparse, rfl⟩ := h ""
  obtain ⟨heof, hone⟩ := countP_isOutside_of_parse hparse
  obtain ⟨opener, tokens, close, htokens, hopener, hclose, hkinds, hlexes⟩ :=
    exists_lexes_of_printing heof hone
  obtain ⟨s, s₁, s₂, close', hs, hrun, hend⟩ := Template.exists_run_of_parse hparse htokens hopener
  let fin : Closing .printClose := ⟨close, [], hclose⟩
  have hupcoming : s.cursor.upcoming = tokens ++ fin.tokens := hs
  have hdepth : Template.parseDepth (lex (printing code)).tokens.length - 1 =
      4 * (tokens.map Token.shape).length + 23 := by
    rw [htokens, Template.parseDepth]
    simp
    omega
  rw [hdepth] at hrun
  exact ⟨tokens.map Token.shape, hlexes, fun m more hm =>
    Expr.takes_parse_of_print hkinds hupcoming hrun hend hm more⟩

/-! ## §3. Strings -/

/-- A part of a string. -/
inductive Segment
  | literal (text : String) (nonempty : text ≠ "")
  | interpolated (code : String) (e : Expr) (isExpression : IsExpression code e)

namespace Segment

/-- How a part is written in double quotes. -/
def spelling : Segment → List Char
  | .literal text _ => escaped '"' text.toList
  | .interpolated code _ _ => '#' :: '{' :: ' ' :: (code.toList ++ [' ', '}'])

/-- The tree of a part. -/
def tree : Segment → Expr
  | .literal text _ => .string .start text
  | .interpolated _ e _ => e

/-- Whether a part is text. -/
def isText : Segment → Bool
  | .literal _ _ => true
  | .interpolated _ _ _ => false

end Segment

/-- The parts in double quotes. -/
def doubleQuoted (segments : List Segment) : String :=
  .ofList ('"' :: segments.flatMap Segment.spelling ++ ['"'])

/-- A text in single quotes. -/
def singleQuoted (text : String) : String :=
  .ofList ('\'' :: escaped '\'' text.toList ++ ['\''])

/-- The tree of a string: an empty text, the only part, or the concatenation of all parts from the
left to the right. -/
def concatenation : List Segment → Expr
  | [] => .string .start ""
  | first :: more =>
    more.foldl (fun left segment => .binary .start .concat left segment.tree) first.tree

/-- No two texts stand side by side. -/
def Apart (segments : List Segment) : Prop :=
  segments.IsChain fun a b => (a.isText && b.isText) = false

/-! ## §4. The parts of a string -/

/-- What comes after a text in a string ends it. -/
theorem stringRunLength_spelling {segments : List Segment}
    (h : ∀ s ∈ segments.head?, s.isText = false) (more : List Char) :
    stringRunLength '"' (segments.flatMap Segment.spelling ++ '"' :: more) = some 0 := by
  cases segments with
  | nil => simp [stringRunLength]
  | cons segment segments =>
    cases segment with
    | literal =>
      have htext := h _ rfl
      cases htext
    | interpolated => simp [Segment.spelling, stringRunLength]

/-- The tree of parts that were parsed. -/
theorem unplaced_joinSegments (pos : Position) {es : List Expr} {segments : List Segment}
    (h : es.map Expr.unplaced = segments.map Segment.tree) :
    (Expr.joinSegments pos es).unplaced = concatenation segments := by
  cases segments with
  | nil =>
    obtain rfl := List.map_eq_nil_iff.mp h
    rfl
  | cons segment segments =>
    obtain ⟨e, es, rfl, he, hes⟩ := List.map_eq_cons_iff.mp h
    show (es.foldl (.binary pos .concat) e).unplaced =
      segments.foldl (fun left segment => .binary .start .concat left segment.tree) segment.tree
    rw [← he]
    clear he h
    induction segments generalizing e es with
    | nil =>
      obtain rfl := List.map_eq_nil_iff.mp hes
      rfl
    | cons segment' segments ih =>
      obtain ⟨e', es, rfl, he', hes⟩ := List.map_eq_cons_iff.mp hes
      have hrest := ih (.binary pos .concat e e') es hes
      rw [Expr.unplaced, he'] at hrest
      exact hrest

/-- Tokens that the parts of a string leave before its closing quote, and what is parsed from them.
Each part is read in one turn. -/
structure Spells (segments : List Segment) (ks : List (TokenKind × String)) : Prop where
  lexes : ∀ more outer, Lexes (segments.flatMap Segment.spelling ++ '"' :: more)
    (.string '"' :: outer) ks ('"' :: more) (.string '"' :: outer)
  turns : segments.length ≤ ks.length
  takes : ∀ m pos more k before, 4 * ks.length + 15 ≤ m → segments.length < k →
    Takes (iterate (Expr.parseSegment (Expr.parse m) pos) k before)
      (· = ks ++ (.stringClose, "\"") :: more)
      (·.map Expr.unplaced = before.reverse.map Expr.unplaced ++ segments.map Segment.tree)
      (· = more)

namespace Spells

theorem nil : Spells [] [] where
  lexes more outer := Lexes.refl _ _
  turns := Nat.le_refl 0
  takes m pos more k before _ hk := by
    obtain ⟨k, rfl⟩ : ∃ k', k = k' + 1 := ⟨k - 1, by simp at hk; omega⟩
    apply Takes.done
    refine (Expr.takes_parseSegment_close _ pos before _ more).mono ?_
    rintro _ ⟨all, rfl, rfl⟩
    exact ⟨_, rfl, by simp⟩

variable {segments : List Segment} {ks : List (TokenKind × String)}

/-- A text before parts that do not begin with one. -/
theorem literal {text : String} (nonempty : text ≠ "") (h : Spells segments ks)
    (hfirst : ∀ s ∈ segments.head?, s.isText = false) :
    Spells (.literal text nonempty :: segments)
      ((.stringText, .ofList (escaped '"' text.toList)) :: ks) where
  lexes more outer := by
    have hne : text.toList ≠ [] := fun h => nonempty (String.toList_eq_nil_iff.mp h)
    have hend := stringRunLength_spelling hfirst more
    have htext := lexes_stringText (by decide) hne hend outer
    rw [List.flatMap_cons, List.append_assoc]
    exact htext.trans (h.lexes more outer)
  turns := Nat.succ_le_succ h.turns
  takes m pos more k before hm hk := by
    simp only [List.length_cons] at hm hk
    obtain ⟨k, rfl⟩ : ∃ k', k = k' + 1 := ⟨k - 1, by omega⟩
    apply (Expr.takes_parseSegment_text (.inl rfl) _ pos before text _).more
    rintro _ ⟨e, rfl, he⟩
    apply (h.takes m pos more k (e :: before) (by omega) (by omega)).mono
    intro all hall
    rw [hall]
    simp [he, Segment.tree]

/-- An expression before other parts. -/
theorem interpolated {code : String} {e : Expr} (isExpression : IsExpression code e)
    {inner : List (TokenKind × String)} (hcode : Enclosed code e inner) (h : Spells segments ks) :
    Spells (.interpolated code e isExpression :: segments)
      ((.interpolateOpen, "#\x7b") :: (inner ++ interpolateShape :: ks)) where
  lexes more outer := by
    have hopen : Lexes ('#' :: '{' :: ' ' :: (code.toList ++ ' ' :: '}' ::
        (segments.flatMap Segment.spelling ++ '"' :: more))) (.string '"' :: outer)
        [(.interpolateOpen, "#\x7b")] _ (.interpolation [] :: .string '"' :: outer) :=
      Lexes.take ['#', '{'] fun _ => rfl
    have hall := (hopen.trans (hcode.lexes _ _)).trans (h.lexes more outer)
    simpa [Segment.spelling] using hall
  turns := by
    have := h.turns
    simp
    omega
  takes m pos more k before hm hk := by
    simp only [List.length_cons, List.length_append] at hm hk
    obtain ⟨k, rfl⟩ : ∃ k', k = k' + 1 := ⟨k - 1, by omega⟩
    have hturn : Takes (Expr.parseSegment (Expr.parse m) pos before)
        (· = (.interpolateOpen, "#\x7b") :: (inner ++ interpolateShape :: ks) ++
          (.stringClose, "\"") :: more)
        (fun r => ∃ all, r = .more all ∧ ∃ e', all = e' :: before ∧ e'.unplaced = e)
        (· = ks ++ (.stringClose, "\"") :: more) := by
      rw [List.cons_append, List.append_assoc, List.cons_append]
      apply (takes_next (.interpolateOpen, "#\x7b") _ nofun).bind
      intro token htoken
      have hkind : token.kind = .interpolateOpen := congrArg Prod.fst htoken
      simp only [hkind]
      apply (hcode.takes m _ (by omega)).bind
      intro e' he'
      apply (takes_interpolateClose _).bind
      intro _ _
      exact Takes.pure ⟨_, rfl, _, rfl, he'⟩
    apply hturn.more
    rintro _ ⟨e', rfl, he'⟩
    apply (h.takes m pos more k (e' :: before) (by omega) (by omega)).mono
    intro all hall
    rw [hall]
    simp [he', Segment.tree]

end Spells

/-- Parts without texts side by side are lexed and parsed one by one. -/
theorem exists_spells {segments : List Segment} (h : Apart segments) :
    ∃ ks, Spells segments ks := by
  induction segments with
  | nil => exact ⟨[], .nil⟩
  | cons segment segments ih =>
    obtain ⟨hfirst, hrest⟩ := List.isChain_cons.mp h
    obtain ⟨ks, hks⟩ := ih hrest
    cases segment with
    | literal text nonempty => exact ⟨_, hks.literal nonempty fun s hs => hfirst s hs⟩
    | interpolated code e isExpression =>
      obtain ⟨inner, hinner⟩ := isExpression.exists_enclosed
      exact ⟨_, hks.interpolated isExpression hinner⟩

/-! ## §5. A string in a print -/

namespace Parse

variable {k : TokenKind × String} {ks : List (TokenKind × String)}

/-- A token is looked at, and a blank before it is passed. -/
theorem takes_peek_of_blank (hsolid : k.1 ≠ .whitespace) (hk : k.1 ≠ .error) :
    Takes peek (· = blankShape :: k :: ks) (·.shape = k) (· = k :: ks) := by
  intro s hs
  obtain ⟨token, c, hrun, hfinal, htoken, -, hback⟩ := (finds_nextSolid_of_blank hs hsolid).run hk
  refine ⟨token, c.backup, ?_, c.final_backup.trans hfinal, hback, htoken⟩
  rw [peek, nextSolid, run_bind_ok hrun]
  rfl

theorem takes_nextSolid_of_solid (hsolid : k.1 ≠ .whitespace) (hk : k.1 ≠ .error) :
    Takes nextSolid (· = k :: ks) (·.shape = k) (· = ks) := by
  intro s hs
  obtain ⟨token, c, hrun, hfinal, htoken, hc, -⟩ := (finds_nextSolid hs hsolid).run hk
  exact ⟨token, c, hrun, hfinal, hc, htoken⟩

end Parse

section Quotes

variable {quote : Char} (ks : List (TokenKind × String)) {e : Expr}

/-- A string is the whole of an expression before the end of a print. -/
theorem Expr.takes_parse_of_string {n : Nat} (hn : 1 ≤ n)
    (h : ∀ pos, Takes (parseString n (parse n) pos)
      (· = ks ++ [(.stringClose, .singleton quote), blankShape, closeShape]) (·.unplaced = e)
      (· = [blankShape, closeShape])) :
    Takes (parse (n + 2) .any)
      (· = blankShape :: (.stringOpen, .singleton quote) ::
        (ks ++ [(.stringClose, .singleton quote), blankShape, closeShape]))
      (·.unplaced = e) (Facing .lastPrint []) := by
  obtain ⟨m, rfl⟩ : ∃ m, n = m + 1 := ⟨n - 1, by omega⟩
  have hprimary : Takes (parsePrimary (m + 1) (parse (m + 1)))
      (· = (.stringOpen, .singleton quote) ::
        (ks ++ [(.stringClose, .singleton quote), blankShape, closeShape]))
      (·.unplaced = e) (Facing .lastPrint []) := by
    apply (takes_nextSolid_of_solid (k := (.stringOpen, .singleton quote)) (by simp) (by simp)).bind
    intro token htoken
    have hkind : token.kind = .stringOpen := congrArg Prod.fst htoken
    simp only [hkind, parseEnclosed]
    exact Takes.facing (h token.position)
  -- Neither a link nor an operator nor a choice comes after the closing quote.
  have hlast : (leadOf .lastPrint []).1 ≠ .operator ∧
      leadOf .lastPrint [] ≠ (.punctuation, "?") := ⟨by decide, by decide⟩
  have hend : Separate [] := rfl
  refine takes_unconditional (Takes.bind ?_ fun left hleft =>
    takes_noOperator hlast.1 0 m hleft) hlast.2
  apply (takes_peek_of_blank (k := (.stringOpen, .singleton quote)) (by simp) (by simp)).bind
  intro token htoken
  have hkind : token.kind = .stringOpen := congrArg Prod.fst htoken
  rw [if_neg (by simp [hkind])]
  apply hprimary.bind
  intro subject hsubject
  refine Takes.done ((takes_noLink hend subject).mono ?_)
  rintro _ ⟨e', rfl, rfl⟩
  exact ⟨e', rfl, hsubject⟩

/-- What is lexed and parsed as a string between quotes is an expression. -/
theorem isExpression_of_string (hquote : quote = '"' ∨ quote = '\'') {cs : List Char}
    (hlexes : ∀ more outer, Lexes (cs ++ quote :: more) (.string quote :: outer) ks
      (quote :: more) (.string quote :: outer))
    (htakes : ∀ n pos more, 4 * ks.length + 15 ≤ n →
      Takes (Expr.parseString n (Expr.parse n) pos)
        (· = ks ++ (.stringClose, .singleton quote) :: more) (·.unplaced = e) (· = more)) :
    IsExpression (.ofList (quote :: cs ++ [quote])) e := by
  intro name
  generalize hsource : printing (.ofList (quote :: cs ++ [quote])) = source
  have hsolid : isBlank quote = false := by rcases hquote with rfl | rfl <;> rfl
  have hlex : Lexes source.toList []
      ((.printOpen, "\x7b\x7b") :: blankShape :: (.stringOpen, .singleton quote) ::
        (ks ++ [(.stringClose, .singleton quote), blankShape, closeShape])) [] [] := by
    let print := Fence.print.region []
    have hopen := lexes_opener .print (quote :: (cs ++ quote :: [' ', '}', '}']))
    have hblank : Lexes (' ' :: quote :: (cs ++ quote :: [' ', '}', '}'])) [print] [blankShape]
        (quote :: (cs ++ quote :: [' ', '}', '}'])) [print] := lexes_blank hsolid
    have hstart : Lexes (quote :: (cs ++ [quote]) ++ [' ', '}', '}']) [print]
        [(.stringOpen, .singleton quote)] (cs ++ [quote] ++ [' ', '}', '}'])
        [.string quote, print] := lexes_stringOpen hquote _
    have hblank' : Lexes [' ', '}', '}'] [print] [blankShape] ['}', '}'] [print] :=
      lexes_blank rfl
    rw [List.cons_append, List.append_assoc, List.singleton_append] at hstart
    have hinside := ((hopen.trans hblank).trans hstart).trans (hlexes _ [print])
    have hall := ((hinside.trans (lexes_stringClose _)).trans hblank').trans
      (lexes_closer .print [])
    subst hsource
    simpa [printing, Fence.opener, Fence.openShape, Fence.closeShape, closeShape] using hall
  obtain ⟨htokens, hfinal⟩ := hlex.lex_eq
  have hlength := congrArg List.length htokens
  simp only [List.length_map, List.length_cons, List.length_append, List.length_nil] at hlength
  obtain ⟨n, hn⟩ : ∃ n, Template.parseDepth (lex source).tokens.length = n + 3 :=
    ⟨Template.parseDepth (lex source).tokens.length - 3, by unfold Template.parseDepth; omega⟩
  have hdepth : 4 * ks.length + 15 ≤ n ∧ 1 ≤ n := by
    unfold Template.parseDepth at hn
    omega
  have hexpr : Takes (Expr.parse (n + 2) .any) _ (·.unplaced = e) (Facing .lastPrint []) :=
    Expr.takes_parse_of_string ks hdepth.2 fun pos => htakes n pos [blankShape, closeShape] hdepth.1
  obtain ⟨pos, e', c, hbody, he⟩ :=
    Stmt.run_printed hexpr (s := Parse.startState (lex source)) htokens hfinal
  refine ⟨pos, e', ?_, he⟩
  rw [Template.parse, Template.parseWithin, hn, hbody]
  rfl

end Quotes

theorem isExpression_doubleQuoted {segments : List Segment} (h : Apart segments) :
    IsExpression (doubleQuoted segments) (concatenation segments) := by
  obtain ⟨ks, hks⟩ := exists_spells h
  refine isExpression_of_string ks (.inl rfl) hks.lexes fun n pos more hn => ?_
  have hturns := hks.turns
  apply (hks.takes n pos more n [] hn (by omega)).bind
  intro all hall
  exact Takes.pure (unplaced_joinSegments pos hall)

theorem isExpression_singleQuoted (text : String) :
    IsExpression (singleQuoted text) (.string .start text) := by
  by_cases htext : text = ""
  · subst htext
    refine isExpression_of_string [] (.inr rfl) (fun _ _ => Lexes.refl _ _)
      fun n pos more hn => ?_
    obtain ⟨m, rfl⟩ : ∃ m, n = m + 1 := ⟨n - 1, by simp at hn; omega⟩
    apply (Takes.done (Expr.takes_parseSegment_close _ pos [] _ more)).bind
    rintro _ rfl
    exact Takes.pure rfl
  · have hne : text.toList ≠ [] := fun h => htext (String.toList_eq_nil_iff.mp h)
    refine isExpression_of_string [(.stringText, .ofList (escaped '\'' text.toList))]
      (.inr rfl) (fun more outer => ?_) fun n pos more hn => ?_
    · exact lexes_stringText (by decide) hne rfl outer
    · obtain ⟨m, rfl⟩ : ∃ m, n = m + 2 := ⟨n - 2, by simp at hn; omega⟩
      refine Takes.bind (Q := fun all => (Expr.joinSegments pos all).unplaced = .string .start text)
        ?_ fun all hall => Takes.pure hall
      apply (Expr.takes_parseSegment_text (.inr rfl) _ pos [] text _).more
      rintro _ ⟨e, rfl, he⟩
      refine Takes.done ((Expr.takes_parseSegment_close _ pos [e] _ more).mono ?_)
      rintro _ ⟨all, rfl, rfl⟩
      exact ⟨_, rfl, he⟩

/-- **Strings read back what was written.**  Parts in double quotes, no two of them texts side by
side, are parsed as the empty text, as the only part or as the concatenation of exactly these parts
from the left to the right, each text unchanged.  Any text in single quotes is parsed as itself. -/
theorem isExpression_quoted (segments : List Segment) (apart : Apart segments) (text : String) :
    IsExpression (doubleQuoted segments) (concatenation segments) ∧
      IsExpression (singleQuoted text) (.string .start text) :=
  ⟨isExpression_doubleQuoted apart, isExpression_singleQuoted text⟩

/-- A string with a quote, a hash and a brace in its texts and with another string in an
interpolation. -/
theorem isExpression_quoted_nested :
    let inner : List Segment := [.literal "\x7d\"#" (by decide)]
    let segments : List Segment := [.literal "\\\"#" (by decide),
      .interpolated (doubleQuoted inner) (.string .start "\x7d\"#")
        (isExpression_doubleQuoted (.singleton _)),
      .literal "\x7b#\x7b" (by decide)]
    Apart segments ∧ doubleQuoted segments =
        "\"\\\\\\\"\\##\x7b \"\x7d\\\"\\#\" \x7d\x7b\\#\x7b\"" ∧
      IsExpression (doubleQuoted segments) (.binary .start .concat (.binary .start .concat
        (.string .start "\\\"#") (.string .start "\x7d\"#")) (.string .start "\x7b#\x7b")) ∧
      IsExpression (singleQuoted "it's") (.string .start "it's") := by
  intro inner segments
  have hapart : Apart segments := .cons_cons rfl (.cons_cons rfl (.singleton _))
  refine ⟨hapart, by decide, ?_⟩
  exact isExpression_quoted segments hapart "it's"

end Stencil
