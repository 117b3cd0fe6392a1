import Stencil.Proofs.Template.Clause
import Stencil.Proofs.Token.Respacing
import Stencil.Template.Expr.Parser

/-!
Parsing without places.

Places are carried through parsing and decide nothing.  A state can forget them, along with which
blanks the white space in it is, and then every parser does what it does on the state as it was: it
stops with the same error, or it gives the same result and leaves the same state, but for places.
`Forgets` says so of two parsers, of which the second got its arguments without places, and is
closed under everything that parsers are built with.
-/

namespace Stencil

/-! ## §1. States and outcomes without places -/

/-- A cursor whose tokens are all at the start of a source. -/
def Cursor.unplaced (c : Cursor) : Cursor :=
  ⟨c.past.map Token.unplaced, c.upcoming.map Token.unplaced, c.final.unplaced⟩

/-- A state whose tokens and nodes are all at the start of a source. -/
def ParseState.unplaced (s : ParseState) : ParseState where
  cursor := s.cursor.unplaced
  parent := s.parent.map Extends.unplaced
  blocks := s.blocks.map Block.unplaced
  macros := s.macros.map MacroDef.unplaced
  macroTable := s.macroTable
  blockTables := s.blockTables

/-- A cause without the places in it. -/
def ParseErrorKind.unplaced : ParseErrorKind → ParseErrorKind
  | .unclosedTag tag _ => .unclosedTag tag .start
  | kind => kind

/-- A reason to stop without the places in it. -/
def ParseFailure.unplaced : ParseFailure → ParseFailure
  | .error e => .error ⟨.start, e.kind.unplaced⟩
  | .exhausted => .exhausted

@[simp] theorem Token.kind_unplaced (t : Token) : t.unplaced.kind = t.kind := rfl

@[simp] theorem Token.position_unplaced (t : Token) : t.unplaced.position = .start := rfl

theorem Token.value_unplaced {t : Token} (h : t.kind ≠ .whitespace) :
    t.unplaced.value = t.value :=
  if_neg h

@[simp] theorem Token.display_unplaced (t : Token) : t.unplaced.display = t.display := by
  unfold display unplaced
  cases t.kind <;> rfl

theorem Token.is_unplaced {kind : TokenKind} (h : kind ≠ .whitespace) (t : Token)
    (value : String) : t.unplaced.is kind value = t.is kind value := by
  by_cases hkind : t.kind = kind
  · simp [is, unplaced, hkind, h]
  · have hkind : (t.kind == kind) = false := beq_eq_false_iff_ne.mpr hkind
    simp [is, hkind]

theorem ParseError.unexpected_unplaced (t : Token) (expected : String) :
    ParseError.unexpected t.unplaced expected =
      ⟨.start, (ParseError.unexpected t expected).kind.unplaced⟩ := by
  unfold unexpected
  rw [Token.kind_unplaced, Token.display_unplaced]
  split <;> rfl

namespace Cursor

theorem map_remember (past : List Token) (token : Token) :
    (remember past token).map Token.unplaced =
      remember (past.map Token.unplaced) token.unplaced := by
  simp [remember, List.map_take]

theorem next_unplaced (c : Cursor) :
    c.unplaced.next = (c.next.1.unplaced, c.next.2.unplaced) := by
  obtain ⟨past, upcoming, final⟩ := c
  cases upcoming <;> simp [unplaced, next, map_remember]

theorem solidFrom_unplaced (final : Token) (past upcoming : List Token) :
    solidFrom final.unplaced (past.map Token.unplaced) (upcoming.map Token.unplaced) =
      ((solidFrom final past upcoming).1.unplaced, (solidFrom final past upcoming).2.unplaced) := by
  induction upcoming generalizing past with
  | nil => simp [solidFrom, unplaced, map_remember]
  | cons token rest ih =>
    by_cases h : token.kind = .whitespace
    · simpa [solidFrom, h, map_remember] using ih (remember past token)
    · simp [solidFrom, h, unplaced, map_remember]

theorem nextSolid_unplaced (c : Cursor) :
    c.unplaced.nextSolid = (c.nextSolid.1.unplaced, c.nextSolid.2.unplaced) :=
  solidFrom_unplaced c.final c.past c.upcoming

theorem backup_unplaced (c : Cursor) : c.unplaced.backup = c.backup.unplaced := by
  obtain ⟨past, upcoming, final⟩ := c
  cases past <;> simp [unplaced, backup]

end Cursor

namespace Parse

variable {α β γ δ ε ζ : Type}

/-- An outcome without places. -/
def outcome (f : α → β) :
    Except ParseFailure (α × ParseState) → Except ParseFailure (β × ParseState)
  | .ok (a, s) => .ok (f a, s.unplaced)
  | .error e => .error e.unplaced

/-- On a state without places `y` does what `x` does on the state as it is, and its result is what
`f` makes of the result of `x`. -/
def Forgets (f : α → β) (x : Parse α) (y : Parse β) : Prop :=
  ∀ s, y.run s.unplaced = outcome f (x.run s)

/-! ## §2. What parsers are built with -/

namespace Forgets

variable {f : α → β} {g : γ → δ} {x : Parse α} {y : Parse β} {k : α → Parse γ} {l : β → Parse δ}

theorem pure (a : α) : Forgets f (pure a) (pure (f a)) :=
  fun _ => rfl

theorem pure_of {a : α} {b : β} (h : b = f a) : Forgets f (Pure.pure a) (Pure.pure b) :=
  h ▸ pure a

/-- What comes after a parser counts for its results only. -/
theorem bind_of (h : Forgets f x y) {P : α → Prop} (hP : ∀ s a t, x.run s = .ok (a, t) → P a)
    (hk : ∀ a, P a → Forgets g (k a) (l (f a))) : Forgets g (x >>= k) (y >>= l) := by
  intro s
  rw [StateT.run_bind, StateT.run_bind, h s]
  cases hrun : x.run s with
  | error e => rfl
  | ok r => exact hk r.1 (hP s r.1 r.2 hrun) r.2

theorem bind (h : Forgets f x y) (hk : ∀ a, Forgets g (k a) (l (f a))) :
    Forgets g (x >>= k) (y >>= l) :=
  h.bind_of (P := fun _ => True) (fun _ _ _ _ => trivial) fun a _ => hk a

theorem map (h : Forgets f x y) {m : α → γ} {m' : β → δ} (hm : ∀ a, m' (f a) = g (m a)) :
    Forgets g (m <$> x) (m' <$> y) := by
  rw [← bind_pure_comp, ← bind_pure_comp]
  refine h.bind fun a => ?_
  show Forgets g (Pure.pure (m a)) (Pure.pure (m' (f a)))
  rw [hm]
  exact pure (m a)

theorem ite {c c' : Prop} [Decidable c] [Decidable c'] (hc : c' ↔ c) {x' : Parse α} {y' : Parse β}
    (ht : c → Forgets f x y) (he : ¬ c → Forgets f x' y') :
    Forgets f (if c then x else x') (if c' then y else y') := by
  by_cases h : c
  · rw [if_pos h, if_pos (hc.mpr h)]
    exact ht h
  · rw [if_neg h, if_neg (mt hc.mp h)]
    exact he h

theorem fail (pos : Position) {kind kind' : ParseErrorKind} (h : kind' = kind.unplaced) :
    Forgets f (Parse.fail pos kind) (Parse.fail .start kind') :=
  fun _ => h ▸ rfl

/-- What comes after a failure does not count. -/
theorem fail_bind (pos : Position) {kind kind' : ParseErrorKind} (h : kind' = kind.unplaced) :
    Forgets g (Parse.fail pos kind >>= k) (Parse.fail .start kind' >>= l) :=
  fun _ => h ▸ rfl

theorem unexpected (token : Token) (expected : String) :
    Forgets f (Parse.unexpected token expected) (Parse.unexpected token.unplaced expected) := by
  intro s
  rw [Parse.unexpected, Parse.unexpected, ParseError.unexpected_unplaced]
  rfl

theorem exhausted : Forgets f (throw .exhausted) (throw .exhausted) :=
  fun _ => rfl

/-- A parser that reads the state does the same if that forgets its places. -/
theorem get_bind {k : ParseState → Parse α} {l : ParseState → Parse β}
    (h : ∀ s, Forgets f (k s) (l s.unplaced)) :
    Forgets f (get >>= k) (get >>= l) :=
  fun s => h s s

theorem modify {m m' : ParseState → ParseState} (h : ∀ s, m' s.unplaced = (m s).unplaced) :
    Forgets (id : PUnit → PUnit) (modify m) (modify m') := by
  intro s
  show Except.ok (PUnit.unit, m' s.unplaced) = _
  rw [h]
  rfl

theorem set {s t : ParseState} (h : t = s.unplaced) :
    Forgets (id : PUnit → PUnit) (set s) (set t) :=
  fun _ => h ▸ rfl

end Forgets

/-- What a turn of a loop gives, without places. -/
def Turn.map (f : α → β) (g : γ → δ) : Turn α γ → Turn β δ
  | .more a => .more (f a)
  | .done b => .done (g b)

theorem forgets_iterate {f : α → β} {g : γ → δ} {turn : α → Parse (Turn α γ)}
    {turn' : β → Parse (Turn β δ)} (h : ∀ a, Forgets (Turn.map f g) (turn a) (turn' (f a)))
    (n : Nat) (a : α) : Forgets g (iterate turn n a) (iterate turn' n (f a)) := by
  induction n generalizing a with
  | zero => exact Forgets.exhausted
  | succ n ih =>
    refine (h a).bind fun r => ?_
    cases r with
    | more a => exact ih a
    | done b => exact Forgets.pure b

/-! ## §3. Moves on tokens -/

theorem forgets_consume {move : Cursor → Token × Cursor}
    (h : ∀ c, move c.unplaced = ((move c).1.unplaced, (move c).2.unplaced)) :
    Forgets Token.unplaced (consume move) (consume move) := by
  refine Forgets.get_bind fun s => ?_
  show Forgets Token.unplaced (do
    modify fun t => { t with cursor := (move s.cursor).2 }
    if (move s.cursor).1.kind = .error then
      fail (move s.cursor).1.position (.lexical (move s.cursor).1.value)
    else pure (move s.cursor).1) (do
    modify fun t => { t with cursor := (move s.cursor.unplaced).2 }
    if (move s.cursor.unplaced).1.kind = .error then
      fail (move s.cursor.unplaced).1.position (.lexical (move s.cursor.unplaced).1.value)
    else pure (move s.cursor.unplaced).1)
  rw [h]
  refine Forgets.bind (f := id) (Forgets.modify fun _ => rfl) fun _ => ?_
  refine Forgets.ite Iff.rfl (fun herror => ?_) fun _ => Forgets.pure _
  refine Forgets.fail _ ?_
  rw [Token.value_unplaced (by rw [herror]; nofun)]
  rfl

theorem forgets_next : Forgets Token.unplaced next next :=
  forgets_consume Cursor.next_unplaced

theorem forgets_nextSolid : Forgets Token.unplaced nextSolid nextSolid :=
  forgets_consume Cursor.nextSolid_unplaced

theorem forgets_backup : Forgets id backup backup :=
  Forgets.modify fun s => by
    show ({ s.unplaced with cursor := s.cursor.unplaced.backup } : ParseState) = _
    rw [Cursor.backup_unplaced]
    rfl

theorem forgets_peek : Forgets Token.unplaced peek peek :=
  forgets_nextSolid.bind fun token => forgets_backup.bind fun _ => Forgets.pure token

theorem forgets_expect (kinds : List TokenKind) :
    Forgets Token.unplaced (expect kinds) (expect kinds) :=
  forgets_nextSolid.bind fun token =>
    Forgets.ite Iff.rfl (fun _ => Forgets.pure token) fun _ => Forgets.unexpected token _

theorem forgets_expectValue {kind : TokenKind} (hkind : kind ≠ .whitespace) (value : String) :
    Forgets Token.unplaced (expectValue kind value) (expectValue kind value) :=
  forgets_nextSolid.bind fun token =>
    Forgets.ite (by rw [Token.is_unplaced hkind]) (fun _ => Forgets.pure token)
      fun _ => Forgets.unexpected token _

theorem forgets_accept {kind : TokenKind} (hkind : kind ≠ .whitespace) (value : String) :
    Forgets id (accept kind value) (accept kind value) :=
  forgets_nextSolid.bind fun token =>
    Forgets.ite (by rw [Token.is_unplaced hkind]) (fun _ => Forgets.pure true)
      fun _ => forgets_backup.bind fun _ => Forgets.pure false

/-- A token that was expected is no white space. -/
theorem kind_of_expect {kinds : List TokenKind} (hkinds : .whitespace ∉ kinds) {s t : ParseState}
    {token : Token} (h : (expect kinds).run s = .ok (token, t)) : token.kind ≠ .whitespace := by
  obtain ⟨found, s₁, -, hrest⟩ := run_bind_eq_ok h
  split at hrest
  · next hmem =>
    cases hrest
    exact fun hkind => hkinds (hkind ▸ List.contains_iff_mem.mp hmem)
  · cases hrest

theorem forgets_name : Forgets id name name := by
  refine (forgets_expect _).bind_of (fun _ _ _ => kind_of_expect (by decide)) fun token h => ?_
  rw [Token.value_unplaced h]
  exact Forgets.pure token.value

theorem forgets_endTag : Forgets id endTag endTag :=
  (forgets_expect _).bind fun _ => Forgets.pure ()

section Lists

variable {f : α → β} {x : Parse α} {y : Parse β} (hxy : Forgets f x y)

include hxy

theorem forgets_commaSeparated (n : Nat) :
    Forgets (List.map f) (commaSeparated n x) (commaSeparated n y) := by
  refine forgets_iterate (f := List.map f) (g := List.map f) (fun items => ?_) n []
  refine hxy.bind fun item => (forgets_accept (by decide) _).bind fun comma => ?_
  refine Forgets.ite Iff.rfl (fun _ => Forgets.pure _) fun _ => Forgets.pure_of ?_
  rw [Turn.map, List.map_reverse, List.map_cons]

theorem forgets_listTurn {close : TokenKind} (items : List α) :
    Forgets (Turn.map (List.map f) (List.map f)) (listTurn close x items)
      (listTurn close y (items.map f)) := by
  refine forgets_peek.bind fun first => Forgets.ite Iff.rfl (fun _ => ?_) fun _ => ?_
  · exact forgets_nextSolid.bind fun _ => Forgets.pure_of (by rw [Turn.map, List.map_reverse])
  · refine hxy.bind fun item => forgets_nextSolid.bind fun token => ?_
    refine Forgets.ite Iff.rfl (fun _ => Forgets.pure_of ?_) fun _ => ?_
    · rw [Turn.map, List.map_reverse, List.map_cons]
    · refine Forgets.ite (by rw [Token.is_unplaced (by decide)]) (fun _ => Forgets.pure _)
        fun _ => Forgets.unexpected token _

theorem forgets_listUntil (n : Nat) (close : TokenKind) :
    Forgets (List.map f) (listUntil n close x) (listUntil n close y) :=
  forgets_iterate (forgets_listTurn hxy) n []

end Lists

end Parse

/-! ## §4. Expressions -/

namespace Expr

open Parse

theorem unplaced_joinSegments (pos : Position) (segments : List Expr) :
    (joinSegments pos segments).unplaced = joinSegments .start (segments.map unplaced) := by
  cases segments with
  | nil => rfl
  | cons first more =>
    show (more.foldl (.binary pos .concat) first).unplaced =
      (more.map unplaced).foldl (.binary .start .concat) first.unplaced
    induction more generalizing first with
    | nil => rfl
    | cons second more ih =>
      rw [List.foldl_cons, ih, unplaced, List.map_cons, List.foldl_cons]

theorem forgets_readNumber (pos : Position) (text : String) :
    Forgets unplaced (readNumber pos text) (readNumber .start text) := by
  unfold readNumber
  cases Number.readWhole? text.toList with
  | none => exact Forgets.fail _ rfl
  | some value => exact Forgets.pure_of (by rw [unplaced])

theorem forgets_parseNumber (pos : Position) (whole : String) :
    Forgets unplaced (parseNumber pos whole) (parseNumber .start whole) := by
  have hwhole := forgets_readNumber pos whole
  refine forgets_next.bind fun dot => ?_
  refine Forgets.ite (by rw [Token.is_unplaced (by decide)]) (fun _ => ?_) fun _ => ?_
  · refine forgets_next.bind fun fraction => ?_
    refine Forgets.ite Iff.rfl (fun hkind => ?_) fun _ => ?_
    · rw [Token.value_unplaced (by simp [hkind])]
      exact forgets_readNumber pos _
    · exact forgets_backup.bind fun _ => forgets_backup.bind fun _ => hwhole
  · exact forgets_backup.bind fun _ => hwhole

section Rules

variable {rec : Tightness → Parse Expr} (hrec : ∀ tightness, Forgets unplaced (rec tightness)
  (rec tightness))

include hrec

theorem forgets_parseSegment (pos : Position) (segments : List Expr) :
    Forgets (Turn.map (List.map unplaced) (List.map unplaced)) (parseSegment rec pos segments)
      (parseSegment rec .start (segments.map unplaced)) := by
  refine forgets_next.bind fun token => ?_
  rw [Token.kind_unplaced]
  cases hkind : token.kind with
  | stringText =>
    refine Forgets.pure_of ?_
    have hvalue : token.unplaced.value = token.value := Token.value_unplaced (by rw [hkind]; nofun)
    rw [hvalue, Token.position_unplaced, ite_self, Turn.map, List.map_cons, unplaced]
  | interpolateOpen =>
    refine (hrec .any).bind fun segment => (forgets_expect _).bind fun _ => Forgets.pure_of ?_
    rw [Turn.map, List.map_cons]
  | stringClose => exact Forgets.pure_of (by rw [Turn.map, List.map_reverse])
  | _ => exact Forgets.unexpected token _

theorem forgets_parseString (n : Nat) (pos : Position) :
    Forgets unplaced (parseString n rec pos) (parseString n rec .start) := by
  refine (forgets_iterate (forgets_parseSegment hrec pos) n []).bind fun segments => ?_
  exact Forgets.pure_of (unplaced_joinSegments pos segments).symm

theorem forgets_parseArgs (n : Nat) :
    Forgets (List.map unplaced) (parseArgs n rec) (parseArgs n rec) :=
  forgets_listUntil (hrec .any) n .parensClose

theorem forgets_parseArgs? (n : Nat) :
    Forgets (Option.map (List.map unplaced)) (parseArgs? n rec) (parseArgs? n rec) := by
  refine (forgets_accept (by decide) _).bind fun _ => Forgets.ite Iff.rfl (fun _ => ?_) fun _ => ?_
  · exact (forgets_parseArgs hrec n).bind fun args => Forgets.pure (some args)
  · exact Forgets.pure none

theorem forgets_parseWord (n : Nat) (pos : Position) (word : String) :
    Forgets unplaced (parseWord n rec pos word) (parseWord n rec .start word) := by
  unfold parseWord
  split
  · exact Forgets.pure_of (by rw [unplaced])
  · exact Forgets.pure_of (by rw [unplaced])
  · exact Forgets.pure_of (by rw [unplaced])
  · exact Forgets.pure_of (by rw [unplaced])
  · refine (forgets_parseArgs? hrec n).bind fun args => ?_
    cases args with
    | none => exact Forgets.pure_of (by rw [unplaced])
    | some args => exact Forgets.pure_of (by rw [unplaced, unplacedAll_eq])

theorem forgets_parseEnclosed (n : Nat) (token : Token) :
    Forgets unplaced (parseEnclosed n rec token) (parseEnclosed n rec token.unplaced) := by
  unfold parseEnclosed
  rw [Token.kind_unplaced]
  cases token.kind with
  | stringOpen => exact forgets_parseString hrec n _
  | parensOpen =>
    exact (hrec .any).bind fun inner => (forgets_expect _).bind fun _ => Forgets.pure_of
      (by rw [unplaced]; rfl)
  | _ => exact Forgets.unexpected token _

theorem forgets_parseEntry (n : Nat) :
    Forgets unplacedEntry (parseEntry n rec) (parseEntry n rec) := by
  refine forgets_nextSolid.bind fun token => ?_
  extract_lets value value'
  have hvalue : ∀ key, Forgets unplacedEntry (value key) (value' key.unplaced) := fun key =>
    (forgets_expectValue (by decide) _).bind fun _ => (hrec .any).bind fun _ => Forgets.pure_of rfl
  rw [Token.kind_unplaced]
  cases hkind : token.kind with
  | name =>
    refine Forgets.bind (Forgets.pure_of ?_) hvalue
    rw [unplaced, Token.value_unplaced (by simp [hkind])]
    rfl
  | number =>
    rw [Token.value_unplaced (by simp [hkind])]
    exact (forgets_parseNumber _ _).bind hvalue
  | stringOpen | parensOpen => exact (forgets_parseEnclosed hrec n token).bind hvalue
  | _ => exact (Forgets.unexpected token _).bind hvalue

theorem forgets_parsePrimary (n : Nat) :
    Forgets unplaced (parsePrimary n rec) (parsePrimary n rec) := by
  refine forgets_nextSolid.bind fun token => ?_
  rw [Token.kind_unplaced]
  cases hkind : token.kind with
  | name =>
    rw [Token.value_unplaced (by rw [hkind]; nofun)]
    exact forgets_parseWord hrec n _ _
  | number =>
    rw [Token.value_unplaced (by rw [hkind]; nofun)]
    exact forgets_parseNumber _ _
  | arrayOpen =>
    refine (forgets_listUntil (hrec .any) n _).bind fun items => Forgets.pure_of ?_
    rw [unplaced, unplacedAll_eq]
    rfl
  | hashOpen =>
    refine (forgets_listUntil (forgets_parseEntry hrec n) n _).bind fun entries =>
      Forgets.pure_of ?_
    rw [unplaced, unplacedEntries_eq]
    rfl
  | _ => exact forgets_parseEnclosed hrec n token

theorem forgets_parseAttribute (n : Nat) (pos : Position) (object : Expr) :
    Forgets unplaced (parseAttribute n rec pos object)
      (parseAttribute n rec .start object.unplaced) := by
  refine (forgets_expect _).bind_of (fun _ _ _ => kind_of_expect (by decide)) fun key hkey => ?_
  rw [Token.value_unplaced hkey]
  refine (forgets_parseArgs? hrec n).bind fun args => ?_
  cases args with
  | none => exact Forgets.pure_of (by rw [unplaced, unplaced]; rfl)
  | some args => exact Forgets.pure_of (by rw [unplaced, unplaced, unplacedAll_eq]; rfl)

theorem forgets_parseLink (n : Nat) (subject : Expr) :
    Forgets (Turn.map unplaced unplaced) (parseLink n rec subject)
      (parseLink n rec subject.unplaced) := by
  refine forgets_peek.bind fun token => ?_
  refine Forgets.ite (by rw [Token.is_unplaced (by decide)]) (fun _ => ?_) fun _ => ?_
  · exact forgets_nextSolid.bind fun _ => (forgets_parseAttribute hrec n _ subject).bind fun _ =>
      Forgets.pure_of rfl
  refine Forgets.ite Iff.rfl (fun _ => ?_) fun _ => ?_
  · refine forgets_nextSolid.bind fun _ => (hrec .any).bind fun key => ?_
    exact (forgets_expect _).bind fun _ => Forgets.pure_of (by rw [Turn.map, unplaced]; rfl)
  refine Forgets.ite (by rw [Token.is_unplaced (by decide)]) (fun _ => ?_) fun _ => ?_
  · refine forgets_nextSolid.bind fun _ => ?_
    refine (forgets_expect _).bind_of (fun _ _ _ => kind_of_expect (by decide))
      fun filter hfilter => (forgets_parseArgs? hrec n).bind fun args => Forgets.pure_of ?_
    rw [Token.value_unplaced hfilter, Turn.map, unplaced, unplacedAll_eq]
    cases args <;> rfl
  · exact Forgets.pure_of rfl

theorem forgets_parsePostfix (n : Nat) (subject : Expr) :
    Forgets unplaced (parsePostfix n rec subject) (parsePostfix n rec subject.unplaced) :=
  forgets_iterate (forgets_parseLink hrec n) n subject

theorem forgets_parseOperand (n : Nat) :
    Forgets unplaced (parseOperand n rec) (parseOperand n rec) := by
  refine forgets_peek.bind fun token => ?_
  have hop : (if token.unplaced.kind = .operator then UnaryOp.ofSpelling? token.unplaced.value
      else none) = if token.kind = .operator then UnaryOp.ofSpelling? token.value else none := by
    by_cases hkind : token.kind = .operator
    · rw [Token.value_unplaced (by rw [hkind]; nofun)]
      rfl
    · rw [Token.kind_unplaced, if_neg hkind, if_neg hkind]
  rw [hop]
  split
  · exact forgets_nextSolid.bind fun _ => (hrec _).bind fun _ =>
      Forgets.pure_of (by rw [unplaced]; rfl)
  · exact (forgets_parsePrimary hrec n).bind fun primary => forgets_parsePostfix hrec n primary

theorem forgets_parseTest (n : Nat) (pos : Position) (negated : Bool) (subject : Expr) :
    Forgets unplaced (parseTest n rec pos negated subject)
      (parseTest n rec .start negated subject.unplaced) := by
  refine forgets_nextSolid.bind fun first => ?_
  extract_lets test named test' named'
  have htest : ∀ name, Forgets unplaced (test name) (test' name) := by
    refine fun name => (forgets_parseArgs? hrec n).bind fun args => Forgets.pure_of ?_
    cases negated <;> cases args <;> simp [unplaced]
  refine Forgets.ite Iff.rfl (fun _ => ?_) fun hfirst => ?_
  · refine Forgets.fail_bind _ ?_
    rw [Token.display_unplaced]
    rfl
  · have hfirst : first.unplaced.value = first.value :=
      Token.value_unplaced (by simp [Decidable.of_not_not hfirst])
    refine forgets_peek.bind fun second => Forgets.ite Iff.rfl (fun hsecond => ?_) fun _ => ?_
    · refine forgets_nextSolid.bind fun _ => Forgets.bind (f := id) (Forgets.pure_of ?_) htest
      rw [hfirst, Token.value_unplaced (by simp [hsecond])]
      rfl
    · exact Forgets.bind (f := id) (Forgets.pure_of hfirst) htest

theorem forgets_climb (n minimum : Nat) (left : Expr) :
    Forgets (Turn.map unplaced unplaced) (climb n rec minimum left)
      (climb n rec minimum left.unplaced) := by
  refine forgets_peek.bind fun token => ?_
  refine Forgets.ite Iff.rfl (fun _ => Forgets.pure_of rfl) fun hkind => ?_
  rw [Token.value_unplaced (by rw [Decidable.of_not_not hkind]; nofun)]
  refine Forgets.ite Iff.rfl (fun _ => ?_) fun _ => ?_
  · refine Forgets.ite Iff.rfl (fun _ => Forgets.pure_of rfl) fun _ => ?_
    exact forgets_nextSolid.bind fun _ => (forgets_parseTest hrec n _ _ left).bind fun _ =>
      Forgets.pure_of rfl
  · split
    · exact Forgets.pure_of rfl
    · refine Forgets.ite Iff.rfl (fun _ => Forgets.pure_of rfl) fun _ => ?_
      exact forgets_nextSolid.bind fun _ => (hrec _).bind fun right =>
        Forgets.pure_of (by rw [Turn.map, unplaced]; rfl)

theorem forgets_parseConditional (cond : Expr) :
    Forgets unplaced (parseConditional rec cond) (parseConditional rec cond.unplaced) := by
  have hpure : ∀ whenTrue whenFalse, Forgets unplaced
      (pure (.conditional cond.pos cond whenTrue whenFalse)) (pure (.conditional cond.unplaced.pos
        cond.unplaced whenTrue.unplaced whenFalse.unplaced)) := fun whenTrue whenFalse =>
    Forgets.pure_of (by rw [unplaced, pos_unplaced])
  refine (forgets_accept (by decide) _).bind fun _ => Forgets.ite Iff.rfl (fun _ => ?_) fun _ => ?_
  · refine (hrec .any).bind fun whenTrue => (forgets_accept (by decide) _).bind fun _ => ?_
    refine Forgets.ite Iff.rfl (fun _ => ?_) fun _ => ?_
    · exact (hrec .any).bind (hpure whenTrue)
    · exact Forgets.bind (Forgets.pure_of (by rw [unplaced, pos_unplaced])) (hpure whenTrue)
  · exact Forgets.pure cond

end Rules

theorem forgets_parse (n : Nat) (tightness : Tightness) :
    Forgets unplaced (parse n tightness) (parse n tightness) := by
  induction n generalizing tightness with
  | zero => exact Forgets.exhausted
  | succ n ih =>
    cases tightness with
    | any => exact (ih (.atLeast 0)).bind fun cond => forgets_parseConditional ih cond
    | atLeast minimum =>
      exact (forgets_parseOperand ih n).bind fun left =>
        forgets_iterate (forgets_climb ih n minimum) n left

end Expr

end Stencil
