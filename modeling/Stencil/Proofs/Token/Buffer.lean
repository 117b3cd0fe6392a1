import Stencil.Token.Buffer
import Stencil.Template.Parser
import Stencil.Proofs.Token.Ahead
import Stencil.Proofs.Token.Reader

/-!
A buffer is an index into the tokens.

A buffer goes along with a cursor in the list of all tokens, whatever is asked for: what was taken
back and what the reader has still to give are together the tokens to come.  The cursor goes along
with a plain index as long as nothing is taken back that is forgotten.  Both are cases of one
notion, tapes that keep step, and what is said for two moves there holds for every list of requests.
A parser reads from the tape of its cursor.
-/

namespace Stencil

/-! ## §1. Tapes in step -/

section Step

variable {σ τ : Type} {tape : Tape σ} {other : Tape τ} {may : τ → Prop} {R : σ → τ → Prop}

/-- Two tapes keep step: related states give the same token, and states that follow them are
related.  A token may be taken back where the other tape allows it, which is so after each read. -/
structure Tape.InStep (tape : Tape σ) (other : Tape τ) (may : τ → Prop) (R : σ → τ → Prop) :
    Prop where
  next : ∀ {s t}, R s t →
    (tape.next s).1 = (other.next t).1 ∧ R (tape.next s).2 (other.next t).2 ∧ may (other.next t).2
  backup : ∀ {s t}, R s t → may t → R (tape.backup s) (other.backup t)

/-- However many tokens may be read, reading on ends in the same place. -/
theorem Tape.solidWithin_unique {s : σ} {result result' : Except ParseError Token × σ} {m n : Nat}
    (h : tape.solidWithin m s = some result) (h' : tape.solidWithin n s = some result') :
    result = result' := by
  induction m generalizing s n with
  | zero => cases h
  | succ m ih =>
    cases n with
    | zero => cases h'
    | succ n =>
      rw [Tape.solidWithin] at h h'
      cases hnext : (tape.next s).1 <;> simp only [hnext] at h h'
      · exact Option.some.inj (h.symm.trans h')
      · split at h
        · next hblank =>
          rw [if_pos hblank] at h'
          exact ih h h'
        · next hsolid =>
          rw [if_neg hsolid] at h'
          exact Option.some.inj (h.symm.trans h')

/-- Reading on ends if it does so within some number of tokens. -/
theorem Tape.nextSolid_eq_some {s : σ} {result : Except ParseError Token × σ} :
    tape.nextSolid s = some result ↔ ∃ n, tape.solidWithin n s = some result := by
  unfold Tape.nextSolid
  split
  · next hends =>
    obtain ⟨n, hn⟩ := hends.choose_spec
    refine ⟨fun h => ⟨n, hn.trans h⟩, fun ⟨m, hm⟩ => ?_⟩
    exact congrArg some (Tape.solidWithin_unique hn hm)
  · next hnever => exact ⟨nofun, fun ⟨n, hn⟩ => absurd ⟨result, n, hn⟩ hnever⟩

/-- Reading on reads one token, and stops there unless it is white space. -/
theorem Tape.nextSolid_eq (s : σ) :
    tape.nextSolid s =
      match (tape.next s).1 with
      | .error e => some (.error e, (tape.next s).2)
      | .ok token =>
        if token.kind = .whitespace then tape.nextSolid (tape.next s).2
        else some (.ok token, (tape.next s).2) := by
  refine Option.ext fun result => Tape.nextSolid_eq_some.trans ?_
  -- Within no tokens at all reading on does not end.
  have hmore : (∃ n, tape.solidWithin n s = some result) ↔
      ∃ n, tape.solidWithin (n + 1) s = some result := by
    constructor
    · rintro ⟨_ | n, hn⟩
      · cases hn
      · exact ⟨n, hn⟩
    · rintro ⟨n, hn⟩
      exact ⟨n + 1, hn⟩
  rw [hmore]
  cases hnext : (tape.next s).1 with
  | error e => simp only [Tape.solidWithin, hnext, exists_const]
  | ok token =>
    by_cases hblank : token.kind = .whitespace
    · simp only [Tape.solidWithin, hnext, if_pos hblank, Tape.nextSolid_eq_some]
    · simp only [Tape.solidWithin, hnext, if_neg hblank, exists_const]

/-- Reading on goes past white space. -/
theorem Tape.nextSolid_of_answer {s : σ} {token : Token} (h : (tape.next s).1 = token.answer) :
    tape.nextSolid s =
      if token.kind = .whitespace then tape.nextSolid (tape.next s).2
      else some (token.answer, (tape.next s).2) := by
  rw [Tape.nextSolid_eq, h]
  by_cases herror : token.kind = .error
  · rw [Token.answer, if_pos herror, if_neg (by rw [herror]; nofun)]
  · rw [Token.answer, if_neg herror]

/-- The first of some requests is met before the others. -/
theorem Tape.run_cons {s s' s'' : σ} {request : Request} {requests : List Request} {reply : Reply}
    {replies : List Reply} (h : tape.meet s request = some (reply, s'))
    (h' : tape.run requests s' = some (replies, s'')) :
    tape.run (request :: requests) s = some (reply :: replies, s'') := by
  rw [Tape.run, h]
  show (tape.run requests s').bind _ = _
  rw [h']
  rfl

namespace Tape.InStep

variable {s : σ} {t t' : τ} {reply : Reply}

/-- Where reading on ends for one tape, it does for the other, and with the same token. -/
theorem nextSolid (h : tape.InStep other may R) (hst : R s t) {answer : Except ParseError Token}
    (ht : other.nextSolid t = some (answer, t')) :
    ∃ s', tape.nextSolid s = some (answer, s') ∧ R s' t' ∧ may t' := by
  obtain ⟨n, hn⟩ := Tape.nextSolid_eq_some.mp ht
  clear ht
  induction n generalizing s t with
  | zero => cases hn
  | succ n ih =>
    obtain ⟨hanswer, hrel, hmay⟩ := h.next hst
    rw [Tape.solidWithin, ← hanswer] at hn
    rw [Tape.nextSolid_eq]
    cases hnext : (tape.next s).1 <;> simp only [hnext] at hn ⊢
    · cases hn
      exact ⟨_, rfl, hrel, hmay⟩
    · split at hn
      · next hblank =>
        rw [if_pos hblank]
        exact ih hrel hn
      · next hsolid =>
        cases hn
        rw [if_neg hsolid]
        exact ⟨_, rfl, hrel, hmay⟩

theorem withSolid (h : tape.InStep other may R) (hst : R s t) {f : Token → σ → Reply × σ}
    {g : Token → τ → Reply × τ}
    (hfg : ∀ token s t, R s t → may t →
      (f token s).1 = (g token t).1 ∧ R (f token s).2 (g token t).2)
    (ht : other.withSolid t g = some (reply, t')) :
    ∃ s', tape.withSolid s f = some (reply, s') ∧ R s' t' := by
  obtain ⟨⟨answer, u⟩, hu, hg⟩ := Option.map_eq_some_iff.mp ht
  obtain ⟨v, hv, hrel, hmay⟩ := h.nextSolid hst hu
  rw [Tape.withSolid, hv]
  cases answer with
  | error e =>
    cases hg
    exact ⟨v, rfl, hrel⟩
  | ok token =>
    obtain ⟨hreply, hafter⟩ := hfg token v u hrel hmay
    rw [show g token u = (reply, t') from hg] at hreply hafter
    exact ⟨(f token v).2, congrArg some (Prod.ext hreply rfl), hafter⟩

/-- Requests are met in the same way. -/
theorem meet (h : tape.InStep other may R) (hst : R s t) {request : Request}
    (hmay : request = .backup → may t) (ht : other.meet t request = some (reply, t')) :
    ∃ s', tape.meet s request = some (reply, s') ∧ R s' t' := by
  cases request <;> rw [Tape.meet] at ht ⊢
  case next =>
    obtain ⟨hanswer, hrel, -⟩ := h.next hst
    cases ht
    exact ⟨_, by rw [hanswer], hrel⟩
  case nextSolid => exact h.withSolid hst (fun _ _ _ hrel _ => ⟨rfl, hrel⟩) ht
  case peek => exact h.withSolid hst (fun _ _ _ hrel hmay => ⟨rfl, h.backup hrel hmay⟩) ht
  case expect kinds =>
    refine h.withSolid hst (fun token _ _ hrel _ => ?_) ht
    split <;> exact ⟨rfl, hrel⟩
  case expectValue kind value =>
    refine h.withSolid hst (fun token _ _ hrel _ => ?_) ht
    split <;> exact ⟨rfl, hrel⟩
  case accept kind value =>
    refine h.withSolid hst (fun token _ _ hrel hmay => ?_) ht
    split
    · exact ⟨rfl, hrel⟩
    · exact ⟨rfl, h.backup hrel hmay⟩
  case backup =>
    cases ht
    exact ⟨_, rfl, h.backup hst (hmay rfl)⟩

/-- Lists of requests are met in the same way. -/
theorem run (h : tape.InStep other may R) {requests : List Request} {replies : List Reply}
    (hst : R s t) (hmay : other.Allows may requests t)
    (ht : other.run requests t = some (replies, t')) :
    ∃ s', tape.run requests s = some (replies, s') ∧ R s' t' := by
  induction requests generalizing s t replies with
  | nil =>
    cases ht
    exact ⟨s, rfl, hst⟩
  | cons request requests ih =>
    obtain ⟨⟨reply, u⟩, hu, ht⟩ := Option.bind_eq_some_iff.mp ht
    obtain ⟨⟨more, u'⟩, hu', ht⟩ := Option.bind_eq_some_iff.mp ht
    cases ht
    obtain ⟨v, hv, hrel⟩ := h.meet hst hmay.1 hu
    obtain ⟨v', hv', hrel'⟩ := ih hrel (hmay.2 reply u hu) hu'
    exact ⟨v', Tape.run_cons hv hv', hrel'⟩

end Tape.InStep

/-- Once a request is met, the others have to be allowed where it led. -/
theorem Tape.allows_cons {tape : Tape σ} {may : σ → Prop} {s t : σ} {request : Request}
    {requests : List Request} (hmay : request = .backup → may s)
    (hmeet : (tape.meet s request).map Prod.snd = some t) (h : tape.Allows may requests t) :
    tape.Allows may (request :: requests) s := by
  refine ⟨hmay, fun reply u hu => ?_⟩
  rw [hu] at hmeet
  cases hmeet
  exact h

/-- What is always allowed is allowed in every list of requests. -/
theorem Tape.allows_true (tape : Tape σ) (requests : List Request) (s : σ) :
    tape.Allows (fun _ => True) requests s := by
  induction requests generalizing s with
  | nil => trivial
  | cons request requests ih => exact ⟨fun _ => trivial, fun _ t _ => ih t⟩

end Step

/-! ## §2. The index -/

namespace Index

variable {s : TokenStream}

/-- Reading on ends at the latest with the token that ends the stream. -/
theorem exists_nextSolid (hfinal : s.final.kind ≠ .whitespace) (i : Index) :
    ∃ answer j, (tape s).nextSolid i = some (answer, j) := by
  rw [Tape.nextSolid_of_answer (show ((tape s).next i).1 = (s.nth i.index).answer from rfl)]
  split
  · next hblank =>
    -- White space is not the end of the stream, so the index is still inside of it.
    have hinside : i.index < s.tokens.length := by
      refine Nat.lt_of_not_le fun hle => hfinal ?_
      rwa [TokenStream.nth, List.getElem?_eq_none hle, Option.getD_none] at hblank
    exact exists_nextSolid hfinal _
  · exact ⟨_, _, rfl⟩
termination_by s.tokens.length - i.index
decreasing_by
  simp only [tape]
  omega

theorem exists_meet (hfinal : s.final.kind ≠ .whitespace) (i : Index) (request : Request) :
    ∃ reply j, (tape s).meet i request = some (reply, j) := by
  obtain ⟨answer, j, hsolid⟩ := exists_nextSolid hfinal i
  have hwith (f : Token → Index → Reply × Index) :
      ∃ reply j, (tape s).withSolid i f = some (reply, j) := by
    rw [Tape.withSolid, hsolid]
    exact ⟨_, _, rfl⟩
  cases request <;> rw [Tape.meet]
  case next | backup => exact ⟨_, _, rfl⟩
  all_goals exact hwith _

/-- Every list of requests is met. -/
theorem exists_run (hfinal : s.final.kind ≠ .whitespace) (requests : List Request) (i : Index) :
    ∃ replies j, (tape s).run requests i = some (replies, j) := by
  induction requests generalizing i with
  | nil => exact ⟨_, _, rfl⟩
  | cons request requests ih =>
    obtain ⟨reply, j, hmeet⟩ := exists_meet hfinal i request
    obtain ⟨replies, k, hrun⟩ := ih j
    exact ⟨reply :: replies, k, Tape.run_cons hmeet hrun⟩

end Index

/-! ## §3. The cursor and the index -/

namespace Cursor

/-- A cursor stands at an index: it has the tokens from there on to come, and remembers those
before it down to the depth of a backup below the highest index. -/
structure At (s : TokenStream) (c : Cursor) (i : Index) : Prop where
  near : i.highest ≤ i.index + backupDepth
  past : ∀ n < i.index, i.highest ≤ i.index - 1 - n + backupDepth →
    c.past[n]? = some (s.nth (i.index - 1 - n))
  upcoming : ∀ n, c.upcoming[n]?.getD c.final = s.nth (i.index + n)

theorem at_ofStream (s : TokenStream) : At s (ofStream s) ⟨0, 0⟩ where
  near := Nat.zero_le _
  past := nofun
  upcoming n := by rw [Nat.zero_add]; rfl

namespace At

variable {s : TokenStream} {c : Cursor} {i : Index}

theorem next_fst (h : At s c i) : c.next.1 = s.nth i.index := by
  rw [← Nat.add_zero i.index, ← h.upcoming 0]
  unfold Cursor.next
  split
  · next hnil => rw [hnil]; rfl
  · next hcons => rw [hcons]; rfl

theorem next (h : At s c i) : At s c.next.2 ⟨i.index + 1, max i.highest (i.index + 1)⟩ where
  near := by
    have := h.near
    simp only [backupDepth] at *
    omega
  past n hn hnear := by
    obtain ⟨earlier, hpast, hearlier⟩ := c.next_past
    rw [hpast, hearlier, h.next_fst]
    cases n with
    | zero => rfl
    | succ n =>
      simp only [backupDepth] at *
      rw [List.getElem?_cons_succ, List.getElem?_take_of_lt (by omega), h.past n (by omega) _]
      · congr 2
        omega
      · simp only [backupDepth]
        omega
  upcoming n := by
    rw [Nat.add_assoc, Nat.add_comm 1 n, ← h.upcoming (n + 1), final_next]
    unfold Cursor.next
    split
    · next hnil => rw [hnil]; rfl
    · next hcons => rw [hcons]; rfl

theorem backup (h : At s c i) (hmay : i.MayBackup) :
    At s c.backup { i with index := i.index - 1 } := by
  obtain ⟨hpos, hnear⟩ := hmay
  have hfirst := h.past 0 hpos hnear
  obtain ⟨earlier, hpast⟩ : ∃ earlier, c.past = s.nth (i.index - 1) :: earlier :=
    List.head?_eq_some_iff.mp (by rwa [List.head?_eq_getElem?])
  refine ⟨hnear, fun n hn hlow => ?_, fun n => ?_⟩
  · dsimp only at hn hlow ⊢
    have hsucc := h.past (n + 1) (by omega) (by omega)
    rw [hpast, List.getElem?_cons_succ] at hsucc
    rw [Cursor.backup, hpast, hsucc]
    congr 2
    omega
  · rw [final_backup, Cursor.backup, hpast]
    cases n with
    | zero => rfl
    | succ n =>
      rw [List.getElem?_cons_succ, h.upcoming n]
      congr 1
      simp only
      omega

end At

/-- A cursor keeps step with the index. -/
theorem inStep_index (s : TokenStream) :
    tape.InStep (Index.tape s) Index.MayBackup (At s) where
  next h := by
    refine ⟨congrArg Token.answer h.next_fst, h.next, Nat.succ_pos _, ?_⟩
    have := h.near
    simp only [Index.tape, backupDepth] at *
    omega
  backup h hmay := h.backup hmay

/-- Skipping white space in one go is reading on until there is something else. -/
theorem tape_nextSolid {c : Cursor} (hfinal : c.final.kind.isFinal = true) :
    tape.nextSolid c = some (c.nextSolid.1.answer, c.nextSolid.2) := by
  obtain ⟨past, upcoming, final⟩ := c
  induction upcoming generalizing past with
  | nil =>
    have hsolid : final.kind ≠ .whitespace := fun hblank => by
      have hkind : final.kind.isFinal = true := hfinal
      rw [hblank] at hkind
      cases hkind
    exact (Tape.nextSolid_of_answer rfl).trans (if_neg hsolid)
  | cons token rest ih =>
    have hanswer : (tape.next ⟨past, token :: rest, final⟩).1 = token.answer := rfl
    rw [Tape.nextSolid_of_answer hanswer, nextSolid, solidFrom]
    split
    · exact ih _ hfinal
    · rfl

end Cursor

/-! ## §4. Parsers -/

/-- What a parser makes of what the tape of its cursor gives. -/
def ParseState.settle (s : ParseState) :
    Except ParseError Token × Cursor → Except ParseFailure (Token × ParseState)
  | (.error e, _) => .error (.error e)
  | (.ok token, cursor) => .ok (token, { s with cursor := cursor })

theorem Parse.run_consume_settle (move : Cursor → Token × Cursor) (s : ParseState) :
    (Parse.consume move).run s = s.settle ((move s.cursor).1.answer, (move s.cursor).2) := by
  rcases hmove : move s.cursor with ⟨token, cursor⟩
  by_cases hkind : token.kind = .error <;>
    simp [Parse.consume, ParseState.settle, Token.answer, hmove, hkind, Parse.fail]
  · rfl
  · rfl

/-- A parser reads the next token from the tape of its cursor. -/
theorem Parse.run_next_eq_tape (s : ParseState) :
    Parse.next.run s = s.settle (Cursor.tape.next s.cursor) :=
  Parse.run_consume_settle _ s

/-- A parser reads the next solid token from the tape of its cursor. -/
theorem Parse.run_nextSolid_eq_tape (s : ParseState)
    (hfinal : s.cursor.final.kind.isFinal = true) :
    some (Parse.nextSolid.run s) = (Cursor.tape.nextSolid s.cursor).map s.settle := by
  rw [Cursor.tape_nextSolid hfinal]
  exact congrArg some (Parse.run_consume_settle _ s)

/-! ## §5. The buffer and the cursor -/

namespace Buffer

/-- A full history loses its oldest token. -/
theorem remember_eq {history : List Token} (h : history.length ≤ Cursor.backupDepth)
    (token : Token) : remember history token = Cursor.remember history token := by
  have hdepth : Cursor.backupDepth = 7 + 1 := rfl
  rw [remember, Cursor.remember, hdepth, List.take_succ_cons]
  split
  · next hfull => rw [List.dropLast_eq_take, hfull]
  · rw [List.take_of_length_le (by omega)]

/-- What a reader behind a buffer has still to give: the rest of the tokens, or nothing once the
last one is known. -/
def Leaves (b : Buffer) (rest : List Token) (final : Token) : Prop :=
  match b.terminal with
  | none => b.reader.Gives rest final
  | some token => token = final ∧ rest = []

/-- A buffer holds what a cursor holds: the history is its past, and what was taken back and what
the reader has still to give are the tokens to come. -/
structure Holds (b : Buffer) (c : Cursor) : Prop where
  history : b.history = c.past
  short : c.past.length ≤ Cursor.backupDepth
  final : c.final.kind.isFinal = true
  upcoming : ∃ rest, c.upcoming = b.pending ++ rest ∧ b.Leaves rest c.final ∧
    ∀ token ∈ rest, token.kind.isFinal = false

theorem holds_start (source : String) : (start source).Holds (.ofStream (lex source)) where
  history := rfl
  short := Nat.zero_le _
  final := isFinal_lex source
  upcoming := ⟨(lex source).tokens, rfl, (Reader.gives_lex source).1, fun _ => isFinal_of_mem_lex⟩

namespace Holds

variable {b : Buffer} {c : Cursor}

/-- As long as the stream has not ended, the reader has a token. -/
theorem starved_eq_false (h : b.Holds c) : b.starved = false := by
  obtain ⟨rest, -, hleaves, -⟩ := h.upcoming
  unfold Leaves at hleaves
  unfold starved
  cases hterminal : b.terminal with
  | some token => rw [Option.isNone_some, Bool.and_false, Bool.false_and]
  | none =>
    rw [hterminal] at hleaves
    have hanswer : b.reader.next.1.isNone = false := by
      cases hleaves with
      | last _ hanswer | more _ hanswer => rw [hanswer]; rfl
    rw [hanswer, Bool.and_false]

/-- A buffer gives the token that the cursor gives, and keeps its history. -/
theorem pull (h : b.Holds c) : b.pull.1 = c.next.1 ∧ b.pull.2.history = b.history ∧
    ∃ rest, c.next.2.upcoming = b.pull.2.pending ++ rest ∧ b.pull.2.Leaves rest c.final ∧
      ∀ token ∈ rest, token.kind.isFinal = false := by
  obtain ⟨rest, hupcoming, hleaves, hrest⟩ := h.upcoming
  unfold Cursor.next
  rw [hupcoming]
  unfold Buffer.pull
  cases hpending : b.pending with
  | cons token pending => exact ⟨rfl, rfl, rest, rfl, hleaves, hrest⟩
  | nil =>
    cases hterminal : b.terminal with
    | some token =>
      have hover := hleaves
      rw [Leaves, hterminal] at hover
      obtain ⟨rfl, rfl⟩ := hover
      exact ⟨rfl, rfl, [], by rw [hpending]; rfl, hleaves, hrest⟩
    | none =>
      rw [Leaves, hterminal] at hleaves
      -- The reader is asked for a token, and it has one.
      rcases hnext : b.reader.next with ⟨answer, reader⟩
      cases hleaves with
      | last _ hanswer hdone =>
        rw [hnext] at hanswer
        cases hanswer
        refine ⟨rfl, rfl, [], rfl, ?_, nofun⟩
        simp [Leaves, h.final]
      | more _ hanswer _ hgives =>
        rw [hnext] at hanswer hgives
        cases hanswer
        obtain ⟨hfirst, hrest⟩ := List.forall_mem_cons.mp hrest
        refine ⟨rfl, rfl, _, rfl, ?_, hrest⟩
        simpa [Leaves, hfirst] using hgives

theorem next (h : b.Holds c) : b.next.1 = c.next.1.answer ∧ b.next.2.Holds c.next.2 := by
  obtain ⟨htoken, hhistory, hupcoming⟩ := h.pull
  obtain ⟨earlier, hpast, hearlier⟩ := c.next_past
  refine ⟨by rw [← htoken]; rfl, ?_, ?_, by rw [Cursor.final_next]; exact h.final, ?_⟩
  · show remember b.pull.2.history b.pull.1 = c.next.2.past
    rw [hhistory, h.history, remember_eq h.short, htoken, hpast, hearlier]
    rfl
  · rw [hpast, hearlier, List.length_cons, List.length_take]
    simp only [Cursor.backupDepth]
    omega
  · rw [Cursor.final_next]
    exact hupcoming

theorem backup (h : b.Holds c) : b.backup.Holds c.backup := by
  obtain ⟨rest, hupcoming, hleaves, hrest⟩ := h.upcoming
  unfold Buffer.backup Cursor.backup
  rw [h.history]
  cases hpast : c.past with
  | nil => exact h
  | cons token earlier =>
    have hshort := h.short
    rw [hpast] at hshort
    exact ⟨rfl, Nat.le_of_succ_le hshort, h.final, rest, by rw [hupcoming]; rfl, hleaves, hrest⟩

end Holds

/-- A buffer keeps step with the cursor, whatever is asked for. -/
theorem inStep_cursor : tape.InStep Cursor.tape (fun _ => True) Holds where
  next h := ⟨h.next.1, h.next.2, trivial⟩
  backup h _ := h.backup

theorem Holds.forward {b : Buffer} {c : Cursor} (h : b.Holds c) (n : Nat) :
    ∃ c', (b.forward n).Holds c' := by
  induction n generalizing b c with
  | zero => exact ⟨c, h⟩
  | succ n ih => exact ih h.next.2

/-- **The buffer as an index.**  As long as the index never falls by more than the depth of a backup
below its highest value, nor below zero, a buffer in front of the reader of a source meets every
list of requests as a plain index into the tokens of the source does, and so does the cursor in the
list of these tokens.  However many more tokens are read after that, as one request may do, the
buffer never gives out its fallback. -/
theorem run_eq_index (source : String) (requests : List Request)
    (h : (Index.tape (lex source)).Allows Index.MayBackup requests ⟨0, 0⟩) :
    ∃ replies i c b, (Index.tape (lex source)).run requests ⟨0, 0⟩ = some (replies, i) ∧
      Cursor.tape.run requests (.ofStream (lex source)) = some (replies, c) ∧
      tape.run requests (start source) = some (replies, b) ∧
      ∀ n, (b.forward n).starved = false := by
  have hfinal : (lex source).final.kind ≠ .whitespace := fun hblank => by
    have hkind := isFinal_lex source
    rw [hblank] at hkind
    cases hkind
  obtain ⟨replies, i, hindex⟩ := Index.exists_run hfinal requests ⟨0, 0⟩
  obtain ⟨c, hcursor, -⟩ :=
    (Cursor.inStep_index (lex source)).run (Cursor.at_ofStream _) h hindex
  obtain ⟨b, hbuffer, hholds⟩ :=
    inStep_cursor.run (holds_start source) (Tape.allows_true _ _ _) hcursor
  refine ⟨replies, i, c, b, hindex, hcursor, hbuffer, fun n => ?_⟩
  obtain ⟨c', hc'⟩ := hholds.forward n
  exact hc'.starved_eq_false

/-- Three tokens with a meaning are read and three tokens are taken back, the white space before
the second one among them. -/
theorem run_eq_index_three_back :
    let s := lex "\x7b\x7b foo(1) \x7d\x7d"
    let requests : List Request :=
      [.nextSolid, .nextSolid, .nextSolid, .backup, .backup, .backup, .next]
    (Index.tape s).Allows Index.MayBackup requests ⟨0, 0⟩ ∧
      ∃ replies i c b, (Index.tape s).run requests ⟨0, 0⟩ = some (replies, i) ∧
        Cursor.tape.run requests (.ofStream s) = some (replies, c) ∧
        tape.run requests (start "\x7b\x7b foo(1) \x7d\x7d") = some (replies, b) ∧
        ∀ n, (b.forward n).starved = false := by
  intro s requests
  have hlex : s = ⟨[⟨.printOpen, "\x7b\x7b", ⟨1, 1⟩⟩, ⟨.whitespace, " ", ⟨1, 3⟩⟩,
      ⟨.name, "foo", ⟨1, 4⟩⟩, ⟨.parensOpen, "(", ⟨1, 7⟩⟩, ⟨.number, "1", ⟨1, 8⟩⟩,
      ⟨.parensClose, ")", ⟨1, 9⟩⟩, ⟨.whitespace, " ", ⟨1, 10⟩⟩,
      ⟨.printClose, "\x7d\x7d", ⟨1, 11⟩⟩], ⟨.eof, "", ⟨1, 13⟩⟩⟩ := by decide +kernel
  have hallows : (Index.tape s).Allows Index.MayBackup requests ⟨0, 0⟩ := by
    rw [hlex]
    refine Tape.allows_cons nofun (t := ⟨1, 1⟩) ?_ <| Tape.allows_cons nofun (t := ⟨3, 3⟩) ?_ <|
      Tape.allows_cons nofun (t := ⟨4, 4⟩) ?_ <|
      Tape.allows_cons (fun _ => by decide) (t := ⟨3, 4⟩) rfl <|
      Tape.allows_cons (fun _ => by decide) (t := ⟨2, 4⟩) rfl <|
      Tape.allows_cons (fun _ => by decide) (t := ⟨1, 4⟩) rfl <|
      Tape.allows_cons nofun (t := ⟨2, 4⟩) rfl trivial
    · rw [Tape.meet, Tape.withSolid, Tape.nextSolid_eq]
      rfl
    · -- White space stands before the name.
      rw [Tape.meet, Tape.withSolid, Tape.nextSolid_eq]
      dsimp only [Index.tape, TokenStream.nth, Token.answer]
      rw [Tape.nextSolid_eq]
      rfl
    · rw [Tape.meet, Tape.withSolid, Tape.nextSolid_eq]
      rfl
  exact ⟨hallows, run_eq_index _ requests hallows⟩

end Buffer

end Stencil
