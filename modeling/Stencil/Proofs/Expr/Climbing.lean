import Stencil.Proofs.Expr.Counting
import Stencil.Proofs.Expr.Grouping
import Stencil.Proofs.Expr.RoundTrip
import Stencil.Proofs.Template.Collecting
import Mathlib.Data.List.TakeWhile

/-!
Climbing by precedence groups a chain.

A parser that is given a minimum takes the operators of a chain up to the first one that binds less,
and makes of them the tree that `grouped` says.  It goes from left to right: what it has is the tree
of a part of the chain, an operator with all that belongs to its right side is added, and the next
operator has all of that on its left side.

Operands are whatever the parser of operands reads, and a chain ends where no operator goes on with
it, so nothing is said here about the source around it.
-/

namespace Stencil

/-! ## §1. Looking ahead -/

namespace Cursor

/-- The next solid token was just given out and can be taken back.  It is white space only if that
ends the stream. -/
theorem exists_solidFrom (final : Token) (past upcoming : List Token) :
    ∃ token earlier rest, solidFrom final past upcoming = (token, ⟨token :: earlier, rest, final⟩) ∧
      earlier.length < backupDepth ∧ (token.kind = .whitespace → token = final ∧ rest = []) := by
  have hremember : ∀ (past : List Token) (token : Token),
      remember past token = token :: past.take (backupDepth - 1) := fun _ _ => rfl
  have hlength : ∀ past : List Token, (past.take (backupDepth - 1)).length < backupDepth := by
    intro past
    have := List.length_take_le (backupDepth - 1) past
    unfold backupDepth at this ⊢
    omega
  induction upcoming generalizing past with
  | nil => exact ⟨final, _, [], by rw [solidFrom, hremember], hlength past, fun _ => ⟨rfl, rfl⟩⟩
  | cons token rest ih =>
    rw [solidFrom]
    by_cases hblank : token.kind = .whitespace
    · rw [if_pos hblank]
      exact ih _
    · rw [if_neg hblank, hremember]
      exact ⟨token, _, rest, rfl, hlength past, fun h => absurd h hblank⟩

/-- Looking at a token changes nothing about what comes next. -/
theorem nextSolid_backup {c : Cursor} (h : c.nextSolid.1.kind ≠ .whitespace) :
    c.nextSolid.2.backup.nextSolid = c.nextSolid := by
  obtain ⟨token, earlier, rest, hnext, hlength, -⟩ := exists_solidFrom c.final c.past c.upcoming
  have hnext : c.nextSolid = (token, ⟨token :: earlier, rest, c.final⟩) := hnext
  rw [hnext] at h ⊢
  have hremember : remember earlier token = token :: earlier :=
    List.take_of_length_le (Nat.succ_le_of_lt hlength)
  show solidFrom c.final earlier (token :: rest) = _
  rw [solidFrom, if_neg h, hremember]

/-- Where a solid token comes after a look ahead, it is the one that was looked at. -/
theorem kind_of_nextSolid_backup {c : Cursor}
    (h : c.nextSolid.2.backup.nextSolid.1.kind ≠ .whitespace) :
    c.nextSolid.1.kind ≠ .whitespace := by
  obtain ⟨token, earlier, rest, hnext, -, hblank⟩ := exists_solidFrom c.final c.past c.upcoming
  have hnext : c.nextSolid = (token, ⟨token :: earlier, rest, c.final⟩) := hnext
  rw [hnext] at h ⊢
  intro hkind
  obtain ⟨htoken, hrest⟩ := hblank hkind
  have hagain : nextSolid ⟨earlier, token :: rest, c.final⟩ =
      (c.final, ⟨remember (remember earlier token) c.final, [], c.final⟩) := by
    rw [nextSolid, solidFrom, if_pos hkind, hrest, solidFrom]
  have hfinal : (nextSolid ⟨earlier, token :: rest, c.final⟩).1.kind ≠ .whitespace := h
  rw [hagain] at hfinal
  exact hfinal (htoken ▸ hkind)

end Cursor

/-- The state once the next solid token has been looked at. -/
def ParseState.peeked (s : ParseState) : ParseState :=
  { s with cursor := s.cursor.nextSolid.2.backup }

namespace Parse

variable {s t : ParseState} {token : Token}

theorem run_peek (h : nextSolid.run s = .ok (token, t)) : peek.run s = .ok (token, s.peeked) := by
  obtain ⟨-, -, rfl⟩ := consume_of_run h
  rw [peek, run_bind_ok h]
  rfl

theorem eq_peeked_of_run_peek (h : peek.run s = .ok (token, t)) : t = s.peeked := by
  obtain ⟨token', t', hnext, hrest⟩ := run_bind_eq_ok h
  obtain ⟨-, -, rfl⟩ := consume_of_run hnext
  cases hrest
  rfl

/-- What is read after a look ahead is what was seen. -/
theorem run_nextSolid_peeked (h : nextSolid.run s = .ok (token, t))
    (hsolid : token.kind ≠ .whitespace) : nextSolid.run s.peeked = .ok (token, t) := by
  obtain ⟨rfl, hkind, rfl⟩ := consume_of_run h
  have hback : s.peeked.cursor.nextSolid = s.cursor.nextSolid := Cursor.nextSolid_backup hsolid
  have hrun : nextSolid.run s.peeked = _ := run_consume (by rwa [hback])
  rw [hrun, hback]
  rfl

/-- A second look ahead changes nothing. -/
theorem peeked_peeked (h : nextSolid.run s.peeked = .ok (token, t))
    (hsolid : token.kind ≠ .whitespace) : s.peeked.peeked = s.peeked := by
  obtain ⟨rfl, -, -⟩ := consume_of_run h
  have hkind : s.cursor.nextSolid.1.kind ≠ .whitespace :=
    Cursor.kind_of_nextSolid_backup hsolid
  have hback : s.peeked.cursor.nextSolid = s.cursor.nextSolid := Cursor.nextSolid_backup hkind
  show { s.peeked with cursor := s.peeked.cursor.nextSolid.2.backup } = s.peeked
  rw [hback]
  rfl

end Parse

namespace Expr

open Parse

/-! ## §2. Operands and chains -/

/-- A primary expression with all that follows it is read, between two states. -/
def ReadsOperand (n : Nat) (s : ParseState) (x : Expr) (t : ParseState) : Prop :=
  (parsePrimary n (parse n) >>= parsePostfix n (parse n)).run s = .ok (x, t)

/-- No operator between operands begins at a token, and no test. -/
structure EndsChain (token : Token) : Prop where
  solid : token.kind ≠ .whitespace
  operator : token.kind = .operator → token.value ≠ "is" ∧ token.value ≠ "is not" ∧
    BinaryOp.ofSpelling? token.value = none

/-- Operators and operands are read in turn, between two states, and no operator comes after
them. -/
inductive Chain (n : Nat) : ParseState → List Infix → ParseState → Prop
  | done {s t : ParseState} {token : Token} : nextSolid.run s = .ok (token, t) → EndsChain token →
      Chain n s [] s
  | more {s t u v : ParseState} {k : Infix} {ks : List Infix} :
      nextSolid.run s = .ok (⟨.operator, k.op.spelling, k.pos⟩, t) →
      ReadsOperand n t k.operand u → Chain n u ks v → Chain n s (k :: ks) v

variable {n n' : Nat} {s t u : ParseState} {x : Expr}

theorem ReadsOperand.mono (h : ReadsOperand n s x t) (hn : n ≤ n') : ReadsOperand n' s x t := by
  have hrec : ∀ tightness, Refines (parse n tightness) (parse n' tightness) :=
    fun tightness => refines_parse hn tightness
  have hrefines : Refines (parsePrimary n (parse n) >>= parsePostfix n (parse n))
      (parsePrimary n' (parse n') >>= parsePostfix n' (parse n')) :=
    (refines_parsePrimary hrec hn).bind fun primary => refines_parsePostfix hrec hn primary
  exact hrefines.run_eq_ok h

/-- What may follow an operand is looked at and left. -/
theorem eq_peeked_of_parseLink {subject e : Expr}
    (h : (parseLink n (parse n) subject).run s = .ok (.done e, t)) : t = s.peeked := by
  obtain ⟨token, s', hpeek, hrest⟩ := run_bind_eq_ok h
  split at hrest
  -- The forms that go on with a link do not end the loop.
  · obtain ⟨_, _, -, hrest⟩ := run_bind_eq_ok hrest
    obtain ⟨_, _, -, hrest⟩ := run_bind_eq_ok hrest
    cases hrest
  · split at hrest
    · obtain ⟨_, _, -, hrest⟩ := run_bind_eq_ok hrest
      obtain ⟨_, _, -, hrest⟩ := run_bind_eq_ok hrest
      obtain ⟨_, _, -, hrest⟩ := run_bind_eq_ok hrest
      cases hrest
    · split at hrest
      · obtain ⟨_, _, -, hrest⟩ := run_bind_eq_ok hrest
        obtain ⟨_, _, -, hrest⟩ := run_bind_eq_ok hrest
        obtain ⟨_, _, -, hrest⟩ := run_bind_eq_ok hrest
        cases hrest
      · cases hrest
        exact eq_peeked_of_run_peek hpeek

theorem exists_peeked_of_links {subject e : Expr} {m : Nat}
    (h : (iterate (parseLink n (parse n)) m subject).run s = .ok (e, t)) :
    ∃ s' : ParseState, t = s'.peeked := by
  induction m generalizing s subject with
  | zero => cases h
  | succ m ih =>
    obtain ⟨turn, s', hturn, hrest⟩ := run_bind_eq_ok h
    cases turn with
    | more subject' => exact ih hrest
    | done e' =>
      cases hrest
      exact ⟨s, eq_peeked_of_parseLink hturn⟩

theorem ReadsOperand.exists_peeked (h : ReadsOperand n s x t) :
    ∃ s' : ParseState, t = s'.peeked := by
  obtain ⟨primary, s', -, happlied⟩ := run_bind_eq_ok h
  exact exists_peeked_of_links happlied

/-- A primary expression does not begin with an operator, so that no prefix operator is found. -/
theorem ReadsOperand.run_parseOperand (h : ReadsOperand n s x t) :
    (parseOperand n (parse n)).run s = .ok (x, t) := by
  obtain ⟨primary, s₁, hprimary, happlied⟩ := run_bind_eq_ok h
  obtain ⟨token, s₀, hnext, hrest⟩ := run_bind_eq_ok hprimary
  have hkind : token.kind ≠ .operator ∧ token.kind ≠ .whitespace := by
    -- With either of them a primary expression is not read but refused.
    constructor <;>
    · intro hkind
      rw [hkind] at hrest
      have hrest : (parseEnclosed n (parse n) token).run s₀ = .ok (primary, s₁) := hrest
      unfold parseEnclosed at hrest
      rw [hkind] at hrest
      cases hrest
  have hagain : (parsePrimary n (parse n)).run s.peeked = .ok (primary, s₁) := by
    rw [parsePrimary, run_bind_ok (run_nextSolid_peeked hnext hkind.2)]
    exact hrest
  rw [parseOperand, run_bind_ok (run_peek hnext), if_neg hkind.1, run_bind_ok hagain]
  exact happlied

/-! ## §3. Climbing -/

/-- Between an operand and what follows it a look ahead changes nothing. -/
theorem Chain.peeked_eq {ks : List Infix} (h : Chain n s ks u)
    (hs : ∃ s' : ParseState, s = s'.peeked) : s.peeked = s := by
  obtain ⟨s', rfl⟩ := hs
  cases h with
  | done hnext hends => exact peeked_peeked hnext hends.solid
  | more hnext => exact peeked_peeked hnext nofun

/-- What a climb does at an operator. -/
theorem run_climb_operator {k : Infix} (hs : s.peeked = s)
    (hnext : nextSolid.run s = .ok (⟨.operator, k.op.spelling, k.pos⟩, t)) (m minimum : Nat)
    (left : Expr) :
    (climb m (parse m) minimum left).run s =
      (if k.op.precedence < minimum then Pure.pure (.done left)
      else do
        let _ ← nextSolid
        let right ← parse m (.atLeast k.op.rightMinimum)
        Pure.pure (.more (.binary k.pos k.op left right)) : Parse (Turn Expr Expr)).run s := by
  -- The operators of tests are not among the binary ones.
  have htest : (k.op.spelling == "is" || k.op.spelling == "is not") = false := by
    cases k.op <;> decide
  rw [climb, run_bind_ok (run_peek hnext), hs]
  simp only [ne_eq, not_true_eq_false, if_false, htest, Bool.false_eq_true, ofSpelling?_binary]

/-- An operator that binds less than the minimum is left, and so is what ends the chain. -/
theorem Chain.run_climb_done {ks : List Infix} {minimum : Nat} (h : Chain n s ks u)
    (hs : s.peeked = s) (hlow : ∀ k ∈ ks.head?, k.op.precedence < minimum) (m : Nat)
    (left : Expr) : (climb m (parse m) minimum left).run s = .ok (.done left, s) := by
  cases h with
  | done hnext hends =>
    rename_i t token
    rw [climb, run_bind_ok (run_peek hnext), hs]
    by_cases hkind : token.kind = .operator
    · obtain ⟨his, hisNot, hnone⟩ := hends.operator hkind
      have htest : (token.value == "is" || token.value == "is not") = false := by
        simp [his, hisNot]
      simp only [ne_eq, hkind, not_true_eq_false, if_false, htest, Bool.false_eq_true, hnone]
      rfl
    · rw [if_pos hkind]
      rfl
  | more hnext =>
    rw [run_climb_operator hs hnext, if_pos (hlow _ rfl)]
    rfl

/-- Any other operator is taken with all that belongs to its right side. -/
theorem run_climb_more {k : Infix} {minimum m : Nat} {right : Expr} (hs : s.peeked = s)
    (hnext : nextSolid.run s = .ok (⟨.operator, k.op.spelling, k.pos⟩, t))
    (hmin : minimum ≤ k.op.precedence)
    (hright : (parse m (.atLeast k.op.rightMinimum)).run t = .ok (right, u)) (left : Expr) :
    (climb m (parse m) minimum left).run s = .ok (.more (.binary k.pos k.op left right), u) := by
  rw [run_climb_operator hs hnext, if_neg (Nat.not_lt.mpr hmin), run_bind_ok hnext,
    run_bind_ok hright]
  rfl

/-- An operand begins an expression of any tightness, and a climb goes on from there. -/
theorem ReadsOperand.run_parse {m minimum : Nat} {e : Expr} (h : ReadsOperand n s x t) (hm : n ≤ m)
    (hclimb : (iterate (climb m (parse m) minimum) m x).run t = .ok (e, u)) :
    (parse (m + 1) (.atLeast minimum)).run s = .ok (e, u) := by
  rw [parse, run_bind_ok (h.mono hm).run_parseOperand]
  exact hclimb

/-- Whether an operator is taken with a minimum. -/
def holds (minimum : Nat) (k : Infix) : Bool :=
  minimum ≤ k.op.precedence

theorem le_precedence_of_mem_takeWhile {ks : List Infix} {minimum : Nat} {k : Infix}
    (hk : k ∈ ks.takeWhile (holds minimum)) : minimum ≤ k.op.precedence :=
  of_decide_eq_true (List.all_eq_true.mp List.all_takeWhile k hk)

theorem precedence_lt_of_mem_dropWhile {ks : List Infix} {minimum : Nat} {k : Infix}
    (hk : k ∈ (ks.dropWhile (holds minimum)).head?) : k.op.precedence < minimum := by
  have hnot := List.head?_dropWhile_not (holds minimum) ks
  rw [Option.mem_def.mp hk] at hnot
  exact Nat.lt_of_not_le (of_decide_eq_false hnot)

/-- What is taken with a minimum and what is left of a chain where none is taken. -/
theorem whiles_of_low {ks : List Infix} {minimum : Nat}
    (h : ∀ k ∈ ks.head?, k.op.precedence < minimum) :
    ks.takeWhile (holds minimum) = [] ∧ ks.dropWhile (holds minimum) = ks := by
  cases ks with
  | nil => exact ⟨rfl, rfl⟩
  | cons k ks =>
    have hk : holds minimum k = false := decide_eq_false (Nat.not_le.mpr (h k rfl))
    exact ⟨by simp [hk], by simp [hk]⟩

/-- What is taken with a higher minimum first and with a lower one then is what is taken with the
lower one. -/
theorem whiles_of_le (ks : List Infix) {low high : Nat} (h : low ≤ high) :
    ks.takeWhile (holds high) ++ (ks.dropWhile (holds high)).takeWhile (holds low) =
        ks.takeWhile (holds low) ∧
      (ks.dropWhile (holds high)).dropWhile (holds low) = ks.dropWhile (holds low) := by
  have hholds : ∀ k ∈ ks.takeWhile (holds high), holds low k = true := by
    intro k hk
    exact decide_eq_true (Nat.le_trans h (le_precedence_of_mem_takeWhile hk))
  constructor
  · rw [← List.takeWhile_append_of_pos hholds, List.takeWhile_append_dropWhile]
  · rw [← List.dropWhile_append_of_pos hholds, List.takeWhile_append_dropWhile]

/-- A climb takes the operators of a chain up to the first one that binds less than the minimum, and
groups them with what came before. -/
theorem Chain.run_iterate (length : Nat) : ∀ (x : Expr) (before ks : List Infix) (s : ParseState)
    (m turns minimum : Nat), ks.length = length → Chain n s ks u → s.peeked = s →
    n + length < m → length < turns →
    (∀ k ∈ ks.head?, ∀ o ∈ before, k.op.leftMinimum ≤ o.op.precedence) →
    ∃ t, Chain n t (ks.dropWhile (holds minimum)) u ∧ t.peeked = t ∧
      (iterate (climb m (parse m) minimum) turns (grouped x before)).run s =
        .ok (grouped x (before ++ ks.takeWhile (holds minimum)), t) := by
  -- The induction is on the length of the chain: the right side of an operator is a climb over a
  -- part of the rest, and the present climb goes on with another part.
  induction length using Nat.strongRecOn with
  | ind length ih =>
  intro x before ks s m turns minimum hlength h hs hm hturns hbefore
  obtain ⟨turns, rfl⟩ : ∃ turns', turns = turns' + 1 := ⟨turns - 1, by omega⟩
  by_cases hlow : ∀ k ∈ ks.head?, k.op.precedence < minimum
  · obtain ⟨htake, hdrop⟩ := whiles_of_low hlow
    refine ⟨s, by rwa [hdrop], hs, ?_⟩
    rw [htake, List.append_nil]
    exact run_iterate_done (h.run_climb_done hs hlow m (grouped x before))
  · cases h with
    | done => exact absurd (fun _ hk => absurd hk (Option.not_mem_none _)) hlow
    | @more s t v u k ks hnext hoperand hchain =>
      have hmin : minimum ≤ k.op.precedence := by simpa using hlow
      rw [List.length_cons] at hlength
      obtain ⟨m, rfl⟩ : ∃ m', m = m' + 1 := ⟨m - 1, by omega⟩
      -- The right side of the operator.
      obtain ⟨w, hrest, hw, hclimb⟩ := ih ks.length (by omega) k.operand [] ks v m m
        k.op.rightMinimum rfl hchain (hchain.peeked_eq hoperand.exists_peeked) (by omega)
        (by omega) (fun _ _ => List.forall_mem_nil _)
      rw [grouped_nil, List.nil_append] at hclimb
      have hright := hoperand.run_parse (by omega) hclimb
      have hturn := run_climb_more hs hnext hmin hright (grouped x before)
      have hgrouped : grouped x (before ++ k :: ks.takeWhile (holds k.op.rightMinimum)) =
          .binary k.pos k.op (grouped x before)
            (grouped k.operand (ks.takeWhile (holds k.op.rightMinimum))) := by
        exact grouped_append x (hbefore k rfl) fun o ho => le_precedence_of_mem_takeWhile ho
      rw [← hgrouped] at hturn
      -- The rest of the chain.
      have hshorter : (ks.dropWhile (holds k.op.rightMinimum)).length ≤ ks.length :=
        (List.dropWhile_sublist _).length_le
      have hbefore' : ∀ next ∈ (ks.dropWhile (holds k.op.rightMinimum)).head?,
          ∀ o ∈ before ++ k :: ks.takeWhile (holds k.op.rightMinimum),
            next.op.leftMinimum ≤ o.op.precedence := by
        intro next hmem o ho
        obtain ⟨hop, hleft, hright⟩ :=
          BinaryOp.leftMinimum_le (precedence_lt_of_mem_dropWhile hmem)
        rcases List.mem_append.mp ho with ho | ho
        · exact Nat.le_trans hleft (hbefore k rfl o ho)
        · rcases List.mem_cons.mp ho with rfl | ho
          · exact hop
          · exact Nat.le_trans hright (le_precedence_of_mem_takeWhile ho)
      obtain ⟨z, hend, hz, hmore⟩ := ih (ks.dropWhile (holds k.op.rightMinimum)).length (by omega) x
        (before ++ k :: ks.takeWhile (holds k.op.rightMinimum)) _ w (m + 1) turns minimum rfl hrest
        hw (by omega) (by omega) hbefore'
      have hle : minimum ≤ k.op.rightMinimum := by
        have := k.op.minimums
        omega
      have hk : holds minimum k = true := decide_eq_true hmin
      obtain ⟨htake, hdrop⟩ := whiles_of_le ks hle
      refine ⟨z, by rwa [List.dropWhile_cons_of_pos hk, ← hdrop], hz, ?_⟩
      rw [List.takeWhile_cons_of_pos hk, ← htake, run_iterate_more hturn]
      rw [List.append_assoc] at hmore
      exact hmore

/-- **A chain is parsed as the tree that it means.**  Any operands, read by the parser of operands,
with any binary operators between them, give the tree that the whole chain is split into by its
operators of the lowest precedence, and the parser stops behind the last operand. -/
theorem run_parse_chain {ks : List Infix} {m : Nat} (hx : ReadsOperand n s x t)
    (hchain : Chain n t ks u) (hm : n + ks.length + 1 < m) :
    (parse m (.atLeast 0)).run s = .ok (grouped x ks, u) := by
  obtain ⟨m, rfl⟩ : ∃ m', m = m' + 1 := ⟨m - 1, by omega⟩
  obtain ⟨v, hend, -, hclimb⟩ := hchain.run_iterate ks.length x [] ks t m m 0 rfl
    (hchain.peeked_eq hx.exists_peeked) (by omega) (by omega)
    (fun _ _ => List.forall_mem_nil _)
  -- With no minimum all of the chain is taken.
  have hall : ∀ k ∈ ks, holds 0 k = true := fun k _ => decide_eq_true (Nat.zero_le _)
  have htake : ks.takeWhile (holds 0) = ks := List.takeWhile_eq_self_iff.mpr hall
  have hdrop : ks.dropWhile (holds 0) = [] := List.dropWhile_eq_nil_iff.mpr hall
  rw [hdrop] at hend
  rw [grouped_nil, htake, List.nil_append] at hclimb
  cases hend
  exact hx.run_parse (by omega) hclimb

/-- The chain `1 - 2 ** 3 ** 4 - 5`, in which powers group to the right and differences to the
left. -/
theorem run_parse_chain_powers :
    ∃ (x : Expr) (ks : List Infix) (s t u : ParseState),
      ks.map Infix.op = [.sub, .pow, .pow, .sub] ∧ ReadsOperand 2 s x t ∧ Chain 2 t ks u ∧
        (parse 8 (.atLeast 0)).run s = .ok (grouped x ks, u) := by
  let number (text : String) : Token := ⟨.number, text, .start⟩
  let operator (op : BinaryOp) : Token := ⟨.operator, op.spelling, .start⟩
  let value (text : String) : Expr := .number .start (Number.ofDigits text.toList [])
  let final : Token := ⟨.eof, "", .start⟩
  let tokens : List Token := [number "1", operator .sub, number "2", operator .pow, number "3",
    operator .pow, number "4", operator .sub, number "5", final]
  -- The state in which some of the tokens have been read; seven of them can still be taken back.
  let state (count : Nat) : ParseState :=
    ⟨⟨(tokens.take count).reverse.take 7, tokens.drop count, final⟩, none, [], [], [], []⟩
  -- What is written in digits is a number, and nothing is applied to it.
  have hreads (text : String) (hne : text.toList ≠ []) (hdigits : text.toList.all Char.isDigit)
      {s s' t : ParseState} (hsolid : nextSolid.run s = .ok (number text, s'))
      (hnumber : (parseNumber .start text).run s' = (readNumber .start text).run t)
      (happlied : (parsePostfix 2 (parse 2) (value text)).run t = .ok (value text, t)) :
      ReadsOperand 2 s (value text) t := by
    unfold readNumber at hnumber
    rw [Number.readWhole?_digits hne (List.all_eq_true.mp hdigits)] at hnumber
    have hprimary : (parsePrimary 2 (parse 2)).run s = .ok (value text, t) := by
      rw [parsePrimary, run_bind_ok hsolid]
      exact hnumber
    rw [ReadsOperand, run_bind_ok hprimary]
    exact happlied
  have h₁ : ReadsOperand 2 (state 0) (value "1") (state 1) :=
    hreads "1" (by decide) (by decide) rfl rfl rfl
  have h₂ : ReadsOperand 2 (state 2) (value "2") (state 3) :=
    hreads "2" (by decide) (by decide) rfl rfl rfl
  have h₃ : ReadsOperand 2 (state 4) (value "3") (state 5) :=
    hreads "3" (by decide) (by decide) rfl rfl rfl
  have h₄ : ReadsOperand 2 (state 6) (value "4") (state 7) :=
    hreads "4" (by decide) (by decide) rfl rfl rfl
  have h₅ : ReadsOperand 2 (state 8) (value "5") (state 9) :=
    hreads "5" (by decide) (by decide) rfl rfl rfl
  have hchain : Chain 2 (state 1) [⟨.start, .sub, value "2"⟩, ⟨.start, .pow, value "3"⟩,
      ⟨.start, .pow, value "4"⟩, ⟨.start, .sub, value "5"⟩] (state 9) :=
    .more rfl h₂ (.more rfl h₃ (.more rfl h₄ (.more rfl h₅ (.done rfl ⟨nofun, nofun⟩))))
  exact ⟨_, _, _, _, _, rfl, h₁, hchain, run_parse_chain h₁ hchain (by decide)⟩

end Expr

end Stencil
