import Stencil.Token.Cursor

/-!
What a cursor has ahead of it.

The token that ends a stream is given out again and again, and may be put back more often than it
was there.  Apart from that a cursor is a list of tokens: `ahead` are those still to come, and each
move takes some of them off the front, or shows the first one that is not white space.
-/

namespace Stencil

/-! ## §1. Moves on lists -/

/-- The first of some tokens, or the one that comes after all. -/
def lead (final : Token) (l : List Token) : Token :=
  l.head?.getD final

/-- The tokens from the first one on that is not white space. -/
def solid (l : List Token) : List Token :=
  l.dropWhile (·.kind == .whitespace)

/-- Whether a token begins a piece of a body: text, a print or a tag. -/
def TokenKind.beginsPiece : TokenKind → Bool
  | .text | .printOpen | .tagOpen => true
  | _ => false

/-- Some tokens are taken off the front, and no piece of a body begins with one of them. -/
def Crosses (l l' : List Token) : Prop :=
  ∃ taken, l = taken ++ l' ∧ ∀ t ∈ taken, t.kind.beginsPiece = false

theorem Token.kind_of_is {token : Token} {kind : TokenKind} {value : String}
    (h : token.is kind value = true) : token.kind = kind := by
  simp only [Token.is, Bool.and_eq_true, beq_iff_eq] at h
  exact h.1

@[simp] theorem lead_nil (final : Token) : lead final [] = final := rfl

@[simp] theorem lead_cons (final t : Token) (l : List Token) : lead final (t :: l) = t := rfl

/-- What leads some tokens is the first of them unless it ends the stream. -/
theorem eq_cons_of_lead {final : Token} (hfinal : final.kind.isFinal = true) {l : List Token}
    (h : (lead final l).kind.isFinal = false) : l = lead final l :: l.tail := by
  cases l with
  | nil =>
    rw [lead_nil, hfinal] at h
    cases h
  | cons t l => rfl

@[simp] theorem solid_solid (l : List Token) : solid (solid l) = solid l := by
  induction l with
  | nil => rfl
  | cons t l ih =>
    by_cases h : t.kind = .whitespace
    · simpa [solid, h] using ih
    · simp [solid, h]

theorem solid_cons_of_blank {t : Token} (h : t.kind = .whitespace) (l : List Token) :
    solid (t :: l) = solid l := by
  simp [solid, h]

theorem solid_cons_of_solid {t : Token} (h : t.kind ≠ .whitespace) (l : List Token) :
    solid (t :: l) = t :: l := by
  simp [solid, h]

namespace Crosses

variable {l l' l'' : List Token}

theorem refl (l : List Token) : Crosses l l :=
  ⟨[], rfl, nofun⟩

theorem trans (h : Crosses l l') (h' : Crosses l' l'') : Crosses l l'' := by
  obtain ⟨taken, rfl, htaken⟩ := h
  obtain ⟨more, rfl, hmore⟩ := h'
  exact ⟨taken ++ more, (List.append_assoc _ _ _).symm, List.forall_mem_append.mpr ⟨htaken, hmore⟩⟩

theorem cons {t : Token} (ht : t.kind.beginsPiece = false) (h : Crosses l l') :
    Crosses (t :: l) l' := by
  obtain ⟨taken, rfl, htaken⟩ := h
  exact ⟨t :: taken, rfl, List.forall_mem_cons.mpr ⟨ht, htaken⟩⟩

theorem suffix (h : Crosses l l') : l' <:+ l := by
  obtain ⟨taken, rfl, -⟩ := h
  exact List.suffix_append _ _

theorem tail {final : Token} (h : (lead final l).kind.beginsPiece = false) : Crosses l l.tail := by
  cases l with
  | nil => exact .refl _
  | cons t l => exact cons h (.refl l)

theorem solid (l : List Token) : Crosses l (solid l) := by
  induction l with
  | nil => exact .refl _
  | cons t l ih =>
    by_cases h : t.kind = .whitespace
    · rw [solid_cons_of_blank h]
      exact cons (by rw [h]; rfl) ih
    · rw [solid_cons_of_solid h]
      exact .refl _

theorem of_solid {first : Token} (hl : Stencil.solid l = first :: l')
    (hfirst : first.kind.beginsPiece = false) : Crosses l l' := by
  have hsolid := solid l
  rw [hl] at hsolid
  exact hsolid.trans (cons hfirst (refl l'))

end Crosses

/-! ## §2. Cursors -/

namespace Cursor

/-- The tokens that a cursor has still to give out, without any that ends the stream. -/
def ahead (c : Cursor) : List Token :=
  c.upcoming.filter (!·.kind.isFinal)

/-- The only token that ends streams is the one of this stream, and no other comes after it. -/
structure Tidy (c : Cursor) : Prop where
  final : c.final.kind.isFinal = true
  same : ∀ t ∈ c.past.reverse ++ c.upcoming, t.kind.isFinal = true → t = c.final
  last : (c.past.reverse ++ c.upcoming).Pairwise fun t u =>
    t.kind.isFinal = true → u.kind.isFinal = true

variable {c : Cursor}

theorem tidy_ofStream {s : TokenStream} (hfinal : s.final.kind.isFinal = true)
    (htokens : ∀ t ∈ s.tokens, t.kind.isFinal = false) : (ofStream s).Tidy where
  final := hfinal
  same := fun t ht hkind => by
    rw [htokens t ht] at hkind
    cases hkind
  last := List.Pairwise.imp_of_mem
    (fun ht _ _ hkind => by
      rw [htokens _ ht] at hkind
      cases hkind) (List.pairwise_of_forall (R := fun _ _ => True) fun _ _ => trivial)

theorem ahead_ofStream {s : TokenStream} (htokens : ∀ t ∈ s.tokens, t.kind.isFinal = false) :
    (ofStream s).ahead = s.tokens :=
  List.filter_eq_self.mpr fun t ht => by simp [htokens t ht]

/-- Tokens are forgotten from the far end of the past only. -/
theorem exists_remember (past : List Token) (t : Token) :
    ∃ forgotten, forgotten ++ (remember past t).reverse = past.reverse ++ [t] := by
  refine ⟨((t :: past).drop backupDepth).reverse, ?_⟩
  rw [remember, ← List.reverse_append, List.take_append_drop, List.reverse_cons]

theorem Tidy.of_suffix {c' : Cursor} (h : c.Tidy) (hfinal : c'.final = c.final)
    (hsuffix : c'.past.reverse ++ c'.upcoming <:+ c.past.reverse ++ c.upcoming) : c'.Tidy where
  final := hfinal ▸ h.final
  same := fun t ht hkind => hfinal ▸ h.same t (hsuffix.subset ht) hkind
  last := h.last.sublist hsuffix.sublist

theorem Tidy.next (h : c.Tidy) : c.next.2.Tidy := by
  obtain ⟨past, upcoming, final⟩ := c
  cases upcoming with
  | nil =>
    -- The final token goes to the end of what was there.
    obtain ⟨forgotten, hforgotten⟩ := exists_remember past final
    have hmore : Tidy ⟨final :: past, [], final⟩ := by
      refine ⟨h.final, fun t ht hkind => ?_, ?_⟩
      · rw [List.append_nil, List.reverse_cons] at ht
        rcases List.mem_append.mp ht with ht | ht
        · exact h.same t (List.mem_append_left _ ht) hkind
        · exact List.mem_singleton.mp ht
      · have hlast := h.last
        rw [List.append_nil] at hlast
        rw [List.append_nil, List.reverse_cons]
        refine List.pairwise_append.mpr ⟨hlast, List.pairwise_singleton _ _, fun t _ u hu _ => ?_⟩
        rw [List.mem_singleton.mp hu]
        exact h.final
    refine hmore.of_suffix rfl ⟨forgotten, ?_⟩
    simpa [Cursor.next] using hforgotten
  | cons token rest =>
    obtain ⟨forgotten, hforgotten⟩ := exists_remember past token
    refine h.of_suffix rfl ⟨forgotten, ?_⟩
    simp only [Cursor.next, ← List.append_assoc, hforgotten]
    simp

theorem Tidy.backup (h : c.Tidy) : c.backup.Tidy := by
  obtain ⟨past, upcoming, final⟩ := c
  cases past with
  | nil => exact h
  | cons token earlier => exact h.of_suffix rfl ⟨[], by simp [Cursor.backup]⟩

/-- Where a token that ends streams comes next, no other is left. -/
theorem Tidy.ahead_cons {past rest : List Token} {token final : Token}
    (h : Tidy ⟨past, token :: rest, final⟩) :
    ahead ⟨past, token :: rest, final⟩ =
      if token.kind.isFinal then [] else token :: ahead ⟨past, rest, final⟩ := by
  split
  · next hkind =>
    have hlast := (List.pairwise_append.mp h.last).2.1
    refine List.filter_eq_nil_iff.mpr fun t ht => ?_
    rcases List.mem_cons.mp ht with rfl | ht
    · simp [hkind]
    · simp [(List.pairwise_cons.mp hlast).1 t ht hkind]
  · next hkind => simp [ahead, hkind]

theorem Tidy.next_eq (h : c.Tidy) :
    c.next.1 = lead c.final c.ahead ∧ c.next.2.ahead = c.ahead.tail := by
  obtain ⟨past, upcoming, final⟩ := c
  cases upcoming with
  | nil => exact ⟨rfl, rfl⟩
  | cons token rest =>
    rw [h.ahead_cons]
    split
    · next hkind =>
      have hsame : token = final := h.same token (by simp) hkind
      have hrest := h.ahead_cons
      rw [if_pos hkind] at hrest
      refine ⟨hsame, ?_⟩
      have hfilter : (token :: rest).filter (!·.kind.isFinal) = [] := hrest
      rw [List.filter_cons_of_neg (by simp [hkind])] at hfilter
      exact hfilter
    · exact ⟨rfl, rfl⟩

/-- What was just given out can be taken back. -/
theorem next_past (c : Cursor) : ∃ earlier, c.next.2.past = c.next.1 :: earlier ∧
    earlier = c.past.take (backupDepth - 1) := by
  obtain ⟨past, upcoming, final⟩ := c
  cases upcoming <;> exact ⟨_, rfl, rfl⟩

theorem ahead_backup_of_past {token : Token} {earlier : List Token}
    (h : c.past = token :: earlier) :
    c.backup.ahead = (token :: c.upcoming).filter (!·.kind.isFinal) := by
  simp [backup, h, ahead]

theorem upcoming_next_filter (h : c.Tidy) :
    (c.next.1 :: c.next.2.upcoming).filter (!·.kind.isFinal) = c.ahead := by
  obtain ⟨past, upcoming, final⟩ := c
  cases upcoming with
  | nil =>
    have hfinal : final.kind.isFinal = true := h.final
    simp [Cursor.next, ahead, hfinal]
  | cons token rest => rfl

theorem Tidy.ahead_next_backup (h : c.Tidy) : c.next.2.backup.ahead = c.ahead := by
  obtain ⟨earlier, hpast, -⟩ := c.next_past
  rw [ahead_backup_of_past hpast, upcoming_next_filter h]

/-- Two tokens that were just given out can be taken back as well. -/
theorem Tidy.ahead_next_next_backup (h : c.Tidy) :
    c.next.2.next.2.backup.backup.ahead = c.ahead := by
  obtain ⟨earlier, hpast, -⟩ := c.next_past
  obtain ⟨earlier', hpast', hearlier'⟩ := c.next.2.next_past
  have hsecond : earlier' = c.next.1 :: earlier.take (backupDepth - 2) := by
    rw [hearlier', hpast]
    rfl
  have hback : c.next.2.next.2.backup.past = c.next.1 :: earlier.take (backupDepth - 2) := by
    rw [Cursor.backup, hpast']
    exact hsecond
  have hupcoming : c.next.2.next.2.backup.upcoming =
      c.next.2.next.1 :: c.next.2.next.2.upcoming := by
    rw [Cursor.backup, hpast']
  rw [ahead_backup_of_past hback, hupcoming, List.filter_cons, List.filter_cons]
  have hinner := upcoming_next_filter h.next
  rw [List.filter_cons] at hinner
  rw [hinner, ← upcoming_next_filter h, List.filter_cons]
  rfl

theorem Tidy.nextSolid (h : c.Tidy) : c.nextSolid.2.Tidy ∧
    c.nextSolid.1 = lead c.final (solid c.ahead) ∧
    c.nextSolid.2.ahead = (solid c.ahead).tail ∧
    c.nextSolid.2.backup.ahead = solid c.ahead := by
  obtain ⟨past, upcoming, final⟩ := c
  induction upcoming generalizing past with
  | nil => exact ⟨h.next, rfl, rfl, h.ahead_next_backup⟩
  | cons token rest ih =>
    by_cases hblank : token.kind = .whitespace
    · have hrest := ih _ h.next
      have hkind : token.kind.isFinal = false := by rw [hblank]; rfl
      have hahead : ahead ⟨past, token :: rest, final⟩ = token :: ahead ⟨past, rest, final⟩ := by
        rw [h.ahead_cons, hkind]
        rfl
      have hsolid : Cursor.nextSolid ⟨past, token :: rest, final⟩ =
          Cursor.nextSolid ⟨remember past token, rest, final⟩ := by
        rw [Cursor.nextSolid, solidFrom, if_pos hblank]
        rfl
      rw [hsolid, hahead, solid_cons_of_blank hblank]
      exact hrest
    · have hnext : Cursor.nextSolid ⟨past, token :: rest, final⟩ =
          Cursor.next ⟨past, token :: rest, final⟩ := by
        rw [Cursor.nextSolid, solidFrom, if_neg hblank]
        rfl
      obtain ⟨hlead, htail⟩ := h.next_eq
      -- Nothing is skipped, as the first token is solid or ends the stream.
      have hsame : solid (ahead ⟨past, token :: rest, final⟩) =
          ahead ⟨past, token :: rest, final⟩ := by
        rw [h.ahead_cons]
        split
        · rfl
        · exact solid_cons_of_solid hblank _
      rw [hnext, hsame]
      exact ⟨h.next, hlead, htail, h.ahead_next_backup⟩

@[simp] theorem final_nextSolid (c : Cursor) : c.nextSolid.2.final = c.final := by
  obtain ⟨past, upcoming, final⟩ := c
  unfold nextSolid
  induction upcoming generalizing past with
  | nil => rfl
  | cons token rest ih =>
    simp only [solidFrom]
    split
    · exact ih _
    · rfl

end Cursor

end Stencil
