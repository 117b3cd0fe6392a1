import Stencil.Proofs.Token.Choices
import Stencil.Proofs.Token.Gap

/-!
One run of blanks in place of another.

Two sources that differ in one run of blanks inside a region of code have the same tokens, up to
where these stand and which blanks the white space between them is.  Before the gap the two lexers
go side by side, at the gap both find white space or the same operator, and after it they read the
same text.
-/

namespace Stencil

open Stencil.Text Stencil.Token

/-! ## §1. Steps -/

/-- A token at the start of a source.  Of white space it keeps only that there is some. -/
def Token.unplaced (t : Token) : Token :=
  ⟨t.kind, if t.kind = .whitespace then "" else t.value, .start⟩

namespace Scan

/-- Two steps that find the same token, up to its place, and leave the same state but for its place
and the text that is left. -/
inductive Step.Same (R : List Char → List Char → Prop) : Step → Step → Prop
  | final {token token' : Token} : token'.unplaced = token.unplaced →
      Same R (.final token) (.final token')
  | lexeme {found found' : Lexeme} {t t' : Scan} :
      found'.token.map Token.unplaced = found.token.map Token.unplaced → R t.rest t'.rest →
      t'.regions = t.regions → t'.trimNext = t.trimNext →
      Same R (.lexeme found t) (.lexeme found' t')

variable {R : List Char → List Char → Prop} {s s' : Scan}

theorem same_fail (s s' : Scan) (message : String) :
    Step.Same R (s.fail message) (s'.fail message) :=
  .final rfl

theorem same_emit (htrim : s'.trimNext = s.trimNext) {kind : TokenKind} {value value' : String}
    (hvalue : kind = .whitespace ∨ value' = value) {n n' : Nat}
    (hrest : R (s.rest.drop n) (s'.rest.drop n')) (regions : List Region) :
    Step.Same R (s.emit kind value n regions) (s'.emit kind value' n' regions) := by
  refine .lexeme ?_ hrest rfl htrim
  rcases hvalue with rfl | rfl <;> rfl

theorem same_take (htrim : s'.trimNext = s.trimNext) (kind : TokenKind) {n : Nat}
    (htake : s'.rest.take n = s.rest.take n) (hrest : R (s.rest.drop n) (s'.rest.drop n))
    (regions : List Region) :
    Step.Same R (s.take kind n regions) (s'.take kind n regions) :=
  same_emit htrim (.inr (by rw [htake])) hrest regions

/-! ## §2. Steps outside of code -/

section Outside

variable {cs : List Char}

theorem nextOutside_nil (h : s.rest = []) : s.nextOutside = .final ⟨.eof, "", s.position⟩ := by
  unfold nextOutside
  rw [h]

theorem nextOutside_comment (h : s.rest = '{' :: '#' :: cs) :
    s.nextOutside =
      match commentLength s.rest with
      | some n => s.takeComment n
      | none => s.fail "unclosed comment" := by
  have hrun : literalRun s.rest = [] := by rw [h]; rfl
  unfold nextOutside
  rw [hrun, h]
  rfl

theorem nextOutside_tag (h : s.rest = '{' :: '%' :: cs) :
    s.nextOutside = s.takeOpener .tagOpen (.tag []) := by
  have hrun : literalRun s.rest = [] := by rw [h]; rfl
  unfold nextOutside
  rw [hrun, h]
  rfl

theorem nextOutside_print (h : s.rest = '{' :: '{' :: cs) :
    s.nextOutside = s.takeOpener .printOpen (.print []) := by
  have hrun : literalRun s.rest = [] := by rw [h]; rfl
  unfold nextOutside
  rw [hrun, h]
  rfl

theorem nextOutside_text (h : literalRun s.rest ≠ []) :
    s.nextOutside = s.takeText (literalRun s.rest) := by
  unfold nextOutside
  split <;> simp_all [literalRun]

end Outside

theorem same_takeComment (hregions : s'.regions = s.regions) {n : Nat}
    (htake : s'.rest.take n = s.rest.take n) (hrest : R (s.rest.drop n) (s'.rest.drop n)) :
    Step.Same R (s.takeComment n) (s'.takeComment n) := by
  have hbody : s'.rest.take (n - 2) = s.rest.take (n - 2) := by
    have := congrArg (List.take (n - 2)) htake
    simpa [List.take_take] using this
  exact .lexeme rfl hrest hregions (by rw [hbody])

theorem same_takeOpener (hregions : s'.regions = s.regions) (kind : TokenKind) (region : Region)
    (htake : s'.rest.take 2 = s.rest.take 2)
    (hmark : ((s'.rest.drop 2).head? == some '-') = ((s.rest.drop 2).head? == some '-'))
    (hrest : ∀ n ≤ if (s.rest.drop 2).head? == some '-' then 3 else 2,
      R (s.rest.drop n) (s'.rest.drop n)) :
    Step.Same R (s.takeOpener kind region) (s'.takeOpener kind region) := by
  unfold takeOpener
  rw [htake, hregions, hmark]
  show Step.Same R (emit { s with trimNext := false } _ _ _ _)
    (emit { s' with trimNext := false } _ _ _ _)
  refine same_emit ?_ (.inr rfl) ?_ _
  · rfl
  · exact hrest _ (Nat.le_refl _)

theorem same_takeText (hregions : s'.regions = s.regions) (htrim : s'.trimNext = s.trimNext)
    {run : List Char} (hmark : ((s'.rest.drop (run.length + 2)).head? == some '-') =
      ((s.rest.drop (run.length + 2)).head? == some '-'))
    (hrest : R (s.rest.drop run.length) (s'.rest.drop run.length)) :
    Step.Same R (s.takeText run) (s'.takeText run) := by
  unfold takeText
  rw [htrim, hmark]
  refine .lexeme ?_ hrest hregions rfl
  simp only [apply_ite (Option.map Token.unplaced)]
  rfl

/-- Outside of all regions the text that is left decides, whatever has been read before. -/
theorem same_nextOutside (hrest : s'.rest = s.rest) (hregions : s'.regions = s.regions)
    (htrim : s'.trimNext = s.trimNext) : Step.Same Eq s.nextOutside s'.nextOutside := by
  have hdrop : ∀ n, s.rest.drop n = s'.rest.drop n := fun n => by rw [hrest]
  by_cases hrun : literalRun s.rest = []
  · rcases opensRegion_of_literalRun hrun with hnil | hopens
    · rw [nextOutside_nil hnil, nextOutside_nil (hrest.trans hnil)]
      exact .final rfl
    · obtain ⟨c, more, h, rfl | rfl | rfl⟩ := eq_of_opensRegion hopens
      · rw [nextOutside_tag h, nextOutside_tag (hrest.trans h)]
        exact same_takeOpener hregions _ _ (by rw [hrest]) (by rw [hrest]) fun n _ => hdrop n
      · rw [nextOutside_print h, nextOutside_print (hrest.trans h)]
        exact same_takeOpener hregions _ _ (by rw [hrest]) (by rw [hrest]) fun n _ => hdrop n
      · rw [nextOutside_comment h, nextOutside_comment (hrest.trans h), hrest]
        cases commentLength s.rest with
        | none => exact same_fail _ _ _
        | some n => exact same_takeComment hregions (by rw [hrest]) (hdrop n)
  · rw [nextOutside_text hrun, nextOutside_text (by rwa [hrest]), hrest]
    exact same_takeText hregions htrim (by rw [hrest]) (hdrop _)

/-- The same inside a string. -/
theorem same_nextInString (hrest : s'.rest = s.rest) (hregions : s'.regions = s.regions)
    (htrim : s'.trimNext = s.trimNext) (quote : Char) (outer : List Region) :
    Step.Same Eq (s.nextInString quote outer) (s'.nextInString quote outer) := by
  have htake : ∀ kind n regions,
      Step.Same Eq (s.take kind n regions) (s'.take kind n regions) := fun kind n regions =>
    same_take htrim kind (by rw [hrest]) (by rw [hrest]) regions
  unfold nextInString
  rw [hrest, hregions]
  split
  · exact htake _ _ _
  · split
    · exact htake _ _ _
    · cases stringRunLength quote s.rest with
      | none => exact same_fail _ _ _
      | some n => exact htake _ _ _

/-! ## §3. Steps in code -/

section Inside

variable {r : Respacing} {before : List Char}

theorem same_take_of_splits (h : r.Splits before s.rest s'.rest) (htrim : s'.trimNext = s.trimNext)
    (kind : TokenKind) {n : Nat} (hn : n ≤ before.length) (regions : List Region) :
    Step.Same r.Rests (s.take kind n regions) (s'.take kind n regions) :=
  same_take htrim kind ((h.take hn).2.trans (h.take hn).1.symm) ⟨_, h.drop hn⟩ regions

theorem same_nextCloser (h : r.Splits before s.rest s'.rest) (hne : before ≠ [])
    (htrim : s'.trimNext = s.trimNext) (c : Char) (bracket : Bracket) (region : Region)
    (outer : List Region) :
    Step.Same r.Rests (s.nextCloser c bracket region outer)
      (s'.nextCloser c bracket region outer) := by
  have htake := fun kind => same_take_of_splits h htrim kind (List.length_pos_iff.mpr hne)
  unfold nextCloser
  split
  · split
    · exact htake _ _
    · exact same_fail _ _ _
  · split
    · exact htake _ _
    · exact same_fail _ _ _
  · exact same_fail _ _ _

theorem same_nextPlain (h : r.Splits before s.rest s'.rest) (hne : before ≠ [])
    (hregions : s'.regions = s.regions) (htrim : s'.trimNext = s.trimNext) (c : Char)
    (region : Region) (outer : List Region) :
    Step.Same r.Rests (s.nextPlain c region outer) (s'.nextPlain c region outer) := by
  have htake := fun kind => same_take_of_splits h htrim kind (List.length_pos_iff.mpr hne)
  have hrun : ∀ kind (p : Char → Bool), (∀ c, p c = true → isBlank c = false) → ∀ regions,
      Step.Same r.Rests (s.take kind (s.rest.takeWhile p).length regions)
        (s'.take kind (s'.rest.takeWhile p).length regions) := fun kind p hp regions => by
    rw [(h.takeWhile hp).1, (h.takeWhile hp).2]
    exact same_take_of_splits h htrim kind (List.takeWhile_prefix p).length_le regions
  unfold nextPlain
  rw [hregions]
  split
  · exact htake _ _
  · exact same_nextCloser h hne htrim c _ region outer
  · split
    · exact htake _ _
    · split
      · exact htake _ _
      · split
        · exact hrun _ _ (fun c hc => isBlank_of_isNameChar (isNameChar_of_isDigit hc)) _
        · split
          · exact hrun _ _ (fun c hc => isBlank_of_isNameChar hc) _
          · exact same_fail _ _ _

theorem nextInside_blank {c : Char} {cs : List Char} (hs : s.rest = c :: cs)
    (hc : isBlank c = true) (region : Region) (outer : List Region) :
    s.nextInside region outer =
      s.take .whitespace (s.rest.takeWhile isBlank).length s.regions := by
  unfold nextInside
  rw [hs]
  exact if_pos hc

theorem nextInside_solid {c : Char} {cs : List Char} (hs : s.rest = c :: cs)
    (hc : isBlank c = false) (region : Region) (outer : List Region) :
    s.nextInside region outer =
      match region.closing? s.rest with
      | some (kind, n, trims) => { s with trimNext := trims }.take kind n outer
      | none =>
        match region.unbalanced? s.rest with
        | some bracket => s.fail bracket.unclosed
        | none =>
          match operatorLength s.rest with
          | some n => s.emit .operator (operatorValue (s.rest.take n)) n s.regions
          | none => s.nextPlain c region outer := by
  unfold nextInside
  rw [hs]
  exact if_neg (by simp [hc])

/-- A step in code finds the same token in both texts. -/
theorem same_nextInside (h : r.Rests s.rest s'.rest) (hregions : s'.regions = s.regions)
    (htrim : s'.trimNext = s.trimNext) (region : Region) (outer : List Region) :
    Step.Same r.Rests (s.nextInside region outer) (s'.nextInside region outer) := by
  obtain ⟨before, h⟩ := h
  cases before with
  | nil =>
    rcases h.nil rfl with ⟨hs, hs'⟩ | ⟨hs, hs'⟩
    · simp only [nextInside, hs, hs']
      exact same_fail _ _ _
    · -- The white space token is the gap.
      obtain ⟨b, bs, hb, hblank⟩ := exists_of_beginsBlank r.beginsBlank_oldRest
      obtain ⟨b', bs', hb', hblank'⟩ := exists_of_beginsBlank r.beginsBlank_newRest
      rw [nextInside_blank (hs.trans hb) hblank, nextInside_blank (hs'.trans hb') hblank', hs, hs',
        r.takeWhile_oldRest, r.takeWhile_newRest, hregions]
      refine same_emit htrim (.inl rfl) ⟨r.after, ?_⟩ _
      rw [hs, hs', Respacing.oldRest, Respacing.newRest, List.drop_left, List.drop_left]
      exact .all _
  | cons c before =>
    obtain ⟨cs, cs', hs, hs'⟩ := h.cons rfl
    cases hc : isBlank c with
    | true =>
      obtain ⟨hrun, hrun'⟩ := h.takeWhile_isBlank (List.cons_ne_nil _ _)
      rw [nextInside_blank hs hc, nextInside_blank hs' hc, hregions, hrun, hrun']
      exact same_take_of_splits h htrim _ (List.takeWhile_prefix _).length_le _
    | false =>
      obtain ⟨hclosing, hunbalanced⟩ := h.closing?_eq region
      rw [nextInside_solid hs hc, nextInside_solid hs' hc, hclosing, hunbalanced, hregions]
      split
      · next kind n trims hclosing =>
        show Step.Same r.Rests (Scan.take { s with trimNext := trims } kind n outer)
          (Scan.take { s' with trimNext := trims } kind n outer)
        refine same_take_of_splits ?_ ?_ kind (h.length_le_of_closing? hclosing) outer
        · exact h
        · rfl
      · split
        · exact same_fail _ _ _
        · cases hoperator : operatorLength s.rest with
          | some n =>
            obtain ⟨n', hn', hvalue, hrests⟩ := h.operator hoperator
            rw [hn']
            exact same_emit htrim (.inr hvalue) hrests _
          | none =>
            rw [h.operator_none hoperator]
            exact same_nextPlain h (List.cons_ne_nil _ _) hregions htrim c region outer

end Inside

/-! ## §4. Steps before the gap -/

section Before

variable {before rest rest' : List Char}

/-- A comment that ends in a text is as long whatever comes after the text. -/
theorem commentLength_cut {n : Nat} (h : commentLength (before ++ rest) = some n)
    (hn : n ≤ before.length) : commentLength (before ++ rest') = some n := by
  induction before generalizing n with
  | nil =>
    have := two_le_commentLength h
    simp only [List.length_nil] at hn
    omega
  | cons c before ih =>
    cases before with
    | nil =>
      have := two_le_commentLength h
      simp only [List.length_singleton] at hn
      omega
    | cons d before =>
      by_cases hends : c = '#' ∧ d = '}'
      · obtain ⟨rfl, rfl⟩ := hends
        exact h
      · have hcons : ∀ cs, commentLength (c :: d :: cs) = (commentLength (d :: cs)).map (· + 1) :=
          fun cs => by
            rw [commentLength]
            rintro cs' rfl h
            cases h
            exact hends ⟨rfl, rfl⟩
        simp only [List.cons_append, hcons] at h ih ⊢
        obtain ⟨m, hm, rfl⟩ := Option.map_eq_some_iff.mp h
        rw [ih hm (Nat.le_of_succ_le_succ hn), Option.map_some]

/-- Whether a delimiter begins a text is seen before a blank. -/
theorem opensRegion_cut (before : List Char) (hrest : beginsBlank rest) :
    opensRegion (before ++ rest) = opensRegion before := by
  obtain ⟨b, bs, rfl, hb⟩ := exists_of_beginsBlank hrest
  have hne : ∀ c, isBlank c = false → b ≠ c := fun c hc h =>
    Bool.false_ne_true (hc.symm.trans (h ▸ hb))
  match before with
  | [] =>
    rw [List.nil_append, opensRegion]
    · rfl
    · rintro c cs h
      cases h
      exact hne '{' (by decide) rfl
  | [c] =>
    by_cases hc : c = '{'
    · simp [hc, opensRegion, hne '%' (by decide), hne '{' (by decide), hne '#' (by decide)]
    · simp [opensRegion, hc]
  | c :: d :: before =>
    by_cases hc : c = '{'
    · simp [hc, opensRegion]
    · simp [opensRegion, hc]

/-- Literal text that ends before the end of a text, and so before a delimiter in it, ends there
whatever comes after the text, if only that begins with a blank. -/
theorem literalRun_cut (hrest : beginsBlank rest) (hrest' : beginsBlank rest')
    (h : (literalRun (before ++ rest)).length < before.length) :
    literalRun (before ++ rest') = literalRun (before ++ rest) ∧
      (literalRun (before ++ rest)).length + 2 ≤ before.length := by
  induction before with
  | nil => cases h
  | cons c before ih =>
    have hopens := opensRegion_cut (c :: before) hrest
    have hopens' := opensRegion_cut (c :: before) hrest'
    rw [List.cons_append] at hopens hopens'
    simp only [List.cons_append, literalRun, hopens, hopens'] at h ⊢
    by_cases hc : opensRegion (c :: before) = true
    · obtain ⟨d, more, heq, -⟩ := eq_of_opensRegion hc
      rw [if_pos hc, if_pos hc, heq]
      exact ⟨rfl, Nat.le_add_left 2 more.length⟩
    · rw [if_neg hc] at h
      rw [if_neg hc, if_neg hc]
      obtain ⟨heq, hlength⟩ := ih (Nat.lt_of_succ_lt_succ h)
      rw [heq]
      exact ⟨rfl, Nat.succ_le_succ hlength⟩

/-- The same of any character that is no blank. -/
theorem head?_cut {c : Char} (hc : isBlank c = false) (hrest : beginsBlank rest) :
    ((before ++ rest).head? == some c) = (before.head? == some c) := by
  obtain ⟨b, bs, rfl, hb⟩ := exists_of_beginsBlank hrest
  cases before with
  | cons => rfl
  | nil =>
    have hne : b ≠ c := fun h => Bool.false_ne_true (hc.symm.trans (h ▸ hb))
    simp [hne]

theorem stringRunLength_cons {quote c : Char} (hc : c ≠ '\\') (cs : List Char) :
    stringRunLength quote (c :: cs) =
      if c == quote || (quote == '"' && c == '#' && cs.head? == some '{') then some 0
      else (stringRunLength quote cs).map (· + 1) := by
  rw [stringRunLength]
  · exact fun h => absurd h hc
  · exact fun _ _ h => absurd h hc

/-- The literal part of a string that ends before the end of a text ends there whatever comes after
the text, if only that begins with a blank. -/
theorem stringRunLength_cut {quote : Char} (hrest : beginsBlank rest) (hrest' : beginsBlank rest')
    {n : Nat} (h : stringRunLength quote (before ++ rest) = some n) (hn : n < before.length) :
    stringRunLength quote (before ++ rest') = some n := by
  have hplain : ∀ {c : Char} {cs : List Char}, (c = '\\' → cs = [] → False) →
      (∀ d ds, c = '\\' → cs = d :: ds → False) → c ≠ '\\' := by
    rintro c cs hnil hpair rfl
    cases cs with
    | nil => exact hnil rfl rfl
    | cons d ds => exact hpair d ds rfl rfl
  fun_induction stringRunLength quote before generalizing n with
  | case1 => cases hn
  | case2 =>
    -- The backslash protects the character after it, so the part is longer than that.
    obtain ⟨b, bs, rfl, -⟩ := exists_of_beginsBlank hrest
    rw [List.singleton_append, stringRunLength] at h
    obtain ⟨m, -, rfl⟩ := Option.map_eq_some_iff.mp h
    simp only [List.length_singleton] at hn
    omega
  | case3 c cs ih =>
    rw [List.cons_append, List.cons_append, stringRunLength] at h ⊢
    obtain ⟨m, hm, rfl⟩ := Option.map_eq_some_iff.mp h
    simp only [List.length_cons] at hn
    rw [ih hm (by omega), Option.map_some]
  | case4 c cs hnil hpair hends =>
    rw [List.cons_append, stringRunLength_cons (hplain hnil hpair),
      head?_cut (by decide) hrest, if_pos hends] at h
    rw [List.cons_append, stringRunLength_cons (hplain hnil hpair),
      head?_cut (by decide) hrest', if_pos hends, h]
  | case5 c cs hnil hpair hends ih =>
    rw [List.cons_append, stringRunLength_cons (hplain hnil hpair),
      head?_cut (by decide) hrest, if_neg hends] at h
    rw [List.cons_append, stringRunLength_cons (hplain hnil hpair),
      head?_cut (by decide) hrest', if_neg hends]
    obtain ⟨m, hm, rfl⟩ := Option.map_eq_some_iff.mp h
    rw [ih hm (Nat.lt_of_succ_lt_succ hn), Option.map_some]

/-- Of a text that goes on, only so many characters are taken as there are before a place that what
is taken does not go past. -/
theorem le_of_length_take (hrest : beginsBlank rest) {n : Nat}
    (h : ((before ++ rest).take n).length ≤ before.length) : n ≤ before.length := by
  obtain ⟨b, bs, rfl, -⟩ := exists_of_beginsBlank hrest
  rw [List.length_take, List.length_append, List.length_cons] at h
  omega

variable {found : Lexeme} {t : Scan}

/-- Outside of all regions a step that ends before the end of a text, or there if it opens a region,
is the same whatever comes after the text, if only that begins with a blank. -/
theorem same_nextOutside_cut (hs : s.rest = before ++ rest) (hs' : s'.rest = before ++ rest')
    (hrest : beginsBlank rest) (hrest' : beginsBlank rest') (hregions : s'.regions = s.regions)
    (htrim : s'.trimNext = s.trimNext) (hnil : s.regions = [])
    (hR : ∀ n ≤ before.length, R (s.rest.drop n) (s'.rest.drop n))
    (hnext : s.nextOutside = .lexeme found t) (hle : found.span.length ≤ before.length)
    (hends : found.span.length = before.length → t.regions ≠ []) :
    Step.Same R s.nextOutside s'.nextOutside := by
  have hdrop : ∀ {n}, n ≤ before.length → s.rest.drop n = before.drop n ++ rest ∧
      s'.rest.drop n = before.drop n ++ rest' ∧ s'.rest.take n = s.rest.take n := fun hn => by
    rw [hs, hs', List.drop_append_of_le_length hn, List.drop_append_of_le_length hn,
      List.take_append_of_le_length hn, List.take_append_of_le_length hn]
    exact ⟨rfl, rfl, rfl⟩
  have hmark : ∀ {n}, n ≤ before.length →
      ((s'.rest.drop n).head? == some '-') = ((s.rest.drop n).head? == some '-') := fun hn => by
    rw [(hdrop hn).1, (hdrop hn).2.1, head?_cut (by decide) hrest, head?_cut (by decide) hrest']
  have htake : ∀ {n}, (s.rest.take n).length ≤ before.length → n ≤ before.length := fun h =>
    le_of_length_take hrest (hs ▸ h)
  by_cases hrun : literalRun s.rest = []
  · rcases opensRegion_of_literalRun hrun with h | hopens
    · rw [nextOutside_nil h] at hnext
      cases hnext
    · obtain ⟨c, more, h, hc⟩ := eq_of_opensRegion hopens
      have h' : 2 ≤ before.length → ∃ more', s'.rest = '{' :: c :: more' := fun htwo => by
        obtain ⟨d, e, before, rfl⟩ : ∃ d e cs, before = d :: e :: cs := by
          match before, htwo with
          | d :: e :: cs, _ => exact ⟨d, e, cs, rfl⟩
        rw [hs] at h
        cases h
        exact ⟨_, hs'⟩
      have hopener : ∀ kind region, s.takeOpener kind region = .lexeme found t →
          2 ≤ before.length ∧
            Step.Same R (s.takeOpener kind region) (s'.takeOpener kind region) := by
        rintro kind region ⟨⟩
        have hn := htake hle
        have htwo : 2 ≤ before.length := Nat.le_trans (by split <;> decide) hn
        exact ⟨htwo, same_takeOpener hregions _ _ (hdrop htwo).2.2 (hmark htwo) fun n h =>
          hR n (Nat.le_trans h hn)⟩
      rcases hc with rfl | rfl | rfl
      · rw [nextOutside_tag h] at hnext ⊢
        obtain ⟨htwo, hsame⟩ := hopener _ _ hnext
        obtain ⟨more', h'⟩ := h' htwo
        rwa [nextOutside_tag h']
      · rw [nextOutside_print h] at hnext ⊢
        obtain ⟨htwo, hsame⟩ := hopener _ _ hnext
        obtain ⟨more', h'⟩ := h' htwo
        rwa [nextOutside_print h']
      · rw [nextOutside_comment h] at hnext ⊢
        cases hlength : commentLength s.rest with
        | none =>
          rw [hlength] at hnext
          cases hnext
        | some n =>
          rw [hlength] at hnext
          cases hnext
          have hn := htake hle
          obtain ⟨more', h'⟩ := h' (Nat.le_trans (two_le_commentLength hlength) hn)
          rw [hs] at hlength
          have hlength' : commentLength (before ++ rest') = some n := commentLength_cut hlength hn
          rw [← hs'] at hlength'
          rw [nextOutside_comment h', hlength']
          exact same_takeComment hregions (hdrop hn).2.2 (hR n hn)
  · rw [nextOutside_text hrun] at hnext
    cases hnext
    have hlt : (literalRun (before ++ rest)).length < before.length := by
      rw [← hs]
      exact Nat.lt_of_le_of_ne hle fun h => hends h hnil
    obtain ⟨heq, htwo⟩ := literalRun_cut hrest hrest' hlt
    rw [← hs, ← hs'] at heq
    rw [← hs] at htwo
    rw [nextOutside_text hrun, nextOutside_text (by rwa [heq]), heq]
    exact same_takeText hregions htrim (hmark htwo) (hR _ hle)

/-- The same inside a string, where a step that opens or closes a region leads out of it. -/
theorem same_nextInString_cut (hs : s.rest = before ++ rest) (hs' : s'.rest = before ++ rest')
    (hrest : beginsBlank rest) (hrest' : beginsBlank rest') (hregions : s'.regions = s.regions)
    (htrim : s'.trimNext = s.trimNext) {quote : Char} {outer : List Region}
    (hR : ∀ n ≤ before.length, R (s.rest.drop n) (s'.rest.drop n))
    (hnext : s.nextInString quote outer = .lexeme found t)
    (hle : found.span.length ≤ before.length)
    (hends : found.span.length = before.length → t.regions ≠ s.regions) :
    Step.Same R (s.nextInString quote outer) (s'.nextInString quote outer) := by
  have htake : ∀ {n}, (s.rest.take n).length ≤ before.length → n ≤ before.length := fun h =>
    le_of_length_take hrest (hs ▸ h)
  have hsame : ∀ kind {n} regions, n ≤ before.length →
      Step.Same R (s.take kind n regions) (s'.take kind n regions) := fun kind n regions hn =>
    same_take htrim kind (by
      rw [hs, hs', List.take_append_of_le_length hn, List.take_append_of_le_length hn])
      (hR _ hn) regions
  have hhead : s'.rest.head? = s.rest.head? := by
    have hconsumes := consumes_nextInString s quote outer
    rw [hnext] at hconsumes
    have hpos := List.length_pos_iff.mpr hconsumes.1
    obtain ⟨c, before, rfl⟩ :=
      List.exists_cons_of_ne_nil (List.length_pos_iff.mp (Nat.lt_of_lt_of_le hpos hle))
    rw [hs, hs']
    rfl
  have hopens : ['#', '{'].isPrefixOf s'.rest = ['#', '{'].isPrefixOf s.rest := by
    have hplain : ∀ c ∈ ['#', '{'], isBlank c = false := not_blank_of_any (by decide)
    rw [hs, hs', isPrefixOf_cut hplain hrest, isPrefixOf_cut hplain hrest']
  unfold nextInString at hnext ⊢
  rw [hhead, hopens, hregions]
  split at hnext
  · next hquote =>
    cases hnext
    rw [if_pos hquote, if_pos hquote]
    exact hsame _ _ (htake hle)
  · next hquote =>
    rw [if_neg hquote, if_neg hquote]
    split at hnext
    · next hopens =>
      cases hnext
      rw [if_pos hopens, if_pos hopens]
      exact hsame _ _ (htake hle)
    · next hopens =>
      rw [if_neg hopens, if_neg hopens]
      cases hlength : stringRunLength quote s.rest with
      | none =>
        rw [hlength] at hnext
        cases hnext
      | some n =>
        rw [hlength] at hnext
        cases hnext
        have hn := htake hle
        have hlt : n < before.length := Nat.lt_of_le_of_ne hn fun h => hends (by
          show (s.rest.take n).length = before.length
          rw [hs, List.take_append_of_le_length hn, List.length_take, h, Nat.min_self]) rfl
        rw [hs] at hlength
        have hlength' := stringRunLength_cut hrest hrest' hlength hlt
        rw [← hs'] at hlength'
        rw [hlength']
        exact hsame _ _ hn

end Before

/-! ## §5. Where the gap is -/

/-- The regions that are open at a place, innermost first: those that are open where the last step
begins that begins there or before.  Lexing starts in a state, and the place is counted from it; at
most `n` steps are looked at. -/
def regionsAt : Nat → Scan → Nat → List Region
  | 0, s, _ => s.regions
  | n + 1, s, place =>
    match s.next with
    | .lexeme found t =>
      if found.span.length ≤ place then regionsAt n t (place - found.span.length) else s.regions
    | .final _ => s.regions

/-- No step begins after another at the same place. -/
theorem regionsAt_zero (n : Nat) (s : Scan) : s.regionsAt n 0 = s.regions := by
  cases n with
  | zero => rfl
  | succ n =>
    have hconsumes := consumes_next s
    rw [regionsAt]
    cases hnext : s.next with
    | final => rfl
    | lexeme found t =>
      rw [hnext] at hconsumes
      have := List.length_pos_iff.mpr hconsumes.1
      exact if_neg (by omega)

end Scan

/-- Whether the innermost of some regions is one of code. -/
def InCode (regions : List Region) : Prop :=
  ∃ region outer, regions = region :: outer ∧ region.IsCode

/-- The regions that are open at a place of a source, innermost first. -/
def regionsAt (source : String) (place : Nat) : List Region :=
  (Scan.start source).regionsAt (source.toList.length + 1) place

/-- Two sources of which one has another run of blanks than the other at one place inside a region
of code.  The runs are as long as they can be. -/
def Respaced (source source' : String) : Prop :=
  ∃ (r : Respacing) (before : List Char), source.toList = before ++ r.oldRest ∧
    source'.toList = before ++ r.newRest ∧ endsBlank before = false ∧
    InCode (regionsAt source before.length)

/-- A stream whose tokens are all at the start of a source. -/
def TokenStream.unplaced (stream : TokenStream) : TokenStream :=
  ⟨stream.tokens.map Token.unplaced, stream.final.unplaced⟩

namespace Scan

variable {r : Respacing} {s s' : Scan} {n : Nat}

theorem next_of_inCode (h : InCode s.regions) :
    ∃ region outer, s.regions = region :: outer ∧ s.next = s.nextInside region outer := by
  obtain ⟨region, outer, hs, hcode⟩ := h
  refine ⟨region, outer, hs, ?_⟩
  unfold next
  rw [hs]
  cases region with
  | string => exact hcode.elim
  | tag | print | interpolation => rfl

theorem Step.Same.mono {R R' : List Char → List Char → Prop} (hR : ∀ cs cs', R cs cs' → R' cs cs')
    {step step' : Step} (h : Step.Same R step step') : Step.Same R' step step' := by
  cases h with
  | final h => exact .final h
  | lexeme htoken hrest hregions htrim => exact .lexeme htoken (hR _ _ hrest) hregions htrim

/-- The gap filled as it was. -/
def same (r : Respacing) : Respacing :=
  { r with new := r.old, new_ne := r.old_ne, isBlank_new := r.isBlank_old }

theorem eq_of_rests_same {cs cs' : List Char} (h : (same r).Rests cs cs') : cs = cs' := by
  obtain ⟨before, h⟩ := h
  cases h <;> rfl

/-- A step does not depend on where it begins. -/
theorem same_next (r : Respacing) (hrest : s'.rest = s.rest) (hregions : s'.regions = s.regions)
    (htrim : s'.trimNext = s.trimNext) : Step.Same Eq s.next s'.next := by
  unfold next
  rw [hregions]
  split
  · exact same_nextOutside hrest hregions htrim
  · exact same_nextInString hrest hregions htrim _ _
  · have hrests : (same r).Rests s.rest s'.rest := ⟨s.rest, hrest ▸ .all _⟩
    exact (same_nextInside hrests hregions htrim _ _).mono fun _ _ => eq_of_rests_same

/-- A step before the gap finds the same token, whatever fills the gap. -/
theorem same_next_cut {before : List Char} (hends : endsBlank before = false)
    (hs : s.rest = before ++ r.oldRest) (hs' : s'.rest = before ++ r.newRest)
    (hregions : s'.regions = s.regions) (htrim : s'.trimNext = s.trimNext)
    (hcode : InCode (s.regionsAt (n + 1) before.length)) :
    Step.Same r.Rests s.next s'.next := by
  have hsplits : r.Splits before s.rest s'.rest := by
    rw [hs, hs']
    exact .gap hends
  have hR : ∀ n ≤ before.length, r.Rests (s.rest.drop n) (s'.rest.drop n) := fun n hn =>
    ⟨_, hsplits.drop hn⟩
  have hold := r.beginsBlank_oldRest
  have hnew := r.beginsBlank_newRest
  by_cases hinside : InCode s.regions
  · obtain ⟨region, outer, hregion, hnext⟩ := next_of_inCode hinside
    obtain ⟨region', outer', hregion', hnext'⟩ := next_of_inCode (hregions ▸ hinside)
    rw [hregions, hregion] at hregion'
    cases hregion'
    rw [hnext, hnext']
    exact same_nextInside ⟨before, hsplits⟩ hregions htrim _ _
  · -- Outside of code the step ends before the gap, since the gap is in code.
    rw [regionsAt] at hcode
    cases hnext : s.next with
    | final token =>
      rw [hnext] at hcode
      exact absurd hcode hinside
    | lexeme found t =>
      rw [hnext] at hcode
      dsimp only at hcode
      split at hcode
      · next hle =>
        have hnext' : found.span.length = before.length → InCode t.regions := fun h => by
          rwa [h, Nat.sub_self, regionsAt_zero] at hcode
        rw [← hnext]
        unfold next at hnext ⊢
        rw [hregions]
        split at hnext
        · next hnil =>
          refine same_nextOutside_cut hs hs' hold hnew hregions htrim hnil hR hnext hle
            fun h hnil' => ?_
          obtain ⟨region, outer, hregion, -⟩ := hnext' h
          rw [hnil'] at hregion
          cases hregion
        · exact same_nextInString_cut hs hs' hold hnew hregions htrim hR hnext hle fun h hsame =>
            hinside (hsame ▸ hnext' h)
        · next region outer hstring hregion =>
          refine absurd ⟨region, outer, hregion, ?_⟩ hinside
          cases region with
          | string quote => exact hstring quote rfl
          | tag | print | interpolation => trivial
      · exact absurd hcode hinside

/-! ## §6. Streams -/

/-- Two states from which the same is read, up to the gap, which is in code if it is ahead. -/
structure Synced (r : Respacing) (n : Nat) (s s' : Scan) : Prop where
  regions : s'.regions = s.regions
  trimNext : s'.trimNext = s.trimNext
  rest : s'.rest = s.rest ∨ ∃ before, endsBlank before = false ∧ s.rest = before ++ r.oldRest ∧
    s'.rest = before ++ r.newRest ∧ InCode (s.regionsAt n before.length)

/-- A step from two such states finds the same token and leaves two such states. -/
theorem Synced.step (h : Synced r (n + 1) s s') :
    (∃ token token', s.next = .final token ∧ s'.next = .final token' ∧
        token'.unplaced = token.unplaced) ∨
      ∃ found t found' t', s.next = .lexeme found t ∧ s'.next = .lexeme found' t' ∧
        found'.token.map Token.unplaced = found.token.map Token.unplaced ∧ Synced r n t t' := by
  rcases h.rest with hrest | ⟨before, hends, hs, hs', hcode⟩
  · have hsame := same_next r hrest h.regions h.trimNext
    generalize s.next = step at hsame
    generalize s'.next = step' at hsame
    cases hsame with
    | final htoken => exact .inl ⟨_, _, rfl, rfl, htoken⟩
    | lexeme htoken hrest hregions htrim =>
      exact .inr ⟨_, _, _, _, rfl, rfl, htoken, hregions, htrim, .inl hrest.symm⟩
  · have hsame := same_next_cut hends hs hs' h.regions h.trimNext hcode
    have hconsumes := consumes_next s
    rw [regionsAt] at hcode
    generalize s.next = step at hsame hcode hconsumes
    generalize s'.next = step' at hsame
    cases hsame with
    | final htoken => exact .inl ⟨_, _, rfl, rfl, htoken⟩
    | @lexeme found _ t t' htoken hrest hregions htrim =>
      refine .inr ⟨_, _, _, _, rfl, rfl, htoken, hregions, htrim, ?_⟩
      obtain ⟨before', hsplits⟩ := hrest
      have hspan := hconsumes.2
      generalize t.rest = cs at hsplits hspan
      generalize t'.rest = cs' at hsplits
      cases hsplits with
      | all => exact .inl rfl
      | gap hends' =>
        have hlength := congrArg List.length (hspan.trans hs)
        simp only [List.length_append] at hlength
        refine .inr ⟨before', hends', rfl, rfl, ?_⟩
        dsimp only at hcode
        rwa [if_pos (by omega), show before.length - found.span.length = before'.length by omega]
          at hcode

/-- The streams from two such states are the same, up to places and blanks. -/
theorem lexemes_same (n' : Nat) (h : Synced r n s s') (hn : s.rest.length < n)
    (hn' : s'.rest.length < n') :
    ((s'.lexemes n').1.filterMap Lexeme.token).map Token.unplaced =
        ((s.lexemes n).1.filterMap Lexeme.token).map Token.unplaced ∧
      (s'.lexemes n').2.unplaced = (s.lexemes n).2.unplaced := by
  induction n generalizing n' s s' with
  | zero => cases hn
  | succ n ih =>
    obtain ⟨n', rfl⟩ := Nat.exists_eq_add_one_of_ne_zero (Nat.ne_of_gt (Nat.zero_lt_of_lt hn'))
    rcases h.step with ⟨token, token', hnext, hnext', htoken⟩ |
      ⟨found, t, found', t', hnext, hnext', htoken, hsynced⟩
    · rw [lexemes, lexemes, hnext, hnext']
      exact ⟨rfl, htoken⟩
    · have hlt := length_rest_lt hnext
      have hlt' := length_rest_lt hnext'
      obtain ⟨htokens, hfinal⟩ := ih n' hsynced (by omega) (by omega)
      rw [lexemes, lexemes, hnext, hnext']
      have hcons : ∀ (found : Lexeme) more,
          ((found :: more).filterMap Lexeme.token).map Token.unplaced =
            (found.token.map Token.unplaced).toList ++
              (more.filterMap Lexeme.token).map Token.unplaced := fun found more => by
        cases h : found.token <;> simp [h]
      exact ⟨by rw [hcons, hcons, htoken, htokens], hfinal⟩

end Scan

/-- Sources that differ in a run of blanks in code have the same tokens, up to places and blanks. -/
theorem unplaced_lex {source source' : String} (h : Respaced source source') :
    (lex source').unplaced = (lex source).unplaced := by
  obtain ⟨r, before, hs, hs', hends, hcode⟩ := h
  have hsynced : Scan.Synced r (source.toList.length + 1) (.start source) (.start source') :=
    ⟨rfl, rfl, .inr ⟨before, hends, hs, hs', hcode⟩⟩
  obtain ⟨htokens, hfinal⟩ := Scan.lexemes_same (source'.toList.length + 1) hsynced
    (Nat.lt_succ_self _) (Nat.lt_succ_self _)
  exact congrArg₂ TokenStream.mk htokens hfinal

end Stencil
