/-
# Lower case in context

Of all characters only the capital sigma is put into lower case by what stands around it: at the
end of a word it has a form of its own. So a part of a text has the same form within the text and
by itself, unless the part ends a word with a sigma and the text goes on with a letter, as a file
name does with its extension.

What stands around a part matters only in so far as its nearest character that counts has case.
A slash counts and has none, so that nothing on the other side of it matters.
-/
import Mathlib.Data.List.Infix
import NoteLinks.Proofs.Text.Case

namespace NoteLinks.Text

variable {before before' behind behind' t u v w : Text} {c d : Char}

/-! ## What has case -/

/-- A character that is passed over in the search for the next one that has case. -/
def isIgnored (c : Char) : Bool := inRanges caseIgnorableRanges c.toNat

theorem cased_cons_of_isIgnored (h : isIgnored c = true) : cased (c :: t) = cased t := by
  have hskip : inRanges caseIgnorableRanges c.toNat = true := h
  simp only [cased, List.dropWhile_cons, hskip, if_true]

theorem cased_cons_of_not_isIgnored (h : isIgnored c = false) :
    cased (c :: t) = inRanges casedRanges c.toNat := by
  have hstop : inRanges caseIgnorableRanges c.toNat = false := h
  simp only [cased, List.dropWhile_cons, hstop, Bool.false_eq_true, if_false]

/-- The first character that counts decides. -/
theorem cased_append (t u : Text) :
    cased (t ++ u) = if t.all isIgnored then cased u else cased t := by
  induction t with
  | nil => rfl
  | cons c t ih =>
      rw [List.cons_append, List.all_cons]
      cases hc : isIgnored c with
      | true => rw [cased_cons_of_isIgnored hc, cased_cons_of_isIgnored hc, ih, Bool.true_and]
      | false =>
          rw [cased_cons_of_not_isIgnored hc, cased_cons_of_not_isIgnored hc, Bool.false_and,
            if_neg Bool.false_ne_true]

theorem cased_append_congr (h : cased u = cased v) (t : Text) :
    cased (t ++ u) = cased (t ++ v) := by
  rw [cased_append, cased_append, h]

theorem cased_slash_cons (t : Text) : cased ('/' :: t) = false :=
  cased_cons_of_not_isIgnored (by decide)

/-! ## Parts of a text -/

/-- The lower-case form of a character behind a text, which comes with its last character first,
and in front of another. -/
def lowerAt (before behind : Text) (c : Char) : Text :=
  if c.toNat == 0x3A3 then
    if cased before && !cased behind then [Char.ofNat 0x3C2] else [Char.ofNat 0x3C3]
  else lowerChar c

/-- The lower-case form of a text that stands behind another, which comes with its last character
first, and in front of a third. -/
def lowerBetween : Text → Text → Text → Text
  | _, _, [] => []
  | before, behind, c :: t => lowerAt before (t ++ behind) c ++ lowerBetween (c :: before) behind t

/-- The lower-case form that a text has in front of another. -/
def lowerBefore (behind t : Text) : Text := lowerBetween [] behind t

theorem lowerBetween_cons (before behind : Text) (c : Char) (t : Text) :
    lowerBetween before behind (c :: t) =
      lowerAt before (t ++ behind) c ++ lowerBetween (c :: before) behind t := rfl

theorem lowerFrom_append (before t u : Text) :
    lowerFrom before (t ++ u) = lowerBetween before u t ++ lowerFrom (t.reverse ++ before) u := by
  induction t generalizing before with
  | nil => rfl
  | cons c t ih =>
      rw [List.cons_append, lowerFrom, ih, lowerBetween_cons, List.reverse_cons, List.append_assoc,
        List.append_assoc]
      rfl

theorem lowerFrom_eq (before t : Text) : lowerFrom before t = lowerBetween before [] t := by
  have happend := lowerFrom_append before t []
  rw [List.append_nil] at happend
  rw [happend]
  exact List.append_nil _

/-- A text by itself has nothing behind it. -/
theorem lower_eq (t : Text) : lower t = lowerBefore [] t := lowerFrom_eq [] t

theorem lower_append (t u : Text) : lower (t ++ u) = lowerBefore u t ++ lowerFrom t.reverse u := by
  rw [lower, lowerFrom_append, List.append_nil]
  rfl

theorem lowerBetween_append (before behind t u : Text) :
    lowerBetween before behind (t ++ u) =
      lowerBetween before (u ++ behind) t ++ lowerBetween (t.reverse ++ before) behind u := by
  induction t generalizing before with
  | nil => rfl
  | cons c t ih =>
      rw [List.cons_append, lowerBetween_cons, ih, lowerBetween_cons, List.reverse_cons,
        List.append_assoc, List.append_assoc, List.append_assoc]
      rfl

/-- All that matters of the surroundings is whether they have case. -/
theorem lowerBetween_congr (hbefore : cased before = cased before')
    (hbehind : cased behind = cased behind') (t : Text) :
    lowerBetween before behind t = lowerBetween before' behind' t := by
  induction t generalizing before before' with
  | nil => rfl
  | cons c t ih =>
      have htail : lowerBetween (c :: before) behind t = lowerBetween (c :: before') behind' t :=
        ih (cased_append_congr hbefore [c])
      rw [lowerBetween_cons, lowerBetween_cons, htail, lowerAt, lowerAt, hbefore,
        cased_append_congr hbehind]

/-- In front of something without case a text has the form that it has by itself. -/
theorem lowerBefore_of_not_cased (h : cased behind = false) (t : Text) :
    lowerBefore behind t = lower t := by
  rw [lower_eq]
  exact lowerBetween_congr rfl h t

/-- So it does behind something without case. -/
theorem lowerFrom_of_not_cased (h : cased before = false) (t : Text) :
    lowerFrom before t = lower t := by
  rw [lowerFrom_eq, lower_eq]
  exact lowerBetween_congr h rfl t

/-! ## Characters with forms of their own -/

/-- A character of ASCII has a form of ASCII. -/
theorem lowerAt_of_lt (h : c.toNat < 128) (before behind : Text) :
    lowerAt before behind c = [c.toLower] := by
  have hsigma : ¬ (c.toNat == 0x3A3) = true := by
    rw [beq_iff_eq]
    omega
  rw [lowerAt, if_neg hsigma, lowerChar, if_pos h]

theorem lt_of_toLower_lt (h : c.toLower.toNat < 128) : c.toNat < 128 := by
  by_contra hbig
  have hsame : c.toLower = c := by
    refine dif_neg ?_
    rintro ⟨-, hle⟩
    have : c.toNat ≤ 90 := hle
    omega
  rw [hsame] at h
  exact hbig h

/-- Of the other characters only the dotted capital I and the sign for Kelvin do. -/
theorem eq_of_mem_lowerAt_of_le (hc : 128 ≤ c.toNat) (hpos : 0 < d.toNat) (hd : d.toNat < 128)
    (h : d ∈ lowerAt before behind c) : d = 'i' ∨ d = 'k' := by
  have hsmall {n : Nat} (h : d ∈ [Char.ofNat n]) : n < 128 := by
    have := eq_toNat_of_ofNat_eq hpos (List.mem_singleton.mp h).symm
    omega
  rw [lowerAt] at h
  split at h
  next => split at h <;> exact absurd (hsmall h) (by decide)
  next =>
    rw [lowerChar, if_neg (by omega)] at h
    split at h
    next =>
      rcases List.mem_cons.mp h with rfl | h
      · exact .inl rfl
      · exact absurd (hsmall h) (by decide)
    next =>
      have hform := hsmall h
      rcases exists_row_of_caseForm lowerRows c.toNat with hsame | ⟨row, hmem, hfirst, hlast, heq⟩
      · omega
      · have hrows : ∀ row ∈ lowerRows, row.last < 128 ∨ 128 ≤ row.form ∨
            row.first = row.last ∧ row.form = 'k'.toNat := by decide +kernel
        rcases hrows row hmem with hascii | hbig | ⟨hsingle, hkelvin⟩
        · omega
        · omega
        · have hzero : c.toNat - row.first = 0 := by omega
          rw [heq, hzero, hkelvin, Nat.add_zero, Char.ofNat_toNat] at h
          exact .inr (List.mem_singleton.mp h)

/-- A character in front of the letters is the form of itself only. -/
theorem mem_lowerAt_iff (hpos : 0 < d.toNat) (hd : d.toNat < 65) :
    d ∈ lowerAt before behind c ↔ d = c := by
  rcases Nat.lt_or_ge c.toNat 128 with hascii | hbig
  · rw [lowerAt_of_lt hascii, List.mem_singleton]
    constructor
    · exact fun h => (eq_of_toLower_eq hascii (by omega) h.symm).symm
    · rintro rfl
      exact (toLower_eq_self_of_lt hd).symm
  · constructor
    · intro h
      rcases eq_of_mem_lowerAt_of_le hbig hpos (by omega) h with rfl | rfl
      · exact absurd hd (by decide)
      · exact absurd hd (by decide)
    · rintro rfl
      omega

theorem mem_lowerBetween_iff (hpos : 0 < d.toNat) (hd : d.toNat < 65) (before behind : Text) :
    d ∈ lowerBetween before behind t ↔ d ∈ t := by
  induction t generalizing before with
  | nil => rfl
  | cons c t ih =>
      rw [lowerBetween_cons, List.mem_append, List.mem_cons, mem_lowerAt_iff hpos hd, ih]

theorem mem_lower_iff (hpos : 0 < d.toNat) (hd : d.toNat < 65) : d ∈ lower t ↔ d ∈ t := by
  rw [lower_eq, lowerBefore, mem_lowerBetween_iff hpos hd]

theorem lowerAt_ne_nil (before behind : Text) (c : Char) : lowerAt before behind c ≠ [] := by
  rw [lowerAt]
  split
  · split <;> simp
  · exact lowerChar_ne_nil c

@[simp]
theorem lowerBetween_eq_nil_iff : lowerBetween before behind t = [] ↔ t = [] := by
  cases t with
  | nil => exact Iff.rfl
  | cons c t => simp [lowerBetween_cons, lowerAt_ne_nil]

/-- At the end of a text, a small letter of ASCII other than i and k comes from a letter of
ASCII. -/
theorem exists_of_lowerBetween_eq_concat (hpos : 0 < d.toNat) (hd : d.toNat < 128) (hi : d ≠ 'i')
    (hk : d ≠ 'k') (h : lowerBetween before behind t = u ++ [d]) :
    ∃ v c, t = v ++ [c] ∧ c.toLower = d ∧ lowerBetween before (c :: behind) v = u := by
  rcases List.eq_nil_or_concat' t with rfl | ⟨v, c, rfl⟩
  · cases u <;> cases h
  · refine ⟨v, c, rfl, ?_⟩
    have hsplit : lowerBetween before (c :: behind) v ++ lowerAt (v.reverse ++ before) behind c =
        u ++ [d] := by
      rw [← h, lowerBetween_append, lowerBetween_cons]
      exact congrArg _ (List.append_nil _).symm
    rcases Nat.lt_or_ge c.toNat 128 with hascii | hbig
    · rw [lowerAt_of_lt hascii] at hsplit
      obtain ⟨hfront, hlast⟩ := List.append_inj' hsplit rfl
      exact ⟨(List.cons.inj hlast).1, hfront⟩
    · have hlast : (lowerAt (v.reverse ++ before) behind c).getLast? = some d := by
        rw [← List.getLast?_append_of_ne_nil _ (lowerAt_ne_nil _ _ _), hsplit]
        exact List.getLast?_concat
      rcases eq_of_mem_lowerAt_of_le hbig hpos hd (List.mem_of_getLast? hlast) with heq | heq
      · exact absurd heq hi
      · exact absurd heq hk

/-! ## A sigma at the end of a word -/

/-- A text ends a word with a capital sigma: a letter stands in front of it and nothing that counts
behind it. -/
def EndsInSigma (t : Text) : Prop :=
  ∃ u v, t = u ++ 'Σ' :: v ∧ cased u.reverse = true ∧ v.all isIgnored = true

/-- From its end, such a text begins with a letter. -/
theorem EndsInSigma.cased_reverse (h : EndsInSigma t) : cased t.reverse = true := by
  obtain ⟨u, v, rfl, -, hv⟩ := h
  rw [List.reverse_append, List.reverse_cons, List.append_assoc, cased_append, List.all_reverse,
    if_pos hv, List.singleton_append, cased_cons_of_not_isIgnored (by decide)]
  decide

/-- The word is in the back of a text, if the front ends without a letter. -/
theorem EndsInSigma.of_append (h : EndsInSigma (t ++ u)) (ht : cased t.reverse = false) :
    EndsInSigma u := by
  obtain ⟨x, y, heq, hx, hy⟩ := h
  rcases List.append_eq_append_iff.mp heq with ⟨z, rfl, rfl⟩ | ⟨z, rfl, hz⟩
  · refine ⟨z, y, rfl, ?_, hy⟩
    have hnone : cased (z.reverse ++ t.reverse) = cased (z.reverse ++ []) :=
      cased_append_congr ht _
    rw [List.reverse_append, hnone, List.append_nil] at hx
    exact hx
  · cases z with
    | nil =>
        rw [List.append_nil, hx] at ht
        cases ht
    | cons c z =>
        obtain ⟨rfl, rfl⟩ : 'Σ' = c ∧ y = z ++ u := List.cons.inj hz
        rw [List.all_append, Bool.and_eq_true] at hy
        have hsigma : EndsInSigma (x ++ 'Σ' :: z) := ⟨x, z, rfl, hx, hy.1⟩
        rw [hsigma.cased_reverse] at ht
        cases ht

/-- Where there is no sigma, nothing behind a text matters. -/
theorem lowerBetween_of_not_mem (h : 'Σ' ∉ t) (before behind behind' : Text) :
    lowerBetween before behind t = lowerBetween before behind' t := by
  induction t generalizing before with
  | nil => rfl
  | cons c t ih =>
      rw [List.mem_cons, not_or] at h
      have hc : ¬ (c.toNat == 0x3A3) = true := by
        rw [beq_iff_eq]
        exact fun heq => h.1 (Char.toNat_inj.mp heq.symm)
      rw [lowerBetween_cons, lowerBetween_cons, ih h.2, lowerAt, lowerAt, if_neg hc, if_neg hc]

/-- Unless a text ends a word with a sigma, nothing behind it matters. -/
theorem lowerBetween_of_not_endsInSigma
    (h : ¬ ∃ u v, t = u ++ 'Σ' :: v ∧ cased (u.reverse ++ before) = true ∧
      v.all isIgnored = true) :
    lowerBetween before behind t = lowerBetween before [] t := by
  induction t generalizing before with
  | nil => rfl
  | cons c t ih =>
      have htail : lowerBetween (c :: before) behind t = lowerBetween (c :: before) [] t := by
        apply ih
        rintro ⟨u, v, rfl, hcased, hv⟩
        refine h ⟨c :: u, v, rfl, ?_, hv⟩
        rwa [List.reverse_cons, List.append_assoc]
      rw [lowerBetween_cons, lowerBetween_cons, htail, List.append_nil]
      congr 1
      rw [lowerAt, lowerAt]
      split
      next hc =>
        obtain rfl : c = 'Σ' := Char.toNat_inj.mp (beq_iff_eq.mp hc)
        cases hbefore : cased before with
        | false => rfl
        | true =>
            have hcounts : ¬ t.all isIgnored = true := fun hv => h ⟨[], t, rfl, hbefore, hv⟩
            rw [cased_append, if_neg hcounts]
      next => rfl

/-- A text that ends a word with a sigma has another form of it in front of a letter. -/
theorem EndsInSigma.exists_lowerBefore (h : EndsInSigma t) (hbehind : cased behind = true) :
    ∃ x y, lower t = x ++ 'ς' :: y ∧ lowerBefore behind t = x ++ 'σ' :: y := by
  obtain ⟨u, v, rfl, hu, hv⟩ := h
  have hplain : 'Σ' ∉ v := fun hmem => absurd (List.all_eq_true.mp hv _ hmem) (by decide)
  have hlast : lowerAt u.reverse v 'Σ' = ['ς'] := by
    have hcased : cased v = false := by
      rw [← List.append_nil v, cased_append, if_pos hv]
      rfl
    rw [lowerAt, hu, hcased]
    rfl
  have hinner : lowerAt u.reverse (v ++ behind) 'Σ' = ['σ'] := by
    rw [lowerAt, hu, cased_append, if_pos hv, hbehind]
    rfl
  have hfront : lowerBetween [] ('Σ' :: v ++ behind) u = lowerBetween [] ('Σ' :: v) u := by
    apply lowerBetween_congr rfl
    rw [List.cons_append, cased_cons_of_not_isIgnored (by decide),
      cased_cons_of_not_isIgnored (by decide)]
  refine ⟨lowerBetween [] ('Σ' :: v) u, lowerBetween ('Σ' :: u.reverse) [] v, ?_, ?_⟩
  · rw [lower_eq, lowerBefore, lowerBetween_append, List.append_nil, List.append_nil,
      lowerBetween_cons, List.append_nil, hlast, List.singleton_append]
  · rw [lowerBefore, lowerBetween_append, hfront, List.append_nil, lowerBetween_cons, hinner,
      lowerBetween_of_not_mem hplain _ behind [], List.singleton_append]

/-- A text has the same form in front of another and by itself, unless it ends a word with a sigma
and the other one goes on with a letter. -/
theorem lowerBefore_eq_lower_iff :
    lowerBefore behind t = lower t ↔ ¬ (EndsInSigma t ∧ cased behind = true) := by
  constructor
  · rintro heq ⟨hsigma, hbehind⟩
    obtain ⟨x, y, hlower, hbefore⟩ := hsigma.exists_lowerBefore hbehind
    rw [hlower, hbefore] at heq
    have hsame := (List.cons.inj (List.append_cancel_left heq)).1
    exact absurd hsame (by decide)
  · intro h
    cases hbehind : cased behind with
    | false => exact lowerBefore_of_not_cased hbehind t
    | true =>
        rw [lower_eq]
        apply lowerBetween_of_not_endsInSigma
        rintro ⟨u, v, rfl, hu, hv⟩
        rw [List.append_nil] at hu
        exact h ⟨⟨u, v, rfl, hu, hv⟩, hbehind⟩

end NoteLinks.Text
