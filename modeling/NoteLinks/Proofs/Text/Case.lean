/-
# Letters and other characters

Comparison without regard to case does not mix up letters and other characters: a
character in front of the letters, such as the space, the line feed or the hash, is
like nothing but itself. And no text vanishes when it is put into lower case.
-/
import NoteLinks.Text.Case

namespace NoteLinks.Text

/-- A code point keeps its form or takes one from a row that has it. -/
theorem exists_row_of_caseForm (rows : List CaseRow) (n : Nat) :
    caseForm rows n = n ∨ ∃ row ∈ rows, row.first ≤ n ∧ n ≤ row.last ∧
      caseForm rows n = row.form + (n - row.first) := by
  induction rows with
  | nil => exact .inl rfl
  | cons row rows ih =>
      rw [caseForm]
      split
      next => exact .inl rfl
      next hfirst =>
        split
        next hrow =>
          rw [Bool.and_eq_true, decide_eq_true_eq] at hrow
          exact .inr ⟨row, List.mem_cons_self, Nat.le_of_not_lt hfirst, hrow.1, rfl⟩
        next =>
          rcases ih with hsame | ⟨other, hmem, hform⟩
          · exact .inl hsame
          · exact .inr ⟨other, List.mem_cons_of_mem row hmem, hform⟩

/-- No form lies in front of the first form of its row. -/
theorem caseForm_cases (rows : List CaseRow) (n : Nat) :
    caseForm rows n = n ∨ ∃ row ∈ rows, row.form ≤ caseForm rows n := by
  rcases exists_row_of_caseForm rows n with hsame | ⟨row, hmem, -, -, hform⟩
  · exact .inl hsame
  · exact .inr ⟨row, hmem, hform ▸ Nat.le_add_right _ _⟩

theorem eq_toNat_of_ofNat_eq {n : Nat} {d : Char} (hd : 0 < d.toNat) (h : Char.ofNat n = d) :
    n = d.toNat := by
  by_cases hvalid : n.isValidChar
  · rw [Char.ofNat, dif_pos hvalid] at h
    exact congrArg Char.toNat h
  · rw [Char.ofNat, dif_neg hvalid] at h
    rw [← h] at hd
    exact absurd hd (by decide)

theorem toLower_eq_self_of_lt {d : Char} (hd : d.toNat < 65) : d.toLower = d := by
  have hall : ∀ n < 65, (Char.ofNat n).toLower = Char.ofNat n := by decide
  have hd := hall d.toNat hd
  rwa [Char.ofNat_toNat] at hd

/-- Nothing else is put into lower case as a character that is no small letter. -/
theorem eq_of_toLower_eq {c d : Char} (hascii : c.toNat < 128) (hd : d.toNat < 97)
    (h : c.toLower = d) : c = d := by
  have hall : ∀ n < 128, (Char.ofNat n).toLower.toNat < 97 →
      (Char.ofNat n).toLower = Char.ofNat n := by decide
  have hc := hall c.toNat hascii
  rw [Char.ofNat_toNat, h] at hc
  exact (hc hd).symm

/-- Nothing else is folded to a character in front of the small letters that is no letter. -/
theorem foldChar_eq_iff_of_lt {c d : Char} (hpos : 0 < d.toNat) (hd : d.toNat < 97)
    (hsame : d.toLower = d) : foldChar c = d ↔ c = d := by
  constructor
  · intro h
    rw [foldChar] at h
    split at h
    next hascii => exact eq_of_toLower_eq hascii hd h
    next hbig =>
      have hform := eq_toNat_of_ofNat_eq hpos h
      have hrows : ∀ row ∈ foldRows, 96 < row.form := by decide +kernel
      rcases caseForm_cases foldRows c.toNat with hsame | ⟨row, hmem, hle⟩
      · omega
      · have := hrows row hmem
        omega
  · rintro rfl
    rw [foldChar, if_pos (by omega), hsame]

/-- Only the character itself is like a character in front of the small letters that is no
letter. -/
theorem alike_iff_eq_of_lt {c d : Char} (hpos : 0 < d.toNat) (hd : d.toNat < 97)
    (hsame : d.toLower = d) : alike c d = true ↔ c = d := by
  rw [alike, beq_iff_eq, (foldChar_eq_iff_of_lt hpos hd hsame).mpr rfl,
    foldChar_eq_iff_of_lt hpos hd hsame]

/-- Only the character itself is like a character in front of the letters. -/
theorem alike_iff_eq {c d : Char} (hpos : 0 < d.toNat) (hd : d.toNat < 65) :
    alike c d = true ↔ c = d :=
  alike_iff_eq_of_lt hpos (by omega) (toLower_eq_self_of_lt hd)

/-! ## Lower case -/

theorem lowerChar_ne_nil (c : Char) : lowerChar c ≠ [] := by
  rw [lowerChar]
  split
  · simp
  · split <;> simp

theorem lowerFrom_ne_nil {before t : Text} (h : t ≠ []) : lowerFrom before t ≠ [] := by
  obtain ⟨c, t, rfl⟩ := List.exists_cons_of_ne_nil h
  rw [lowerFrom]
  split
  · split <;> simp
  · simp [lowerChar_ne_nil]

theorem lower_ne_nil {t : Text} (h : t ≠ []) : lower t ≠ [] := lowerFrom_ne_nil h

end NoteLinks.Text
