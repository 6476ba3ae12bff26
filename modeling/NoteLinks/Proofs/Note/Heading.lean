/-
# Heading lines

A row is a run of hashes and what stands behind it, and whether it is a heading line is
seen at the first character that is no hash. So a row with such a character stays what it is
whatever comes behind, and blanks at its end do not show in the heading that is read.

The headings of a text are read row by row.
-/
import NoteLinks.Note.Heading
import NoteLinks.Proofs.Text.Rows

namespace NoteLinks.Heading

variable {c : Char} {row rest t u x y : Text}

/-! ## One row -/

/-- A row is nothing but hashes, or there is a first character that is no hash. -/
theorem exists_hashes (row : Text) :
    (∃ n, row = List.replicate n '#') ∨
      ∃ n c rest, c ≠ '#' ∧ row = List.replicate n '#' ++ c :: rest := by
  induction row with
  | nil => exact .inl ⟨0, rfl⟩
  | cons d row ih =>
      by_cases hd : d = '#'
      · subst hd
        rcases ih with ⟨n, rfl⟩ | ⟨n, c, rest, hc, rfl⟩
        · exact .inl ⟨n + 1, rfl⟩
        · exact .inr ⟨n + 1, c, rest, hc, rfl⟩
      · exact .inr ⟨0, d, row, hd, rfl⟩

theorem ofLine?_replicate (n : Nat) : ofLine? (List.replicate n '#') = none := by
  simp [ofLine?]

theorem ofLine?_replicate_append (n : Nat) (hc : c ≠ '#') (rest : Text) :
    ofLine? (List.replicate n '#' ++ c :: rest) =
      if (c == ' ' || c == '\t') && 1 ≤ n && n ≤ 6 then some (n, c :: rest) else none := by
  simp [ofLine?, hc]

theorem read?_replicate (n : Nat) : read? (List.replicate n '#') = none := by
  rw [read?, ofLine?_replicate]

theorem read?_replicate_append (n : Nat) (hc : c ≠ '#') (rest : Text) :
    read? (List.replicate n '#' ++ c :: rest) =
      if ((c = ' ' ∨ c = '\t') ∧ 1 ≤ n ∧ n ≤ 6) ∧ Text.trim (c :: rest) ≠ [] then
        some ⟨n, Text.trim (c :: rest)⟩
      else none := by
  rw [read?, ofLine?_replicate_append n hc]
  by_cases hcond : (c = ' ' ∨ c = '\t') ∧ 1 ≤ n ∧ n ≤ 6
  · by_cases htext : Text.trim (c :: rest) = []
    · simp [hcond, htext]
    · simp [hcond, htext]
  · have htest : ¬ ((c == ' ' || c == '\t') && 1 ≤ n && n ≤ 6) = true := by
      simpa [and_assoc] using hcond
    rw [if_neg htest, if_neg fun h => hcond h.1]

theorem level?_cons_of_ne (hc : c ≠ '#') (t : Text) : level? (c :: t) = none := by
  simp [level?, ofLine?, hc]

/-- A heading line is one to six hashes, a space or a tab, and whatever follows. -/
theorem level?_ne_none_iff : level? row ≠ none ↔
    ∃ n c rest, 1 ≤ n ∧ n ≤ 6 ∧ (c = ' ' ∨ c = '\t') ∧
      row = List.replicate n '#' ++ c :: rest := by
  have hblank {c : Char} (h : c = ' ' ∨ c = '\t') : c ≠ '#' := by
    rcases h with rfl | rfl <;> decide
  constructor
  · intro h
    rcases exists_hashes row with ⟨n, rfl⟩ | ⟨n, c, rest, hc, rfl⟩
    · rw [level?, ofLine?_replicate] at h
      exact absurd rfl h
    · rw [level?, ofLine?_replicate_append n hc] at h
      split at h
      next hcond =>
        simp only [Bool.and_eq_true, Bool.or_eq_true, beq_iff_eq, decide_eq_true_eq] at hcond
        exact ⟨n, c, rest, hcond.1.2, hcond.2, hcond.1.1, rfl⟩
      next => exact absurd rfl h
  · rintro ⟨n, c, rest, hone, hsix, hc, rfl⟩
    rw [level?, ofLine?_replicate_append n (hblank hc), if_pos (by simp [hc, hone, hsix])]
    exact Option.some_ne_none n

/-- Whether a row is a heading line is seen at its first character that is no hash. -/
theorem level?_append (hrow : ∃ c ∈ row, c ≠ '#') (u : Text) :
    level? (row ++ u) = level? row := by
  rcases exists_hashes row with ⟨n, rfl⟩ | ⟨n, c, rest, hc, rfl⟩
  · obtain ⟨c, hmem, hc⟩ := hrow
    exact absurd (List.eq_of_mem_replicate hmem) hc
  · rw [level?, level?, List.append_assoc, List.cons_append, ofLine?_replicate_append n hc,
      ofLine?_replicate_append n hc]
    split <;> rfl

/-- Behind a line feed nothing matters. -/
theorem level?_append_newline (row u : Text) : level? (row ++ '\n' :: u) = level? row := by
  rcases exists_hashes row with ⟨n, rfl⟩ | ⟨n, c, rest, hc, rfl⟩
  · rw [level?, level?, ofLine?_replicate_append n (by decide), ofLine?_replicate]
    rfl
  · exact level?_append ⟨c, by simp, hc⟩ _

theorem read?_eq_none_of_level? (h : level? row = none) : read? row = none := by
  rw [level?, Option.map_eq_none_iff] at h
  rw [read?, h]

theorem read?_eq_none_of_isBlankText (h : Text.isBlankText row = true) : read? row = none := by
  cases row with
  | nil => rfl
  | cons c row =>
      apply read?_eq_none_of_level?
      apply level?_cons_of_ne
      rintro rfl
      cases List.all_eq_true.mp h '#' List.mem_cons_self

/-- Blanks at the end of a row do not show. -/
theorem read?_append_blank (row : Text) {blanks : Text} (h : Text.isBlankText blanks = true) :
    read? (row ++ blanks) = read? row := by
  rcases exists_hashes row with ⟨n, rfl⟩ | ⟨n, c, rest, hc, rfl⟩
  · cases blanks with
    | nil => rw [List.append_nil]
    | cons c blanks =>
        have hc : c ≠ '#' := by
          rintro rfl
          cases List.all_eq_true.mp h '#' List.mem_cons_self
        rw [read?_replicate, read?_replicate_append n hc, if_neg]
        exact fun hcond => hcond.2 (Text.trim_eq_nil_of_isBlankText h)
  · have htrim := Text.trim_append_of_isBlankText (c :: rest) h
    rw [List.cons_append] at htrim
    rw [List.append_assoc, List.cons_append, read?_replicate_append n hc,
      read?_replicate_append n hc, htrim]

/-- The row of a heading: its hashes, a blank and its text. -/
theorem exists_row_of_read? {h : Heading} (hread : read? row = some h) :
    ∃ c rest, (c = ' ' ∨ c = '\t') ∧ row = List.replicate h.level '#' ++ c :: rest ∧
      h.text = Text.trim (c :: rest) := by
  rcases exists_hashes row with ⟨n, rfl⟩ | ⟨n, c, rest, hc, rfl⟩
  · rw [read?_replicate] at hread
    cases hread
  · rw [read?_replicate_append n hc] at hread
    split at hread
    next hcond =>
      obtain rfl := Option.some.inj hread
      exact ⟨c, rest, hcond.1.1, rfl, rfl⟩
    next => cases hread

/-- A heading has one to six hashes, and its text has neither nothing in it nor blanks around
it. -/
theorem normal_of_read? {h : Heading} (hread : read? row = some h) :
    (1 ≤ h.level ∧ h.level ≤ 6) ∧ h.text ≠ [] ∧ Text.trim h.text = h.text := by
  rcases exists_hashes row with ⟨n, rfl⟩ | ⟨n, c, rest, hc, rfl⟩
  · rw [read?_replicate] at hread
    cases hread
  · rw [read?_replicate_append n hc] at hread
    split at hread
    next hcond =>
      obtain rfl := Option.some.inj hread
      exact ⟨hcond.1.2, hcond.2, Text.trim_trim _⟩
    next => cases hread

/-! ## The headings of a text -/

theorem all_eq_filterMap_rows (t : Text) : all t = (Text.rows t).filterMap read? := rfl

theorem all_append_newline (x y : Text) : all (x ++ '\n' :: y) = all x ++ all y := by
  simp only [all_eq_filterMap_rows, Text.rows_append_newline, List.filterMap_append]

theorem all_of_not_mem (h : '\n' ∉ t) : all t = (read? t).toList := by
  rw [all_eq_filterMap_rows, Text.rows_of_not_mem h]
  cases hread : read? t with
  | none => simp [hread]
  | some heading => simp [hread]

theorem all_append_blank (x : Text) {blanks : Text} (h : Text.isBlankText blanks = true) :
    all (x ++ blanks) = all x := by
  obtain ⟨before, a, hx⟩ := Text.exists_rows_eq_concat x
  obtain ⟨b, behind, hrows⟩ := Text.exists_rows_eq_cons blanks
  obtain ⟨hb, hbehind⟩ := Text.isBlankText_of_rows_eq_cons h hrows
  have hnone : behind.filterMap read? = [] :=
    List.filterMap_eq_nil_iff.mpr fun row hrow => read?_eq_none_of_isBlankText (hbehind row hrow)
  rw [all_eq_filterMap_rows, all_eq_filterMap_rows, Text.rows_append hx hrows, hx]
  simp only [List.filterMap_append, List.filterMap_cons, read?_append_blank a hb, hnone,
    List.filterMap_nil]

theorem all_of_isBlankText (h : Text.isBlankText t = true) : all t = [] :=
  all_append_blank [] h

/-- A heading has six hashes at most. -/
theorem level_le_of_mem_all {body : Text} {h : Heading} (hmem : h ∈ all body) :
    h.level ≤ 6 := by
  obtain ⟨row, -, hread⟩ := List.mem_filterMap.mp hmem
  exact (normal_of_read? hread).1.2

end NoteLinks.Heading
