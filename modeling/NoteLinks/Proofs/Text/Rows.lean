/-
# Rows

The rows of a text are the pieces between its line feeds. Where a line feed stands, the rows
of the two sides are the rows of the whole. Everywhere else the last row of the front and
the first row of the back are one row, and it is the only one that changes when something
without line feed is put in between.

A row is a line without its line feed, so the two have the same lines apart from blanks at
their ends. There is one more row if the text is empty or ends with a line feed.
-/
import Mathlib.Algebra.GroupWithZero.Nat
import NoteLinks.Proofs.Text.Lines
import NoteLinks.Proofs.Text.Splitting
import NoteLinks.Proofs.Text.Trimming

namespace NoteLinks.Text

/-- The pieces between the line feeds. -/
abbrev rows (t : Text) : List Text := splitOn '\n' t

variable {c : Char} {t x y a b : Text} {before behind : List Text}

/-! ## The rows of a text that is put together -/

theorem rows_newline_cons (t : Text) : rows ('\n' :: t) = [] :: rows t := splitOn_cons_self '\n' t

theorem rows_cons_of_ne (hc : c ≠ '\n') (h : rows t = b :: behind) :
    rows (c :: t) = (c :: b) :: behind :=
  splitOn_cons_of_ne hc h

theorem exists_rows_eq_cons (t : Text) : ∃ b behind, rows t = b :: behind :=
  exists_splitOn_eq_cons '\n' t

theorem exists_rows_eq_concat (t : Text) : ∃ before a, rows t = before ++ [a] :=
  exists_splitOn_eq_concat '\n' t

/-- At a seam two rows become one. -/
theorem rows_append (hx : rows x = before ++ [a]) (hy : rows y = b :: behind) :
    rows (x ++ y) = before ++ (a ++ b) :: behind :=
  splitOn_append hx hy

theorem rows_append_newline (x y : Text) : rows (x ++ '\n' :: y) = rows x ++ rows y :=
  splitOn_append_cons '\n' x y

theorem rows_of_not_mem (h : '\n' ∉ t) : rows t = [t] := splitOn_of_not_mem h

theorem rows_append_of_not_mem (hx : '\n' ∉ x) (hy : rows y = b :: behind) :
    rows (x ++ y) = (x ++ b) :: behind := by
  have hrow : rows x = [] ++ [x] := rows_of_not_mem hx
  exact rows_append hrow hy

/-- What is put in without line feed is part of one row. -/
theorem rows_append_append (hline : '\n' ∉ t) (hx : rows x = before ++ [a])
    (hy : rows y = b :: behind) : rows (x ++ (t ++ y)) = before ++ (a ++ (t ++ b)) :: behind :=
  rows_append hx (rows_append_of_not_mem hline hy)

theorem length_rows (t : Text) : ((rows t).map fun row => row.length + 1).sum = t.length + 1 := by
  induction t with
  | nil => rfl
  | cons c t ih =>
      by_cases hc : c = '\n'
      · rw [hc, rows_newline_cons, List.map_cons, List.sum_cons, ih, List.length_nil,
          List.length_cons]
        omega
      · obtain ⟨b, behind, hrows⟩ := exists_rows_eq_cons t
        rw [hrows, List.map_cons, List.sum_cons] at ih
        rw [rows_cons_of_ne hc hrows, List.map_cons, List.sum_cons, List.length_cons,
          List.length_cons]
        omega

/-- In front of a row there is a line feed or nothing, and behind it too. -/
theorem exists_of_rows_eq {row : Text} (h : rows t = before ++ row :: behind) :
    ∃ x y, t = x ++ (row ++ y) ∧ '\n' ∉ row ∧ (x = [] ∨ x.getLast? = some '\n') ∧
      (y = [] ∨ y.head? = some '\n') ∧ (before.map fun row => row.length + 1).sum = x.length := by
  have hline : ∀ line ∈ before ++ row :: behind, '\n' ∉ line :=
    fun line hmem => not_mem_of_mem_splitOn (h ▸ hmem)
  have hrow : '\n' ∉ row := hline row (List.mem_append_right _ List.mem_cons_self)
  have ht : t = join ['\n'] (before ++ row :: behind) := by rw [← h, join_splitOn]
  clear h
  induction before generalizing t with
  | nil =>
      cases behind with
      | nil => exact ⟨[], [], by rw [ht]; simp [join], hrow, .inl rfl, .inl rfl, rfl⟩
      | cons next behind =>
          exact ⟨[], _, by rw [ht]; exact join_cons_cons row next behind, hrow, .inl rfl,
            .inr rfl, rfl⟩
  | cons first before ih =>
      obtain ⟨x, y, hxy, -, hx, hy, hlen⟩ :=
        ih (fun line hmem => hline line (List.mem_cons_of_mem first hmem)) rfl
      obtain ⟨next, rest, hrest⟩ : ∃ next rest, before ++ row :: behind = next :: rest := by
        cases before <;> exact ⟨_, _, rfl⟩
      refine ⟨first ++ '\n' :: x, y, ?_, hrow, .inr ?_, hy, ?_⟩
      · rw [ht, List.cons_append, hrest, join_cons_cons, ← hrest, hxy, List.append_assoc,
          List.cons_append]
      · rcases hx with rfl | hx
        · exact List.getLast?_concat
        · rw [List.getLast?_append_of_ne_nil _ (List.cons_ne_nil _ _), List.getLast?_cons, hx]
          rfl
      · rw [List.map_cons, List.sum_cons, hlen, List.length_append, List.length_cons]
        omega

/-- What has a line feed or nothing in front of it and behind it is a row. -/
theorem exists_rows_eq {row : Text} (hrow : '\n' ∉ row) (hx : x = [] ∨ x.getLast? = some '\n')
    (hy : y = [] ∨ y.head? = some '\n') :
    ∃ before behind, rows (x ++ (row ++ y)) = before ++ row :: behind ∧
      (before.map fun row => row.length + 1).sum = x.length := by
  obtain ⟨before, hbefore⟩ : ∃ before, rows x = before ++ [[]] := by
    rcases hx with rfl | hx
    · exact ⟨[], rfl⟩
    · obtain ⟨x, rfl⟩ := List.getLast?_eq_some_iff.mp hx
      exact ⟨rows x, rows_append_newline x []⟩
  obtain ⟨behind, hbehind⟩ : ∃ behind, rows y = [] :: behind := by
    rcases hy with rfl | hy
    · exact ⟨[], rfl⟩
    · obtain ⟨y, rfl⟩ := List.head?_eq_some_iff.mp hy
      exact ⟨rows y, rows_newline_cons y⟩
  refine ⟨before, behind, ?_, ?_⟩
  · rw [rows_append_append hrow hbefore hbehind, List.nil_append, List.append_nil]
  · have hlen := length_rows x
    rw [hbefore, List.map_append, List.sum_append, List.map_singleton, List.sum_singleton] at hlen
    simpa using hlen

theorem subset_of_mem_rows {row : Text} (h : row ∈ rows t) : row ⊆ t := by
  induction t generalizing row with
  | nil => simpa [rows, splitOn] using h
  | cons c t ih =>
      by_cases hc : c = '\n'
      · rw [hc, rows_newline_cons, List.mem_cons] at h
        rcases h with rfl | h
        · exact List.nil_subset _
        · exact List.subset_cons_of_subset c (ih h)
      · obtain ⟨b, behind, hrows⟩ := exists_rows_eq_cons t
        rw [rows_cons_of_ne hc hrows, List.mem_cons] at h
        rcases h with rfl | h
        · exact List.cons_subset_cons c (ih (hrows ▸ List.mem_cons_self))
        · exact List.subset_cons_of_subset c (ih (hrows ▸ List.mem_cons_of_mem b h))

theorem isBlankText_of_rows_eq_cons (ht : isBlankText t = true) (h : rows t = b :: behind) :
    isBlankText b = true ∧ ∀ row ∈ behind, isBlankText row = true := by
  have hall : ∀ row ∈ b :: behind, isBlankText row = true := fun row hrow =>
    List.all_eq_true.mpr fun c hc =>
      List.all_eq_true.mp ht c (subset_of_mem_rows (h ▸ hrow) hc)
  exact List.forall_mem_cons.mp hall

/-! ## Rows and lines -/

/-- Apart from blanks at their ends the rows are the lines, and perhaps an empty one. -/
theorem map_trimEnd_rows (t : Text) :
    (rows t).map trimEnd = (lines t).map trimEnd ∨
      (rows t).map trimEnd = (lines t).map trimEnd ++ [[]] := by
  induction t with
  | nil => exact .inr rfl
  | cons c t ih =>
      by_cases hc : c = '\n'
      · have hline : trimEnd ['\n'] = [] := rfl
        rw [hc, rows_newline_cons, lines, if_pos rfl, List.map_cons, List.map_cons, hline]
        exact ih.imp (congrArg ([] :: ·)) (congrArg ([] :: ·))
      · obtain ⟨b, behind, hrows⟩ := exists_rows_eq_cons t
        rw [rows_cons_of_ne hc hrows, lines_cons_of_ne hc]
        rw [hrows] at ih
        cases hlines : lines t with
        | nil =>
            have ht : t = [] := by rw [← flatten_lines t, hlines]; rfl
            rw [ht] at hrows
            obtain ⟨rfl, rfl⟩ : [] = b ∧ [] = behind := by simpa [rows, splitOn] using hrows
            exact .inl rfl
        | cons line rest =>
            rw [hlines] at ih
            refine ih.imp ?_ ?_
            all_goals
              intro heq
              simp only [List.map_cons, List.cons_append, List.cons.injEq] at heq ⊢
              rw [trimEnd_cons, trimEnd_cons, heq.1]
              exact ⟨rfl, heq.2⟩

/-- Some row is equal to a line, apart from blanks at its end. -/
def HasRow (line t : Text) : Prop := ∃ row ∈ rows t, trimEnd row = line

variable {line : Text}

theorem hasRow_iff_exists_line (hline : line ≠ []) :
    HasRow line t ↔ ∃ l ∈ lines t, trimEnd l = line := by
  have hrow : HasRow line t ↔ line ∈ (rows t).map trimEnd := List.mem_map.symm
  rw [hrow, ← List.mem_map]
  rcases map_trimEnd_rows t with h | h
  · rw [h]
  · rw [h, List.mem_append, List.mem_singleton, or_iff_left hline]

theorem hasRow_append_newline :
    HasRow line (x ++ '\n' :: y) ↔ HasRow line x ∨ HasRow line y := by
  simp only [HasRow, rows_append_newline, List.mem_append, or_and_right, exists_or]

theorem not_hasRow_of_isBlankText (hline : line ≠ []) (ht : isBlankText t = true) :
    ¬ HasRow line t := by
  rintro ⟨row, hrow, rfl⟩
  obtain ⟨b, behind, hrows⟩ := exists_rows_eq_cons t
  have hall := isBlankText_of_rows_eq_cons ht hrows
  rw [hrows] at hrow
  exact hline (trimEnd_eq_nil_iff.mpr
    ((List.forall_mem_cons (p := (isBlankText · = true))).mpr hall row hrow))

theorem hasRow_newline_cons (hline : line ≠ []) : HasRow line ('\n' :: t) ↔ HasRow line t := by
  have h : HasRow line ([] ++ '\n' :: t) ↔ HasRow line [] ∨ HasRow line t := hasRow_append_newline
  rwa [or_iff_right (not_hasRow_of_isBlankText hline rfl)] at h

/-- Blanks at the end make no difference. -/
theorem hasRow_append_blank (hline : line ≠ []) {blanks : Text}
    (hblanks : isBlankText blanks = true) : HasRow line (x ++ blanks) ↔ HasRow line x := by
  obtain ⟨before, a, hx⟩ := exists_rows_eq_concat x
  obtain ⟨b, behind, hrows⟩ := exists_rows_eq_cons blanks
  obtain ⟨hb, hbehind⟩ := isBlankText_of_rows_eq_cons hblanks hrows
  have hnone : ¬ ∃ row ∈ behind, trimEnd row = line := by
    rintro ⟨row, hrow, rfl⟩
    exact hline (trimEnd_eq_nil_iff.mpr (hbehind row hrow))
  have hend : trimEnd (a ++ b) = trimEnd a := by rw [trimEnd_append, if_pos hb]
  rw [HasRow, HasRow, rows_append hx hrows, hx]
  simp only [List.mem_append, List.mem_cons, List.not_mem_nil, or_false, or_and_right, exists_or,
    exists_eq_left, hend, hnone]

end NoteLinks.Text
