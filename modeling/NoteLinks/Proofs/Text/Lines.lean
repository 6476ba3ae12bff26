/-
# The lines of a text

The lines make up the text again. Every one of them but the last ends with the
line feed that separates it from the next, so a cut between two lines is a cut
behind a line feed. What contains no line feed is not divided by such a cut.
-/
import NoteLinks.Proofs.Text.Cutting

namespace NoteLinks.Text

theorem lines_cons_of_ne {c : Char} {t : Text} (hc : c ≠ '\n') :
    lines (c :: t) = match lines t with
      | [] => [[c]]
      | line :: rest => (c :: line) :: rest := by
  cases hrest : lines t with
  | nil => simp [lines, hc, hrest]
  | cons line rest => simp [lines, hc, hrest]

@[simp]
theorem flatten_lines (t : Text) : (lines t).flatten = t := by
  induction t with
  | nil => rfl
  | cons c t ih =>
      by_cases hc : c = '\n'
      · rw [lines, if_pos hc, List.flatten_cons, ih, hc]
        rfl
      · rw [lines_cons_of_ne hc]
        cases hlines : lines t with
        | nil =>
            rw [hlines] at ih
            simp [← ih]
        | cons line rest =>
            rw [hlines, List.flatten_cons] at ih
            simp [← ih]

theorem ne_nil_of_mem_lines {t line : Text} (h : line ∈ lines t) : line ≠ [] := by
  induction t generalizing line with
  | nil => simp [lines] at h
  | cons c t ih =>
      by_cases hc : c = '\n'
      · rw [lines, if_pos hc, List.mem_cons] at h
        rcases h with rfl | h
        · simp
        · exact ih h
      · rw [lines_cons_of_ne hc] at h
        cases hlines : lines t with
        | nil =>
            rw [hlines, List.mem_singleton] at h
            simp [h]
        | cons first rest =>
            rw [hlines, List.mem_cons] at h
            rcases h with rfl | h
            · simp
            · exact ih (hlines ▸ List.mem_cons_of_mem _ h)

/-- Only the last line may lack a line feed. -/
theorem getLast?_line {t line : Text} {before after : List Text}
    (h : lines t = before ++ line :: after) (hafter : after ≠ []) :
    line.getLast? = some '\n' := by
  induction t generalizing before line with
  | nil => simp [lines] at h
  | cons c t ih =>
      by_cases hc : c = '\n'
      · rw [lines, if_pos hc] at h
        cases before with
        | nil =>
            obtain ⟨rfl, -⟩ := List.cons.inj h
            rfl
        | cons first before => exact ih (List.cons.inj h).2
      · rw [lines_cons_of_ne hc] at h
        cases hlines : lines t with
        | nil =>
            rw [hlines] at h
            cases before <;> simp_all
        | cons first rest =>
            rw [hlines] at h
            cases before with
            | nil =>
                obtain ⟨rfl, rfl⟩ := List.cons.inj h
                have hfirst := ih (show lines t = [] ++ first :: rest from hlines)
                cases first with
                | nil => simp at hfirst
                | cons d first => rwa [List.getLast?_cons_cons]
            | cons _ before =>
                obtain ⟨-, rfl⟩ := List.cons.inj h
                exact ih (show lines t = (first :: before) ++ line :: after from hlines)

/-! ## Lines put together -/

/-- A line with the line feed that ends it. -/
def IsEnded (line : Text) : Prop := ∃ t, '\n' ∉ t ∧ line = t ++ ['\n']

theorem lines_isEnded_append {line : Text} (h : IsEnded line) (t : Text) :
    lines (line ++ t) = line :: lines t := by
  obtain ⟨row, hrow, rfl⟩ := h
  induction row with
  | nil => rw [List.nil_append, List.singleton_append, lines, if_pos rfl]
  | cons c row ih =>
      rw [List.mem_cons, not_or] at hrow
      rw [List.cons_append, List.cons_append, lines_cons_of_ne (Ne.symm hrow.1), ih hrow.2]

/-- Lines that are put together are the lines of the text that they make up. -/
theorem lines_flatten_append {ls : List Text} (h : ∀ line ∈ ls, IsEnded line) (t : Text) :
    lines (ls.flatten ++ t) = ls ++ lines t := by
  induction ls with
  | nil => rfl
  | cons line ls ih =>
      obtain ⟨hline, hrest⟩ := List.forall_mem_cons.mp h
      rw [List.flatten_cons, List.append_assoc, lines_isEnded_append hline, ih hrest,
        List.cons_append]

theorem lines_flatten {ls : List Text} (h : ∀ line ∈ ls, IsEnded line) :
    lines ls.flatten = ls := by
  have hlines := lines_flatten_append h []
  rwa [List.append_nil, lines, List.append_nil] at hlines

/-- A line has no other line feed than the one that ends it. -/
theorem not_mem_or_isEnded {t line : Text} (h : line ∈ lines t) : '\n' ∉ line ∨ IsEnded line := by
  induction t generalizing line with
  | nil => cases h
  | cons c t ih =>
      by_cases hc : c = '\n'
      · rw [lines, if_pos hc, List.mem_cons] at h
        rcases h with rfl | h
        · exact .inr ⟨[], List.not_mem_nil, rfl⟩
        · exact ih h
      · rw [lines_cons_of_ne hc] at h
        cases hlines : lines t with
        | nil =>
            rw [hlines, List.mem_singleton] at h
            rw [h, List.mem_singleton]
            exact .inl (Ne.symm hc)
        | cons first rest =>
            rw [hlines] at h ih
            rcases List.mem_cons.mp h with rfl | h
            · rcases ih List.mem_cons_self with hfirst | ⟨row, hrow, rfl⟩
              · exact .inl (List.not_mem_cons_of_ne_of_not_mem (Ne.symm hc) hfirst)
              · exact .inr ⟨c :: row, List.not_mem_cons_of_ne_of_not_mem (Ne.symm hc) hrow, rfl⟩
            · exact ih (List.mem_cons_of_mem first h)

/-- A line that is not the last one is ended. -/
theorem isEnded_line {t line : Text} {before after : List Text}
    (h : lines t = before ++ line :: after) (hafter : after ≠ []) : IsEnded line := by
  have hmem : line ∈ lines t := h ▸ List.mem_append_right before List.mem_cons_self
  refine (not_mem_or_isEnded hmem).resolve_left fun hrow => hrow ?_
  exact List.mem_of_getLast? (getLast?_line h hafter)

/-- The lines in front of a line are ended. -/
theorem isEnded_of_mem_before {t line : Text} {before after : List Text}
    (h : lines t = before ++ line :: after) : ∀ l ∈ before, IsEnded l := by
  intro l hl
  obtain ⟨front, back, rfl⟩ := List.append_of_mem hl
  rw [List.append_assoc, List.cons_append] at h
  exact isEnded_line h (by simp)

/-- If a text ends with a line feed, all its lines are ended. -/
theorem isEnded_of_mem_lines {t : Text} (ht : t = [] ∨ t.getLast? = some '\n') :
    ∀ line ∈ lines t, IsEnded line := by
  rcases List.eq_nil_or_concat' (lines t) with hnil | ⟨before, last, hlines⟩
  · rw [hnil]
    exact nofun
  · rw [hlines]
    refine List.forall_mem_append.mpr
      ⟨isEnded_of_mem_before hlines, List.forall_mem_singleton.mpr ?_⟩
    have hmem : last ∈ lines t := by simp [hlines]
    have hparts : t = before.flatten ++ last := by
      rw [← flatten_lines t, hlines]
      simp
    refine (not_mem_or_isEnded hmem).resolve_left fun hrow => hrow ?_
    have hne : t ≠ [] := by
      rintro rfl
      cases hmem
    have hend := ht.resolve_left hne
    rw [hparts, List.getLast?_append_of_ne_nil _ (ne_nil_of_mem_lines hmem)] at hend
    exact List.mem_of_getLast? hend

/-- The last lines of a text are the lines of the text that they make up. -/
theorem lines_flatten_behind {t : Text} {before after : List Text}
    (h : lines t = before ++ after) : lines after.flatten = after := by
  cases after with
  | nil => rfl
  | cons line after =>
      have ht : t = before.flatten ++ (line :: after).flatten := by
        rw [← List.flatten_append, ← h, flatten_lines]
      rw [ht, lines_flatten_append (isEnded_of_mem_before h)] at h
      exact List.append_cancel_left h

/-! ## Lines at their positions -/

/-- Lines with their positions, when the first one is at a position. -/
def placedLines (position : Nat) : List Text → List (Nat × Text)
  | [] => []
  | line :: lines => (position, line) :: placedLines (position + line.length) lines

theorem lines_of_not_mem {row : Text} (hrow : '\n' ∉ row) (hne : row ≠ []) : lines row = [row] := by
  induction row with
  | nil => exact absurd rfl hne
  | cons c row ih =>
      rw [List.mem_cons, not_or] at hrow
      rw [lines_cons_of_ne (Ne.symm hrow.1)]
      cases row with
      | nil => rfl
      | cons d row => rw [ih hrow.2 (List.cons_ne_nil d row)]

theorem lines_append_newline {row : Text} (hrow : '\n' ∉ row) (t : Text) :
    lines (row ++ '\n' :: t) = (row ++ ['\n']) :: lines t := by
  have h := lines_isEnded_append ⟨row, hrow, rfl⟩ t
  rwa [List.append_assoc, List.singleton_append] at h

theorem map_snd_placedLines (position : Nat) (ls : List Text) :
    (placedLines position ls).map Prod.snd = ls := by
  induction ls generalizing position with
  | nil => rfl
  | cons line ls ih => rw [placedLines, List.map_cons, ih]

/-- A line without the line feed that ends it. -/
def rowOf (line : Text) : Text := line.takeWhile (· != '\n')

theorem rowOf_of_not_mem {row : Text} (hrow : '\n' ∉ row) : rowOf row = row :=
  List.takeWhile_eq_self_iff.mpr fun _ hc => bne_iff_ne.mpr fun heq => hrow (heq ▸ hc)

theorem rowOf_append_newline {row : Text} (hrow : '\n' ∉ row) : rowOf (row ++ ['\n']) = row :=
  takeWhile_ne_append hrow []

/-- A line is its row, perhaps with a line feed behind it. -/
theorem rowOf_spec {t line : Text} (h : line ∈ lines t) :
    '\n' ∉ rowOf line ∧ (line = rowOf line ∨ line = rowOf line ++ ['\n']) := by
  rcases not_mem_or_isEnded h with hrow | ⟨row, hrow, rfl⟩
  · rw [rowOf_of_not_mem hrow]
    exact ⟨hrow, .inl rfl⟩
  · rw [rowOf_append_newline hrow]
    exact ⟨hrow, .inr rfl⟩

/-- A text is a line without line feed, or a line that is ended and a text behind it. -/
theorem lineInduction {motive : Text → Prop} (last : ∀ row, '\n' ∉ row → motive row)
    (next : ∀ row t, '\n' ∉ row → motive t → motive (row ++ '\n' :: t)) (t : Text) : motive t := by
  induction hlen : t.length using Nat.strong_induction_on generalizing t with
  | _ len ih =>
      by_cases hfeed : '\n' ∈ t
      · obtain ⟨row, rest, rfl, hrow⟩ := List.eq_append_cons_of_mem hfeed
        refine next row rest hrow (ih rest.length ?_ rest rfl)
        rw [← hlen, List.length_append, List.length_cons]
        omega
      · exact last t hfeed

end NoteLinks.Text
