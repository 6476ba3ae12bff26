/-
# Trimming texts

Trimming takes away blanks and nothing else. What is left neither begins nor
ends with a blank, and it is empty only if there was nothing but blanks.
-/
import Mathlib.Data.List.Infix
import Mathlib.Data.List.TakeWhile
import NoteLinks.Text.Basic

namespace NoteLinks.Text

theorem trimEnd_cons (c : Char) (t : Text) :
    trimEnd (c :: t) = if trimEnd t = [] ∧ isBlank c = true then [] else c :: trimEnd t := by
  rw [trimEnd]
  cases trimEnd t with
  | nil => simp
  | cons d rest => simp

theorem trimEnd_eq_nil_iff {t : Text} : trimEnd t = [] ↔ isBlankText t = true := by
  induction t with
  | nil => simp [trimEnd, isBlankText]
  | cons c t ih =>
      rw [trimEnd_cons]
      split
      next h => simp [isBlankText, h.2, ← ih.mp h.1]
      next h =>
        rw [ih] at h
        simp only [reduceCtorEq, false_iff, isBlankText, List.all_cons, Bool.and_eq_true]
        intro hall
        exact h ⟨hall.2, hall.1⟩

/-- Trimming the end takes away blanks only. -/
theorem exists_trimEnd_append (t : Text) :
    ∃ blanks, t = trimEnd t ++ blanks ∧ isBlankText blanks = true := by
  induction t with
  | nil => exact ⟨[], rfl, rfl⟩
  | cons c t ih =>
      obtain ⟨blanks, ht, hblank⟩ := ih
      rw [trimEnd_cons]
      split
      next h =>
        refine ⟨c :: t, rfl, ?_⟩
        rw [h.1, List.nil_append] at ht
        simpa [isBlankText, h.2, ← ht] using hblank
      next => exact ⟨blanks, by rw [List.cons_append, ← ht], hblank⟩

theorem trimEnd_isPrefix (t : Text) : trimEnd t <+: t := by
  obtain ⟨blanks, ht, -⟩ := exists_trimEnd_append t
  exact ⟨blanks, ht.symm⟩

@[simp]
theorem trimEnd_append_drop (t : Text) : trimEnd t ++ t.drop (trimEnd t).length = t := by
  obtain ⟨rest, ht⟩ := trimEnd_isPrefix t
  generalize trimEnd t = kept at ht
  rw [← ht, List.drop_left]

theorem isBlankText_drop_trimEnd (t : Text) :
    isBlankText (t.drop (trimEnd t).length) = true := by
  obtain ⟨blanks, ht, hblank⟩ := exists_trimEnd_append t
  generalize trimEnd t = kept at ht
  rwa [ht, List.drop_left]

theorem not_isBlank_of_getLast?_trimEnd {t : Text} {c : Char}
    (h : (trimEnd t).getLast? = some c) : isBlank c = false := by
  induction t with
  | nil => simp [trimEnd] at h
  | cons d t ih =>
      rw [trimEnd_cons] at h
      split at h
      next => simp at h
      next hkeep =>
        cases htrim : trimEnd t with
        | nil =>
            obtain rfl : d = c := by simpa [htrim] using h
            simpa [htrim] using hkeep
        | cons e rest =>
            rw [htrim, List.getLast?_cons_cons] at h
            exact ih (htrim ▸ h)

theorem trimEnd_append (t u : Text) :
    trimEnd (t ++ u) = if isBlankText u then trimEnd t else t ++ trimEnd u := by
  induction t with
  | nil =>
      split
      next h => rw [List.nil_append, trimEnd_eq_nil_iff.mpr h, trimEnd]
      next => rfl
  | cons c t ih =>
      rw [List.cons_append, trimEnd_cons, ih]
      split
      next => rw [trimEnd_cons]
      next hblank =>
        have hu : trimEnd u ≠ [] := fun h => hblank (trimEnd_eq_nil_iff.mp h)
        simp [hu]

theorem trimEnd_append_of_getLast? {t : Text} {c : Char} (hlast : t.getLast? = some c)
    (hc : isBlank c = false) (u : Text) : trimEnd (t ++ u) = t ++ trimEnd u := by
  rw [trimEnd_append]
  split
  next hblank =>
    obtain ⟨start, rfl⟩ := List.getLast?_eq_some_iff.mp hlast
    have hsingle : trimEnd [c] = [c] := by simp [trimEnd, hc]
    rw [trimEnd_append, trimEnd_eq_nil_iff.mpr hblank, hsingle]
    simp [isBlankText, hc]
  next => rfl

@[simp]
theorem trimEnd_trimEnd (t : Text) : trimEnd (trimEnd t) = trimEnd t := by
  have h := trimEnd_append (trimEnd t) (t.drop (trimEnd t).length)
  rw [trimEnd_append_drop, isBlankText_drop_trimEnd, if_pos rfl] at h
  exact h.symm

/-- What is left of a part, in its order, is left of the whole. -/
theorem trimEnd_sublist {t u : Text} (h : t.Sublist u) : (trimEnd t).Sublist (trimEnd u) := by
  induction h with
  | slnil => exact .slnil
  | cons c _ ih =>
      rw [trimEnd_cons]
      split
      next hdrop => rwa [hdrop.1] at ih
      next => exact ih.cons c
  | cons_cons c _ ih =>
      rw [trimEnd_cons, trimEnd_cons]
      split
      next => exact List.nil_sublist _
      next hkeep =>
        rw [if_neg]
        · exact ih.cons_cons c
        · rintro ⟨hnil, hblank⟩
          rw [hnil] at ih
          exact hkeep ⟨List.sublist_nil.mp ih, hblank⟩

theorem trimStart_of_isBlankText {t : Text} (h : isBlankText t = true) : trimStart t = [] := by
  rw [← List.append_nil t, trimStart, List.dropWhile_append_of_pos (List.all_eq_true.mp h)]
  rfl

theorem trim_eq_nil_of_isBlankText {t : Text} (h : isBlankText t = true) : trim t = [] := by
  rw [trim, trimStart_of_isBlankText h]
  rfl

theorem trim_of_isBlankText_append {blanks : Text} (h : isBlankText blanks = true) (t : Text) :
    trim (blanks ++ t) = trim t := by
  rw [trim, trim, trimStart, trimStart, List.dropWhile_append_of_pos (List.all_eq_true.mp h)]

theorem trim_append_of_isBlankText (t : Text) {blanks : Text} (h : isBlankText blanks = true) :
    trim (t ++ blanks) = trim t := by
  have hstart : blanks.dropWhile isBlank = [] := trimStart_of_isBlankText h
  rw [trim, trim, trimStart, trimStart, List.dropWhile_append]
  split
  next hnil =>
    rw [hstart, List.isEmpty_iff.mp hnil]
  next => rw [trimEnd_append, if_pos h]

/-- What is no blank is not trimmed. -/
theorem mem_trim_of_mem {t : Text} {c : Char} (h : c ∈ t) (hc : isBlank c = false) :
    c ∈ trim t := by
  have hstart : c ∈ trimStart t := by
    rw [← List.takeWhile_append_dropWhile (p := isBlank) (l := t), List.mem_append] at h
    refine h.resolve_left fun hmem => ?_
    rw [List.mem_takeWhile_imp hmem] at hc
    cases hc
  obtain ⟨blanks, hparts, hblank⟩ := exists_trimEnd_append (trimStart t)
  rw [hparts, List.mem_append] at hstart
  refine hstart.resolve_right fun hmem => ?_
  rw [List.all_eq_true.mp hblank c hmem] at hc
  cases hc

theorem trim_eq_nil_iff {t : Text} : trim t = [] ↔ isBlankText t = true := by
  refine ⟨fun h => List.all_eq_true.mpr fun c hc => ?_, trim_eq_nil_of_isBlankText⟩
  by_contra hblank
  have hmem := mem_trim_of_mem hc ((Bool.not_eq_true _).mp hblank)
  rw [h] at hmem
  exact List.not_mem_nil hmem

/-- What neither begins nor ends with a blank is not trimmed. -/
theorem trim_eq_self {t : Text} (hhead : ∀ c, t.head? = some c → isBlank c = false)
    (hlast : ∀ c, t.getLast? = some c → isBlank c = false) : trim t = t := by
  have hstart : trimStart t = t := by
    cases t with
    | nil => rfl
    | cons c t => exact List.dropWhile_cons_of_neg (by simp [hhead c rfl])
  rw [trim, hstart]
  cases h : t.getLast? with
  | none => rw [List.getLast?_eq_none_iff.mp h, trimEnd]
  | some c =>
      have hend := trimEnd_append_of_getLast? h (hlast c h) []
      rwa [List.append_nil, trimEnd, List.append_nil] at hend

@[simp]
theorem trim_trim (t : Text) : trim (trim t) = trim t := by
  refine trim_eq_self (fun c hc => ?_) fun c hc => not_isBlank_of_getLast?_trimEnd hc
  obtain ⟨rest, hrest⟩ := List.head?_eq_some_iff.mp hc
  obtain ⟨blanks, hblanks⟩ := trimEnd_isPrefix (trimStart t)
  have hstart : (t.dropWhile isBlank).head? = some c := by
    rw [← trimStart, ← hblanks, ← trim, hrest]
    rfl
  simpa [hstart] using List.head?_dropWhile_not isBlank t

theorem trim_isInfix (t : Text) : trim t <:+: t :=
  (trimEnd_isPrefix (trimStart t)).isInfix.trans (List.dropWhile_suffix isBlank).isInfix

theorem not_mem_trim {c : Char} {t : Text} (h : c ∉ t) : c ∉ trim t :=
  fun hmem => h ((trim_isInfix t).subset hmem)

end NoteLinks.Text
