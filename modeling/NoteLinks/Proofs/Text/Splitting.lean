/-
# Pieces between separators

A text is taken apart at a separator into pieces, of which there is always one more than there
are separators. At a separator the pieces of the two sides are the pieces of the whole;
everywhere else the last piece of the front and the first one of the back are one piece. So
pieces without the separator can be put together and taken apart again.
-/
import Mathlib.Data.List.Basic
import NoteLinks.Text.Basic

namespace NoteLinks.Text

variable {sep c : Char} {t x y a b : Text} {before behind : List Text}

theorem splitOn_cons_self (sep : Char) (t : Text) :
    splitOn sep (sep :: t) = [] :: splitOn sep t := by
  rw [splitOn, if_pos rfl]

theorem splitOn_cons_of_ne (hc : c ≠ sep) (h : splitOn sep t = b :: behind) :
    splitOn sep (c :: t) = (c :: b) :: behind := by
  rw [splitOn, if_neg hc, h]

theorem splitOn_ne_nil (sep : Char) (t : Text) : splitOn sep t ≠ [] := by
  induction t with
  | nil => exact List.cons_ne_nil _ _
  | cons c t ih =>
      by_cases hc : c = sep
      · rw [hc, splitOn_cons_self]
        exact List.cons_ne_nil _ _
      · obtain ⟨b, behind, hpieces⟩ := List.exists_cons_of_ne_nil ih
        rw [splitOn_cons_of_ne hc hpieces]
        exact List.cons_ne_nil _ _

theorem exists_splitOn_eq_cons (sep : Char) (t : Text) :
    ∃ b behind, splitOn sep t = b :: behind :=
  List.exists_cons_of_ne_nil (splitOn_ne_nil sep t)

theorem exists_splitOn_eq_concat (sep : Char) (t : Text) :
    ∃ before a, splitOn sep t = before ++ [a] :=
  (List.eq_nil_or_concat' (splitOn sep t)).resolve_left (splitOn_ne_nil sep t)

/-- At a seam two pieces become one. -/
theorem splitOn_append (hx : splitOn sep x = before ++ [a]) (hy : splitOn sep y = b :: behind) :
    splitOn sep (x ++ y) = before ++ (a ++ b) :: behind := by
  induction x generalizing before a with
  | nil =>
      obtain ⟨rfl, rfl⟩ : before = [] ∧ a = [] := by
        have hlast : [] ++ [[]] = before ++ [a] := hx
        obtain ⟨hbefore, ha⟩ := List.append_inj' hlast rfl
        exact ⟨hbefore.symm, (List.cons.inj ha).1.symm⟩
      exact hy
  | cons c x ih =>
      by_cases hc : c = sep
      · rw [hc, splitOn_cons_self] at hx
        cases before with
        | nil => exact absurd (List.cons.inj hx).2 (splitOn_ne_nil sep x)
        | cons first before =>
            obtain ⟨rfl, htail⟩ := List.cons.inj hx
            rw [List.cons_append, hc, splitOn_cons_self, ih htail, List.cons_append]
      · obtain ⟨first, rest, hpieces⟩ := exists_splitOn_eq_cons sep x
        rw [splitOn_cons_of_ne hc hpieces] at hx
        cases before with
        | nil =>
            obtain ⟨rfl, rfl⟩ := List.cons.inj hx
            have htail := ih (show splitOn sep x = [] ++ [first] from hpieces)
            rw [List.cons_append, splitOn_cons_of_ne hc htail]
            rfl
        | cons _ before =>
            obtain ⟨rfl, rfl⟩ := List.cons.inj hx
            have htail := ih (show splitOn sep x = (first :: before) ++ [a] from hpieces)
            rw [List.cons_append, splitOn_cons_of_ne hc htail]
            rfl

theorem splitOn_append_cons (sep : Char) (x y : Text) :
    splitOn sep (x ++ sep :: y) = splitOn sep x ++ splitOn sep y := by
  obtain ⟨before, a, hx⟩ := exists_splitOn_eq_concat sep x
  rw [splitOn_append hx (splitOn_cons_self sep y), hx, List.append_nil, List.append_assoc]
  rfl

theorem splitOn_of_not_mem (h : sep ∉ t) : splitOn sep t = [t] := by
  induction t with
  | nil => rfl
  | cons c t ih =>
      rw [List.mem_cons, not_or] at h
      exact splitOn_cons_of_ne (Ne.symm h.1) (ih h.2)

theorem not_mem_of_mem_splitOn {piece : Text} (h : piece ∈ splitOn sep t) : sep ∉ piece := by
  induction t generalizing piece with
  | nil =>
      obtain rfl := List.mem_singleton.mp h
      exact List.not_mem_nil
  | cons c t ih =>
      by_cases hc : c = sep
      · rw [hc, splitOn_cons_self] at h
        rcases List.mem_cons.mp h with rfl | h
        · exact List.not_mem_nil
        · exact ih h
      · obtain ⟨first, rest, hpieces⟩ := exists_splitOn_eq_cons sep t
        rw [hpieces] at ih
        rw [splitOn_cons_of_ne hc hpieces] at h
        rcases List.mem_cons.mp h with rfl | h
        · rw [List.mem_cons, not_or]
          exact ⟨Ne.symm hc, ih List.mem_cons_self⟩
        · exact ih (List.mem_cons_of_mem _ h)

theorem join_cons_cons (piece next : Text) (pieces : List Text) :
    join [sep] (piece :: next :: pieces) = piece ++ sep :: join [sep] (next :: pieces) := by
  rw [join, List.append_assoc, List.singleton_append]

/-- Pieces without the separator are taken apart as they were put together. -/
theorem splitOn_join {pieces : List Text} (hne : pieces ≠ []) (h : ∀ piece ∈ pieces, sep ∉ piece) :
    splitOn sep (join [sep] pieces) = pieces := by
  induction pieces with
  | nil => exact absurd rfl hne
  | cons piece pieces ih =>
      obtain ⟨hpiece, hrest⟩ := List.forall_mem_cons.mp h
      cases pieces with
      | nil => exact splitOn_of_not_mem hpiece
      | cons next pieces =>
          rw [join_cons_cons, splitOn_append_cons, splitOn_of_not_mem hpiece,
            ih (List.cons_ne_nil _ _) hrest, List.singleton_append]

theorem join_append {before behind : List Text} (hbefore : before ≠ []) (hbehind : behind ≠ []) :
    join [sep] (before ++ behind) = join [sep] before ++ sep :: join [sep] behind := by
  induction before with
  | nil => exact absurd rfl hbefore
  | cons piece before ih =>
      cases before with
      | nil =>
          obtain ⟨next, behind, rfl⟩ := List.exists_cons_of_ne_nil hbehind
          exact join_cons_cons piece next behind
      | cons next before =>
          rw [List.cons_append, List.cons_append, join_cons_cons, join_cons_cons,
            List.append_assoc, ← List.cons_append, ih (List.cons_ne_nil _ _), List.cons_append]

/-- The pieces of a text make up the text. -/
theorem join_splitOn (sep : Char) (t : Text) : join [sep] (splitOn sep t) = t := by
  induction t with
  | nil => rfl
  | cons c t ih =>
      obtain ⟨first, rest, hpieces⟩ := exists_splitOn_eq_cons sep t
      rw [hpieces] at ih
      by_cases hc : c = sep
      · rw [hc, splitOn_cons_self, hpieces, join_cons_cons, ih, List.nil_append]
      · rw [splitOn_cons_of_ne hc hpieces, ← ih]
        cases rest with
        | nil => rfl
        | cons next rest => rw [join_cons_cons, join_cons_cons, List.cons_append]

/-- One text starts another one with a separator behind it exactly if its pieces are some of
the first pieces of the other text. -/
theorem exists_append_cons_iff {x : Text} :
    (∃ behind, t = x ++ sep :: behind) ↔ splitOn sep x <+: splitOn sep t ∧ x ≠ t := by
  constructor
  · rintro ⟨behind, rfl⟩
    refine ⟨⟨splitOn sep behind, (splitOn_append_cons sep x behind).symm⟩, ?_⟩
    intro heq
    simpa using congrArg List.length heq
  · rintro ⟨⟨pieces, hpieces⟩, hne⟩
    refine ⟨join [sep] pieces, ?_⟩
    have hpieces_ne : pieces ≠ [] := by
      rintro rfl
      rw [List.append_nil] at hpieces
      apply hne
      rw [← join_splitOn sep x, hpieces, join_splitOn]
    rw [← join_splitOn sep t, ← hpieces, join_append (splitOn_ne_nil sep x) hpieces_ne,
      join_splitOn]

end NoteLinks.Text
