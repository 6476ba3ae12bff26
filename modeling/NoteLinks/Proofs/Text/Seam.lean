/-
# Seams

Where something is inserted into a text, the text has a seam: a front and a back
that make it up. A seam leaves a word uncut if no occurrence of the word
stretches across it. Then every occurrence stands in the front or in the back
and is still there when the two are moved apart.
-/
import Mathlib.Data.List.Infix
import NoteLinks.Text.Basic

namespace NoteLinks.Text

/-- No occurrence of a word stretches across the seam between front and back. -/
def Uncut (w front back : Text) : Prop :=
  ∀ x y, front ++ back = x ++ w ++ y → (∃ z, front = x ++ w ++ z) ∨ ∃ z, back = z ++ w ++ y

/-- The seam is at the start of a line, or else only blanks are behind it. -/
def AtLineStart (front back : Text) : Prop :=
  front = [] ∨ front.getLast? = some '\n' ∨ isBlankText back = true

variable {w front back : Text}

/-- How an occurrence may lie to a seam: in the front, in the back, or across
the seam with something of it on both sides. -/
theorem occurrence_cases {x y : Text} (h : front ++ back = x ++ w ++ y) :
    (∃ z, front = x ++ w ++ z) ∨ (∃ z, back = z ++ w ++ y) ∨
      ∃ u v, u ≠ [] ∧ v ≠ [] ∧ w = u ++ v ∧ front = x ++ u ∧ back = v ++ y := by
  rcases List.append_eq_append_iff.mp h with ⟨v, hw, rfl⟩ | ⟨z, hfront, -⟩
  · rcases List.append_eq_append_iff.mp hw with ⟨u, rfl, rfl⟩ | ⟨z, -, rfl⟩
    · rcases eq_or_ne u [] with rfl | hu
      · exact .inr (.inl ⟨[], by simp⟩)
      · rcases eq_or_ne v [] with rfl | hv
        · exact .inl ⟨[], by simp⟩
        · exact .inr (.inr ⟨u, v, hu, hv, rfl, rfl, rfl⟩)
    · exact .inr (.inl ⟨z, by simp⟩)
  · exact .inl ⟨z, hfront⟩

/-- Where an occurrence begins that is found again in the back. -/
theorem start_eq_of_back_eq {x y z : Text} (h : front ++ back = x ++ w ++ y)
    (hback : back = z ++ w ++ y) : x = front ++ z := by
  have hcancel : x ++ (w ++ y) = front ++ z ++ (w ++ y) := by
    rw [← List.append_assoc, ← h, hback]
    simp
  exact List.append_cancel_right hcancel

/-- A character stands in the front if its position is in front of the seam. -/
theorem mem_of_append_eq_append_cons {x y : Text} {c : Char} (h : front ++ back = x ++ c :: y)
    (hlen : x.length < front.length) : c ∈ front := by
  have hget : (front ++ back)[x.length]? = some c := by simp [h]
  rw [List.getElem?_append_left hlen] at hget
  exact List.mem_of_getElem? hget

/-- A character that is not in the front stands in the back. -/
theorem exists_eq_append_of_not_mem {x y : Text} {c : Char} (hc : c ∉ front)
    (h : front ++ back = x ++ c :: y) : ∃ z, x = front ++ z ∧ back = z ++ c :: y := by
  rcases lt_or_ge x.length front.length with hlt | hge
  · exact absurd (mem_of_append_eq_append_cons h hlt) hc
  · obtain ⟨z, rfl⟩ := List.prefix_of_prefix_length_le ⟨_, rfl⟩ ⟨_, h.symm⟩ hge
    rw [List.append_assoc] at h
    exact ⟨z, rfl, List.append_cancel_left h⟩

/-- A seam leaves a word uncut if every occurrence ends in front of it or begins
behind it. -/
theorem Uncut.of_length
    (h : ∀ x y, front ++ back = x ++ w ++ y →
      x.length + w.length ≤ front.length ∨ front.length ≤ x.length) :
    Uncut w front back := by
  intro x y heq
  rcases occurrence_cases heq with hfront | hback | ⟨u, v, hu, hv, rfl, rfl, rfl⟩
  · exact .inl hfront
  · exact .inr hback
  · have hulen := List.length_pos_iff.mpr hu
    have hvlen := List.length_pos_iff.mpr hv
    have := h x y heq
    simp only [List.length_append] at this
    omega

theorem Uncut.length (h : Uncut w front back) (x y : Text) (heq : front ++ back = x ++ w ++ y) :
    x.length + w.length ≤ front.length ∨ front.length ≤ x.length := by
  rcases h x y heq with ⟨z, rfl⟩ | ⟨z, hz⟩
  · exact .inl (by simp)
  · rw [start_eq_of_back_eq heq hz]
    exact .inr (by simp)

/-- Where a line starts, a word without line feed that does not end with a blank
is uncut. -/
theorem AtLineStart.uncut (h : AtLineStart front back) (hline : '\n' ∉ w)
    {c : Char} (hlast : w.getLast? = some c) (hc : isBlank c = false) :
    Uncut w front back := by
  intro x y heq
  rcases occurrence_cases heq with hfront | hback | ⟨u, v, hu, hv, rfl, rfl, rfl⟩
  · exact .inl hfront
  · exact .inr hback
  · exfalso
    rcases h with hnil | hfeed | hblank
    · exact hu (List.append_eq_nil_iff.mp hnil).2
    · rw [List.getLast?_append_of_ne_nil _ hu] at hfeed
      exact hline (List.mem_append_left v (List.mem_of_getLast? hfeed))
    · rw [List.getLast?_append_of_ne_nil _ hv] at hlast
      have hmem : c ∈ v ++ y := List.mem_append_left y (List.mem_of_getLast? hlast)
      rw [List.all_eq_true.mp hblank c hmem] at hc
      cases hc

/-- The text may be shortened at its start. -/
theorem Uncut.of_append {start : Text} (h : Uncut w (start ++ front) back) :
    Uncut w front back := by
  intro x y heq
  rcases h (start ++ x) y (by simp [heq]) with ⟨z, hz⟩ | hback
  · have hcancel : start ++ front = start ++ (x ++ w ++ z) := by
      rw [hz]
      simp
    exact .inl ⟨z, List.append_cancel_left hcancel⟩
  · exact .inr hback

end NoteLinks.Text
