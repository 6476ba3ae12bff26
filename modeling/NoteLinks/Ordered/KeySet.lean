/-
# Sets in ascending order

A set of keys is the ascending list of its members. Since the order is strict,
a list can be in order in one way only, and two sets with the same members are
equal.
-/
import NoteLinks.Ordered.Key

namespace NoteLinks

/-- A finite set of keys, listed in ascending order. -/
structure KeySet (κ : Type) [LT κ] where
  toList : List κ
  ascending : toList.Pairwise (· < ·)

namespace KeySet

variable {κ : Type} [LT κ] [DecidableLT κ]

/-- An ascending list with one more key, at the place where it belongs. -/
def insertKey (k : κ) : List κ → List κ
  | [] => [k]
  | a :: as =>
    if k < a then k :: a :: as
    else if a < k then a :: insertKey k as
    else a :: as

variable [LawfulKey κ]

theorem mem_insertKey {k x : κ} {l : List κ} : x ∈ insertKey k l ↔ x = k ∨ x ∈ l := by
  induction l with
  | nil => simp [insertKey]
  | cons a as ih =>
    rw [insertKey]
    split
    · simp
    · split
      · rw [List.mem_cons, ih, List.mem_cons, or_left_comm]
      · rename_i h₁ h₂
        have h := LawfulKey.connected h₁ h₂
        subst h
        simp

theorem pairwise_insertKey (k : κ) {l : List κ} (h : l.Pairwise (· < ·)) :
    (insertKey k l).Pairwise (· < ·) := by
  induction l with
  | nil => simp [insertKey]
  | cons a as ih =>
    rw [List.pairwise_cons] at h
    rw [insertKey]
    split
    · rename_i hka
      refine List.pairwise_cons.2 ⟨fun x hx => ?_, List.pairwise_cons.2 h⟩
      rcases List.mem_cons.1 hx with rfl | hx
      · exact hka
      · exact LawfulKey.trans hka (h.1 x hx)
    · split
      · rename_i hak
        refine List.pairwise_cons.2 ⟨fun x hx => ?_, ih h.2⟩
        rcases mem_insertKey.1 hx with rfl | hx
        · exact hak
        · exact h.1 x hx
      · exact List.pairwise_cons.2 h

/-- The set without members. -/
def empty : KeySet κ := ⟨[], .nil⟩

/-- The set with one more member. -/
def insert (k : κ) (s : KeySet κ) : KeySet κ :=
  ⟨insertKey k s.toList, pairwise_insertKey k s.ascending⟩

/-- The set of the members of a list. -/
def ofList (l : List κ) : KeySet κ := l.foldr insert empty

theorem mem_toList_insert {k x : κ} {s : KeySet κ} :
    x ∈ (s.insert k).toList ↔ x = k ∨ x ∈ s.toList := mem_insertKey

theorem mem_toList_ofList {x : κ} {l : List κ} : x ∈ (ofList l).toList ↔ x ∈ l := by
  induction l with
  | nil => simp [ofList, empty]
  | cons a as ih =>
    rw [show ofList (a :: as) = (ofList as).insert a from rfl, mem_toList_insert, ih,
      List.mem_cons]

end KeySet

end NoteLinks
