/-
# Sets with the same members

The members of a set are listed in strictly ascending order, and there is only one
such list of them. So it does not matter in which order, or how often, keys are put
into a set.
-/
import Mathlib.Data.List.Sort
import NoteLinks.Ordered.KeySet

namespace NoteLinks.KeySet

variable {κ : Type} [LT κ] [LawfulKey κ]

theorem ext_mem {s t : KeySet κ} (h : ∀ x, x ∈ s.toList ↔ x ∈ t.toList) : s = t := by
  have : Std.Antisymm (α := κ) (· < ·) := ⟨fun _ _ hab hba => absurd hba (LawfulKey.asymm hab)⟩
  have : Std.Irrefl (α := κ) (· < ·) := ⟨LawfulKey.irrefl⟩
  cases s with
  | mk s hs =>
      cases t with
      | mk t ht =>
          obtain rfl : s = t := hs.eq_of_mem_iff ht h
          rfl

/-- Ascending lists with the same members are the same. -/
theorem eq_of_mem_iff {l m : List κ} (hl : l.Pairwise (· < ·)) (hm : m.Pairwise (· < ·))
    (h : ∀ x, x ∈ l ↔ x ∈ m) : l = m :=
  congrArg toList (ext_mem (s := ⟨l, hl⟩) (t := ⟨m, hm⟩) h)

/-- What ascending lists have in common is the same from either side. -/
theorem filter_contains_comm [BEq κ] [LawfulBEq κ] {l m : List κ} (hl : l.Pairwise (· < ·))
    (hm : m.Pairwise (· < ·)) : l.filter m.contains = m.filter l.contains := by
  refine eq_of_mem_iff (hl.filter _) (hm.filter _) fun x => ?_
  rw [List.mem_filter, List.mem_filter, List.contains_iff_mem, List.contains_iff_mem, and_comm]

theorem ofList_congr [DecidableLT κ] {l m : List κ} (h : ∀ x, x ∈ l ↔ x ∈ m) :
    ofList l = ofList m := by
  apply ext_mem
  intro x
  rw [mem_toList_ofList, mem_toList_ofList, h]

@[simp]
theorem ofList_toList [DecidableLT κ] (s : KeySet κ) : ofList s.toList = s :=
  ext_mem fun _ => mem_toList_ofList

theorem nodup_toList (s : KeySet κ) : s.toList.Nodup :=
  List.nodup_iff_pairwise_ne.mpr (s.ascending.imp LawfulKey.ne_of_lt)

/-- A key is in a set once or not at all. -/
theorem filter_toList_eq [DecidableEq κ] (s : KeySet κ) (k : κ) :
    s.toList.filter (fun x => x = k) = if k ∈ s.toList then [k] else [] := by
  have hnodup := s.nodup_toList
  generalize s.toList = l at hnodup
  induction l with
  | nil => rfl
  | cons x l ih =>
      obtain ⟨hx, hl⟩ := List.nodup_cons.mp hnodup
      by_cases hk : x = k
      · subst hk
        have hnone := ih hl
        rw [if_neg hx] at hnone
        simp [hnone]
      · simp [hk, Ne.symm hk, ih hl]

end NoteLinks.KeySet
