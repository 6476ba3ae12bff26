/-
# What stands in a map

The entries of a map are in strictly ascending order of their keys, so a key has one entry at
most. What is found at a key is what the entries have there, and a map that is made from a
list or from another map is known by what is found in it.
-/
import Mathlib.Data.List.Induction
import Mathlib.Data.List.Sort
import NoteLinks.Ordered.KeyMap
import NoteLinks.Proofs.Ordered.KeySet

namespace NoteLinks.KeyMap

variable {κ α β : Type} [LT κ] [DecidableEq κ] {m : KeyMap κ α} {k : κ} {a : α}

@[simp]
theorem find?_empty (k : κ) : (empty : KeyMap κ α).find? k = none := rfl

/-! ## Entries -/

section Entries

variable [LawfulKey κ]

theorem lookup_eq_some_iff {l : List (κ × α)} (h : l.Pairwise (·.1 < ·.1)) :
    l.lookup k = some a ↔ (k, a) ∈ l := by
  induction l with
  | nil => simp
  | cons e l ih =>
      obtain ⟨b, v⟩ := e
      obtain ⟨hfirst, hrest⟩ := List.pairwise_cons.mp h
      rw [lookup_cons_entry, List.mem_cons, Prod.mk.injEq]
      split
      next heq =>
        subst heq
        rw [Option.some.injEq]
        constructor
        · rintro rfl
          exact .inl ⟨rfl, rfl⟩
        · rintro (⟨-, rfl⟩ | hmem)
          · rfl
          · exact absurd (hfirst _ hmem) (LawfulKey.irrefl k)
      next hne => simp [hne, ih hrest]

theorem find?_eq_some_iff : m.find? k = some a ↔ (k, a) ∈ m.entries :=
  lookup_eq_some_iff m.ascending

theorem find?_eq_none_iff : m.find? k = none ↔ ∀ a, (k, a) ∉ m.entries := by
  simp only [Option.eq_none_iff_forall_ne_some, ne_eq, find?_eq_some_iff]

theorem entries_eq_nil (h : ∀ k, m.find? k = none) : m.entries = [] :=
  List.eq_nil_iff_forall_not_mem.mpr fun (k, a) => find?_eq_none_iff.mp (h k) a

/-- The entries with a key are what is found there. -/
theorem filter_entries (m : KeyMap κ α) (k : κ) :
    m.entries.filter (fun e => e.1 = k) = ((m.find? k).map (k, ·)).toList := by
  have hascending := m.ascending
  rw [find?]
  generalize m.entries = l at hascending
  induction l with
  | nil => rfl
  | cons e l ih =>
      obtain ⟨b, v⟩ := e
      obtain ⟨hfirst, hrest⟩ := List.pairwise_cons.mp hascending
      rw [List.filter_cons, lookup_cons_entry]
      by_cases hb : b = k
      · subst hb
        have hnone : l.filter (fun e => e.1 = b) = [] := by
          rw [List.filter_eq_nil_iff]
          intro e he heq
          rw [decide_eq_true_eq] at heq
          exact LawfulKey.ne_of_lt (hfirst e he) heq.symm
        simp [hnone]
      · rw [if_neg (by simpa using hb), if_neg (Ne.symm hb), ih hrest]

omit [DecidableEq κ] in
theorem nodup_keys (m : KeyMap κ α) : m.keys.Nodup := by
  rw [keys, List.nodup_iff_pairwise_ne, List.pairwise_map]
  exact m.ascending.imp LawfulKey.ne_of_lt

omit [DecidableEq κ] [LawfulKey κ] in
theorem ext_entries {m n : KeyMap κ α} (h : m.entries = n.entries) : m = n := by
  cases m
  cases n
  obtain rfl := h
  rfl

omit [DecidableEq κ] in
/-- Maps with the same entries are the same, in whatever order the entries are known. -/
theorem ext_mem {m n : KeyMap κ α} (h : ∀ e, e ∈ m.entries ↔ e ∈ n.entries) : m = n := by
  let before (d e : κ × α) : Prop := d.1 < e.1
  have : Std.Antisymm before := ⟨fun _ _ hab hba => absurd hba (LawfulKey.asymm hab)⟩
  have : Std.Irrefl before := ⟨fun e => LawfulKey.irrefl e.1⟩
  exact ext_entries (List.Pairwise.eq_of_mem_iff (r := before) m.ascending n.ascending h)

end Entries

/-! ## Maps that are made from others -/

/-- The map with other values under its keys. -/
def map (g : α → β) (m : KeyMap κ α) : KeyMap κ β := m.filterMap fun _ a => some (g a)

omit [DecidableEq κ] in
theorem entries_map (g : α → β) (m : KeyMap κ α) :
    (m.map g).entries = m.entries.map fun e => (e.1, g e.2) :=
  congrFun List.filterMap_eq_map m.entries

omit [DecidableEq κ] in
theorem map_id (m : KeyMap κ α) : m.map id = m :=
  ext_entries ((entries_map id m).trans (List.map_id _))

variable [LawfulKey κ]

theorem find?_filterMap (f : κ → α → Option β) (m : KeyMap κ α) (k : κ) :
    (m.filterMap f).find? k = (m.find? k).bind (f k) := by
  ext b
  rw [find?_eq_some_iff, Option.bind_eq_some_iff]
  simp only [filterMap, List.mem_filterMap, find?_eq_some_iff]
  constructor
  · rintro ⟨⟨l, a⟩, hmem, heq⟩
    obtain ⟨c, hc, heq⟩ := Option.map_eq_some_iff.mp heq
    obtain ⟨rfl, rfl⟩ := Prod.mk.inj heq
    exact ⟨a, hmem, hc⟩
  · rintro ⟨a, hmem, hb⟩
    exact ⟨(k, a), hmem, by simp [hb]⟩

variable [DecidableLT κ]

/-- In a list that has one value for each key, a map finds what is in the list. -/
theorem find?_ofList_eq_some_iff {l : List (κ × α)}
    (h : ∀ k a b, (k, a) ∈ l → (k, b) ∈ l → a = b) :
    (ofList l).find? k = some a ↔ (k, a) ∈ l := by
  induction l using List.reverseRecOn with
  | nil => simp [ofList]
  | append_singleton l e ih =>
      obtain ⟨b, v⟩ := e
      have hl : ∀ k a b, (k, a) ∈ l → (k, b) ∈ l → a = b := fun k a b ha hb =>
        h k a b (List.mem_append_left _ ha) (List.mem_append_left _ hb)
      have hlast : ofList (l ++ [(b, v)]) = (ofList l).insert b v := by
        rw [ofList, List.foldl_append]
        rfl
      rw [hlast, find?_insert, List.mem_append, List.mem_singleton, Prod.mk.injEq]
      split
      next heq =>
        subst heq
        rw [Option.some.injEq]
        constructor
        · rintro rfl
          exact .inr ⟨rfl, rfl⟩
        · rintro (hmem | ⟨-, rfl⟩)
          · exact (h k a v (List.mem_append_left _ hmem) (by simp)).symm
          · rfl
      next hne => simp [hne, ih hl]

/-- A map is made from its entries. -/
@[simp]
theorem ofList_entries (m : KeyMap κ α) : ofList m.entries = m := by
  refine ext_mem fun (k, a) => ?_
  rw [← find?_eq_some_iff, find?_ofList_eq_some_iff]
  intro k a b ha hb
  rw [← find?_eq_some_iff] at ha hb
  exact Option.some.inj (ha.symm.trans hb)

end NoteLinks.KeyMap
