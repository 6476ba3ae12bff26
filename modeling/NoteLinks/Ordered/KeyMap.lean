/-
# Maps in ascending order of their keys

A map is the list of its entries in strictly ascending order of the keys, so
that each key has one entry and going through the map is going through the
list.
-/
import NoteLinks.Ordered.KeySet

namespace NoteLinks

/-- A finite map, listed in ascending order of its keys. -/
structure KeyMap (κ : Type) (α : Type) [LT κ] where
  entries : List (κ × α)
  ascending : entries.Pairwise (·.1 < ·.1)

namespace KeyMap

variable {κ α β : Type} [LT κ]

/-- The map without entries. -/
def empty : KeyMap κ α := ⟨[], .nil⟩

instance : Inhabited (KeyMap κ α) := ⟨empty⟩

/-- The keys, in ascending order. -/
def keys (m : KeyMap κ α) : List κ := m.entries.map (·.1)

/-- The values, in ascending order of their keys. -/
def values (m : KeyMap κ α) : List α := m.entries.map (·.2)

/-- The number of entries. -/
def size (m : KeyMap κ α) : Nat := m.entries.length

/-- The value at a key. -/
def find? [DecidableEq κ] (m : KeyMap κ α) (k : κ) : Option α := m.entries.lookup k

/-- Whether the key has an entry. -/
def contains [DecidableEq κ] (m : KeyMap κ α) (k : κ) : Bool := (m.find? k).isSome

/-- Values made from some of the entries, under their keys. -/
def filterMap (f : κ → α → Option β) (m : KeyMap κ α) : KeyMap κ β where
  entries := m.entries.filterMap fun (k, a) => (f k a).map (k, ·)
  ascending := by
    refine List.Pairwise.filterMap _ ?_ m.ascending
    rintro ⟨k, a⟩ ⟨l, b⟩ h c hc d hd
    obtain ⟨x, -, rfl⟩ := Option.map_eq_some_iff.1 hc
    obtain ⟨y, -, rfl⟩ := Option.map_eq_some_iff.1 hd
    exact h

/-- The entries that a test admits. -/
def filter (p : κ → α → Bool) (m : KeyMap κ α) : KeyMap κ α where
  entries := m.entries.filter fun (k, a) => p k a
  ascending := m.ascending.filter _

variable [DecidableLT κ]

/-- Ascending entries in which the value at one key is made anew from the value
that was there. -/
def alterEntry (k : κ) (f : Option α → α) : List (κ × α) → List (κ × α)
  | [] => [(k, f none)]
  | (a, v) :: rest =>
    if k < a then (k, f none) :: (a, v) :: rest
    else if a < k then (a, v) :: alterEntry k f rest
    else (a, f (some v)) :: rest

theorem fst_mem_alterEntry {k : κ} {f : Option α → α} {l : List (κ × α)} {e : κ × α}
    (h : e ∈ alterEntry k f l) : e.1 = k ∨ ∃ v, (e.1, v) ∈ l := by
  induction l with
  | nil => simp_all [alterEntry]
  | cons x rest ih =>
    obtain ⟨a, v⟩ := x
    rw [alterEntry] at h
    split at h
    · rcases List.mem_cons.1 h with rfl | h
      · exact .inl rfl
      · exact .inr ⟨e.2, h⟩
    · split at h
      · rcases List.mem_cons.1 h with rfl | h
        · exact .inr ⟨v, List.mem_cons_self ..⟩
        · exact (ih h).imp_right fun ⟨w, hw⟩ => ⟨w, List.mem_cons_of_mem _ hw⟩
      · rcases List.mem_cons.1 h with rfl | h
        · exact .inr ⟨v, List.mem_cons_self ..⟩
        · exact .inr ⟨e.2, List.mem_cons_of_mem _ h⟩

variable [LawfulKey κ]

theorem pairwise_alterEntry (k : κ) (f : Option α → α) {l : List (κ × α)}
    (h : l.Pairwise (·.1 < ·.1)) : (alterEntry k f l).Pairwise (·.1 < ·.1) := by
  induction l with
  | nil => simp [alterEntry]
  | cons x rest ih =>
    obtain ⟨a, v⟩ := x
    rw [List.pairwise_cons] at h
    rw [alterEntry]
    split
    · rename_i hka
      refine List.pairwise_cons.2 ⟨fun e he => ?_, List.pairwise_cons.2 h⟩
      rcases List.mem_cons.1 he with rfl | he
      · exact hka
      · exact LawfulKey.trans hka (h.1 e he)
    · split
      · rename_i hak
        refine List.pairwise_cons.2 ⟨fun e he => ?_, ih h.2⟩
        rcases fst_mem_alterEntry he with hk | ⟨w, hw⟩
        · exact hk ▸ hak
        · exact h.1 (e.1, w) hw
      · exact List.pairwise_cons.2 h

/-- The map in which the value at one key is made anew from the value that was
there, if any. -/
def alter (k : κ) (f : Option α → α) (m : KeyMap κ α) : KeyMap κ α :=
  ⟨alterEntry k f m.entries, pairwise_alterEntry k f m.ascending⟩

/-- The map with a value at a key, in place of the one that was there. -/
def insert (k : κ) (v : α) (m : KeyMap κ α) : KeyMap κ α := m.alter k fun _ => v

/-- The map of a list of entries. Of several with the same key the last counts. -/
def ofList (l : List (κ × α)) : KeyMap κ α :=
  l.foldl (fun m (k, v) => m.insert k v) empty

/-- The map without a key. -/
def erase [DecidableEq κ] (k : κ) (m : KeyMap κ α) : KeyMap κ α :=
  m.filter fun l _ => l ≠ k

/-! ## What stands at a key -/

variable [DecidableEq κ]

omit [LT κ] [DecidableLT κ] [LawfulKey κ] in
theorem lookup_cons_entry (a b : κ) (v : α) (l : List (κ × α)) :
    ((b, v) :: l).lookup a = if a = b then some v else l.lookup a := by
  rw [List.lookup_cons]
  by_cases h : a = b
  · simp [h]
  · rw [beq_eq_false_iff_ne.2 h, if_neg h]

omit [DecidableLT κ] [LawfulKey κ] in
theorem mem_keys_iff {m : KeyMap κ α} {k : κ} : k ∈ m.keys ↔ (m.find? k).isSome := by
  simp only [keys, find?]
  induction m.entries with
  | nil => simp
  | cons e l ih =>
    obtain ⟨a, v⟩ := e
    rw [List.map_cons, List.mem_cons, lookup_cons_entry, ih]
    by_cases h : k = a <;> simp [h]

omit [DecidableLT κ] in
theorem lookup_eq_none_of_lt {k : κ} {l : List (κ × α)} (h : ∀ e ∈ l, k < e.1) :
    l.lookup k = none := by
  induction l with
  | nil => rfl
  | cons e l ih =>
    obtain ⟨a, v⟩ := e
    rw [lookup_cons_entry, if_neg (LawfulKey.ne_of_lt (h (a, v) (List.mem_cons_self ..)))]
    exact ih fun e he => h e (List.mem_cons_of_mem _ he)

theorem lookup_alterEntry (k : κ) (f : Option α → α) {l : List (κ × α)}
    (h : l.Pairwise (·.1 < ·.1)) (a : κ) :
    (alterEntry k f l).lookup a = if a = k then some (f (l.lookup k)) else l.lookup a := by
  induction l with
  | nil => simp [alterEntry, lookup_cons_entry]
  | cons e l ih =>
    obtain ⟨b, v⟩ := e
    rw [List.pairwise_cons] at h
    rw [alterEntry]
    split
    · rename_i hkb
      have hnone : ((b, v) :: l).lookup k = none := lookup_eq_none_of_lt fun e he => by
        rcases List.mem_cons.1 he with rfl | he
        · exact hkb
        · exact LawfulKey.trans hkb (h.1 e he)
      rw [hnone, lookup_cons_entry]
    · split
      · rename_i hbk
        rw [lookup_cons_entry, ih h.2, lookup_cons_entry, lookup_cons_entry,
          if_neg (LawfulKey.ne_of_lt hbk).symm]
        by_cases hab : a = b
        · subst hab
          simp [LawfulKey.ne_of_lt hbk]
        · simp [hab]
      · rename_i hkb hbk
        obtain rfl : k = b := LawfulKey.connected hkb hbk
        simp only [lookup_cons_entry, if_true]
        by_cases hak : a = k <;> simp [hak]

theorem find?_alter (k : κ) (f : Option α → α) (m : KeyMap κ α) (a : κ) :
    (m.alter k f).find? a = if a = k then some (f (m.find? k)) else m.find? a :=
  lookup_alterEntry k f m.ascending a

theorem find?_insert (k : κ) (v : α) (m : KeyMap κ α) (a : κ) :
    (m.insert k v).find? a = if a = k then some v else m.find? a :=
  find?_alter k _ m a

omit [DecidableLT κ] [LawfulKey κ] in
theorem find?_erase (k : κ) (m : KeyMap κ α) (a : κ) :
    (m.erase k).find? a = if a = k then none else m.find? a := by
  simp only [erase, filter, find?]
  induction m.entries with
  | nil => simp
  | cons e l ih =>
    obtain ⟨b, v⟩ := e
    rw [List.filter_cons, lookup_cons_entry]
    by_cases hbk : b = k
    · subst hbk
      by_cases hab : a = b <;> simpa [hab] using ih
    · by_cases hab : a = b
      · subst hab
        simp [hbk]
      · simpa [hbk, hab, lookup_cons_entry] using ih

end KeyMap

end NoteLinks
