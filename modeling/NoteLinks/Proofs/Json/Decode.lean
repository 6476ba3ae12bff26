/-
# Taking apart what was put together

For each way in which a value is made of parts, the reader of that shape gives the parts back, if
the readers of the parts do. The value is proper if the parts are.
-/
import NoteLinks.Data.Snapshot
import NoteLinks.Proofs.Json.Reading
import NoteLinks.Proofs.Ordered.KeyMap

namespace NoteLinks.Json

variable {α : Type}

/-! ## Reading the parts -/

section Readers

theorem mapM_eq_some {β : Type} {f : α → Option β} {g : α → β} {l : List α}
    (h : ∀ a ∈ l, f a = some (g a)) : l.mapM f = some (l.map g) := by
  induction l with
  | nil => rfl
  | cons a l ih =>
      obtain ⟨ha, hl⟩ := List.forall_mem_cons.mp h
      rw [List.mapM_cons, ha, ih hl]
      rfl

@[simp]
theorem text?_ofText (t : Text) : text? (ofText t) = some t := rfl

theorem natBelow?_ofNat {n bound : Nat} (h : n < bound) : natBelow? bound (ofNat n) = some n :=
  Numeral.natBelow?_ofNat h

/-- A list is read item by item, also when the items are read as others than were written. -/
theorem list?_array_map {item : Decoder α} {encode : α → Json} {g : α → α} {l : List α}
    (h : ∀ a ∈ l, item (encode a) = some (g a)) :
    list? item (.array (l.map encode)) = some (l.map g) := by
  rw [list?, List.mapM_map]
  exact mapM_eq_some h

theorem list?_array {item : Decoder α} {encode : α → Json} {l : List α}
    (h : ∀ a ∈ l, item (encode a) = some a) : list? item (.array (l.map encode)) = some l :=
  (list?_array_map (g := id) h).trans (congrArg some (List.map_id l))

/-- A map is read value by value, also when the values are read as others than were written. -/
theorem map?_ofMap_map {value : Decoder α} {encode : α → Json} {g : α → α} {m : KeyMap Text α}
    (h : ∀ e ∈ m.entries, value (encode e.2) = some (g e.2)) :
    map? value (ofMap encode m) = some (m.map g) := by
  rw [ofMap, map?, List.mapM_map,
    mapM_eq_some (g := fun e => (e.1, g e.2)) fun e he => by simp [h e he], Option.map_some,
    ← KeyMap.entries_map, KeyMap.ofList_entries]

theorem map?_ofMap {value : Decoder α} {encode : α → Json} {m : KeyMap Text α}
    (h : ∀ e ∈ m.entries, value (encode e.2) = some e.2) :
    map? value (ofMap encode m) = some m :=
  (map?_ofMap_map (g := id) h).trans (congrArg some m.map_id)

end Readers

/-! ## Records -/

section Records

/-- If the keys differ, the values are found under them. -/
theorem member?_eq_some {members : List (Text × Json)} {m : Text × Json}
    (hnodup : (members.map (·.1)).Nodup) (hm : m ∈ members) :
    member? members m.1 = some (some m.2) := by
  have hfilter : members.filter (fun n => n.1 == m.1) = [m] := by
    induction members with
    | nil => exact absurd hm List.not_mem_nil
    | cons n members ih =>
        rw [List.map_cons, List.nodup_cons] at hnodup
        obtain rfl | hmem := List.mem_cons.mp hm
        · have hrest : members.filter (fun n => n.1 == m.1) = [] := by
            rw [List.filter_eq_nil_iff]
            intro n hn heq
            exact hnodup.1 (eq_of_beq heq ▸ List.mem_map_of_mem hn)
          rw [List.filter_cons_of_pos (by simp), hrest]
        · have hne : n.1 ≠ m.1 := fun heq => hnodup.1 (heq ▸ List.mem_map_of_mem hmem)
          rw [List.filter_cons_of_neg (by simpa using hne), ih hnodup.2 hmem]
  rw [member?, hfilter]

/-- The values of a record are read from its fields if these have different names. -/
theorem fields?_ofFields {names : List String} {fields : List (String × Json)}
    (hnames : fields.map (·.1) = names) (hnodup : names.Nodup) :
    fields? names (ofFields fields) = some (fields.map fun field => some field.2) := by
  subst hnames
  let members := fields.map fun field => (field.1.toList, field.2)
  have hkeys : (members.map (·.1)).Nodup := by
    have hmap : members.map (·.1) = (fields.map (·.1)).map String.toList := by simp [members]
    rw [hmap]
    exact hnodup.map fun _ _ => String.toList_injective
  have hmembers : (fields.map fun field => (some field.1.toList, field.2)).mapM
      (fun m : Option Text × Json => m.1.map (·, m.2)) = some members := by
    rw [List.mapM_map]
    exact mapM_eq_some fun _ _ => rfl
  have hobject : ofFields fields =
      .object (fields.map fun field => (some field.1.toList, field.2)) := rfl
  rw [hobject, fields?, hmembers, Option.bind_eq_bind, Option.bind_some, List.mapM_map]
  exact mapM_eq_some fun field hfield =>
    member?_eq_some (m := (field.1.toList, field.2)) hkeys (List.mem_map_of_mem hfield)

end Records

/-! ## Proper parts -/

section Proper

theorem IsProper.ofNat (n : Nat) : (Json.ofNat n).IsProper :=
  .number (Numeral.isProper_ofNat n)

theorem IsProper.ofText (t : Text) : (Json.ofText t).IsProper := .text t

theorem IsProper.ofFields {fields : List (String × Json)} (h : ∀ field ∈ fields, field.2.IsProper) :
    (Json.ofFields fields).IsProper :=
  .object (List.forall_mem_map.mpr fun _ _ => rfl) (List.forall_mem_map.mpr h)

theorem IsProper.arrayMap {encode : α → Json} {l : List α} (h : ∀ a ∈ l, (encode a).IsProper) :
    (Json.array (l.map encode)).IsProper :=
  .array (List.forall_mem_map.mpr h)

theorem IsProper.ofMap {encode : α → Json} {m : KeyMap Text α}
    (h : ∀ e ∈ m.entries, (encode e.2).IsProper) : (Json.ofMap encode m).IsProper :=
  .object (List.forall_mem_map.mpr fun _ _ => rfl) (List.forall_mem_map.mpr h)

end Proper

end NoteLinks.Json
