/-
# Floors

A run passes over the suggestions below its floor, and over the keys that have no others. They can
just as well be dropped beforehand: what is left are the keys that a run with this floor goes over,
each with the suggestions that are accepted for it, and nothing else in a run depends on the floor.
So what is shown for review with a floor is what a run with that floor inserts.
-/
import NoteLinks.Proofs.Ordered.KeyMap
import NoteLinks.Proofs.Vault.Outcome
import NoteLinks.Suggestion.Review

namespace NoteLinks

/-! ## Degrees -/

namespace Confidence

/-- The higher of two degrees. -/
def higher (f g : Confidence) : Confidence := if f.atLeast g then f else g

theorem atLeast_higher (c f g : Confidence) :
    c.atLeast (f.higher g) = (c.atLeast f && c.atLeast g) := by
  rw [higher, Bool.eq_iff_iff, Bool.and_eq_true]
  simp only [atLeast, decide_eq_true_eq]
  split <;> omega

end Confidence

/-! ## What a floor leaves -/

namespace SuggestionMap

/-- The suggestions for a note that are not below a floor, if there are any. -/
def kept? (f : Confidence) (suggestions : List Suggestion) : Option (List Suggestion) :=
  let kept := suggestions.filter fun s => s.confidence.atLeast f
  if kept.isEmpty then none else some kept

/-- All suggestions with the keys of the notes that they are for, in the order of the map. -/
def listed (m : SuggestionMap) : List (Text × Suggestion) :=
  m.entries.flatMap fun e => e.2.map (e.1, ·)

theorem entries_eq_filterMap (m : SuggestionMap) (f : Confidence) :
    (m.atLeast f).entries = m.entries.filterMap fun e => (kept? f e.2).map (e.1, ·) := rfl

theorem rows_eq_map_listed (m : SuggestionMap) :
    Review.rows m = m.listed.map fun x => Review.row x.1 x.2 := by
  rw [Review.rows, listed, List.map_flatMap]
  simp only [List.map_map]
  rfl

theorem kept?_bind (f g : Confidence) (suggestions : List Suggestion) :
    (kept? f suggestions).bind (kept? g) = kept? (f.higher g) suggestions := by
  have hboth : suggestions.filter (fun s => s.confidence.atLeast (f.higher g)) =
      (suggestions.filter fun s => s.confidence.atLeast f).filter
        fun s => s.confidence.atLeast g := by
    rw [List.filter_filter]
    exact List.filter_congr fun s _ => by rw [Confidence.atLeast_higher, Bool.and_comm]
  simp only [kept?, hboth]
  split
  next hnone =>
    rw [List.isEmpty_iff] at hnone
    rw [hnone]
    rfl
  next => rfl

/-- Of two floors, one after another, the higher one counts. -/
theorem atLeast_atLeast (m : SuggestionMap) (f g : Confidence) :
    (m.atLeast f).atLeast g = m.atLeast (f.higher g) := by
  apply KeyMap.ext_entries
  rw [entries_eq_filterMap, entries_eq_filterMap, entries_eq_filterMap, List.filterMap_filterMap]
  refine List.filterMap_congr fun e _ => ?_
  rw [← kept?_bind]
  cases kept? f e.2 <;> rfl

theorem listed_atLeast (m : SuggestionMap) (f : Confidence) :
    (m.atLeast f).listed = m.listed.filter fun x => x.2.confidence.atLeast f := by
  rw [listed, listed, entries_eq_filterMap, List.filterMap_eq_flatMap_toList, List.flatMap_assoc,
    List.filter_flatMap]
  refine List.flatMap_congr fun e _ => ?_
  have hpairs : (e.2.map (e.1, ·)).filter (fun x => x.2.confidence.atLeast f) =
      (e.2.filter fun s => s.confidence.atLeast f).map (e.1, ·) := List.filter_map
  rw [hpairs, kept?]
  split
  next hnone =>
    rw [List.isEmpty_iff] at hnone
    rw [hnone]
    rfl
  next => simp

end SuggestionMap

/-! ## A run with a floor -/

namespace Vault

/-- What a floor leaves is what a run with it goes over. -/
theorem entries_atLeast (o : ApplyOptions) (m : SuggestionMap) :
    (m.atLeast o.floor).entries =
      (asked o m.entries).map fun e => (e.1, accepted o e.2) := by
  rw [SuggestionMap.entries_eq_filterMap, asked, ← List.filterMap_eq_map, List.filterMap_filter]
  refine List.filterMap_congr fun e _ => ?_
  have hkept : SuggestionMap.kept? o.floor e.2 =
      if (accepted o e.2).isEmpty then none else some (accepted o e.2) := rfl
  rw [hkept]
  cases (accepted o e.2).isEmpty <;> rfl

/-- A run can be given what is accepted instead of what is suggested. -/
theorem updateAll_map_accepted (t : Tree) (v : Vault) (o : ApplyOptions) (clock : Clock)
    (l : List (Text × List Suggestion)) :
    v.updateAll t { o with floor := .low } clock (l.map fun e => (e.1, accepted o e.2)) =
      v.updateAll t o clock l := by
  have hlow (suggestions : List Suggestion) :
      accepted { o with floor := .low } suggestions = suggestions := accepted_of_low rfl suggestions
  induction l generalizing t with
  | nil => rfl
  | cons e rest ih =>
      obtain ⟨key, suggestions⟩ := e
      rw [List.map_cons]
      cases hempty : (accepted o suggestions).isEmpty with
      | true =>
          rw [updateAll_cons_of_isEmpty (by rw [hlow, hempty]), ih,
            updateAll_cons_of_isEmpty hempty]
      | false =>
          -- Once it is known what is accepted, nothing reads the floor any more.
          have hupdate :
              v.update t { o with floor := .low } (clock.stamp key) key (accepted o suggestions) =
                v.update t o (clock.stamp key) key (accepted o suggestions) := rfl
          rw [updateAll_cons (by rw [hlow, hempty]), hlow, hupdate, ih, updateAll_cons hempty]

/-- A run with a floor does what a run without one does with what the floor leaves, and reports the
same. What the floor leaves are the keys that this run goes over, with the suggestions that are
accepted for them, and these are shown for review in their order, each in its own row. Of two
floors the higher one counts. -/
theorem review_shows_what_apply_uses (t : Tree) (v : Vault) (o : ApplyOptions) (clock : Clock)
    (m : SuggestionMap) (f g : Confidence) :
    v.apply t { o with floor := f } clock m =
        v.apply t { o with floor := .low } clock (m.atLeast f) ∧
      (m.atLeast f).entries = (asked { o with floor := f } m.entries).map
        (fun e => (e.1, accepted { o with floor := f } e.2)) ∧
      (m.atLeast f).listed = m.listed.filter (fun x => x.2.confidence.atLeast f) ∧
      Review.rows (m.atLeast f) =
        (m.listed.filter fun x => x.2.confidence.atLeast f).map (fun x => Review.row x.1 x.2) ∧
      (m.atLeast f).atLeast g = m.atLeast (f.higher g) := by
  have hentries := entries_atLeast { o with floor := f } m
  have hlisted := m.listed_atLeast f
  refine ⟨?_, hentries, hlisted, ?_, m.atLeast_atLeast f g⟩
  · have hrun := updateAll_map_accepted t v { o with floor := f } clock
      (asked { o with floor := f } m.entries)
    rw [← hentries, updateAll_asked] at hrun
    rw [apply_eq, apply_eq, outcomes, outcomes, hrun]
  · rw [SuggestionMap.rows_eq_map_listed, hlisted]

end Vault

end NoteLinks
