/-
# Notes of which nothing is known

The record of a note that is no text is empty. An empty note speaks for no link, neither from it
nor to it, so it has no suggestions and is suggested to no note. More than that, it makes no
difference to the others: two vaults whose records agree apart from empty ones have the same
suggestions, in the same order. For a ranking is strict, hence known by its entries, and the
entry for a target is made from the records of the source and the target alone.
-/
import NoteLinks.Proofs.Suggestion.Pairwise
import NoteLinks.Proofs.Suggestion.Top

namespace NoteLinks

namespace Candidate

/-- Nothing speaks for linking to a note of which nothing is known. -/
theorem reasons_to_empty (own : Note) : reasons own Note.empty = [] := by
  have hconcepts : commonConcepts own Note.empty = [] := by
    rw [List.eq_nil_iff_forall_not_mem]
    intro concept hmem
    obtain ⟨-, other, hother, -⟩ := mem_commonConcepts_iff.mp hmem
    cases hother
  have htags : commonTags own Note.empty = [] := by
    rw [commonTags, List.filter_eq_nil_iff]
    intro tag _ hmem
    cases List.contains_iff_mem.mp hmem
  have hdirectory : directoryReason? own.directory Note.empty.directory = none := by
    rw [directoryReason?, if_pos]
    rw [Bool.or_eq_true]
    exact .inr rfl
  have htitle : titleReason? own.title Note.empty.title = none := by
    have hcommon : (titleWords own.title).toList.filter (titleWords []).toList.contains = [] := by
      rw [List.filter_eq_nil_iff]
      intro word _ hmem
      cases List.contains_iff_mem.mp hmem
    rw [titleReason?]
    exact if_pos (by rw [show Note.empty.title = [] from rfl, hcommon]; decide)
  rw [reasons, hconcepts, htags, hdirectory, htitle]
  rfl

end Candidate

namespace Snapshot

variable {files files' : KeyMap Text Note} {thresholds : Thresholds} {source target : Text}
  {note : Note}

/-! ## No suggestions from and to empty notes -/

theorem suggestionsFor_empty (h : files.find? source = some Note.empty) :
    (ofNotes files).suggestionsFor thresholds source = [] := by
  rw [List.eq_nil_iff_forall_not_mem]
  intro x hx
  obtain ⟨own, target, other, hown, -, -, hne, -⟩ := exists_of_mem_suggestionsFor hx
  obtain rfl : Note.empty = own := Option.some.inj (h.symm.trans hown)
  exact hne (Candidate.reasons_empty other)

theorem find?_suggestions_empty (h : files.find? source = some Note.empty) :
    ((ofNotes files).suggestions thresholds).find? source = none := by
  rw [suggestions, KeyMap.find?_filterMap]
  show (files.find? source).bind _ = none
  rw [h, Option.bind_some, suggestionsFor_empty h]
  rfl

theorem target_ne_of_empty (h : files.find? target = some Note.empty) {x : Suggestion}
    (hx : x ∈ (ofNotes files).suggestionsFor thresholds source) : x.target ≠ target := by
  rintro rfl
  obtain ⟨own, target, other, -, hother, -, hne, -, rfl⟩ := exists_of_mem_suggestionsFor hx
  obtain rfl : Note.empty = other := Option.some.inj (h.symm.trans hother)
  exact hne (Candidate.reasons_to_empty own)

/-! ## Records that agree apart from empty ones -/

/-- Two vaults have the same records apart from empty ones. -/
def KnowSame (files files' : KeyMap Text Note) : Prop :=
  ∀ key note, note ≠ Note.empty → (files.find? key = some note ↔ files'.find? key = some note)

theorem KnowSame.symm (h : KnowSame files files') : KnowSame files' files :=
  fun key note hne => (h key note hne).symm

/-- A note of which nothing is known in one vault is not known in the other one either. -/
theorem KnowSame.eq_empty (h : KnowSame files files') {key : Text}
    (hunknown : ¬ ∃ note, files.find? key = some note ∧ note ≠ Note.empty) :
    (∀ note, files.find? key = some note → note = Note.empty) ∧
      ∀ note, files'.find? key = some note → note = Note.empty := by
  simp only [not_exists, not_and, not_not] at hunknown
  refine ⟨hunknown, fun note hnote => ?_⟩
  by_contra hne
  exact hne (hunknown note ((h key note hne).mpr hnote))

/-- There is no entry for a target of which nothing is known. -/
theorem filter_rank_of_unknown (hsource : files.find? source = some note)
    (h : ∀ other, files.find? target = some other → other = Note.empty) :
    (Ranking.rank (ofNotes files) (Candidate.all (ofNotes files) source)).filter
      (fun x => x.target = target) = [] := by
  cases htarget : files.find? target with
  | none => exact Candidate.filter_rank_all_of_find?_eq_none htarget
  | some other =>
      obtain rfl := h other htarget
      rw [Candidate.filter_rank_all hsource htarget, if_neg]
      exact fun hreasons => hreasons.2 (Candidate.reasons_to_empty note)

theorem KnowSame.filter_rank (h : KnowSame files files') (hsource : files.find? source = some note)
    (hsource' : files'.find? source = some note) (target : Text) :
    (Ranking.rank (ofNotes files) (Candidate.all (ofNotes files) source)).filter
        (fun x => x.target = target) =
      (Ranking.rank (ofNotes files') (Candidate.all (ofNotes files') source)).filter
        (fun x => x.target = target) := by
  by_cases hknown : ∃ other, files.find? target = some other ∧ other ≠ Note.empty
  · obtain ⟨other, htarget, hne⟩ := hknown
    have htarget' := (h target other hne).mp htarget
    rw [Candidate.filter_rank_all hsource htarget, Candidate.filter_rank_all hsource' htarget',
      Candidate.suggestionBetween_congr (htarget'.trans htarget.symm)]
  · obtain ⟨hunknown, hunknown'⟩ := h.eq_empty hknown
    rw [filter_rank_of_unknown hsource hunknown, filter_rank_of_unknown hsource' hunknown']

theorem KnowSame.mem_rank (h : KnowSame files files') (hsource : files.find? source = some note)
    (hsource' : files'.find? source = some note) {x : Suggestion}
    (hx : x ∈ Ranking.rank (ofNotes files) (Candidate.all (ofNotes files) source)) :
    x ∈ Ranking.rank (ofNotes files') (Candidate.all (ofNotes files') source) := by
  have hentry : x ∈ (Ranking.rank (ofNotes files) (Candidate.all (ofNotes files) source)).filter
      (fun y => y.target = x.target) := List.mem_filter.mpr ⟨hx, decide_eq_true rfl⟩
  rw [h.filter_rank hsource hsource'] at hentry
  exact List.mem_of_mem_filter hentry

/-- A ranking is known by its entries. -/
theorem rank_eq_of_mem_iff {s s' : Snapshot} {candidates candidates' : List Candidate}
    (h : ∀ x, x ∈ Ranking.rank s candidates ↔ x ∈ Ranking.rank s' candidates') :
    Ranking.rank s candidates = Ranking.rank s' candidates' := by
  have hasymm {a b : Suggestion} (hab : a.Before b) (hba : b.Before a) : False := by
    rcases hab with hab | ⟨hscore, hab⟩ <;> rcases hba with hba | ⟨hscore', hba⟩
    · exact absurd hab (Int.not_lt.mpr (Int.le_of_lt hba))
    · exact absurd hab (by rw [hscore']; exact Int.lt_irrefl _)
    · exact absurd hba (by rw [hscore]; exact Int.lt_irrefl _)
    · exact LawfulKey.asymm hab hba
  have : Std.Antisymm Suggestion.Before := ⟨fun _ _ hab hba => (hasymm hab hba).elim⟩
  have : Std.Irrefl Suggestion.Before := ⟨fun _ h => hasymm h h⟩
  exact List.Pairwise.eq_of_mem_iff (Ranking.pairwise_before_rank s candidates)
    (Ranking.pairwise_before_rank s' candidates') h

theorem suggestionsFor_of_unknown (h : ∀ note, files.find? source = some note → note = Note.empty) :
    (ofNotes files).suggestionsFor thresholds source = [] := by
  cases hsource : files.find? source with
  | none => exact suggestionsFor_eq_nil hsource
  | some note => exact suggestionsFor_empty (h note hsource ▸ hsource)

theorem KnowSame.suggestionsFor_eq (h : KnowSame files files') (thresholds : Thresholds)
    (source : Text) :
    (ofNotes files).suggestionsFor thresholds source =
      (ofNotes files').suggestionsFor thresholds source := by
  by_cases hknown : ∃ note, files.find? source = some note ∧ note ≠ Note.empty
  · obtain ⟨note, hsource, hne⟩ := hknown
    have hsource' := (h source note hne).mp hsource
    rw [suggestionsFor, suggestionsFor, rank_eq_of_mem_iff fun x =>
      ⟨h.mem_rank hsource hsource', h.symm.mem_rank hsource' hsource⟩]
  · obtain ⟨hunknown, hunknown'⟩ := h.eq_empty hknown
    rw [suggestionsFor_of_unknown hunknown, suggestionsFor_of_unknown hunknown']

/-- Where the records agree apart from empty ones, the suggestions are the same. -/
theorem KnowSame.suggestions_eq (h : KnowSame files files') (thresholds : Thresholds) :
    (ofNotes files).suggestions thresholds = (ofNotes files').suggestions thresholds := by
  apply KeyMap.ext_mem
  rintro ⟨source, found⟩
  rw [← KeyMap.find?_eq_some_iff, ← KeyMap.find?_eq_some_iff, find?_suggestions_eq_some_iff,
    find?_suggestions_eq_some_iff, h.suggestionsFor_eq]

end Snapshot

end NoteLinks
