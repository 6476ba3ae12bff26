/-
# Who is suggested

What is suggested to a note are the candidates, gathered by their targets. If as many links
are allowed as there are notes, none is cut off at the end of the ranking, and the order does
not matter. Then another note is suggested exactly if it is not linked yet, something speaks
for it, and what speaks for it scores enough; all this can be read off the records of the
two notes.
-/
import Mathlib.Data.List.Perm.Subperm
import NoteLinks.Proofs.Suggestion.Candidate
import NoteLinks.Suggestion.Ranking

namespace NoteLinks

namespace Ranking

variable {candidates : List Candidate} {target : Text}

/-- One more candidate goes to the end of the group of its target. -/
theorem gather_concat (candidates : List Candidate) (c : Candidate) :
    gather (candidates ++ [c]) =
      (gather candidates).alter c.target fun group => group.getD [] ++ [c] := by
  rw [gather, List.foldl_append]
  rfl

/-- The candidates that are gathered under a target are those for it, in their order. -/
theorem find?_gather (candidates : List Candidate) (target : Text) :
    (gather candidates).find? target =
      if candidates.filter (fun c => c.target = target) = [] then none
      else some (candidates.filter fun c => c.target = target) := by
  induction candidates using List.reverseRecOn with
  | nil => rfl
  | append_singleton candidates c ih =>
      rw [gather_concat, KeyMap.find?_alter, List.filter_append]
      by_cases hc : c.target = target
      · subst hc
        rw [if_pos rfl, ih]
        split
        next hnil => simp [hnil]
        next => simp
      · rw [if_neg (Ne.symm hc), ih]
        simp [hc]

/-- In a ranking there is one entry for a target, or none. -/
theorem filter_rank (s : Snapshot) (candidates : List Candidate) (target : Text) :
    (rank s candidates).filter (fun x => x.target = target) =
      if candidates.filter (fun c => c.target = target) = [] then []
      else [suggestionOf s target (candidates.filter fun c => c.target = target)] := by
  have hperm := (List.mergeSort_perm ((gather candidates).entries.map fun e =>
    suggestionOf s e.1 e.2) precedes).filter fun x => x.target = target
  have htarget : (fun x : Suggestion => decide (x.target = target)) ∘
      (fun e : Text × List Candidate => suggestionOf s e.1 e.2) =
        fun e => decide (e.1 = target) := rfl
  rw [List.filter_map, htarget, KeyMap.filter_entries, find?_gather] at hperm
  split at hperm
  next hnil =>
    rw [if_pos hnil]
    exact hperm.eq_nil
  next hne =>
    rw [if_neg hne]
    exact hperm.eq_singleton

theorem mem_rank_iff {s : Snapshot} {x : Suggestion} :
    x ∈ rank s candidates ↔
      ∃ target, candidates.filter (fun c => c.target = target) ≠ [] ∧
        x = suggestionOf s target (candidates.filter fun c => c.target = target) := by
  constructor
  · intro hx
    have hentry : x ∈ (rank s candidates).filter (fun y => y.target = x.target) :=
      List.mem_filter.mpr ⟨hx, decide_eq_true rfl⟩
    rw [filter_rank] at hentry
    split at hentry
    next => cases hentry
    next hne => exact ⟨x.target, hne, List.mem_singleton.mp hentry⟩
  · rintro ⟨target, hne, rfl⟩
    have hentry := filter_rank s candidates target
    rw [if_neg hne] at hentry
    apply List.mem_of_mem_filter
    rw [hentry]
    exact List.mem_singleton_self _

/-- There are no more suggestions than notes. -/
theorem length_rank_le (s : Snapshot) {files : KeyMap Text Note}
    (h : ∀ c ∈ candidates, ∃ other, files.find? c.target = some other) :
    (rank s candidates).length ≤ files.size := by
  have hsubset : (gather candidates).keys ⊆ files.keys := by
    intro target hmem
    rw [KeyMap.mem_keys_iff, find?_gather] at hmem
    split at hmem
    next => cases hmem
    next hne =>
      obtain ⟨c, hc⟩ := List.exists_mem_of_ne_nil _ hne
      obtain ⟨hc, htarget⟩ := List.mem_filter.mp hc
      obtain ⟨other, hother⟩ := h c hc
      rw [KeyMap.mem_keys_iff, ← of_decide_eq_true htarget, hother]
      rfl
  have hlength := ((gather candidates).nodup_keys.subperm hsubset).length_le
  rw [KeyMap.keys, KeyMap.keys, List.length_map, List.length_map] at hlength
  rwa [rank, List.length_mergeSort, List.length_map, KeyMap.size]

/-- No target has two entries in a ranking. -/
theorem nodup_targets_rank (s : Snapshot) (candidates : List Candidate) :
    ((rank s candidates).map Suggestion.target).Nodup := by
  have hkeys := (gather candidates).nodup_keys
  refine ((List.mergeSort_perm _ _).map Suggestion.target).nodup_iff.mpr ?_
  rw [List.map_map]
  exact hkeys

end Ranking

namespace Candidate

/-- The score of linking a note to another one. -/
def score (own other : Note) : Float :=
  Ranking.scoreOf (((reasons own other).map Prod.snd).foldl (· + ·) 0.0)

end Candidate

namespace Snapshot

open Candidate (accepts reasons score)

/-- The suggestion to link a note to another one. -/
def suggestionBetween (s : Snapshot) (own : Note) (target : Text) (other : Note) : Suggestion :=
  Ranking.suggestionOf s target
    ((reasons own other).map fun (reason, weight) => ⟨target, reason, weight⟩)

theorem score_suggestionBetween (s : Snapshot) (own : Note) (target : Text) (other : Note) :
    (s.suggestionBetween own target other).score = score own other := by
  simp only [suggestionBetween, Ranking.suggestionOf, score, List.foldl_map]

theorem reasons_suggestionBetween (s : Snapshot) (own : Note) (target : Text) (other : Note) :
    (s.suggestionBetween own target other).reasons = (reasons own other).map Prod.fst := by
  simp only [suggestionBetween, Ranking.suggestionOf, List.map_map]
  rfl

/-- A note is suggested to another one. -/
def Suggests (s : Snapshot) (thresholds : Thresholds) (source target : Text) : Prop :=
  ∃ x ∈ s.suggestionsFor thresholds source, x.target = target

section Suggested

variable {files : KeyMap Text Note} {thresholds : Thresholds} {source target : Text}

/-- What is suggested to a note is not linked yet, and enough speaks for it. -/
theorem exists_of_mem_suggestionsFor {x : Suggestion}
    (h : x ∈ (ofNotes files).suggestionsFor thresholds source) :
    ∃ own target other, files.find? source = some own ∧ files.find? target = some other ∧
      accepts source own.links target (some other.title) = true ∧ reasons own other ≠ [] ∧
      score own other ≥ thresholds.minScore ∧
      x = (ofNotes files).suggestionBetween own target other := by
  have hranked := List.mem_of_mem_take h
  rw [List.mem_filter, Ranking.mem_rank_iff, decide_eq_true_eq] at hranked
  obtain ⟨⟨target, hne, rfl⟩, hscore⟩ := hranked
  obtain ⟨c, hmem⟩ := List.exists_mem_of_ne_nil _ hne
  obtain ⟨hc, htarget⟩ := List.mem_filter.mp hmem
  obtain ⟨other, hother⟩ := Candidate.exists_note_of_mem_all hc
  rw [of_decide_eq_true htarget] at hother
  obtain ⟨own, hown⟩ : ∃ own, files.find? source = some own := by
    refine Option.ne_none_iff_exists'.mp fun hnone => ?_
    rw [Candidate.all_of_find?_eq_none hnone] at hc
    cases hc
  have hall := Candidate.filter_all hown hother
  split at hall
  next haccepts =>
    rw [hall] at hne hscore ⊢
    refine ⟨own, target, other, hown, hother, haccepts, ?_, ?_, rfl⟩
    · rintro hnil
      exact hne (by rw [hnil, List.map_nil])
    · rw [← score_suggestionBetween (ofNotes files) own target other]
      exact hscore
  next => exact absurd hall hne

/-- No note is suggested twice. -/
theorem nodup_targets (s : Snapshot) (thresholds : Thresholds) (source : Text) :
    ((s.suggestionsFor thresholds source).map Suggestion.target).Nodup := by
  exact (Ranking.nodup_targets_rank s _).sublist
    (((List.take_sublist _ _).trans List.filter_sublist).map Suggestion.target)

theorem exists_of_suggests (h : (ofNotes files).Suggests thresholds source target) :
    ∃ own other, files.find? source = some own ∧ files.find? target = some other ∧
      accepts source own.links target (some other.title) = true ∧ reasons own other ≠ [] ∧
      score own other ≥ thresholds.minScore := by
  obtain ⟨x, hx, rfl⟩ := h
  obtain ⟨own, target, other, hown, hother, haccepts, hne, hscore, rfl⟩ :=
    exists_of_mem_suggestionsFor hx
  exact ⟨own, other, hown, hother, haccepts, hne, hscore⟩

/-- All that is not linked yet and for which enough speaks is suggested, if enough links are
allowed. -/
theorem mem_suggestionsFor (hmax : files.size ≤ thresholds.maxLinks) {own other : Note}
    (hown : files.find? source = some own) (hother : files.find? target = some other)
    (haccepts : accepts source own.links target (some other.title) = true)
    (hne : reasons own other ≠ []) (hscore : score own other ≥ thresholds.minScore) :
    (ofNotes files).suggestionBetween own target other ∈
      (ofNotes files).suggestionsFor thresholds source := by
  have hlength : ((Ranking.rank (ofNotes files) (Candidate.all (ofNotes files) source)).filter
      fun s => s.score ≥ thresholds.minScore).length ≤ thresholds.maxLinks :=
    (List.length_filter_le ..).trans
      ((Ranking.length_rank_le _ fun _ => Candidate.exists_note_of_mem_all).trans hmax)
  have hall := Candidate.filter_all hown hother
  rw [if_pos haccepts] at hall
  rw [suggestionsFor, Ranking.select, List.take_of_length_le hlength, List.mem_filter,
    Ranking.mem_rank_iff, decide_eq_true_eq, score_suggestionBetween]
  refine ⟨⟨target, ?_, ?_⟩, hscore⟩
  · rw [hall, ne_eq, List.map_eq_nil_iff]
    exact hne
  · rw [hall]
    rfl

/-- The notes that are not linked yet and for which enough speaks. -/
def suggestible (files : KeyMap Text Note) (thresholds : Thresholds) (source : Text) (own : Note) :
    List (Text × Note) :=
  files.entries.filter fun (target, other) =>
    accepts source own.links target (some other.title) && !(reasons own other).isEmpty &&
      decide (score own other ≥ thresholds.minScore)

/-- What is suggested to a note, apart from the order. -/
theorem suggestionsFor_perm (hmax : files.size ≤ thresholds.maxLinks) {own : Note}
    (hown : files.find? source = some own) :
    ((ofNotes files).suggestionsFor thresholds source).Perm
      ((suggestible files thresholds source own).map fun (target, other) =>
        (ofNotes files).suggestionBetween own target other) := by
  have hnodup : (((suggestible files thresholds source own).map fun (target, other) =>
      (ofNotes files).suggestionBetween own target other).map Suggestion.target).Nodup := by
    rw [List.map_map]
    exact files.nodup_keys.sublist (List.filter_sublist.map _)
  refine (List.perm_ext_iff_of_nodup (nodup_targets ..).of_map hnodup.of_map).mpr fun x => ?_
  rw [List.mem_map]
  constructor
  · intro hx
    obtain ⟨own₂, target, other, hown₂, hother, haccepts, hne, hscore, rfl⟩ :=
      exists_of_mem_suggestionsFor hx
    obtain rfl : own = own₂ := Option.some.inj (hown.symm.trans hown₂)
    refine ⟨(target, other), List.mem_filter.mpr ⟨KeyMap.find?_eq_some_iff.mp hother, ?_⟩, rfl⟩
    simp [haccepts, hne, hscore]
  · rintro ⟨⟨target, other⟩, hmem, rfl⟩
    obtain ⟨hentry, htest⟩ := List.mem_filter.mp hmem
    simp only [Bool.and_eq_true, decide_eq_true_eq, Bool.not_eq_true', List.isEmpty_eq_false_iff]
      at htest
    exact mem_suggestionsFor hmax hown (KeyMap.find?_eq_some_iff.mpr hentry) htest.1.1 htest.1.2
      htest.2

/-- A map of suggestions has what is suggested to each note. -/
theorem getD_find?_suggestions (files : KeyMap Text Note) (thresholds : Thresholds)
    (source : Text) :
    (((ofNotes files).suggestions thresholds).find? source).getD [] =
      (ofNotes files).suggestionsFor thresholds source := by
  rw [suggestions, KeyMap.find?_filterMap]
  show ((files.find? source).bind _).getD [] = _
  cases hfind : files.find? source with
  | none =>
      rw [suggestionsFor, Candidate.all_of_find?_eq_none hfind]
      simp [Ranking.rank, Ranking.gather, KeyMap.empty, Ranking.select]
  | some note =>
      simp only [Option.bind_some]
      split
      next hempty => rw [List.isEmpty_iff.mp hempty, Option.getD_none]
      next => rfl

theorem entries_suggestions_eq_nil_iff :
    ((ofNotes files).suggestions thresholds).entries = [] ↔
      ∀ source target, ¬ (ofNotes files).Suggests thresholds source target := by
  constructor
  · rintro hnil source target ⟨x, hx, -⟩
    rw [← getD_find?_suggestions, KeyMap.find?, hnil] at hx
    exact absurd hx List.not_mem_nil
  · intro hnone
    apply KeyMap.entries_eq_nil
    intro source
    rw [suggestions, KeyMap.find?_filterMap, Option.bind_eq_none_iff]
    intro note _
    rw [if_pos]
    rw [List.isEmpty_iff, List.eq_nil_iff_forall_not_mem]
    exact fun x hx => hnone source x.target ⟨x, hx, rfl⟩

end Suggested

end Snapshot

end NoteLinks
