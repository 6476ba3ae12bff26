/-
# Candidates gathered by target

The ranking takes the candidates one by one, whatever their targets are, and puts each at the
end of the group of its target. A step adds its candidate to one group and leaves the others as
they are, so in the end no candidate is lost or doubled, and a group has its candidates in the
order of the list.

A ranking is made from the groups alone. So it makes no difference how candidates with
different targets take turns, although sums of floats depend on the order of the summands: the
order within a group is that of the list in any case.
-/
import NoteLinks.Proofs.Suggestion.Ranking

namespace NoteLinks

namespace KeyMap

variable {κ α : Type} [LT κ] [DecidableLT κ]

/-- A value that is put at the end of the list at one key is one more among all values. -/
theorem flatMap_alterEntry_perm (k : κ) (a : α) (l : List (κ × List α)) :
    ((alterEntry k (fun group => group.getD [] ++ [a]) l).flatMap Prod.snd).Perm
      (a :: l.flatMap Prod.snd) := by
  induction l with
  | nil => exact .refl _
  | cons e l ih =>
      obtain ⟨b, group⟩ := e
      rw [alterEntry, List.flatMap_cons]
      split
      next => exact .refl _
      next =>
        split
        next =>
          rw [List.flatMap_cons]
          exact (ih.append_left group).trans List.perm_middle
        next =>
          rw [List.flatMap_cons, Option.getD_some, List.append_assoc]
          exact List.perm_middle

end KeyMap

namespace Ranking

variable {candidates others : List Candidate}

/-! ## The groups -/

/-- The groups have all candidates, each as often as the list. -/
theorem flatMap_gather_perm (candidates : List Candidate) :
    ((gather candidates).entries.flatMap Prod.snd).Perm candidates := by
  induction candidates using List.reverseRecOn with
  | nil => exact .refl _
  | append_singleton candidates c ih =>
      rw [gather_concat]
      calc (((gather candidates).alter c.target fun group => group.getD [] ++ [c]).entries.flatMap
              Prod.snd).Perm (c :: (gather candidates).entries.flatMap Prod.snd) :=
            KeyMap.flatMap_alterEntry_perm c.target c _
        _ |>.Perm (c :: candidates) := ih.cons c
        _ |>.Perm (candidates ++ [c]) := (List.perm_append_singleton c candidates).symm

/-- A group is what the list has for its target. -/
theorem getD_find?_gather (candidates : List Candidate) (target : Text) :
    ((gather candidates).find? target).getD [] =
      candidates.filter fun c => c.target = target := by
  rw [find?_gather]
  split
  next hnil => exact hnil.symm
  next => rfl

theorem eq_filter_of_mem_gather {entry : Text × List Candidate}
    (h : entry ∈ (gather candidates).entries) :
    entry.2 = candidates.filter fun c => c.target = entry.1 := by
  rw [← getD_find?_gather, KeyMap.find?_eq_some_iff.mpr h]
  rfl

/-- The groups tell what the list has for each target, and nothing else. -/
theorem gather_eq_iff : gather others = gather candidates ↔
    ∀ target, others.filter (fun c => c.target = target) =
      candidates.filter fun c => c.target = target := by
  constructor
  · intro h target
    rw [← getD_find?_gather, ← getD_find?_gather, h]
  · intro h
    refine KeyMap.ext_mem fun (target, group) => ?_
    rw [← KeyMap.find?_eq_some_iff, ← KeyMap.find?_eq_some_iff, find?_gather, find?_gather, h]

/-! ## The ranking -/

/-- A target is ranked exactly if there is a candidate for it. -/
theorem mem_targets_rank_iff {s : Snapshot} {target : Text} :
    target ∈ (rank s candidates).map Suggestion.target ↔
      target ∈ candidates.map Candidate.target := by
  rw [List.mem_map, List.mem_map]
  constructor
  · rintro ⟨x, hx, rfl⟩
    obtain ⟨target, hne, rfl⟩ := mem_rank_iff.mp hx
    obtain ⟨c, hc⟩ := List.exists_mem_of_ne_nil _ hne
    obtain ⟨hc, htarget⟩ := List.mem_filter.mp hc
    exact ⟨c, hc, of_decide_eq_true htarget⟩
  · rintro ⟨c, hc, rfl⟩
    refine ⟨_, mem_rank_iff.mpr ⟨c.target, ?_, rfl⟩, rfl⟩
    exact List.ne_nil_of_mem (List.mem_filter.mpr ⟨hc, decide_eq_true rfl⟩)

/-- An entry is made from the candidates for its target, in their order. -/
theorem eq_suggestionOf_of_mem_rank {s : Snapshot} {x : Suggestion} (h : x ∈ rank s candidates) :
    x = suggestionOf s x.target (candidates.filter fun c => c.target = x.target) := by
  obtain ⟨target, -, rfl⟩ := mem_rank_iff.mp h
  rfl

/-- The entries have the reasons of all candidates, each as often as the list. -/
theorem flatMap_reasons_rank_perm (s : Snapshot) (candidates : List Candidate) :
    ((rank s candidates).flatMap fun x => x.reasons.map (x.target, ·)).Perm
      (candidates.map fun c => (c.target, c.reason)) := by
  have hgroup : ∀ e ∈ (gather candidates).entries,
      (suggestionOf s e.1 e.2).reasons.map (e.1, ·) =
        e.2.map fun c => (c.target, c.reason) := by
    intro e he
    have htarget : ∀ c ∈ e.2, c.target = e.1 := by
      rw [eq_filter_of_mem_gather he]
      exact fun c hc => of_decide_eq_true (List.mem_filter.mp hc).2
    rw [suggestionOf, List.map_map]
    exact List.map_congr_left fun c hc => by rw [htarget c hc, Function.comp_apply]
  calc ((rank s candidates).flatMap fun x => x.reasons.map (x.target, ·)).Perm
        (((gather candidates).entries.map fun e => suggestionOf s e.1 e.2).flatMap
          fun x => x.reasons.map (x.target, ·)) := (List.mergeSort_perm _ _).flatMap_right _
    _ = ((gather candidates).entries.flatMap Prod.snd).map fun c => (c.target, c.reason) := by
        rw [List.flatMap_map, List.map_flatMap]
        exact List.flatMap_congr hgroup
    _ |>.Perm (candidates.map fun c => (c.target, c.reason)) :=
        (flatMap_gather_perm candidates).map _

/-- A ranking has one entry for each target of the candidates, made from the candidates for
this target and with their reasons in order, and all entries together have all candidates. Lists
that have the same candidates in the same order for each target are ranked alike. -/
theorem rank_partitions_by_target (s : Snapshot) (candidates : List Candidate) :
    (((rank s candidates).map Suggestion.target).Nodup ∧
      ∀ target, target ∈ (rank s candidates).map Suggestion.target ↔
        target ∈ candidates.map Candidate.target) ∧
    (∀ x ∈ rank s candidates,
      x = suggestionOf s x.target (candidates.filter fun c => c.target = x.target) ∧
        x.reasons = (candidates.filter fun c => c.target = x.target).map Candidate.reason) ∧
    ((rank s candidates).flatMap fun x => x.reasons.map (x.target, ·)).Perm
      (candidates.map fun c => (c.target, c.reason)) ∧
    ∀ others : List Candidate,
      (∀ target, others.filter (fun c => c.target = target) =
        candidates.filter fun c => c.target = target) →
      rank s others = rank s candidates := by
  refine ⟨⟨nodup_targets_rank s candidates, fun _ => mem_targets_rank_iff⟩, ?_,
    flatMap_reasons_rank_perm s candidates, ?_⟩
  · intro x hx
    have hentry := eq_suggestionOf_of_mem_rank hx
    exact ⟨hentry, congrArg Suggestion.reasons hentry⟩
  · intro others h
    rw [rank, rank, gather_eq_iff.mpr h]

/-- Candidates for two targets that take turns, one of them given twice. -/
theorem rank_of_candidates_in_turn :
    let s := Snapshot.ofNotes KeyMap.empty
    let tag : Candidate := ⟨"b.md".toList, ⟨.sharedTag, "rust".toList⟩, Candidate.tagWeight⟩
    let concept : Candidate :=
      ⟨"a.md".toList, ⟨.sharedConcept, "Borrowing".toList⟩, Candidate.conceptWeight⟩
    let directory : Candidate :=
      ⟨"a.md".toList, ⟨.sameDirectory, ".".toList⟩, Candidate.sameDirectoryWeight⟩
    (∀ target, [concept, directory, tag, tag].filter (fun c => c.target = target) =
        [tag, concept, tag, directory].filter fun c => c.target = target) ∧
      rank s [concept, directory, tag, tag] = rank s [tag, concept, tag, directory] ∧
      ((rank s [tag, concept, tag, directory]).flatMap fun x => x.reasons.map (x.target, ·)).Perm
        [("b.md".toList, tag.reason), ("a.md".toList, concept.reason), ("b.md".toList, tag.reason),
          ("a.md".toList, directory.reason)] := by
  intro s tag concept directory
  have hsame : ∀ target, [concept, directory, tag, tag].filter (fun c => c.target = target) =
      [tag, concept, tag, directory].filter fun c => c.target = target := by
    have hdirectory : directory.target = concept.target := rfl
    have hne : concept.target ≠ tag.target := by decide
    clear_value tag concept directory
    intro target
    by_cases htag : tag.target = target
    · subst htag
      simp [hdirectory, hne]
    · simp [List.filter_cons, htag, hdirectory]
  obtain ⟨-, -, hreasons, hrank⟩ := rank_partitions_by_target s [tag, concept, tag, directory]
  exact ⟨hsame, hrank _ hsame, hreasons⟩

end Ranking

end NoteLinks
