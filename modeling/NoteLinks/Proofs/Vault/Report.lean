/-
# What a report says

A run keeps its report up as it goes from key to key: the lists grow at their ends, and the
numbers along with them. What is kept up in this way can be told at once of the run as a whole.
The lists of the report divide what has become of the keys by its kinds, its numbers are those
of the changes, and where the keys are distinct, it names none of them twice.
-/
import Mathlib.Algebra.BigOperators.Group.List.Basic
import Mathlib.Algebra.GroupWithZero.Nat
import Mathlib.Data.List.Nodup
import NoteLinks.Vault.Apply

namespace NoteLinks

/-! ## Reports on outcomes -/

namespace Report

variable {r : Report} {outcomes before : List (Text × Outcome)} {key : Text} {e : Error}
  {change : Change}

/-- The report with what has become of several more notes. -/
def recordAll (r : Report) (outcomes : List (Text × Outcome)) : Report :=
  outcomes.foldl (fun r x => r.record x.1 x.2) r

/-- The change that is reported for an outcome. -/
def change? : Text × Outcome → Option Change
  | (key, .changed links mentions listings backup) =>
    some { key, links, mentions, listings, backup }
  | _ => none

/-- The key that is reported as missing for an outcome. -/
def missing? : Text × Outcome → Option Text
  | (key, .missing) => some key
  | _ => none

/-- The failure that is reported for an outcome. -/
def failed? : Text × Outcome → Option (Text × Error)
  | (key, .failed e) => some (key, e)
  | _ => none

/-- The lists of a report divide outcomes by their kinds. -/
structure Tells (r : Report) (outcomes : List (Text × Outcome)) : Prop where
  changes : r.changes = outcomes.filterMap change?
  missing : r.missing = outcomes.filterMap missing?
  failed : r.failed = outcomes.filterMap failed?

/-- The numbers of a report are those of its changes. -/
structure IsBalanced (r : Report) : Prop where
  filesModified : r.filesModified = r.changes.length
  linksAdded : r.linksAdded = (r.changes.map Change.links).sum

/-! ### One more outcome -/

theorem Tells.record (h : r.Tells outcomes) (key : Text) (x : Outcome) :
    (r.record key x).Tells (outcomes ++ [(key, x)]) := by
  obtain ⟨hchanges, hmissing, hfailed⟩ := h
  constructor
  · rw [List.filterMap_append, ← hchanges]
    cases x <;> simp [Report.record, change?]
  · rw [List.filterMap_append, ← hmissing]
    cases x <;> simp [Report.record, missing?]
  · rw [List.filterMap_append, ← hfailed]
    cases x <;> simp [Report.record, failed?]

theorem IsBalanced.record (h : r.IsBalanced) (key : Text) (x : Outcome) :
    (r.record key x).IsBalanced := by
  cases x with
  | changed links mentions listings backup =>
      constructor
      · simp [Report.record, h.filesModified]
      · simp [Report.record, h.linksAdded]
  | unchanged => exact h
  | missing => exact ⟨h.filesModified, h.linksAdded⟩
  | failed e => exact ⟨h.filesModified, h.linksAdded⟩

/-! ### All outcomes -/

theorem Tells.recordAll (h : r.Tells before) (outcomes : List (Text × Outcome)) :
    (r.recordAll outcomes).Tells (before ++ outcomes) := by
  induction outcomes generalizing r before with
  | nil => rwa [List.append_nil]
  | cons x outcomes ih =>
      rw [List.append_cons]
      exact ih (h.record x.1 x.2)

theorem IsBalanced.recordAll (h : r.IsBalanced) (outcomes : List (Text × Outcome)) :
    (r.recordAll outcomes).IsBalanced := by
  induction outcomes generalizing r with
  | nil => exact h
  | cons x outcomes ih => exact ih (h.record x.1 x.2)

/-! ### Members of the lists -/

theorem Tells.mem_failed_iff (h : r.Tells outcomes) :
    (key, e) ∈ r.failed ↔ (key, .failed e) ∈ outcomes := by
  rw [h.failed, List.mem_filterMap]
  constructor
  · rintro ⟨⟨key', x⟩, hmem, heq⟩
    cases x <;> cases heq
    exact hmem
  · intro hmem
    exact ⟨_, hmem, rfl⟩

theorem Tells.mem_missing_iff (h : r.Tells outcomes) :
    key ∈ r.missing ↔ (key, .missing) ∈ outcomes := by
  rw [h.missing, List.mem_filterMap]
  constructor
  · rintro ⟨⟨key', x⟩, hmem, heq⟩
    cases x <;> cases heq
    exact hmem
  · intro hmem
    exact ⟨_, hmem, rfl⟩

theorem Tells.mem_changes_iff (h : r.Tells outcomes) :
    change ∈ r.changes ↔
      (change.key, .changed change.links change.mentions change.listings change.backup) ∈
        outcomes := by
  rw [h.changes, List.mem_filterMap]
  constructor
  · rintro ⟨⟨key', x⟩, hmem, heq⟩
    cases x <;> cases heq
    exact hmem
  · intro hmem
    exact ⟨_, hmem, rfl⟩

/-- The keys that a report names. -/
def reported (r : Report) : List Text :=
  r.failed.map Prod.fst ++ r.missing ++ r.changes.map Change.key

theorem Tells.mem_reported_iff (h : r.Tells outcomes) :
    key ∈ r.reported ↔ ∃ x, (key, x) ∈ outcomes ∧ x ≠ .unchanged := by
  rw [reported, List.mem_append, List.mem_append, List.mem_map, List.mem_map]
  constructor
  · rintro ((⟨⟨key', e⟩, hmem, rfl⟩ | hmem) | ⟨change, hmem, rfl⟩)
    · exact ⟨_, h.mem_failed_iff.mp hmem, Outcome.noConfusion⟩
    · exact ⟨_, h.mem_missing_iff.mp hmem, Outcome.noConfusion⟩
    · exact ⟨_, h.mem_changes_iff.mp hmem, Outcome.noConfusion⟩
  · rintro ⟨x, hmem, hne⟩
    cases x with
    | changed links mentions listings backup =>
        have hchange : ⟨key, links, mentions, listings, backup⟩ ∈ r.changes :=
          h.mem_changes_iff.mpr hmem
        exact .inr ⟨_, hchange, rfl⟩
    | unchanged => exact absurd rfl hne
    | missing => exact .inl (.inr (h.mem_missing_iff.mpr hmem))
    | failed e => exact .inl (.inl ⟨(key, e), h.mem_failed_iff.mpr hmem, rfl⟩)

/-! ### Keys with one outcome -/

theorem outcome_unique (h : (outcomes.map Prod.fst).Nodup) {x y : Outcome}
    (hx : (key, x) ∈ outcomes) (hy : (key, y) ∈ outcomes) : x = y :=
  congrArg Prod.snd (List.inj_on_of_nodup_map h hx hy rfl)

/-- What is picked of some outcomes has their keys, in their order. -/
theorem map_filterMap_sublist {α : Type} {pick : Text × Outcome → Option α} {keyOf : α → Text}
    (hpick : ∀ key x a, pick (key, x) = some a → keyOf a = key)
    (outcomes : List (Text × Outcome)) :
    ((outcomes.filterMap pick).map keyOf).Sublist (outcomes.map Prod.fst) := by
  induction outcomes with
  | nil => exact List.Sublist.refl _
  | cons e outcomes ih =>
      cases he : pick e with
      | none =>
          rw [List.filterMap_cons_none he, List.map_cons]
          exact ih.cons _
      | some a =>
          rw [List.filterMap_cons_some he, List.map_cons, List.map_cons, hpick e.1 e.2 a he]
          exact ih.cons_cons _

/-- If every key has one outcome, no key is named twice. -/
theorem Tells.nodup_reported (h : r.Tells outcomes) (hkeys : (outcomes.map Prod.fst).Nodup) :
    r.reported.Nodup := by
  have hfailed : (r.failed.map Prod.fst).Nodup := by
    rw [h.failed]
    refine hkeys.sublist (map_filterMap_sublist (fun key x a heq => ?_) outcomes)
    cases x <;> cases heq
    rfl
  have hmissing : (r.missing.map id).Nodup := by
    rw [h.missing]
    refine hkeys.sublist (map_filterMap_sublist (fun key x a heq => ?_) outcomes)
    cases x <;> cases heq
    rfl
  have hchanges : (r.changes.map Change.key).Nodup := by
    rw [h.changes]
    refine hkeys.sublist (map_filterMap_sublist (fun key x a heq => ?_) outcomes)
    cases x <;> cases heq
    rfl
  rw [List.map_id] at hmissing
  rw [reported, List.nodup_append', List.nodup_append']
  refine ⟨⟨hfailed, hmissing, ?_⟩, hchanges, ?_⟩
  · intro key hfirst hsecond
    obtain ⟨⟨key', e⟩, hmem, rfl⟩ := List.mem_map.mp hfirst
    cases outcome_unique hkeys (h.mem_failed_iff.mp hmem) (h.mem_missing_iff.mp hsecond)
  · intro key hfirst hsecond
    obtain ⟨change, hmem, rfl⟩ := List.mem_map.mp hsecond
    have hchanged := h.mem_changes_iff.mp hmem
    rcases List.mem_append.mp hfirst with hfirst | hfirst
    · obtain ⟨⟨key', e⟩, hmem', heq⟩ := List.mem_map.mp hfirst
      obtain rfl : key' = change.key := heq
      cases outcome_unique hkeys (h.mem_failed_iff.mp hmem') hchanged
    · cases outcome_unique hkeys (h.mem_missing_iff.mp hfirst) hchanged

end Report

/-! ## Reports of runs -/

namespace Vault

/-- The tree that a run over entries leaves, and what becomes of the keys with accepted
suggestions. -/
def updateAll (t : Tree) (v : Vault) (o : ApplyOptions) (clock : Clock) :
    List (Text × List Suggestion) → Tree × List (Text × Outcome)
  | [] => (t, [])
  | (key, suggestions) :: rest =>
    let accepted := suggestions.filter fun s => s.confidence.atLeast o.floor
    if accepted.isEmpty then updateAll t v o clock rest
    else
      let (t, outcome) := v.update t o (clock.stamp key) key accepted
      let (t, outcomes) := updateAll t v o clock rest
      (t, (key, outcome) :: outcomes)

/-- What becomes of the keys of a map in a run. -/
def outcomes (t : Tree) (v : Vault) (o : ApplyOptions) (clock : Clock) (m : SuggestionMap) :
    List (Text × Outcome) :=
  (v.updateAll t o clock m.entries).2

variable {t : Tree} {v : Vault} {o : ApplyOptions} {clock : Clock} {m : SuggestionMap}

/-- A run can be gone through first and reported then. -/
theorem applyAll_eq (t : Tree) (v : Vault) (o : ApplyOptions) (clock : Clock) (r : Report)
    (l : List (Text × List Suggestion)) :
    v.applyAll t o clock r l =
      ((v.updateAll t o clock l).1, r.recordAll (v.updateAll t o clock l).2) := by
  induction l generalizing t r with
  | nil => rfl
  | cons e rest ih =>
      obtain ⟨key, suggestions⟩ := e
      rw [applyAll, updateAll]
      dsimp only
      split
      next => exact ih t r
      next => exact ih _ _

theorem apply_eq (t : Tree) (v : Vault) (o : ApplyOptions) (clock : Clock) (m : SuggestionMap) :
    v.apply t o clock m =
      ((v.updateAll t o clock m.entries).1,
        Report.recordAll { dryRun := o.dryRun } (v.outcomes t o clock m)) :=
  applyAll_eq t v o clock { dryRun := o.dryRun } m.entries

theorem fst_apply : (v.apply t o clock m).1 = (v.updateAll t o clock m.entries).1 :=
  congrArg Prod.fst (apply_eq t v o clock m)

theorem snd_apply :
    (v.apply t o clock m).2 =
      Report.recordAll { dryRun := o.dryRun } (v.outcomes t o clock m) :=
  congrArg Prod.snd (apply_eq t v o clock m)

theorem tells_apply : (v.apply t o clock m).2.Tells (v.outcomes t o clock m) := by
  have hempty : Report.Tells { dryRun := o.dryRun } [] := ⟨rfl, rfl, rfl⟩
  rw [snd_apply]
  exact hempty.recordAll (v.outcomes t o clock m)

/-- The numbers that are kept up are those of the changes. -/
theorem isBalanced_apply : (v.apply t o clock m).2.IsBalanced := by
  have hempty : Report.IsBalanced { dryRun := o.dryRun } := ⟨rfl, rfl⟩
  rw [snd_apply]
  exact hempty.recordAll (v.outcomes t o clock m)

end Vault

end NoteLinks
