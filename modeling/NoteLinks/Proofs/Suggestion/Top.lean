/-
# The top of the ranking

What is suggested to a note is the top of a ranking. The ranking is strict: a suggestion comes
before another one if it has the better score, or the same score and the target that comes first.
What is listed meets the least score, and what is not listed misses it or comes behind a full
list.

None of this needs the indexes of the snapshot to be exact. A snapshot from a file may have
indexes that say something else than its records. It is enough that it is closed, so that no
target is listed that is not there.
-/
import NoteLinks.Proofs.Suggestion.Ranking

namespace NoteLinks

/-- The place of a strategy in the order in which strategies are listed. -/
def Strategy.place (strategy : Strategy) : Nat := all.idxOf strategy

/-! ## The order of the ranking -/

/-- Floats with the same place in the total order are the same. -/
theorem totalOrderKey_injective : Function.Injective totalOrderKey := by
  intro x y h
  have hbits : x.toBits.toNat = y.toBits.toNat := by
    simp only [totalOrderKey] at h
    split at h <;> split at h <;> omega
  cases x with
  | ofModel x =>
      cases y with
      | ofModel y =>
          cases x with
          | mk x hx =>
              cases y with
              | mk y hy =>
                  obtain rfl : x = y := UInt64.toNat_inj.mp hbits
                  rfl

/-- A suggestion comes before another one: it has the better score, or the same score and the
target that comes first. -/
def Suggestion.Before (a b : Suggestion) : Prop :=
  totalOrderKey b.score < totalOrderKey a.score ∨ a.score = b.score ∧ a.target < b.target

namespace Ranking

variable {a b : Suggestion} {candidates : List Candidate}

theorem precedes_iff : precedes a b = true ↔
    totalOrderKey b.score < totalOrderKey a.score ∨
      totalOrderKey a.score = totalOrderKey b.score ∧ ¬ b.target < a.target := by
  simp [precedes]

theorem not_lt_trans {x y z : Text} (hyx : ¬ y < x) (hzy : ¬ z < y) : ¬ z < x := by
  intro hzx
  by_cases hxy : x < y
  · exact hzy (LawfulKey.trans hzx hxy)
  · exact hzy (LawfulKey.connected hxy hyx ▸ hzx)

theorem precedes_trans (a b c : Suggestion) (hab : precedes a b = true)
    (hbc : precedes b c = true) : precedes a c = true := by
  rw [precedes_iff] at *
  rcases hab with hab | ⟨hab, hba⟩ <;> rcases hbc with hbc | ⟨hbc, hcb⟩
  · exact .inl (hbc.trans hab)
  · exact .inl (hbc ▸ hab)
  · exact .inl (hab ▸ hbc)
  · exact .inr ⟨hab.trans hbc, not_lt_trans hba hcb⟩

theorem precedes_total (a b : Suggestion) : (precedes a b || precedes b a) = true := by
  rw [Bool.or_eq_true, precedes_iff, precedes_iff]
  rcases lt_trichotomy (totalOrderKey a.score) (totalOrderKey b.score) with h | h | h
  · exact .inr (.inl h)
  · by_cases htarget : b.target < a.target
    · exact .inr (.inr ⟨h.symm, LawfulKey.asymm htarget⟩)
    · exact .inl (.inr ⟨h, htarget⟩)
  · exact .inl (.inl h)

/-- Two suggestions for different targets are never on a par. -/
theorem before_of_precedes (h : precedes a b = true) (hne : a.target ≠ b.target) : a.Before b := by
  rcases precedes_iff.mp h with h | ⟨h, hba⟩
  · exact .inl h
  · refine .inr ⟨totalOrderKey_injective h, ?_⟩
    by_contra hab
    exact hne (LawfulKey.connected hab hba)

theorem pairwise_before_rank (s : Snapshot) (candidates : List Candidate) :
    (rank s candidates).Pairwise Suggestion.Before := by
  have hsorted : (rank s candidates).Pairwise fun a b => precedes a b = true :=
    List.pairwise_mergeSort precedes_trans precedes_total _
  have hne : (rank s candidates).Pairwise fun a b => a.target ≠ b.target :=
    List.pairwise_map.mp (nodup_targets_rank s candidates)
  exact (hsorted.and hne).imp fun h => before_of_precedes h.1 h.2

/-- The strategies of candidates are listed in order, each once, and they are those of the
reasons. -/
theorem strategiesOf_ascending (candidates : List Candidate) :
    (strategiesOf candidates).Pairwise fun a b => a.place < b.place := by
  have hall : Strategy.all.Pairwise fun a b => a.place < b.place := by decide
  exact hall.filter _

theorem mem_strategiesOf_iff {strategy : Strategy} : strategy ∈ strategiesOf candidates ↔
    ∃ r ∈ candidates.map Candidate.reason, r.kind.strategy = strategy := by
  have hall : strategy ∈ Strategy.all := by cases strategy <;> decide
  simp [strategiesOf, hall]

/-! ## What is cut off -/

variable {ranked : List Suggestion} {thresholds : Thresholds} {x : Suggestion}

theorem select_sublist : (select thresholds ranked).Sublist ranked :=
  (List.take_sublist _ _).trans List.filter_sublist

theorem minScore_le_of_mem_select (h : x ∈ select thresholds ranked) :
    x.score ≥ thresholds.minScore :=
  of_decide_eq_true (List.mem_filter.mp (List.mem_of_mem_take h)).2

/-- What is not selected misses the least score, or it comes behind a full list. -/
theorem behind_of_not_mem_select (hordered : ranked.Pairwise Suggestion.Before)
    (hx : x ∈ ranked) (hnot : x ∉ select thresholds ranked) :
    ¬ x.score ≥ thresholds.minScore ∨
      (select thresholds ranked).length = thresholds.maxLinks ∧
        ∀ y ∈ select thresholds ranked, y.Before x := by
  by_cases hscore : x.score ≥ thresholds.minScore
  · right
    -- What meets the least score is the selection and, behind it, what is cut off.
    have hmem : x ∈ ranked.filter fun s => decide (s.score ≥ thresholds.minScore) :=
      List.mem_filter.mpr ⟨hx, decide_eq_true hscore⟩
    have hsplit := List.take_append_drop thresholds.maxLinks
      (ranked.filter fun s => decide (s.score ≥ thresholds.minScore))
    have hbehind : x ∈ (ranked.filter fun s => decide (s.score ≥ thresholds.minScore)).drop
        thresholds.maxLinks := by
      rw [← hsplit, List.mem_append] at hmem
      exact hmem.resolve_left hnot
    have hfiltered := hordered.filter fun s => decide (s.score ≥ thresholds.minScore)
    rw [← hsplit, List.pairwise_append] at hfiltered
    refine ⟨?_, fun y hy => hfiltered.2.2 y hy x hbehind⟩
    have hlong := List.length_pos_of_mem hbehind
    rw [List.length_drop] at hlong
    rw [select, List.length_take, Nat.min_eq_left (by omega)]
  · exact .inl hscore

end Ranking

namespace Snapshot

variable {s : Snapshot} {thresholds : Thresholds} {source target : Text}

/-! ## The candidates for a target -/

/-- The candidates for a note that have a target. -/
def candidatesFor (s : Snapshot) (source target : Text) : List Candidate :=
  (Candidate.all s source).filter fun c => c.target = target

/-- The suggestion that the candidates for a target make. -/
def entryFor (s : Snapshot) (source target : Text) : Suggestion :=
  Ranking.suggestionOf s target (s.candidatesFor source target)

theorem mem_rank_all_iff {x : Suggestion} :
    x ∈ Ranking.rank s (Candidate.all s source) ↔
      ∃ target, s.candidatesFor source target ≠ [] ∧ x = s.entryFor source target :=
  Ranking.mem_rank_iff

/-- What a suggestion says of a note of the snapshot, and why it may be made. -/
structure IsSound (s : Snapshot) (thresholds : Thresholds) (source : Text) (x : Suggestion) :
    Prop where
  /-- The target is another note of the snapshot, and it is not linked yet. -/
  target : ∃ own other, s.files.find? source = some own ∧ s.files.find? x.target = some other ∧
    x.target ≠ source ∧ Candidate.accepts source own.links x.target (some other.title) = true ∧
    x.targetTitle =
      if Text.trim other.title = [] then Path.stem x.target else Text.trim other.title
  entry : x = s.entryFor source x.target
  enough : x.score ≥ thresholds.minScore
  reasons : x.reasons ≠ []
  strategies : x.strategies.Pairwise (fun a b => a.place < b.place) ∧
    ∀ strategy, strategy ∈ x.strategies ↔ ∃ r ∈ x.reasons, r.kind.strategy = strategy
  confidence : x.confidence = .classify x.score x.strategies.length

/-- Suggestions are the top of the ranking. -/
structure IsTop (s : Snapshot) (thresholds : Thresholds) (source : Text)
    (listed : List Suggestion) : Prop where
  sound : ∀ x ∈ listed, s.IsSound thresholds source x
  distinct : (listed.map Suggestion.target).Nodup
  ordered : listed.Pairwise Suggestion.Before
  few : listed.length ≤ thresholds.maxLinks
  /-- What is not listed misses the least score, or it comes behind a full list. -/
  complete : ∀ target, s.candidatesFor source target ≠ [] → (∀ x ∈ listed, x.target ≠ target) →
    ¬ (s.entryFor source target).score ≥ thresholds.minScore ∨
      listed.length = thresholds.maxLinks ∧ ∀ x ∈ listed, x.Before (s.entryFor source target)

theorem accepts_ne {own : Note} {title : Option Text}
    (h : Candidate.accepts source own.links target title = true) : target ≠ source := by
  rw [Candidate.accepts, Bool.and_eq_true, decide_eq_true_eq] at h
  exact h.1

theorem titleOf_eq {other : Note} (h : s.files.find? target = some other) :
    Ranking.titleOf s target =
      if Text.trim other.title = [] then Path.stem target else Text.trim other.title := by
  rw [Ranking.titleOf, h]
  simp only [List.isEmpty_iff]

/-- An entry of the ranking that meets the least score is sound. -/
theorem isSound_entryFor (hclosed : s.IsClosed) (hne : s.candidatesFor source target ≠ [])
    (hscore : (s.entryFor source target).score ≥ thresholds.minScore) :
    s.IsSound thresholds source (s.entryFor source target) := by
  obtain ⟨c, hmem⟩ := List.exists_mem_of_ne_nil _ hne
  obtain ⟨hc, htarget⟩ := List.mem_filter.mp hmem
  obtain ⟨own, hown, hknown, hadmits⟩ := Candidate.admits_of_mem_all hclosed hc
  rw [of_decide_eq_true htarget] at hknown hadmits
  obtain ⟨other, hother⟩ := Option.isSome_iff_exists.mp (KeyMap.mem_keys_iff.mp hknown)
  rw [Candidate.admits, hother] at hadmits
  exact {
    target := ⟨own, other, hown, hother, accepts_ne hadmits, hadmits, titleOf_eq hother⟩
    entry := rfl
    enough := hscore
    reasons := mt List.map_eq_nil_iff.mp hne
    strategies := ⟨Ranking.strategiesOf_ascending _, fun _ => Ranking.mem_strategiesOf_iff⟩
    confidence := rfl }

theorem isTop_suggestionsFor (hclosed : s.IsClosed) (thresholds : Thresholds) (source : Text) :
    s.IsTop thresholds source (s.suggestionsFor thresholds source) where
  sound x hx := by
    obtain ⟨target, hne, rfl⟩ := mem_rank_all_iff.mp (Ranking.select_sublist.subset hx)
    exact isSound_entryFor hclosed hne (Ranking.minScore_le_of_mem_select hx)
  distinct := nodup_targets s thresholds source
  ordered := (Ranking.pairwise_before_rank s _).sublist Ranking.select_sublist
  few := List.length_take_le _ _
  complete target hne hnot :=
    Ranking.behind_of_not_mem_select (Ranking.pairwise_before_rank s _)
      (mem_rank_all_iff.mpr ⟨target, hne, rfl⟩) fun hmem => hnot _ hmem rfl

/-! ## All notes together -/

theorem suggestionsFor_eq_nil (h : s.files.find? source = none) :
    s.suggestionsFor thresholds source = [] := by
  rw [suggestionsFor, Candidate.all, h]
  simp [Ranking.rank, Ranking.gather, KeyMap.empty, Ranking.select]

theorem find?_suggestions_eq_some_iff {found : List Suggestion} :
    (s.suggestions thresholds).find? source = some found ↔
      found = s.suggestionsFor thresholds source ∧ found ≠ [] := by
  rw [suggestions, KeyMap.find?_filterMap, Option.bind_eq_some_iff]
  simp only [Option.ite_none_left_eq_some, Option.some.injEq, List.isEmpty_iff]
  constructor
  · rintro ⟨_, -, hne, rfl⟩
    exact ⟨rfl, hne⟩
  · rintro ⟨rfl, hne⟩
    obtain ⟨own, hown⟩ := Option.ne_none_iff_exists'.mp (mt suggestionsFor_eq_nil hne)
    exact ⟨own, hown, hne, rfl⟩

/-- In a snapshot that passes the check, what is suggested to a note is the top of the ranking,
and the map of suggestions has just the notes to which anything is suggested. -/
theorem suggestions_are_top (s : Snapshot) (thresholds : Thresholds) (h : s.dangling? = none) :
    (∀ source, s.IsTop thresholds source (s.suggestionsFor thresholds source)) ∧
      ∀ source found, (s.suggestions thresholds).find? source = some found ↔
        found = s.suggestionsFor thresholds source ∧ found ≠ [] :=
  ⟨isTop_suggestionsFor (dangling?_eq_none_iff.mp h) thresholds,
    fun _ _ => find?_suggestions_eq_some_iff⟩

/-- The snapshot of a note with a tag and of two notes without it, which an edited index has under
the tag. -/
def withEditedTags : Snapshot :=
  let s := ofNotes (KeyMap.ofList [
    ("a.md".toList, { Note.empty with tags := ["x".toList] }),
    ("b.md".toList, { Note.empty with title := " B ".toList }),
    ("c.md".toList, Note.empty)])
  { s with tags := (s.tags.add "x".toList "c.md".toList).add "x".toList "b.md".toList }

/-- Both notes have the least score, and there is room for one. -/
theorem first_target_fills_list :
    withEditedTags.dangling? = none ∧
      withEditedTags.suggestionsFor ⟨0.3, 1⟩ "a.md".toList =
        [withEditedTags.entryFor "a.md".toList "b.md".toList] := by
  have hchecked : withEditedTags.dangling? = none := rfl
  refine ⟨hchecked, ?_⟩
  have htop := (suggestions_are_top withEditedTags ⟨0.3, 1⟩ hchecked).1 "a.md".toList
  generalize withEditedTags.suggestionsFor ⟨0.3, 1⟩ "a.md".toList = listed at htop
  have hlisted : ∃ x ∈ listed, x.target = "b.md".toList := by
    by_contra hnone
    have hcut := htop.complete "b.md".toList (List.ne_nil_of_length_pos (by decide +kernel))
      fun x hx htarget => hnone ⟨x, hx, htarget⟩
    obtain ⟨hfull, hbefore⟩ := hcut.resolve_left (not_not_intro (by decide +kernel))
    obtain ⟨x, rfl⟩ := List.length_eq_one_iff.mp hfull
    have hx := List.mem_singleton_self x
    obtain ⟨own, other, -, hother, hself, -⟩ := (htop.sound x hx).target
    have hkey : x.target ∈ withEditedTags.files.keys :=
      KeyMap.mem_keys_iff.mpr (by rw [hother]; rfl)
    -- The other one has the same score, and its target comes last.
    rcases List.mem_cons.mp hkey with ha | hkey
    · exact hself ha
    rcases List.mem_cons.mp hkey with hb | hkey
    · exact hnone ⟨x, hx, hb⟩
    have hlast := hbefore x hx
    rw [(htop.sound x hx).entry, List.mem_singleton.mp hkey] at hlast
    revert hlast
    unfold Suggestion.Before
    decide +kernel
  obtain ⟨x, hx, htarget⟩ := hlisted
  obtain ⟨y, rfl⟩ : ∃ y, listed = [y] :=
    List.length_eq_one_iff.mp (Nat.le_antisymm htop.few (List.length_pos_of_mem hx))
  rw [← List.mem_singleton.mp hx, (htop.sound x hx).entry, htarget]

end Snapshot

end NoteLinks
