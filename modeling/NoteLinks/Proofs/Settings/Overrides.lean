/-
# Overrides

Thresholds are overridden under the names of degrees of eagerness. Such a name is known in any
letter case, and a key that is the name of no degree is an error. But an override is looked up under
the name in lower case only. So of the overrides that are accepted those count whose keys are in
lower case. The others say nothing and are not reported either.
-/
import NoteLinks.Proofs.Ordered.KeyMap
import NoteLinks.Settings

namespace NoteLinks

/-! ## Names -/

namespace Eagerness

variable {n : Eagerness} {key : Text}

theorem lowerAscii_name (n : Eagerness) : Text.lowerAscii n.name = n.name := by
  cases n <;> decide

theorem ofName_eq_ok_iff : ofName key = .ok n ↔ Text.lowerAscii key = n.name := by
  constructor
  · intro h
    unfold ofName orUnknown at h
    split at h
    next found hfound =>
      cases h
      have hname := List.find?_some (p := fun a : Eagerness => a.name == Text.lowerAscii key) hfound
      exact (beq_iff_eq.mp hname).symm
    next => cases h
  · intro h
    rw [ofName, h]
    cases n <;> rfl

end Eagerness

/-! ## What is accepted -/

namespace Override

/-- The thresholds that are given, and those that go with a degree where none are given. -/
def appliedTo (o : Override) (usual : Thresholds) : Thresholds where
  minScore := o.minScore.getD usual.minScore
  maxLinks := o.maxLinks.getD usual.maxLinks

/-- A score that is given is a part of one. -/
def InRange (o : Override) : Prop := ∀ score ∈ o.minScore, 0.0 ≤ score ∧ score ≤ 1.0

end Override

namespace Settings

variable {s : Settings} {n : Eagerness} {thresholds' : Thresholds} {key : Text} {o : Override}

/-- No two keys of overrides differ in letter case only, and all scores are in range. -/
structure HasPlainOverrides (s : Settings) : Prop where
  distinct : ∀ k ∈ s.overrides.keys, ∀ l ∈ s.overrides.keys,
    Text.lowerAscii k = Text.lowerAscii l → k = l
  inRange : ∀ e ∈ s.overrides.entries, e.2.InRange

theorem checkOverrides_eq_ok_iff {keys : List Text} :
    checkOverrides keys = .ok () ↔ ∀ key ∈ keys, ∃ n, Eagerness.ofName key = .ok n := by
  induction keys with
  | nil => simp [checkOverrides]
  | cons key keys ih =>
      rw [checkOverrides, List.forall_mem_cons, ← ih]
      cases Eagerness.ofName key <;> simp

theorem check_of_thresholds (h : s.thresholds n = .ok thresholds') :
    checkOverrides s.overrides.keys = .ok () := by
  rw [thresholds] at h
  cases hcheck : checkOverrides s.overrides.keys with
  | ok _ => rfl
  | error e =>
      rw [hcheck] at h
      cases h

theorem overriddenScore_of_inRange (h : o.InRange) (n : Eagerness) :
    overriddenScore n o = .ok (o.minScore.getD n.thresholds.minScore) := by
  rw [overriddenScore]
  split
  next hnone => rw [hnone, Option.getD_none]
  next score hsome =>
    obtain ⟨hlow, hhigh⟩ := h score hsome
    rw [hsome, Option.getD_some, if_pos (by simp [hlow, hhigh])]

/-- Overrides are looked up under the names as they are written in lower case. -/
theorem thresholds_of_check (hcheck : checkOverrides s.overrides.keys = .ok ())
    (hrange : ∀ e ∈ s.overrides.entries, e.2.InRange) (n : Eagerness) :
    s.thresholds n = .ok (((s.overrides.find? n.name).map (·.appliedTo n.thresholds)).getD
      n.thresholds) := by
  rw [thresholds, hcheck]
  simp only [bind, Except.bind]
  cases hfind : s.overrides.find? n.name with
  | none => rfl
  | some o =>
      have ho := hrange _ (KeyMap.find?_eq_some_iff.mp hfind)
      simp only [overriddenScore_of_inRange ho]
      rfl

/-- Beside a key in another case there is none in lower case. -/
theorem find?_eq_none_of_key_ne (h : s.HasPlainOverrides) (hkey : key ∈ s.overrides.keys)
    (hname : Eagerness.ofName key = .ok n) (hne : key ≠ n.name) :
    s.overrides.find? n.name = none := by
  rw [← Option.not_isSome_iff_eq_none, ← KeyMap.mem_keys_iff]
  intro hmem
  have hcase : Text.lowerAscii key = Text.lowerAscii n.name := by
    rw [Eagerness.ofName_eq_ok_iff.mp hname, Eagerness.lowerAscii_name]
  exact hne (h.distinct key hkey n.name hmem hcase)

/-- Every key of an override that is accepted is the name of a degree. If the key is in lower case,
the thresholds of this degree are those given under it, as far as they are given. If it is not,
the thresholds are those that go with the degree, as they are for a degree without a key. So an
override counts exactly if its key is in lower case or it says nothing new. -/
theorem override_counts_iff_key_is_name (h : s.HasPlainOverrides)
    (haccepted : ∃ n usual, s.thresholds n = .ok usual) :
    (∀ key o, (key, o) ∈ s.overrides.entries →
      ∃ n, Eagerness.ofName key = .ok n ∧
        (key = n.name → s.thresholds n = .ok (o.appliedTo n.thresholds)) ∧
        (key ≠ n.name → s.thresholds n = .ok n.thresholds) ∧
        (s.thresholds n = .ok (o.appliedTo n.thresholds) ↔
          key = n.name ∨ o.appliedTo n.thresholds = n.thresholds)) ∧
      ∀ n, (∀ key ∈ s.overrides.keys, Eagerness.ofName key ≠ .ok n) →
        s.thresholds n = .ok n.thresholds := by
  obtain ⟨_, _, haccepted⟩ := haccepted
  have hcheck := check_of_thresholds haccepted
  have hthresholds := thresholds_of_check hcheck h.inRange
  constructor
  · intro key o hmem
    have hkey : key ∈ s.overrides.keys := List.mem_map_of_mem hmem
    obtain ⟨n, hname⟩ := checkOverrides_eq_ok_iff.mp hcheck key hkey
    have hlower (heq : key = n.name) : s.thresholds n = .ok (o.appliedTo n.thresholds) := by
      rw [hthresholds, ← heq, KeyMap.find?_eq_some_iff.mpr hmem]
      rfl
    have hother (hne : key ≠ n.name) : s.thresholds n = .ok n.thresholds := by
      rw [hthresholds, find?_eq_none_of_key_ne h hkey hname hne]
      rfl
    refine ⟨n, hname, hlower, hother, fun hcounts => ?_, ?_⟩
    · by_cases heq : key = n.name
      · exact .inl heq
      · rw [hother heq] at hcounts
        exact .inr (Except.ok.inj hcounts).symm
    · rintro (heq | hsame)
      · exact hlower heq
      · by_cases heq : key = n.name
        · exact hlower heq
        · rw [hother heq, hsame]
  · intro n hnone
    have hfind : s.overrides.find? n.name = none := by
      rw [← Option.not_isSome_iff_eq_none, ← KeyMap.mem_keys_iff]
      intro hmem
      exact hnone n.name hmem (Eagerness.ofName_eq_ok_iff.mpr n.lowerAscii_name)
    rw [hthresholds, hfind]
    rfl

/-- Settings with one override in capitals and one in lower case. -/
def mixedCase : Settings where
  overrides := ⟨[("CONSERVATIVE".toList, { minScore := some 0.6 }),
    ("balanced".toList, { minScore := some 0.25, maxLinks := some 3 })], by decide⟩

theorem override_in_capitals_beside_lower_case :
    mixedCase.HasPlainOverrides ∧ (∃ usual, mixedCase.thresholds .aggressive = .ok usual) ∧
      mixedCase.thresholds .conservative = .ok ⟨0.7, 5⟩ ∧
      mixedCase.thresholds .balanced = .ok ⟨0.25, 3⟩ := by
  have hplain : mixedCase.HasPlainOverrides := by
    refine ⟨by decide, ?_⟩
    simp only [mixedCase, List.forall_mem_cons, Override.InRange]
    decide +kernel
  have haccepted : ∃ usual, mixedCase.thresholds .aggressive = .ok usual := ⟨_, rfl⟩
  have hcounts := (override_counts_iff_key_is_name hplain ⟨_, haccepted⟩).1
  refine ⟨hplain, haccepted, ?_, ?_⟩
  · obtain ⟨n, hname, -, hother, -⟩ :=
      hcounts "CONSERVATIVE".toList { minScore := some 0.6 } List.mem_cons_self
    obtain rfl : Eagerness.conservative = n := Except.ok.inj hname
    exact hother (by decide)
  · obtain ⟨n, hname, hlower, -⟩ := hcounts "balanced".toList
      { minScore := some 0.25, maxLinks := some 3 } (List.mem_cons_of_mem _ List.mem_cons_self)
    obtain rfl : Eagerness.balanced = n := Except.ok.inj hname
    exact hlower rfl

theorem capitalised_override_does_not_count :
    ∃ s o, ofText? "[suggest.profiles.Balanced]\nmax_links = 3\n".toList = some s ∧
      s.HasPlainOverrides ∧ ("Balanced".toList, o) ∈ s.overrides.entries ∧
      o.maxLinks = some 3 ∧ Eagerness.ofName "Balanced".toList = .ok .balanced ∧
      s.thresholds .balanced = .ok ⟨0.5, 10⟩ ∧
      s.thresholds .balanced ≠ .ok (o.appliedTo Eagerness.balanced.thresholds) := by
  have hread : ((ofText? "[suggest.profiles.Balanced]\nmax_links = 3\n".toList).map fun s =>
      s.overrides.entries.map fun e => (e.1, e.2.minScore.isNone, e.2.maxLinks)) =
        some [("Balanced".toList, true, some 3)] := by decide +kernel
  obtain ⟨s, hs, hmap⟩ := Option.map_eq_some_iff.mp hread
  obtain ⟨⟨key, o⟩, hentries, hentry⟩ := List.map_eq_singleton_iff.mp hmap
  simp only [Prod.mk.injEq, Option.isNone_iff_eq_none] at hentry
  obtain ⟨rfl, hscore, hlinks⟩ := hentry
  have hkeys : s.overrides.keys = ["Balanced".toList] := by rw [KeyMap.keys, hentries]; rfl
  have husual : s.thresholds .balanced = .ok ⟨0.5, 10⟩ := by
    rw [thresholds, hkeys, KeyMap.find?, hentries]
    rfl
  have hplain : s.HasPlainOverrides := by
    constructor
    · simp [hkeys]
    · simp [hentries, Override.InRange, hscore]
  refine ⟨s, o, hs, hplain, by simp [hentries], hlinks, rfl, husual, ?_⟩
  rw [husual]
  intro hsame
  have hten := congrArg Thresholds.maxLinks (Except.ok.inj hsame)
  rw [Override.appliedTo, hlinks] at hten
  cases hten

end Settings

end NoteLinks
