/-
# The size of scores

Many weights may add up to anything. A score is capped before it is rounded, and so it is small,
unless it is not a number. The latter meets no least score. It follows that all suggestions that
are made can be read back from a data file.
-/
import NoteLinks.Proofs.Decimal.Scaled
import NoteLinks.Proofs.Suggestion.Top

namespace NoteLinks

open Float.Model (UnpackedFloat)
open Magnitude (Under Normal)

/-! ## Comparing floats -/

theorem Float.lt_iff {x y : Float} :
    x < y ↔ x.toModel.unpack.compare y.toModel.unpack = some .lt := by
  show Float.lt x y = true ↔ _
  rw [Float.lt, decide_eq_true_eq]
  show Float.Model.lt x.toModel y.toModel = true ↔ _
  rw [Float.Model.lt, UnpackedFloat.lt, beq_iff_eq]

theorem Float.le_iff {x y : Float} :
    x ≤ y ↔ (x.toModel.unpack.compare y.toModel.unpack).any Ordering.isLE = true := by
  show Float.le x y = true ↔ _
  rw [Float.le, decide_eq_true_eq]
  rfl

/-- What is not less than a number is a number. -/
theorem Float.unpack_ne_of_le {x y : Float} (h : x ≤ y) : y.toModel.unpack ≠ .notANumber := by
  intro hy
  rw [Float.le_iff, hy] at h
  cases hx : x.toModel.unpack <;> rw [hx] at h <;> cases h

/-- The mantissa of a float has 53 bits. -/
theorem Float.mantissa_lt {x : Float} {s : UnpackedFloat.Sign} {m : Nat} {e : Int} {hm : 0 < m}
    (h : x.toModel.unpack = .finite s m e hm) : m < 2 ^ 53 := by
  rw [Float.Model.unpack, UnpackedFloat.unpack] at h
  simp only at h
  split at h
  next => split at h <;> cases h
  next =>
    split at h
    next =>
      split at h
      next => cases h
      next =>
        cases h
        exact (BitVec.isLt _).trans (by decide)
    next =>
      cases h
      exact BitVec.isLt _

namespace Ranking

/-- The weights of a score, capped. -/
def cap (weight : Float) : Float :=
  if weight < 0.0 then 0.0 else if weight > 1.0 then 1.0 else weight

theorem scoreOf_eq (weight : Float) :
    scoreOf weight = roundToWhole (cap weight * 1000000.0) / 1000000.0 := rfl

theorem unpack_one :
    (1.0 : Float).toModel.unpack = .finite .positive (2 ^ 52) (-52) (by decide) := rfl

theorem under_cap {weight : Float} (h : weight.toModel.unpack ≠ .notANumber) :
    Under 1 (cap weight) := by
  rw [cap]
  split
  next => decide +kernel
  next hnonneg =>
    split
    next => decide +kernel
    next hle =>
      rw [Float.lt_iff] at hnonneg
      rw [gt_iff_lt, Float.lt_iff, unpack_one] at hle
      rw [Under]
      cases hw : weight.toModel.unpack with
      | notANumber => exact absurd hw h
      | zero => trivial
      | infinity s =>
          rw [hw] at hnonneg hle
          cases s with
          | positive => exact absurd rfl hle
          | negative => exact absurd rfl hnonneg
      | finite s m e hm =>
          have hmantissa := Float.mantissa_lt hw
          rw [hw] at hnonneg hle
          cases s with
          | positive =>
              refine ⟨53, hmantissa, ?_⟩
              by_contra hlarge
              refine hle (congrArg some (?_ : (compare (-52) e).then (compare (2 ^ 52) m) = .lt))
              rw [Int.compare_eq_lt.mpr (by omega)]
              rfl
          | negative => exact absurd rfl hnonneg

/-- The whole number nearest to a float is not much larger. -/
theorem under_roundToWhole {n : Nat} {x : Float} (h : Under n x) (hn : n ≤ 800) :
    Under (n + 4) (roundToWhole x) := by
  obtain ⟨negative, m, q, hvalue, hsize⟩ := Float.exists_value h
  rw [roundToWhole, hvalue]
  split
  next negative m e heq =>
    obtain ⟨rfl, rfl, rfl⟩ := FloatValue.finite.inj heq
    have hpos : 0 < 2 ^ (e + 1) := Nat.two_pow_pos _
    have hm : m < 2 ^ n * 2 ^ (e + 1) := by
      obtain rfl | ⟨k, hk, hle⟩ := hsize
      · exact Nat.mul_pos (Nat.two_pow_pos n) hpos
      · rw [← Nat.pow_add]
        exact hk.trans_le (Nat.pow_le_pow_right (by decide) (by omega))
    have hwhole : (2 * m + 2 ^ (e + 1)) / (2 * 2 ^ (e + 1)) < 2 ^ (n + 1) := by
      have hone : 2 ^ (e + 1) ≤ 2 ^ n * 2 ^ (e + 1) := Nat.le_mul_of_pos_left _ (Nat.two_pow_pos n)
      rw [Nat.div_lt_iff_lt_mul (by omega)]
      calc 2 * m + 2 ^ (e + 1) < 4 * (2 ^ n * 2 ^ (e + 1)) := by omega
        _ = 2 ^ (n + 1) * (2 * 2 ^ (e + 1)) := by ring
    have hunder := Magnitude.under_ofNat hwhole (by omega)
    show Under _ (if negative then -Float.ofNat _ else Float.ofNat _)
    split
    next => exact (hunder.neg (by omega) (by omega)).mono (by omega)
    next => exact hunder.mono (by omega)
  next => exact h.mono (by omega)

/-! ## What is not a number -/

theorem unpack_mul_of_notANumber {x : Float} (hx : x.toModel.unpack = .notANumber) (y : Float) :
    (x * y).toModel.unpack = .notANumber := by
  show (Float.Model.pack (.mul .binary64 x.toModel.unpack _)).unpack = _
  rw [hx, UnpackedFloat.mul]
  rfl

theorem unpack_div_of_notANumber {x : Float} (hx : x.toModel.unpack = .notANumber) (y : Float) :
    (x / y).toModel.unpack = .notANumber := by
  show (Float.Model.pack (.div .binary64 x.toModel.unpack _)).unpack = _
  rw [hx, UnpackedFloat.div]
  rfl

theorem unpack_roundToWhole_of_notANumber {x : Float} (hx : x.toModel.unpack = .notANumber) :
    (roundToWhole x).toModel.unpack = .notANumber := by
  rw [roundToWhole, FloatValue.ofFloat_eq, hx]
  exact hx

theorem cap_of_notANumber {weight : Float} (h : weight.toModel.unpack = .notANumber) :
    cap weight = weight := by
  have hlow : ¬ weight < 0.0 := by
    rw [Float.lt_iff, h]
    nofun
  have hhigh : ¬ weight > 1.0 := by
    rw [gt_iff_lt, Float.lt_iff, h, unpack_one]
    nofun
  rw [cap, if_neg hlow, if_neg hhigh]

/-! ## Scores -/

theorem normal_million : Normal 19 19 1000000.0 :=
  ⟨.positive, 1000000 * 2 ^ 33, -33, by decide, rfl, by decide, by decide, by decide⟩

theorem under_scoreOf {weight : Float} (h : (scoreOf weight).toModel.unpack ≠ .notANumber) :
    Under 8 (scoreOf weight) := by
  by_cases hweight : weight.toModel.unpack = .notANumber
  · refine absurd ?_ h
    rw [scoreOf_eq, cap_of_notANumber hweight]
    exact unpack_div_of_notANumber
      (unpack_roundToWhole_of_notANumber (unpack_mul_of_notANumber hweight _)) _
  · have hproduct := (under_cap hweight).mul normal_million.under (by decide) (by decide)
    have hwhole : Under 26 (roundToWhole (cap weight * 1000000.0)) :=
      under_roundToWhole (n := 22) hproduct (by decide)
    exact hwhole.div normal_million (by decide) (by decide)

end Ranking

namespace Snapshot

variable {s : Snapshot} {thresholds : Thresholds} {source : Text} {x : Suggestion}

/-- What is suggested has a small score. -/
theorem under_score (h : x ∈ s.suggestionsFor thresholds source) : Under 8 x.score := by
  have hnumber := Float.unpack_ne_of_le (Ranking.minScore_le_of_mem_select h)
  obtain ⟨target, -, rfl⟩ := Ranking.mem_rank_iff.mp (Ranking.select_sublist.subset h)
  exact Ranking.under_scoreOf hnumber

/-- The scores of all suggestions that are made can be read back. -/
theorem exists_float?_score {e : Text × List Suggestion}
    (he : e ∈ (s.suggestions thresholds).entries) (hx : x ∈ e.2) :
    ∃ y, Json.float? (.ofFloat x.score) = some y := by
  obtain ⟨hfound, -⟩ := find?_suggestions_eq_some_iff.mp (KeyMap.find?_eq_some_iff.mpr he)
  rw [hfound] at hx
  exact Json.exists_float?_ofFloat ((under_score hx).mono (by decide))

end Snapshot

end NoteLinks
