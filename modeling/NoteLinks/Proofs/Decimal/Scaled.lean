/-
# Floats that are read back as floats

A number in a data file that is too large for a float makes the file unreadable. So it has to be
shown of a float that is written that it can be read at all. What is read need not be the same
float, as the scaled reading is not exact.

A float that is not large has a decimal whose point is not far behind its first digit. Then the
scaled reading multiplies by a small power of ten only, or else it divides, and both have a result.
-/
import Mathlib.Algebra.Order.Field.Power
import Mathlib.Tactic.FieldSimp
import Mathlib.Tactic.Linarith
import Mathlib.Tactic.Positivity
import NoteLinks.Data.Snapshot
import NoteLinks.Proofs.Decimal.Binary
import NoteLinks.Proofs.Decimal.Rounding
import NoteLinks.Proofs.Decimal.Shortest

namespace NoteLinks

/-! ## Ratios -/

theorem scaleByTwo_eq (n : Nat) (e : Int) :
    ((scaleByTwo n e).1 : ℚ) / (scaleByTwo n e).2 = n * 2 ^ e := by
  cases e with
  | ofNat e => simp [scaleByTwo]
  | negSucc e => simp [scaleByTwo, zpow_negSucc, div_eq_mul_inv]

theorem divideByTen_eq (r : Nat × Nat) (k : Int) :
    ((divideByTen r k).1 : ℚ) / (divideByTen r k).2 = r.1 / r.2 / 10 ^ k := by
  cases k with
  | ofNat k => simp [divideByTen, div_div]
  | negSucc k => simp [divideByTen, zpow_negSucc, div_eq_mul_inv, mul_right_comm]

namespace Decimal

variable {tie : Tie} {m digits fuel steps : Nat} {q k : Int} {d : Decimal}

theorem scale_eq (q k : Int) (n : Nat) :
    ((scale q k n).1 : ℚ) / (scale q k n).2 = n * 2 ^ (q - 2) / 10 ^ k := by
  rw [scale, divideByTen_eq, scaleByTwo_eq]

/-! ## The value of a decimal -/

/-- The number that a decimal stands for. -/
def value (d : Decimal) : ℚ := d.digits * 10 ^ d.exponent

/-- What is admitted does not exceed the halfway point above. -/
theorem value_le_of_admitted (h : admitted m q k digits = true) :
    value ⟨digits, k⟩ ≤ (4 * m + 2) * 2 ^ (q - 2) := by
  have hle : digits * (scale q k (4 * m)).2 ≤ (scale q k (4 * m + 2)).1 := by
    rw [admitted, within] at h
    split at h <;> simp only [Bool.and_eq_true, decide_eq_true_eq] at h
    · exact h.2
    · exact h.2.le
  have hstep : (0 : ℚ) < (scale q k (4 * m + 2)).2 := by
    rw [scale_snd]
    exact_mod_cast step_pos q k
  have hratio := scale_eq q k (4 * m + 2)
  rw [scale_snd q k (4 * m), ← scale_snd q k (4 * m + 2)] at hle
  have hdigits : (digits : ℚ) ≤ (scale q k (4 * m + 2)).1 / (scale q k (4 * m + 2)).2 := by
    rw [le_div_iff₀ hstep]
    exact_mod_cast hle
  rw [hratio, le_div_iff₀ (by positivity)] at hdigits
  rw [value]
  exact_mod_cast hdigits

theorem value_searchGrids_le :
    value (searchGrids tie m q steps k) ≤ (4 * m + 2) * 2 ^ (q - 2) := by
  induction steps generalizing k with
  | zero =>
      rw [searchGrids, value, Nat.cast_zero, zero_mul]
      positivity
  | succ steps ih =>
      rw [searchGrids]
      split
      next digits hdigits => exact value_le_of_admitted (admitted_of_onGrid hdigits)
      next => exact ih

theorem value_stripZeros : value (stripZeros fuel d) = value d := by
  induction fuel generalizing d with
  | zero => rfl
  | succ fuel ih =>
      rw [stripZeros]
      split
      next hcond =>
        simp only [Bool.and_eq_true, decide_eq_true_eq] at hcond
        have hten : (d.digits : ℚ) = (d.digits / 10 : Nat) * 10 := by
          exact_mod_cast (Nat.div_mul_cancel (Nat.dvd_of_mod_eq_zero hcond.2)).symm
        rw [ih, value, value, hten, zpow_add_one₀ (by norm_num)]
        ring
      next => rfl

theorem value_shortest_le : value (shortest tie m q) ≤ (4 * m + 2) * 2 ^ (q - 2) := by
  rw [shortest, value_stripZeros]
  exact value_searchGrids_le

theorem exponent_searchGrids_ge : k - steps ≤ (searchGrids tie m q steps k).exponent := by
  induction steps generalizing k with
  | zero => exact Int.sub_le_self k (Int.natCast_nonneg 0)
  | succ steps ih =>
      rw [searchGrids]
      split
      next => exact Int.sub_le_self k (Int.natCast_nonneg _)
      next =>
        have hrest := ih (k := k - 1)
        omega

theorem exponent_stripZeros_ge : d.exponent ≤ (stripZeros fuel d).exponent := by
  induction fuel generalizing d with
  | zero => exact Int.le_refl _
  | succ fuel ih =>
      rw [stripZeros]
      split
      next => exact (Int.le_add_of_nonneg_right (by decide)).trans ih
      next => exact Int.le_refl _

theorem exponent_shortest_ge : -345 ≤ (shortest tie m q).exponent := by
  rw [shortest]
  refine Int.le_trans ?_ exponent_stripZeros_ge
  refine Int.le_trans ?_ exponent_searchGrids_ge
  omega

/-! ## The place of the point -/

/-- The number of digits in front of the point, if it is positive. -/
def point (d : Decimal) : Int := d.exponent + (Text.ofNat d.digits).length

/-- A small number has its point near its first digit. -/
theorem point_le (places : Nat) (hd : d.digits ≠ 0) (h : value d < 10 ^ places) :
    d.point ≤ places := by
  have hten : (0 : ℚ) < 10 ^ d.exponent := by positivity
  have hone : (1 : ℚ) ≤ d.digits := by exact_mod_cast Nat.one_le_iff_ne_zero.mpr hd
  have hexponent : d.exponent < places := by
    have hlt : (10 : ℚ) ^ d.exponent < 10 ^ (places : Int) := by
      rw [zpow_natCast]
      refine lt_of_le_of_lt ?_ h
      rw [value]
      nlinarith
    exact (zpow_lt_zpow_iff_right₀ (by norm_num)).mp hlt
  obtain ⟨room, hroom⟩ : ∃ room : Nat, (room : Int) = places - d.exponent :=
    ⟨(places - d.exponent).toNat, by omega⟩
  have hdigits : d.digits < 10 ^ room := by
    have hlt : (d.digits : ℚ) < 10 ^ (room : Int) := by
      rw [hroom, zpow_sub₀ (by norm_num), lt_div_iff₀ hten, zpow_natCast]
      exact h
    rw [zpow_natCast] at hlt
    exact_mod_cast hlt
  have hlength := (Nat.length_toDigits_le_iff (b := 10) (by decide) (by omega)).mpr hdigits
  rw [point, Text.ofNat]
  omega

/-! ## The layout -/

theorem length_positional_le (d : Decimal) : (d.positional.1.length : Int) ≤ max d.point 1 := by
  have hpos := List.length_pos_iff.mpr (Text.ofNat_ne_nil d.digits)
  rw [positional, point]
  split
  next e he =>
    rw [he, List.length_append, List.length_replicate]
    show (_ : Int) ≤ max ((e : Int) + _) 1
    omega
  next e he =>
    rw [he]
    dsimp only
    split
    next => exact le_max_right _ _
    next hlong =>
      rw [List.length_take]
      omega

end Decimal

/-- How many digits a numeral has in front of its point when its exponent is spent, if it has any
there. -/
def Numeral.reach (n : Numeral) : Int := n.whole.length + n.exponentValue

namespace Decimal

variable {d : Decimal}

theorem reach_numeral_le (negative : Bool) (d : Decimal) :
    (d.numeral negative).reach ≤ max d.point 1 := by
  rw [numeral]
  split
  next =>
    rw [Numeral.reach, Numeral.exponentValue, Int.add_zero]
    exact length_positional_le d
  next =>
    rw [Numeral.reach, Numeral.exponentValue]
    simp only [Text.natOfDigits_ofNat, List.length_take, decide_eq_true_eq]
    rw [← point]
    split <;> omega

theorem exponent_numeral_lt {negative sign : Bool} {digits : Text}
    (h : (d.numeral negative).exponent = some (sign, digits)) :
    (natOfDigits digits : Int) ≤ |d.point - 1| := by
  rw [numeral] at h
  split at h
  next => cases h
  next =>
    obtain ⟨-, rfl⟩ := Prod.mk.inj (Option.some.inj h)
    rw [Text.natOfDigits_ofNat, ← point, Int.abs_eq_natAbs]

end Decimal

/-! ## The scaled reading -/

namespace Numeral

theorem length_takeWhileFits_le (value : Nat) (t : Text) :
    (takeWhileFits value t).2.length ≤ t.length := by
  induction t generalizing value with
  | nil => exact Nat.le_refl 0
  | cons c digits ih =>
      rw [takeWhileFits]
      split
      next => exact (ih _).trans (Nat.le_succ _)
      next => exact Nat.le_refl _

/-- Division always has a result. -/
theorem isSome_scaled?_of_neg {fuel : Nat} {x : Float} {e : Int} (he : e < 0) :
    (scaled? fuel x e).isSome = true := by
  induction fuel generalizing x e with
  | zero => rfl
  | succ fuel ih =>
      rw [scaled?]
      split
      next =>
        rw [if_neg (by omega)]
        rfl
      next =>
        split
        next => rfl
        next =>
          rw [if_neg (by omega)]
          exact ih (by omega)

theorem isInf_eq_false_of_under {n : Int} {x : Float} (h : Magnitude.Under n x) :
    x.isInf = false := by
  show x.toModel.unpack.isInf = false
  cases hx : x.toModel.unpack with
  | infinity =>
      rw [Magnitude.Under, hx] at h
      exact h.elim
  | notANumber => rfl
  | zero => rfl
  | finite => rfl

theorem under_powerOfTen : ∀ e < 23, Magnitude.Under 74 (Float.ofScientific 1 false e) := by
  decide +kernel

/-- So does multiplication by a small power of ten. -/
theorem isSome_scaled?_of_le (fuel : Nat) {x : Float} {e : Int} (hx : Magnitude.Under 65 x)
    (he : e ≤ 22) : (scaled? (fuel + 1) x e).isSome = true := by
  by_cases hneg : e < 0
  · exact isSome_scaled?_of_neg hneg
  · have hproduct := hx.mul (under_powerOfTen e.natAbs (by omega)) (by decide) (by decide)
    rw [scaled?, if_pos (by omega), if_pos (by omega)]
    simp only [isInf_eq_false_of_under hproduct]
    rfl

/-- A numeral is read if it does not reach far in front of its point. -/
theorem isSome_scaledFloat? {n : Numeral} (hreach : n.reach ≤ 22)
    (hexponent : ∀ sign digits, n.exponent = some (sign, digits) →
      natOfDigits digits < 0x80000000) : n.scaledFloat?.isSome = true := by
  have hdropped := length_takeWhileFits_le 0 n.whole
  have hunread := length_takeWhileFits_le (takeWhileFits 0 n.whole).1 n.fraction
  rw [reach] at hreach
  have hscaled := isSome_scaled?_of_le 7
    (e := (takeWhileFits 0 n.whole).2.length -
      (n.fraction.length - (takeWhileFits (takeWhileFits 0 n.whole).1 n.fraction).2.length) +
        n.exponentValue)
    (Magnitude.under_toFloat
      (.ofNat (takeWhileFits (takeWhileFits 0 n.whole).1 n.fraction).1)) (by omega)
  rw [scaledFloat?, Option.isSome_map]
  cases hn : n.exponent with
  | none => exact hscaled
  | some s =>
      simp only [hexponent s.1 s.2 hn, if_true]
      exact hscaled

end Numeral

/-! ## Floats of moderate size -/

theorem Float.exists_value {n : Int} {x : Float} (h : Magnitude.Under n x) :
    ∃ negative m q, FloatValue.ofFloat x = .finite negative m q ∧
      (m = 0 ∨ Magnitude.Below n m q) := by
  rw [FloatValue.ofFloat_eq]
  cases hx : x.toModel.unpack with
  | infinity =>
      rw [Magnitude.Under, hx] at h
      exact h.elim
  | notANumber =>
      rw [Magnitude.Under, hx] at h
      exact h.elim
  | zero => exact ⟨_, _, _, rfl, .inl rfl⟩
  | finite =>
      rw [Magnitude.Under, hx] at h
      exact ⟨_, _, _, rfl, .inr h⟩

/-- The shortest decimal of a number below `2 ^ 69` has at most 22 digits in front of its point. -/
theorem Decimal.point_shortest_le {m : Nat} {q : Int} (hm : m ≠ 0) (hq : -1074 ≤ q)
    (h : Magnitude.Below 69 m q) : (shortest .even m q).point ≤ 22 := by
  obtain ⟨k, hk, hle⟩ := h
  refine point_le 22 (shortest_ne_zero hm hq) ?_
  have hquarters : (4 * m + 2 : ℚ) ≤ 2 ^ ((k : Int) + 2) := by
    rw [zpow_add₀ (by norm_num), zpow_natCast]
    have hlt : (m : ℚ) + 1 ≤ 2 ^ k := by exact_mod_cast hk
    norm_num
    linarith
  calc (shortest .even m q).value ≤ (4 * m + 2) * 2 ^ (q - 2) := value_shortest_le
    _ ≤ 2 ^ ((k : Int) + 2) * 2 ^ (q - 2) := mul_le_mul_of_nonneg_right hquarters (by positivity)
    _ = 2 ^ (k + q) := by rw [← zpow_add₀ (by norm_num)]; congr 1; omega
    _ ≤ 2 ^ (69 : Int) := zpow_le_zpow_right₀ (by norm_num) hle
    _ < 10 ^ 22 := by norm_num

/-- A float of moderate size that is written to a data file is read back as a float. -/
theorem Json.exists_float?_ofFloat {x : Float} (h : Magnitude.Under 69 x) :
    ∃ y, float? (ofFloat x) = some y := by
  obtain ⟨negative, m, q, hvalue, hsize⟩ := Float.exists_value h
  have hq := FloatValue.exponent_ge hvalue
  rw [ofFloat, Float.numeral?, hvalue]
  refine Option.isSome_iff_exists.mp (Numeral.isSome_scaledFloat? ?_ ?_)
  · split
    next => show (1 : Int) + 0 ≤ 22; decide
    next hm =>
      have hpoint := Decimal.point_shortest_le hm hq (hsize.resolve_left hm)
      exact (Decimal.reach_numeral_le negative _).trans (by omega)
  · intro sign digits hexponent
    split at hexponent
    next => cases hexponent
    next hm =>
      have hpoint := Decimal.point_shortest_le hm hq (hsize.resolve_left hm)
      have hlow : -345 ≤ (Decimal.shortest .even m q).point :=
        Decimal.exponent_shortest_ge.trans (Int.le_add_of_nonneg_right (Int.natCast_nonneg _))
      have hlt := Decimal.exponent_numeral_lt hexponent
      rw [Int.abs_eq_natAbs] at hlt
      omega

end NoteLinks
