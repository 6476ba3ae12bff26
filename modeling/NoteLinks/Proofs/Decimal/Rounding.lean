/-
# The size of what floats come to

Nothing is said here about how exactly floats are rounded, only how far a result can be from
overflowing. A number below a power of two is rounded to one below the next power. So products and
quotients of numbers of moderate size have moderate size, and such a number survives being packed
into 64 bits.

A divisor must not be too small, and so a lower bound is needed as well. It is only kept for
normal numbers, those with a leading one.
-/
import Mathlib
import NoteLinks.Decimal.Binary

namespace NoteLinks.Magnitude

open Float.Model (UnpackedFloat Format totalExponent)
open Float.Model.UnpackedFloat

variable {m m' j k : Nat} {e e' n n' : Int} {s : Sign} {a : Accuracy} {u v : UnpackedFloat}

/-! ## Sizes -/

/-- The number `m * 2 ^ e` is less than `2 ^ n`. -/
def Below (n : Int) (m : Nat) (e : Int) : Prop := ∃ k : Nat, m < 2 ^ k ∧ k + e ≤ n

/-- A number less than `2 ^ n`, apart from its sign. -/
def IsBelow (n : Int) : UnpackedFloat → Prop
  | .zero _ => True
  | .finite _ m e _ => Below n m e
  | _ => False

/-- A normal number from `2 ^ low` up, and less than `2 ^ (high + 1)`, apart from its sign. -/
def IsNormal (low high : Int) (u : UnpackedFloat) : Prop :=
  ∃ s m e h, u = .finite s m e h ∧ m.log2 = 52 ∧ low ≤ 52 + e ∧ 52 + e ≤ high

theorem below_iff (hm : 0 < m) : Below n m e ↔ m.log2 + 1 + e ≤ n := by
  constructor
  · rintro ⟨k, hk, hn⟩
    have hlog := (Nat.log2_lt hm.ne').mpr hk
    omega
  · intro h
    exact ⟨m.log2 + 1, Nat.lt_log2_self, by omega⟩

instance : Decidable (IsBelow n u) :=
  match u with
  | .notANumber => .isFalse id
  | .infinity _ => .isFalse id
  | .zero _ => .isTrue trivial
  | .finite _ _ _ hm => decidable_of_iff _ (below_iff hm).symm

theorem Below.mono (h : Below n m e) (hn : n ≤ n') : Below n' m e := by
  obtain ⟨k, hk, hle⟩ := h
  exact ⟨k, hk, hle.trans hn⟩

theorem IsBelow.mono (h : IsBelow n u) (hn : n ≤ n') : IsBelow n' u := by
  cases u with
  | notANumber => exact h
  | infinity => exact h
  | zero => exact h
  | finite => exact Below.mono h hn

theorem IsNormal.mono {low high low' high' : Int} (h : IsNormal low high u) (hlow : low' ≤ low)
    (hhigh : high ≤ high') : IsNormal low' high' u := by
  obtain ⟨s, m, e, hm, rfl, hlog, hle, hge⟩ := h
  exact ⟨s, m, e, hm, rfl, hlog, hlow.trans hle, hge.trans hhigh⟩

theorem IsNormal.isBelow {low high : Int} (h : IsNormal low high u) : IsBelow (high + 1) u := by
  obtain ⟨s, m, e, hm, rfl, hlog, -, hhigh⟩ := h
  exact (below_iff hm).mpr (by omega)

/-! ## Shifting -/

/-- The exponent that a number is rounded to. -/
def target (m : Nat) (e : Int) : Int := max (m.log2 + e - 52) (-1074)

theorem targetExponent_eq (m : Nat) (e : Int) :
    Format.binary64.targetExponent (totalExponent m e) = target m e := by
  have hbits : (Format.binary64.mantissaBits : Int) = 53 := rfl
  have hmin : Format.binary64.minExponent = -1074 := rfl
  rw [Format.targetExponent, totalExponent, target, hbits, hmin]
  omega

theorem mantissa_shiftRight (em : ExtendedMantissa) (k : Nat) :
    (em >>> k).mantissa = em.mantissa / 2 ^ k := by
  induction k with
  | zero => exact (Nat.div_one _).symm
  | succ k ih =>
      change (em >>> k).mantissa / 2 = _
      rw [ih, Nat.div_div_eq_div_mul, Nat.pow_succ]

theorem mantissa_ofMantissaAndAccuracy (m : Nat) (a : Accuracy) :
    (ExtendedMantissa.ofMantissaAndAccuracy m a).mantissa = m := by
  cases a with
  | exact => rfl
  | inexact o => cases o <;> rfl

theorem mantissa_shiftToTargetExponent (m : Nat) (e : Int) (a : Accuracy) :
    (shiftToTargetExponent .binary64 m e a).1.mantissa = m / 2 ^ (target m e - e).toNat := by
  rw [shiftToTargetExponent, shiftToExponent, targetExponent_eq, mantissa_shiftRight,
    mantissa_ofMantissaAndAccuracy]

theorem exponent_shiftToTargetExponent (m : Nat) (e : Int) (a : Accuracy) :
    (shiftToTargetExponent .binary64 m e a).2 = e + (target m e - e).toNat := by
  rw [shiftToTargetExponent, shiftToExponent, targetExponent_eq]

theorem roundedMantissa_cases (em : ExtendedMantissa) :
    em.roundedMantissa = em.mantissa ∨ em.roundedMantissa = em.mantissa + 1 := by
  obtain ⟨m, r, s⟩ := em
  cases r <;> cases s <;>
    simp [ExtendedMantissa.roundedMantissa, ExtendedMantissa.accuracy,
      Accuracy.roundToNearestEven]
  omega

theorem div_two_pow_lt (m k : Nat) : m / 2 ^ k < 2 ^ (m.log2 + 1 - k) := by
  rw [Nat.div_lt_iff_lt_mul (Nat.two_pow_pos k), ← Nat.pow_add]
  exact Nat.lt_log2_self.trans_le (Nat.pow_le_pow_right (by decide) (by omega))

/-- A shift to the right makes no number larger. Where nothing is left of the mantissa, the
exponent is the least there is. -/
theorem Below.shift (h : Below n m e) (hn : -1074 ≤ n) :
    Below n (m / 2 ^ (target m e - e).toNat) (e + (target m e - e).toNat) := by
  cases m.eq_zero_or_pos with
  | inl hm =>
      subst hm
      obtain ⟨k, -, hk⟩ := h
      refine ⟨0, by rw [Nat.zero_div]; decide, ?_⟩
      rw [target, Nat.log2_zero]
      omega
  | inr hm =>
      have hlog := (below_iff hm).mp h
      refine ⟨m.log2 + 1 - (target m e - e).toNat, div_two_pow_lt m _, ?_⟩
      rw [target]
      omega

/-- Rounding up makes a number at most twice as large. -/
theorem Below.succ (h : Below n m e) : Below (n + 1) (m + 1) e := by
  obtain ⟨k, hk, hle⟩ := h
  exact ⟨k + 1, by rw [Nat.pow_succ]; omega, by omega⟩

theorem Below.rounded {em : ExtendedMantissa} (h : Below n em.mantissa e) :
    Below (n + 1) em.roundedMantissa e := by
  obtain heq | heq := roundedMantissa_cases em
  · exact heq ▸ h.mono (by omega)
  · exact heq ▸ h.succ

/-! ## Rounding -/

theorem isBelow_roundWithAccuracy (h : Below n m e) (hn : -1074 ≤ n) (s : Sign) (a : Accuracy) :
    IsBelow (n + 1) (roundWithAccuracy .binary64 s m e a) := by
  have hfirst := h.shift hn
  rw [← mantissa_shiftToTargetExponent m e a, ← exponent_shiftToTargetExponent m e a] at hfirst
  have hsecond := hfirst.rounded.shift (by omega)
  rw [← mantissa_shiftToTargetExponent _ _ .exact, ← exponent_shiftToTargetExponent _ _ .exact]
    at hsecond
  rw [roundWithAccuracy]
  simp only
  split
  next => trivial
  next => exact hsecond

/-- What is left of a mantissa with enough bits has 53 bits. -/
theorem log2_div_two_pow (hlog : 52 ≤ m.log2) : (m / 2 ^ (m.log2 - 52)).log2 = 52 := by
  have hpos : m ≠ 0 := by
    rintro rfl
    exact absurd hlog (by decide)
  have hlow : 2 ^ 52 ≤ m / 2 ^ (m.log2 - 52) := by
    rw [Nat.le_div_iff_mul_le (Nat.two_pow_pos _), ← Nat.pow_add, Nat.add_sub_cancel' hlog]
    exact Nat.log2_self_le hpos
  have hhigh : m / 2 ^ (m.log2 - 52) < 2 ^ 53 := by
    have hlt := div_two_pow_lt m (m.log2 - 52)
    rwa [show m.log2 + 1 - (m.log2 - 52) = 53 by omega] at hlt
  exact (Nat.log2_eq_iff (by omega)).mpr ⟨hlow, hhigh⟩

/-- A mantissa of 53 bits that is rounded up keeps its bits, or it carries over. -/
theorem log2_roundedMantissa {em : ExtendedMantissa} (h : em.mantissa.log2 = 52) :
    em.roundedMantissa.log2 = 52 ∨ em.roundedMantissa = 2 ^ 53 := by
  have hpos : em.mantissa ≠ 0 := by
    intro hzero
    rw [hzero] at h
    cases h
  obtain ⟨hlow, hhigh⟩ := (Nat.log2_eq_iff hpos).mp h
  obtain heq | heq := roundedMantissa_cases em
  · exact .inl (by rw [heq, h])
  · by_cases hfull : em.mantissa + 1 = 2 ^ 53
    · exact .inr (heq.trans hfull)
    · refine .inl (heq ▸ (Nat.log2_eq_iff (Nat.succ_ne_zero _)).mpr ⟨?_, ?_⟩) <;> omega

/-- Where the mantissa has enough bits and the number is not too close to zero, it is rounded to a
normal number. -/
theorem isNormal_roundWithAccuracy (hlog : 52 ≤ m.log2) (he : -1022 ≤ m.log2 + e) (s : Sign)
    (a : Accuracy) :
    IsNormal (m.log2 + e) (m.log2 + e + 1) (roundWithAccuracy .binary64 s m e a) := by
  have hfirst : (shiftToTargetExponent .binary64 m e a).1.mantissa.log2 = 52 := by
    rw [mantissa_shiftToTargetExponent, target,
      show (max ((m.log2 : Int) + e - 52) (-1074) - e).toNat = m.log2 - 52 by omega]
    exact log2_div_two_pow hlog
  have hexp : (shiftToTargetExponent .binary64 m e a).2 = m.log2 + e - 52 := by
    rw [exponent_shiftToTargetExponent, target]
    omega
  have hcarry := log2_roundedMantissa hfirst
  rw [roundWithAccuracy]
  simp only [mantissa_shiftToTargetExponent, exponent_shiftToTargetExponent _ _ .exact, hexp]
  generalize (shiftToTargetExponent .binary64 m e a).1.roundedMantissa = r at hcarry ⊢
  cases hcarry with
  | inl hr =>
      have hshift : (target r (m.log2 + e - 52) - (m.log2 + e - 52)).toNat = 0 := by
        rw [target, hr]
        omega
      have hne : r / 2 ^ 0 ≠ 0 := by
        rw [Nat.pow_zero, Nat.div_one]
        rintro rfl
        cases hr
      simp only [hshift]
      rw [dif_neg hne]
      refine ⟨s, _, _, _, rfl, by rwa [Nat.pow_zero, Nat.div_one], ?_, ?_⟩ <;> omega
  | inr hr =>
      subst hr
      have hshift : (target (2 ^ 53) (m.log2 + e - 52) - (m.log2 + e - 52)).toNat = 1 := by
        rw [target, Nat.log2_two_pow]
        omega
      simp only [hshift]
      rw [dif_neg (by decide)]
      refine ⟨s, _, _, _, rfl, by decide, ?_, ?_⟩ <;> omega

/-! ## Packing -/

theorem unpack_pack_eq (u : UnpackedFloat) :
    (Float.Model.pack u).unpack = .unpack .binary64 (UnpackedFloat.pack .binary64 u) := rfl

/-- With an exponent in between the least and the greatest, a leading one is added. -/
theorem unpack_packComponents (s : Sign) (biased : BitVec 11) (fraction : BitVec 52)
    (hleast : biased.toNat ≠ 0) (hgreatest : biased.toNat ≠ 2047) :
    ∃ s' h, UnpackedFloat.unpack .binary64 (packComponents .binary64 s biased fraction) =
      .finite s' (fraction.toNat + 2 ^ 52) (biased.toNat - 1075) h := by
  have hleading : (1#1 ++ fraction).toNat = fraction.toNat + 2 ^ 52 := by
    rw [BitVec.toNat_append, ← Nat.shiftLeft_add_eq_or_of_lt fraction.isLt]
    exact Nat.add_comm _ _
  refine ⟨.ofBitVec (unpackSign (packComponents .binary64 s biased fraction)), by omega, ?_⟩
  rw [UnpackedFloat.unpack]
  simp only [unpackExponent_packComponents, unpackMantissa_packComponents]
  rw [if_neg fun h => hgreatest (congrArg BitVec.toNat h),
    if_neg fun h => hleast (congrArg BitVec.toNat h)]
  simp only [hleading]
  rfl

/-- With the least exponent, a number is less than all normal numbers. -/
theorem isBelow_unpack_packComponents (s : Sign) {biased : BitVec 11} (fraction : BitVec 52)
    (hleast : biased.toNat = 0) :
    IsBelow (-1022) (.unpack .binary64 (packComponents .binary64 s biased fraction)) := by
  obtain rfl : biased = 0#11 := BitVec.eq_of_toNat_eq hleast
  rw [UnpackedFloat.unpack]
  simp only [unpackExponent_packComponents, unpackMantissa_packComponents]
  rw [if_neg (by decide), if_pos True.intro]
  split
  next => trivial
  next => exact ⟨52, fraction.isLt, by decide⟩

/-- A number that is not too large is packed with its exponent if it is normal, and else with
the least one. -/
theorem pack_finite (s : Sign) (hm : 0 < m) (he : e ≤ 971) :
    UnpackedFloat.pack .binary64 (.finite s m e hm) =
      packComponents .binary64 s
        (if m.log2 = 52 then BitVec.ofNat 11 (e + 1075).toNat else 0#11) (BitVec.ofNat 52 m) := by
  have hbias : e + Format.binary64.exponentBias + Format.binary64.mantissaBitsWithoutImplicit =
      e + 1075 := by
    rw [Int.add_assoc]
    rfl
  have hbits : m.log2 + 1 = Format.binary64.mantissaBits ↔ m.log2 = 52 := Nat.succ_inj
  rw [UnpackedFloat.pack]
  simp only [hbias, hbits]
  rw [if_neg (by show ¬ 2 ^ 11 ≤ _; omega)]
  split <;> rfl

/-- A normal number is what it has been before, apart from its sign. -/
theorem unpack_pack_normal (s : Sign) (hm : 0 < m) (hlog : m.log2 = 52) (hlow : -1074 ≤ e)
    (hhigh : e ≤ 971) :
    ∃ s' h, (Float.Model.pack (.finite s m e hm)).unpack = .finite s' m e h := by
  have hbounds := (Nat.log2_eq_iff hm.ne').mp hlog
  have hbiased : (BitVec.ofNat 11 (e + 1075).toNat).toNat = (e + 1075).toNat := by
    rw [BitVec.toNat_ofNat]
    omega
  have hfraction : (BitVec.ofNat 52 m).toNat + 2 ^ 52 = m := by
    rw [BitVec.toNat_ofNat]
    omega
  obtain ⟨s', h, heq⟩ := unpack_packComponents s (BitVec.ofNat 11 (e + 1075).toNat)
    (BitVec.ofNat 52 m) (by omega) (by omega)
  refine ⟨s', hm, ?_⟩
  rw [unpack_pack_eq, pack_finite s hm hhigh, if_pos hlog, heq]
  simp only [hfraction, hbiased]
  congr 1
  omega

theorem isBelow_unpack_pack (h : IsBelow n u) (hlow : -1022 ≤ n) (hhigh : n ≤ 972) :
    IsBelow n (Float.Model.pack u).unpack := by
  cases u with
  | notANumber => exact h.elim
  | infinity => exact h.elim
  | zero s => exact (isBelow_unpack_packComponents s 0#52 rfl).mono hlow
  | finite s m e hm =>
      have hlog := (below_iff hm).mp h
      by_cases hnormal : m.log2 = 52 ∧ -1074 ≤ e
      · obtain ⟨s', hm', heq⟩ := unpack_pack_normal s hm hnormal.1 hnormal.2 (by omega)
        rw [heq]
        exact h
      · rw [unpack_pack_eq, pack_finite s hm (by omega)]
        refine (isBelow_unpack_packComponents s _ ?_).mono hlow
        split
        next hbits =>
          have hleast : (e + 1075).toNat = 0 := by omega
          rw [hleast]
          rfl
        next => rfl

theorem isNormal_unpack_pack {low high : Int} (h : IsNormal low high u) (hlow : -1022 ≤ low)
    (hhigh : high ≤ 1023) : IsNormal low high (Float.Model.pack u).unpack := by
  obtain ⟨s, m, e, hm, rfl, hlog, hle, hge⟩ := h
  obtain ⟨s', hm', heq⟩ := unpack_pack_normal (e := e) s hm hlog (by omega) (by omega)
  exact ⟨s', m, e, hm', heq, hlog, hle, hge⟩

/-! ## Arithmetic -/

theorem log2_mul_pow (hm : 0 < m) (k : Nat) : (m * 2 ^ k).log2 = m.log2 + k := by
  have hlow := Nat.log2_self_le hm.ne'
  have hhigh := Nat.lt_log2_self (n := m)
  refine (Nat.log2_eq_iff (Nat.mul_pos hm (Nat.two_pow_pos k)).ne').mpr ⟨?_, ?_⟩
  · rw [Nat.pow_add]
    exact Nat.mul_le_mul_right _ hlow
  · rw [show m.log2 + k + 1 = m.log2 + 1 + k by omega, Nat.pow_add]
    exact Nat.mul_lt_mul_of_pos_right hhigh (Nat.two_pow_pos k)

theorem log2_mul_cases (hm : 0 < m) (hm' : 0 < m') :
    (m * m').log2 = m.log2 + m'.log2 ∨ (m * m').log2 = m.log2 + m'.log2 + 1 := by
  have hpos : m * m' ≠ 0 := (Nat.mul_pos hm hm').ne'
  have hlow : m.log2 + m'.log2 ≤ (m * m').log2 := by
    rw [Nat.le_log2 hpos, Nat.pow_add]
    exact Nat.mul_le_mul (Nat.log2_self_le hm.ne') (Nat.log2_self_le hm'.ne')
  have hhigh : (m * m').log2 < m.log2 + m'.log2 + 2 := by
    rw [Nat.log2_lt hpos, show m.log2 + m'.log2 + 2 = m.log2 + 1 + (m'.log2 + 1) by omega,
      Nat.pow_add]
    exact Nat.mul_lt_mul'' Nat.lt_log2_self Nat.lt_log2_self
  omega

theorem Below.mul (h : Below n m e) (h' : Below n' m' e') : Below (n + n') (m * m') (e + e') := by
  obtain ⟨k, hk, hle⟩ := h
  obtain ⟨k', hk', hle'⟩ := h'
  refine ⟨k + k', ?_, by omega⟩
  rw [Nat.pow_add]
  exact Nat.mul_lt_mul'' hk hk'

theorem isBelow_mul (hu : IsBelow n u) (hv : IsBelow n' v) (hn : -1074 ≤ n + n') :
    IsBelow (n + n' + 1) (UnpackedFloat.mul .binary64 u v) := by
  cases u with
  | notANumber => exact hu.elim
  | infinity => exact hu.elim
  | zero =>
      cases v with
      | notANumber => exact hv.elim
      | infinity => exact hv.elim
      | zero => trivial
      | finite => trivial
  | finite =>
      cases v with
      | notANumber => exact hv.elim
      | infinity => exact hv.elim
      | zero => trivial
      | finite => exact isBelow_roundWithAccuracy (Below.mul hu hv) hn _ _

section Normal

variable {low high low' high' : Int}

theorem isNormal_mul (hu : IsNormal low high u) (hv : IsNormal low' high' v)
    (hlow : -1022 ≤ low + low') :
    IsNormal (low + low') (high + high' + 2) (UnpackedFloat.mul .binary64 u v) := by
  obtain ⟨s, m, e, hm, rfl, hlog, hle, hge⟩ := hu
  obtain ⟨s', m', e', hm', rfl, hlog', hle', hge'⟩ := hv
  have hcases := log2_mul_cases hm hm'
  exact (isNormal_roundWithAccuracy (by omega) (by omega) _ _).mono (by omega) (by omega)

/-- The quotient of mantissas that is rounded. Its exponent is low enough, even where nothing is
left of the quotient. -/
theorem below_divCore (hm : 0 < m) (h : Below n m e) (hm' : m'.log2 = 52) (hlow : low ≤ 52 + e')
    (hn : -1074 ≤ n - low) :
    Below (n - low) (divCore .binary64 m e m' e').1 (divCore .binary64 m e m' e').2.1 := by
  have hlog := (below_iff hm).mp h
  have htotal : Format.binary64.targetExponent (totalExponent m e - totalExponent m' e') =
      max (m.log2 + e - (m'.log2 + e') - 53) (-1074) := by
    have hbits : (Format.binary64.mantissaBits : Int) = 53 := rfl
    have hmin : Format.binary64.minExponent = -1074 := rfl
    rw [Format.targetExponent, totalExponent, totalExponent, hbits, hmin]
    omega
  have hquotient (k : Nat) : m * 2 ^ k / m' < 2 ^ (m.log2 + k + 1 - 52) := by
    have hdivisor : 2 ^ 52 ≤ m' := hm' ▸ Nat.log2_self_le (by rintro rfl; cases hm')
    refine (Nat.div_le_div_left hdivisor (Nat.two_pow_pos 52)).trans_lt ?_
    rw [← log2_mul_pow hm]
    exact div_two_pow_lt _ _
  rw [divCore]
  simp only [htotal, hm', Nat.shiftLeft_eq]
  exact ⟨_, hquotient _, by omega⟩

theorem isBelow_div (hu : IsBelow n u) (hv : IsNormal low high v) (hn : -1074 ≤ n - low) :
    IsBelow (n - low + 1) (UnpackedFloat.div .binary64 u v) := by
  obtain ⟨s', m', e', hm', rfl, hlog', hle', -⟩ := hv
  cases u with
  | notANumber => exact hu.elim
  | infinity => exact hu.elim
  | zero => trivial
  | finite s m e hm =>
      exact isBelow_roundWithAccuracy (below_divCore hm hu hlog' hle' hn) hn _ _

end Normal

theorem isBelow_neg (hu : IsBelow n u) : IsBelow n (UnpackedFloat.neg u) := by
  cases u <;> exact hu

theorem isNormal_ofNat (hm : 0 < m) :
    IsNormal m.log2 (m.log2 + 1) (UnpackedFloat.ofNat .binary64 m) := by
  have hround : UnpackedFloat.ofNat .binary64 m = .round .binary64 .positive m 0 := by
    rw [UnpackedFloat.ofNat, UnpackedFloat.ofInt, UnpackedFloat.normalize,
      Int.compare_eq_gt.mpr (by omega)]
    rfl
  rw [hround, UnpackedFloat.round]
  simp only [decreaseExponent, targetExponent_eq, Nat.shiftLeft_eq]
  have hshift : (0 - target m 0).toNat = 52 - m.log2 := by
    rw [target]
    omega
  have hlog := log2_mul_pow hm (52 - m.log2)
  rw [hshift]
  exact (isNormal_roundWithAccuracy (by omega) (by omega) _ _).mono (by omega) (by omega)

/-! ## Floats -/

/-- A float less than `2 ^ n`, apart from its sign. -/
def Under (n : Int) (x : Float) : Prop := IsBelow n x.toModel.unpack

/-- A normal float from `2 ^ low` up, and less than `2 ^ (high + 1)`, apart from its sign. -/
def Normal (low high : Int) (x : Float) : Prop := IsNormal low high x.toModel.unpack

section Floats

variable {x y : Float} {low high low' high' : Int}

instance : Decidable (Under n x) := inferInstanceAs (Decidable (IsBelow n x.toModel.unpack))

theorem Under.mono (h : Under n x) (hn : n ≤ n') : Under n' x := IsBelow.mono h hn

theorem Normal.mono (h : Normal low high x) (hlow : low' ≤ low) (hhigh : high ≤ high') :
    Normal low' high' x := IsNormal.mono h hlow hhigh

theorem Normal.under (h : Normal low high x) : Under (high + 1) x := IsNormal.isBelow h

theorem Under.mul (hx : Under n x) (hy : Under n' y) (hlow : -1023 ≤ n + n')
    (hhigh : n + n' ≤ 971) : Under (n + n' + 1) (x * y) :=
  isBelow_unpack_pack (isBelow_mul hx hy (by omega)) (by omega) (by omega)

theorem Normal.mul (hx : Normal low high x) (hy : Normal low' high' y) (hlow : -1022 ≤ low + low')
    (hhigh : high + high' ≤ 1021) : Normal (low + low') (high + high' + 2) (x * y) :=
  isNormal_unpack_pack (isNormal_mul hx hy hlow) hlow (by omega)

theorem Under.div (hx : Under n x) (hy : Normal low high y) (hlow : -1023 ≤ n - low)
    (hhigh : n - low ≤ 971) : Under (n - low + 1) (x / y) :=
  isBelow_unpack_pack (isBelow_div hx hy (by omega)) (by omega) (by omega)

theorem Under.neg (hx : Under n x) (hlow : -1022 ≤ n) (hhigh : n ≤ 972) : Under n (-x) :=
  isBelow_unpack_pack (isBelow_neg hx) hlow hhigh

theorem normal_toFloat {i : UInt64} (h : 0 < i.toNat) :
    Normal i.toNat.log2 (i.toNat.log2 + 1) i.toFloat := by
  have hlt : i.toNat.log2 < 64 := (Nat.log2_lt h.ne').mpr i.toNat_lt
  exact isNormal_unpack_pack (isNormal_ofNat h) (by omega) (by omega)

theorem under_toFloat (i : UInt64) : Under 65 i.toFloat := by
  cases i.toNat.eq_zero_or_pos with
  | inl h =>
      obtain rfl : i = 0 := UInt64.toNat_inj.mp h
      decide +kernel
  | inr h =>
      have hlt : i.toNat.log2 < 64 := (Nat.log2_lt h.ne').mpr i.toNat_lt
      exact (normal_toFloat h).under.mono (by omega)

theorem normal_one : Normal 0 0 Float.exactlyRepresentablePowersOfTen[0] :=
  ⟨.positive, 2 ^ 52, -52, by decide, rfl, by decide, by decide, by decide⟩

/-- A large number as a float: it is multiplied by one, with more bits than are needed. -/
theorem normal_ofScientific (hm : 0 < m) (hlog : m.log2 ≤ 1000) :
    IsNormal m.log2 (m.log2 + 1) (Float.Model.ofScientific m 0).unpack := by
  have hbits := log2_mul_pow hm 53
  have hexponent : ¬ (0 : Int) < -(2 ^ Format.binary64.exponentBits + m.log2) := by
    have heleven : (2 : Int) ^ Format.binary64.exponentBits = 2048 := rfl
    omega
  refine isNormal_unpack_pack ?_ (by omega) (by omega)
  rw [UnpackedFloat.ofScientific, dif_neg hm.ne', if_neg (by decide), if_neg hexponent,
    if_pos (le_refl 0), UnpackedFloat.mul, Nat.shiftLeft_eq, Int.toNat_zero, Nat.pow_zero,
    Nat.mul_one]
  have hmantissa : Format.binary64.mantissaBits = 53 := rfl
  rw [hmantissa]
  exact (isNormal_roundWithAccuracy (by omega) (by omega) _ _).mono (by omega) (by omega)

/-- A natural number as a float. It is converted in one of two ways, depending on its size. -/
theorem normal_ofNat (hm : 0 < m) (hlog : m.log2 ≤ 1000) :
    Normal m.log2 (m.log2 + 3) (Float.ofNat m) := by
  rw [Float.ofNat]
  show Normal _ _ (Float.ofScientific m false 0)
  rw [Float.ofScientific]
  split
  next hsmall =>
    have hto : m.toUInt64.toNat = m := by
      rw [Nat.toUInt64, UInt64.toNat_ofNat']
      omega
    have hconverted := normal_toFloat (i := m.toUInt64) (by omega)
    rw [hto] at hconverted
    exact (hconverted.mul normal_one (by omega) (by omega)).mono (by omega) (by omega)
  next hlarge => exact (normal_ofScientific hm hlog).mono (by omega) (by omega)

theorem under_ofNat (hm : m < 2 ^ k) (hk : k ≤ 900) : Under (k + 3) (Float.ofNat m) := by
  cases m.eq_zero_or_pos with
  | inl h =>
      subst h
      have hzero : Under 0 (Float.ofNat 0) := by decide +kernel
      exact hzero.mono (by omega)
  | inr h =>
      have hlog := (Nat.log2_lt h.ne').mpr hm
      exact (normal_ofNat h (by omega)).under.mono (by omega)

end Floats

end NoteLinks.Magnitude
