/-
# The bits of a float

What a float stands for is read from its bits in two ways: by this library, which writes floats,
and by the arithmetic of floats. Both readings agree.
-/
import Mathlib
import NoteLinks.Decimal.Binary

namespace NoteLinks.FloatValue

open Float.Model (UnpackedFloat Format)
open Float.Model.UnpackedFloat

/-! ## The fields -/

section Fields

variable (bits : UInt64)

theorem toNat_biased : ((bits >>> 52) &&& 0x7FF).toNat =
    (@unpackExponent .binary64 bits.toBitVec).toNat := by
  have hmask := Nat.and_two_pow_sub_one_eq_mod (bits.toNat >>> 52) 11
  rw [UInt64.toNat_and, UInt64.toNat_shiftRight]
  simpa [unpackExponent, BitVec.extractLsb] using hmask

theorem toNat_fraction : (bits &&& 0xFFFFFFFFFFFFF).toNat =
    (@unpackMantissa .binary64 bits.toBitVec).toNat := by
  have hmask := Nat.and_two_pow_sub_one_eq_mod bits.toNat 52
  rw [UInt64.toNat_and]
  simpa [unpackMantissa, BitVec.extractLsb] using hmask

theorem isNegative_eq : (bits >>> 63 == 1) =
    (Sign.ofBitVec (@unpackSign .binary64 bits.toBitVec) == .negative) := by
  have hsign : (@unpackSign .binary64 bits.toBitVec).toNat = (bits >>> 63).toNat := by
    have hlt := bits.toNat_lt
    rw [UInt64.toNat_shiftRight]
    simp [unpackSign, BitVec.extractLsb]
    omega
  rw [Sign.ofBitVec]
  split
  next hzero =>
    have hbits : bits >>> 63 = 0 := UInt64.toNat_inj.mp (by simp [← hsign, hzero])
    rw [hbits]
    rfl
  next hne =>
    have hbits : bits >>> 63 = 1 := by
      refine UInt64.toNat_inj.mp (hsign.symm.trans ?_)
      have hlt := (@unpackSign .binary64 bits.toBitVec).isLt
      have hpos : (@unpackSign .binary64 bits.toBitVec).toNat ≠ 0 := fun h =>
        hne (BitVec.eq_of_toNat_eq h)
      show _ = 1
      omega
    rw [hbits]
    rfl

end Fields

/-- What the arithmetic of floats takes a float for. -/
def ofUnpacked : UnpackedFloat → FloatValue
  | .notANumber => .notANumber
  | .infinity s => .infinite (s == .negative)
  | .zero s => .finite (s == .negative) 0 (-1074)
  | .finite s m e _ => .finite (s == .negative) m e

theorem ofBits_eq (bits : UInt64) :
    ofBits bits = ofUnpacked (.unpack .binary64 bits.toBitVec) := by
  have hmax : @unpackExponent .binary64 bits.toBitVec = -1#11 ↔
      (@unpackExponent .binary64 bits.toBitVec).toNat = 0x7FF := BitVec.toNat_inj.symm
  have hmin : @unpackExponent .binary64 bits.toBitVec = 0#11 ↔
      (@unpackExponent .binary64 bits.toBitVec).toNat = 0 := BitVec.toNat_inj.symm
  have hzero : @unpackMantissa .binary64 bits.toBitVec = 0#52 ↔
      (@unpackMantissa .binary64 bits.toBitVec).toNat = 0 := BitVec.toNat_inj.symm
  have hleading : (1#1 ++ @unpackMantissa .binary64 bits.toBitVec).toNat =
      (@unpackMantissa .binary64 bits.toBitVec).toNat + 0x10000000000000 := by
    rw [BitVec.toNat_append, ← Nat.shiftLeft_add_eq_or_of_lt (BitVec.isLt _)]
    exact Nat.add_comm _ _
  rw [ofBits, UnpackedFloat.unpack]
  simp only [isNegative_eq, toNat_biased, toNat_fraction]
  by_cases hb : (@unpackExponent .binary64 bits.toBitVec).toNat = 0x7FF
  · rw [if_pos hb, if_pos (hmax.mpr hb)]
    by_cases hf : (@unpackMantissa .binary64 bits.toBitVec).toNat = 0
    · rw [if_pos hf, if_pos (hzero.mpr hf), ofUnpacked]
    · rw [if_neg hf, if_neg (mt hzero.mp hf), ofUnpacked]
  rw [if_neg hb, if_neg (mt hmax.mp hb)]
  by_cases hb : (@unpackExponent .binary64 bits.toBitVec).toNat = 0
  · rw [if_pos hb, if_pos (hmin.mpr hb)]
    by_cases hf : (@unpackMantissa .binary64 bits.toBitVec).toNat = 0
    · rw [dif_pos (hzero.mpr hf), ofUnpacked, hf]
    · rw [dif_neg (mt hzero.mp hf), ofUnpacked, hb]
      rfl
  · rw [if_neg hb, if_neg (mt hmin.mp hb), ofUnpacked, hleading]
    rfl

/-- What a float stands for is what the arithmetic of floats takes it for. -/
theorem ofFloat_eq (x : Float) : ofFloat x = ofUnpacked x.toModel.unpack := ofBits_eq _

/-- A finite float is a number. -/
theorem exists_ofFloat_of_isFinite {x : Float} (h : x.isFinite = true) :
    ∃ negative m q, ofFloat x = .finite negative m q := by
  rw [Float.isFinite, Float.Model.isFinite] at h
  rw [ofFloat_eq]
  cases hx : x.toModel.unpack with
  | notANumber => simp [hx, UnpackedFloat.isFinite] at h
  | infinity s => simp [hx, UnpackedFloat.isFinite] at h
  | zero s => exact ⟨_, _, _, rfl⟩
  | finite s m e hm => exact ⟨_, _, _, rfl⟩

end NoteLinks.FloatValue
