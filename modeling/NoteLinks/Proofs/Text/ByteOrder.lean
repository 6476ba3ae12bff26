/-
# The order of texts and of their bytes

Texts are compared by their characters, from the left. In UTF-8 the first byte of a
character tells how many follow, and the more follow the greater it is, so the bytes of
the lesser of two characters differ from those of the other, and are less where they first
differ. So it makes no difference whether texts are compared as characters or as bytes.
-/
import Mathlib.Data.Nat.Basic
import Mathlib.Tactic.SplitIfs
import NoteLinks.Ordered.Key
import NoteLinks.Text.Bytes

namespace NoteLinks.Text

/-- The bytes of a text, one after the other. -/
def bytes (t : Text) : List UInt8 := (encode t).data.toList

theorem bytes_eq_flatMap (t : Text) : bytes t = t.flatMap String.utf8EncodeChar := by
  rw [bytes, encode, String.toByteArray_ofList, List.utf8Encode, List.data_toByteArray]

/-! ## Characters -/

theorem cons_byte_lt_iff {m n : Nat} (hm : m < 256) (hn : n < 256) {r s : List UInt8} :
    UInt8.ofNat m :: r < UInt8.ofNat n :: s ↔ m < n ∨ m = n ∧ r < s := by
  rw [List.cons_lt_cons_iff, UInt8.lt_iff_toNat_lt, ← UInt8.toNat_inj, UInt8.toNat_ofNat_of_lt' hm,
    UInt8.toNat_ofNat_of_lt' hn]

theorem lt_iff_digit_lt {m n : Nat} :
    m < n ↔ m / 64 < n / 64 ∨ m / 64 = n / 64 ∧ m % 64 < n % 64 := by
  omega

/-- Numbers are compared by their digits to the base 64, the highest first. -/
theorem digits_lt {m n : Nat} (h : m < n) :
    m / 262144 < n / 262144 ∨ m / 262144 = n / 262144 ∧
      (m / 4096 % 64 < n / 4096 % 64 ∨ m / 4096 % 64 = n / 4096 % 64 ∧
        (m / 64 % 64 < n / 64 % 64 ∨ m / 64 % 64 = n / 64 % 64 ∧ m % 64 < n % 64)) := by
  have hsecond (k : Nat) : k / 4096 = k / 64 / 64 := (Nat.div_div_eq_div_mul k 64 64).symm
  have hthird (k : Nat) : k / 262144 = k / 64 / 64 / 64 := by
    rw [Nat.div_div_eq_div_mul, Nat.div_div_eq_div_mul]
  simp only [hsecond, hthird]
  rcases lt_iff_digit_lt.mp h with h | ⟨heq, hlast⟩
  · rcases lt_iff_digit_lt.mp h with h | ⟨heq, hlast⟩
    · rcases lt_iff_digit_lt.mp h with h | ⟨heq, hlast⟩
      · exact .inl h
      · exact .inr ⟨heq, .inl hlast⟩
    · exact .inr ⟨by rw [heq], .inr ⟨by rw [heq], .inl hlast⟩⟩
  · exact .inr ⟨by rw [heq], .inr ⟨by rw [heq], .inr ⟨by rw [heq], hlast⟩⟩⟩

/-- The bytes of the lesser character are less, whatever follows them. -/
theorem utf8EncodeChar_append_lt {c d : Char} (h : c < d) (r s : List UInt8) :
    String.utf8EncodeChar c ++ r < String.utf8EncodeChar d ++ s := by
  have hlt : c.val.toNat < d.val.toNat := h
  have hbound : d.val.toNat < 1114112 := by
    have hd := d.valid
    rw [UInt32.isValidChar, Nat.isValidChar] at hd
    omega
  simp only [String.utf8EncodeChar]
  generalize c.val.toNat = m at hlt
  generalize d.val.toNat = n at hlt hbound
  have hdigits := digits_lt hlt
  have hm : m / 262144 % 8 = m / 262144 := Nat.mod_eq_of_lt (by omega)
  have hn : n / 262144 % 8 = n / 262144 := Nat.mod_eq_of_lt (by omega)
  rw [hm, hn]
  -- One case for each pair of lengths; only of equal lengths are all bytes compared.
  split_ifs <;>
    simp (disch := omega) only [List.cons_append, List.nil_append, cons_byte_lt_iff] <;> omega

/-! ## Texts and lists of texts -/

theorem bytes_cons (c : Char) (t : Text) : bytes (c :: t) = String.utf8EncodeChar c ++ bytes t := by
  rw [bytes_eq_flatMap, bytes_eq_flatMap, List.flatMap_cons]

theorem bytes_lt_of_lt {a b : Text} (h : a < b) : bytes a < bytes b := by
  induction a generalizing b with
  | nil =>
      obtain ⟨d, b, rfl⟩ := List.exists_cons_of_ne_nil (l := b) (by rintro rfl; cases h)
      have hne : String.utf8EncodeChar d ≠ [] := String.utf8EncodeChar_ne_nil
      obtain ⟨first, rest, heq⟩ := List.exists_cons_of_ne_nil hne
      rw [bytes_cons, heq]
      exact List.nil_lt_cons _ _
  | cons c a ih =>
      cases b with
      | nil => cases h
      | cons d b =>
          rw [bytes_cons, bytes_cons]
          rcases List.cons_lt_cons_iff.mp h with hcd | ⟨rfl, hab⟩
          · exact utf8EncodeChar_append_lt hcd _ _
          · exact List.append_left_lt (ih hab)

/-- Lists of texts are in the order of the lists of their bytes. -/
theorem map_bytes_lt_of_lt {a b : List Text} (h : a < b) : a.map bytes < b.map bytes := by
  induction a generalizing b with
  | nil =>
      cases b with
      | nil => cases h
      | cons y b => exact List.nil_lt_cons _ _
  | cons x a ih =>
      cases b with
      | nil => cases h
      | cons y b =>
          rw [List.map_cons, List.map_cons, List.cons_lt_cons_iff]
          rcases List.cons_lt_cons_iff.mp h with hxy | ⟨rfl, hab⟩
          · exact .inl (bytes_lt_of_lt hxy)
          · exact .inr ⟨rfl, ih hab⟩

end NoteLinks.Text
