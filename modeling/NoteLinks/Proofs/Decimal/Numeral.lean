/-
# Proper numerals

A numeral is read back from its text if it is proper: its whole part has digits, and no zero in
front of other digits, and where a fraction or an exponent is announced there are digits. What
follows the numeral must not go on with it.
-/
import Mathlib.Data.List.TakeWhile
import Mathlib.Tactic.ByContra
import Mathlib.Tactic.IntervalCases
import NoteLinks.Json.Reader

namespace NoteLinks

namespace Text

/-- A text of decimal digits. -/
def IsDigits (t : Text) : Prop := ∀ c ∈ t, c.isDigit = true

theorem isDigits_ofNat (n : Nat) : IsDigits (ofNat n) := fun _ hc =>
  Nat.isDigit_of_mem_toDigits (by decide) (by decide) hc

theorem ofNat_ne_nil (n : Nat) : ofNat n ≠ [] := Nat.toDigits_ne_nil

@[simp]
theorem natOfDigits_ofNat (n : Nat) : natOfDigits (ofNat n) = n :=
  Nat.ofDigitChars_eq_foldl.symm.trans Nat.ofDigitChars_ten_toDigits

theorem IsDigits.append {t u : Text} (ht : IsDigits t) (hu : IsDigits u) : IsDigits (t ++ u) :=
  fun c hc => (List.mem_append.mp hc).elim (ht c) (hu c)

theorem isDigits_replicate (n : Nat) : IsDigits (List.replicate n '0') := fun _ hc =>
  List.eq_of_mem_replicate hc ▸ rfl

/-- The digits of a number other than zero start with another digit than zero. -/
theorem head?_ofNat_ne_zero {n : Nat} (hn : n ≠ 0) : (ofNat n).head? ≠ some '0' := by
  induction n using Nat.strong_induction_on with
  | h n ih =>
      rw [ofNat]
      by_cases hlt : n < 10
      · rw [Nat.toDigits_of_lt_base hlt]
        interval_cases n <;> simp_all [Nat.digitChar]
      · rw [Nat.toDigits_of_base_le (by decide) (Nat.le_of_not_lt hlt),
          List.head?_append, Option.or_of_isSome (by simp)]
        exact ih (n / 10) (by omega) (by omega)

end Text

/-- A text does not go on with a numeral. -/
def EndsNumeral (t : Text) : Prop :=
  ∀ c ∈ t.head?, c.isDigit = false ∧ c ≠ '.' ∧ c ≠ 'e' ∧ c ≠ 'E'

namespace EndsNumeral

theorem nil : EndsNumeral [] := nofun

theorem cons {c : Char} {t : Text} (h : c.isDigit = false ∧ c ≠ '.' ∧ c ≠ 'e' ∧ c ≠ 'E') :
    EndsNumeral (c :: t) := fun d hd => by
  obtain rfl : c = d := by simpa using hd
  exact h

end EndsNumeral

/-- A numeral that is read back from its text. -/
structure Numeral.IsProper (n : Numeral) : Prop where
  whole : Text.IsDigits n.whole
  whole_ne_nil : n.whole ≠ []
  /-- No zero stands in front of other digits. -/
  noLeadingZero : n.whole.head? = some '0' → n.whole.length = 1
  fraction : Text.IsDigits n.fraction
  exponent : ∀ negative digits, n.exponent = some (negative, digits) →
    Text.IsDigits digits ∧ digits ≠ []

namespace Json

variable {digits rest : Text}

theorem digits?_append (hdigits : Text.IsDigits digits) (hne : digits ≠ [])
    (hrest : ∀ c ∈ rest.head?, c.isDigit = false) :
    digits? (digits ++ rest) = some (digits, rest) := by
  have htake : (digits ++ rest).takeWhile Char.isDigit = digits := by
    rw [List.takeWhile_append_of_pos hdigits]
    cases rest with
    | nil => simp
    | cons c rest => simp [hrest c rfl]
  have hdrop : (digits ++ rest).dropWhile Char.isDigit = rest := by
    rw [List.dropWhile_append_of_pos hdigits]
    cases rest with
    | nil => simp
    | cons c rest => simp [hrest c rfl]
  rw [digits?, htake, hdrop, if_neg (by simpa using hne)]

/-- The text of a fraction, with its point if there is one. -/
theorem fraction?_append (hdigits : Text.IsDigits digits)
    (hrest : ∀ c ∈ rest.head?, c.isDigit = false ∧ c ≠ '.') :
    fraction? ((if digits.isEmpty then [] else '.' :: digits) ++ rest) = some (digits, rest) := by
  cases digits with
  | nil =>
      cases rest with
      | nil => rfl
      | cons c rest =>
          have hpoint := (hrest c rfl).2
          show fraction? (c :: rest) = _
          rw [fraction?]
          rintro t heq
          exact hpoint (List.cons.inj heq).1
  | cons d digits =>
      exact digits?_append hdigits (by simp) fun c hc => (hrest c hc).1

/-- The text of an exponent, with its letter. -/
theorem exponent?_append {negative : Bool} (hdigits : Text.IsDigits digits) (hne : digits ≠ [])
    (hrest : EndsNumeral rest) :
    exponent? ('e' :: withSign negative digits ++ rest) = some (some (negative, digits), rest) := by
  have hread := digits?_append hdigits hne fun c hc => (hrest c hc).1
  cases negative with
  | true => simp [exponent?, withSign, hread]
  | false =>
      obtain ⟨d, digits, rfl⟩ := List.exists_cons_of_ne_nil hne
      have hminus : d ≠ '-' := by
        rintro rfl
        simpa using hdigits '-' List.mem_cons_self
      have hplus : d ≠ '+' := by
        rintro rfl
        simpa using hdigits '+' List.mem_cons_self
      simp only [List.cons_append] at hread
      simp [exponent?, withSign, hread, hminus, hplus]

theorem exponent?_of_endsNumeral (hrest : EndsNumeral rest) :
    exponent? rest = some (none, rest) := by
  cases rest with
  | nil => rfl
  | cons c rest =>
      obtain ⟨-, -, hsmall, hcapital⟩ := hrest c rfl
      simp [exponent?, hsmall, hcapital]

theorem withSign_append (negative : Bool) (t u : Text) :
    withSign negative t ++ u = withSign negative (t ++ u) := by
  cases negative <;> rfl

/-- What stands behind the whole part of a proper numeral is read back. -/
theorem exists_text_eq {n : Numeral} (hn : n.IsProper) (hrest : EndsNumeral rest) :
    ∃ f e : Text, n.text ++ rest = withSign n.negative (n.whole ++ (f ++ e)) ∧
      (∀ c ∈ (f ++ e).head?, c.isDigit = false) ∧
      fraction? (f ++ e) = some (n.fraction, e) ∧ exponent? e = some (n.exponent, rest) := by
  obtain ⟨e, htext, hread, hhead⟩ : ∃ e : Text,
      n.text ++ rest = withSign n.negative (n.whole ++
        ((if n.fraction.isEmpty then [] else '.' :: n.fraction) ++ e)) ∧
      exponent? e = some (n.exponent, rest) ∧ ∀ c ∈ e.head?, c.isDigit = false ∧ c ≠ '.' := by
    cases hexponent : n.exponent with
    | none =>
        refine ⟨rest, ?_, exponent?_of_endsNumeral hrest, fun c hc => ⟨(hrest c hc).1,
          (hrest c hc).2.1⟩⟩
        simp [Numeral.text, hexponent, withSign_append]
    | some s =>
        obtain ⟨negative, digits⟩ := s
        obtain ⟨hdigits, hne⟩ := hn.exponent negative digits hexponent
        refine ⟨_, ?_, exponent?_append hdigits hne hrest, fun c hc => ?_⟩
        · simp [Numeral.text, hexponent, withSign_append]
        · obtain rfl : c = 'e' := by simpa using hc.symm
          decide
  refine ⟨_, e, htext, ?_, fraction?_append hn.fraction hhead, hread⟩
  intro c hc
  cases hfraction : n.fraction with
  | nil => exact (hhead c (by simpa [hfraction] using hc)).1
  | cons d digits =>
      obtain rfl : c = '.' := by simpa [hfraction] using hc.symm
      decide

/-- A proper numeral is read back from its text. -/
theorem numeral?_append {n : Numeral} (hn : n.IsProper) (hrest : EndsNumeral rest) :
    numeral? (n.text ++ rest) = some (n, rest) := by
  obtain ⟨f, e, htext, hpoint, hfraction, hexponent⟩ := exists_text_eq hn hrest
  have hwhole := digits?_append hn.whole hn.whole_ne_nil hpoint
  have hzero (hlength : 1 < n.whole.length) : ¬ n.whole.head? = some '0' := fun hhead => by
    have := hn.noLeadingZero hhead
    omega
  obtain ⟨d, w, hw⟩ := List.exists_cons_of_ne_nil hn.whole_ne_nil
  have hminus : d ≠ '-' := by
    rintro rfl
    simpa using hn.whole '-' (hw ▸ List.mem_cons_self)
  rw [htext]
  obtain ⟨negative, whole, fraction, exponent⟩ := n
  simp only at hw hwhole hzero hfraction hexponent
  cases negative with
  | true => simpa [numeral?, withSign, hwhole, hfraction, hexponent] using hzero
  | false =>
      subst hw
      simp only [List.cons_append] at hwhole
      simpa [numeral?, withSign, hminus, hwhole, hfraction, hexponent] using hzero

/-- The text of a proper numeral starts with a minus sign or a digit. -/
theorem exists_text_eq_cons {n : Numeral} (hn : n.IsProper) :
    ∃ c t, n.text = c :: t ∧ (c = '-' ∨ c.isDigit = true) := by
  obtain ⟨f, e, htext, -⟩ := exists_text_eq hn EndsNumeral.nil
  rw [List.append_nil] at htext
  cases hnegative : n.negative with
  | true => exact ⟨'-', _, by rw [htext, hnegative]; rfl, .inl rfl⟩
  | false =>
      obtain ⟨d, w, hw⟩ := List.exists_cons_of_ne_nil hn.whole_ne_nil
      exact ⟨d, w ++ (f ++ e), by rw [htext, hnegative, hw]; rfl,
        .inr (hn.whole d (hw ▸ List.mem_cons_self))⟩

end Json

/-! ## Natural numbers -/

theorem Numeral.isProper_ofNat (n : Nat) : (Numeral.ofNat n).IsProper where
  whole := Text.isDigits_ofNat n
  whole_ne_nil := Text.ofNat_ne_nil n
  noLeadingZero h := by
    obtain rfl : n = 0 := by_contra fun hn => Text.head?_ofNat_ne_zero hn h
    rfl
  fraction := nofun
  exponent := nofun

theorem Numeral.natBelow?_ofNat {n bound : Nat} (h : n < bound) :
    (Numeral.ofNat n).natBelow? bound = some n := by
  simp [natBelow?, Numeral.ofNat, isInteger, h]

end NoteLinks
