/-
# The numeral of a float

The search for the shortest decimal goes down to a grid so fine that it has a point just below
every float. So the search always ends with digits, and these are not zero: the halfway points of
a float other than zero lie above zero. It follows that what a data file has for a float is a
proper numeral.
-/
import NoteLinks.Decimal.Layout
import NoteLinks.Proofs.Decimal.Numeral

namespace NoteLinks

/-! ## Ratios -/

theorem scaleByTwo_fst (n : Nat) (e : Int) : (scaleByTwo n e).1 = n * (scaleByTwo 1 e).1 := by
  cases e <;> simp [scaleByTwo]

theorem scaleByTwo_snd (n : Nat) (e : Int) : (scaleByTwo n e).2 = (scaleByTwo 1 e).2 := by
  cases e <;> rfl

namespace Decimal

variable {tie : Tie} {m : Nat} {q k : Int}

/-- A number of quarters as a ratio over the grid of `10 ^ k`. -/
def scale (q k : Int) (n : Nat) : Nat × Nat := divideByTen (scaleByTwo n (q - 2)) k

theorem scale_fst (q k : Int) (n : Nat) : (scale q k n).1 = n * (scale q k 1).1 := by
  unfold scale
  cases k with
  | ofNat e => exact scaleByTwo_fst n (q - 2)
  | negSucc e => simp only [divideByTen, scaleByTwo_fst n, Nat.mul_assoc]

theorem scale_snd (q k : Int) (n : Nat) : (scale q k n).2 = (scale q k 1).2 := by
  unfold scale
  cases k <;> simp only [divideByTen, scaleByTwo_snd n]

theorem scale_pos (q k : Int) : 0 < (scale q k 1).1 := by
  unfold scale
  generalize q - 2 = e
  cases e <;> cases k <;> simp [divideByTen, scaleByTwo]

theorem step_pos (q k : Int) : 0 < (scale q k 1).2 := by
  unfold scale
  generalize q - 2 = e
  cases e <;> cases k <;> simp [divideByTen, scaleByTwo]

/-! ## One grid -/

/-- The distance to the halfway point below, in quarters. -/
def quartersBelow (m : Nat) (q : Int) : Nat := if m = 0x10000000000000 && q > -1074 then 1 else 2

theorem quartersBelow_pos : 1 ≤ quartersBelow m q := by
  unfold quartersBelow
  split <;> decide

theorem quartersBelow_le : quartersBelow m q ≤ 2 := by
  unfold quartersBelow
  split <;> decide

/-- Whether a multiple of the grid lies between the halfway points. -/
def admitted (m : Nat) (q k : Int) : Nat → Bool :=
  within (scale q k (4 * m - quartersBelow m q)).1 (scale q k (4 * m + 2)).1
    (scale q k (4 * m)).2 (m % 2 == 0)

/-- The multiple of the grid that is the value or next below it. -/
def floorOn (m : Nat) (q k : Int) : Nat := (scale q k (4 * m)).1 / (scale q k (4 * m)).2

/-- Only the two multiples around the value are looked at. -/
theorem onGrid_eq (tie : Tie) (m : Nat) (q k : Int) : ∃ up : Bool, onGrid tie m q k =
    match admitted m q k (floorOn m q k), admitted m q k (floorOn m q k + 1) with
    | true, true => some (if up then floorOn m q k + 1 else floorOn m q k)
    | true, false => some (floorOn m q k)
    | false, true => some (floorOn m q k + 1)
    | false, false => none := ⟨_, rfl⟩

/-- Only multiples between the halfway points are found. -/
theorem admitted_of_onGrid {digits : Nat} (h : onGrid tie m q k = some digits) :
    admitted m q k digits = true := by
  obtain ⟨up, heq⟩ := onGrid_eq tie m q k
  rw [heq] at h
  split at h
  next hfloor hnext =>
    cases up <;> cases h
    · exact hfloor
    · exact hnext
  next hfloor _ => cases h; exact hfloor
  next _ hnext => cases h; exact hnext
  next => cases h

theorem isSome_onGrid (h : admitted m q k (floorOn m q k) = true) :
    (onGrid tie m q k).isSome = true := by
  obtain ⟨up, heq⟩ := onGrid_eq tie m q k
  rw [heq, h]
  cases admitted m q k (floorOn m q k + 1) <;> rfl

/-- Zero lies below the halfway points of every value other than zero. -/
theorem admitted_zero (hm : m ≠ 0) : admitted m q k 0 = false := by
  have hlow : 0 < (scale q k (4 * m - quartersBelow m q)).1 := by
    rw [scale_fst]
    have hle := quartersBelow_le (m := m) (q := q)
    exact Nat.mul_pos (by omega) (scale_pos q k)
  rw [admitted, within]
  split
  next => simpa using hlow.ne'
  next => simp

/-- A grid whose points are no further apart than a quarter of the distance between two floats
has a point that is admitted, next below the value or at it. -/
theorem admitted_floorOn (hm : m ≠ 0) (h : (scale q k 1).2 ≤ (scale q k 1).1) :
    admitted m q k (floorOn m q k) = true := by
  have hpos := scale_pos q k
  have hstep := step_pos q k
  have hbelow := quartersBelow_pos (m := m) (q := q)
  have hbelow' := quartersBelow_le (m := m) (q := q)
  rw [admitted, within, floorOn, scale_fst, scale_fst q k (4 * m + 2), scale_fst q k (4 * m),
    scale_snd]
  generalize (scale q k 1).1 = unit at *
  generalize (scale q k 1).2 = step at *
  have hlow : (4 * m - quartersBelow m q) * unit + unit ≤ 4 * m * unit := by
    rw [← Nat.succ_mul]
    exact Nat.mul_le_mul_right unit (by omega)
  have hhigh : (4 * m + 2) * unit = 4 * m * unit + 2 * unit := Nat.add_mul _ _ _
  have hsplit := Nat.div_add_mod' (4 * m * unit) step
  have hrest : 4 * m * unit % step < unit := (Nat.mod_lt _ hstep).trans_le h
  split
  next =>
    rw [Bool.and_eq_true, decide_eq_true_eq, decide_eq_true_eq]
    omega
  next =>
    rw [Bool.and_eq_true, decide_eq_true_eq, decide_eq_true_eq]
    omega

/-! ## The search -/

theorem searchGrids_ne_zero (hm : m ≠ 0) {steps : Nat}
    (h : ∃ i < steps, (onGrid tie m q (k - i)).isSome = true) :
    (searchGrids tie m q steps k).digits ≠ 0 := by
  induction steps generalizing k with
  | zero =>
      obtain ⟨i, hi, -⟩ := h
      exact absurd hi (Nat.not_lt_zero i)
  | succ steps ih =>
      rw [searchGrids]
      split
      next digits hdigits =>
        rintro rfl
        exact Bool.false_ne_true ((admitted_zero hm).symm.trans (admitted_of_onGrid hdigits))
      next hnone =>
        obtain ⟨i, hi, hsome⟩ := h
        cases i with
        | zero => simp [hnone] at hsome
        | succ i =>
            rw [Int.natCast_add_one, Int.add_comm, ← Int.sub_sub] at hsome
            exact ih ⟨i, Nat.lt_of_succ_lt_succ hi, hsome⟩

theorem stripZeros_ne_zero {fuel : Nat} {d : Decimal} (h : d.digits ≠ 0) :
    (stripZeros fuel d).digits ≠ 0 := by
  induction fuel generalizing d with
  | zero => exact h
  | succ fuel ih =>
      rw [stripZeros]
      split
      next hcond =>
        simp only [Bool.and_eq_true, decide_eq_true_eq] at hcond
        exact ih (show d.digits / 10 ≠ 0 by omega)
      next => exact h

theorem two_pow_le (n : Nat) : 2 ^ (43 * n) ≤ 10 ^ (13 * n) := by
  rw [Nat.pow_mul, Nat.pow_mul]
  exact Nat.pow_le_pow_left (by decide) n

/-- Beyond 338 places the points of a grid are close enough to each other. -/
theorem step_le_scale (hq : -1074 ≤ q) {places : Nat} (hplaces : 338 ≤ places + 1) :
    (scale q (.negSucc places) 1).2 ≤ (scale q (.negSucc places) 1).1 := by
  cases hexponent : q - 2 with
  | ofNat e =>
      have hstep : (scale q (.negSucc places) 1).2 = 1 := by
        rw [scale, hexponent]
        rfl
      rw [hstep]
      exact scale_pos q _
  | negSucc e =>
      obtain ⟨n, he, hn⟩ : ∃ n, e + 1 ≤ 43 * n ∧ 13 * n ≤ 338 := ⟨26, by omega, by decide⟩
      rw [scale, hexponent]
      calc 2 ^ (e + 1) ≤ 2 ^ (43 * n) := Nat.pow_le_pow_right (by decide) he
        _ ≤ 10 ^ (13 * n) := two_pow_le n
        _ ≤ 10 ^ (places + 1) := Nat.pow_le_pow_right (by decide) (hn.trans hplaces)
        _ = 1 * 10 ^ (places + 1) := (Nat.one_mul _).symm

/-- The shortest decimal of a float other than zero is not zero. -/
theorem shortest_ne_zero (hm : m ≠ 0) (hq : -1074 ≤ q) : (shortest tie m q).digits ≠ 0 := by
  rw [shortest]
  refine stripZeros_ne_zero (searchGrids_ne_zero hm ?_)
  generalize (Nat.toDigits 10 _).length = start
  refine ⟨start + 344, by omega, ?_⟩
  rw [show (start : Int) - (start + 344 : Nat) = .negSucc 343 by omega]
  exact isSome_onGrid (admitted_floorOn hm (step_le_scale hq (by decide)))

/-! ## Layout -/

/-- What stands in front of the point, and what stands behind it, is spelled by digits. No zero
stands in front of others. -/
theorem isDigits_positional {d : Decimal} (hd : d.digits ≠ 0) :
    Text.IsDigits d.positional.1 ∧ d.positional.1 ≠ [] ∧
      (d.positional.1.head? = some '0' → d.positional.1.length = 1) ∧
      Text.IsDigits d.positional.2 := by
  have hdigits := Text.isDigits_ofNat d.digits
  obtain ⟨c, t, hcons⟩ := List.exists_cons_of_ne_nil (Text.ofNat_ne_nil d.digits)
  have hc : c ≠ '0' := by simpa [hcons] using Text.head?_ofNat_ne_zero hd
  rw [positional]
  split
  next e _ =>
    refine ⟨hdigits.append (Text.isDigits_replicate e), ?_, ?_, nofun⟩
    · simp [hcons]
    · simp [hcons, hc]
  next e _ =>
    simp only
    split
    next =>
      exact ⟨Text.isDigits_replicate 1, List.cons_ne_nil _ _, fun _ => rfl,
        (Text.isDigits_replicate _).append hdigits⟩
    next hlong =>
      obtain ⟨n, hn⟩ : ∃ n, (Text.ofNat d.digits).length - (e + 1) = n + 1 :=
        ⟨(Text.ofNat d.digits).length - (e + 1) - 1, by omega⟩
      rw [hn, hcons, List.take_succ_cons]
      rw [hcons] at hdigits
      refine ⟨fun x hx => hdigits x ?_, List.cons_ne_nil _ _, ?_,
        fun x hx => hdigits x (List.mem_of_mem_drop hx)⟩
      · exact List.mem_of_mem_take (i := n + 1) (by rwa [List.take_succ_cons])
      · simp [hc]

/-- The numeral of a decimal other than zero is proper. -/
theorem isProper_numeral (negative : Bool) {d : Decimal} (hd : d.digits ≠ 0) :
    (d.numeral negative).IsProper := by
  obtain ⟨hwhole, hne, hzero, hfraction⟩ := isDigits_positional hd
  have hdigits := Text.isDigits_ofNat d.digits
  have hlength := List.length_pos_iff.mpr (Text.ofNat_ne_nil d.digits)
  rw [numeral]
  split
  next =>
    refine ⟨hwhole, hne, hzero, ?_, nofun⟩
    simp only
    split
    next => exact Text.isDigits_replicate 1
    next => exact hfraction
  next =>
    refine ⟨fun x hx => hdigits x (List.mem_of_mem_take hx), ?_, fun _ => ?_,
      fun x hx => hdigits x (List.mem_of_mem_drop hx), ?_⟩
    · simpa using Text.ofNat_ne_nil d.digits
    · simp only [List.length_take]
      omega
    · rintro _ _ ⟨rfl, rfl⟩
      exact ⟨Text.isDigits_ofNat _, Text.ofNat_ne_nil _⟩

end Decimal

/-! ## Floats -/

theorem FloatValue.exponent_ge {bits : UInt64} {negative : Bool} {m : Nat} {q : Int}
    (h : ofBits bits = .finite negative m q) : -1074 ≤ q := by
  rw [ofBits] at h
  split at h
  next => split at h <;> cases h
  next =>
    split at h
    next => cases h; exact Int.le_refl _
    next => cases h; omega

/-- A data file has a proper numeral for a float. -/
theorem Float.isProper_numeral? {x : Float} {n : Numeral} (h : Float.numeral? x = some n) :
    n.IsProper := by
  rw [Float.numeral?] at h
  split at h
  next negative m q hvalue =>
    obtain rfl := Option.some.inj h
    split
    next =>
      exact ⟨Text.isDigits_replicate 1, List.cons_ne_nil _ _, fun _ => rfl,
        Text.isDigits_replicate 1, nofun⟩
    next hm =>
      exact Decimal.isProper_numeral negative
        (Decimal.shortest_ne_zero hm (FloatValue.exponent_ge hvalue))
  next => cases h

end NoteLinks
