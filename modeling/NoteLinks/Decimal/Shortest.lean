/-
# The shortest decimal of a float

Many decimals round to the same float. The one written is the shortest of them,
and of several equally short ones the nearest to the float's value.

The decimals that round to `m * 2 ^ q` lie between the halfway points to its two
neighbours, which belong to them if `m` is even. The multiples of `10 ^ k` are
tried from a coarse grid to ever finer ones, and the first grid that has a point
between the halfway points has one next to the value itself. So only the two
multiples around the value need to be looked at.
-/
import NoteLinks.Decimal.Binary

namespace NoteLinks

/-- The number `digits * 10 ^ exponent`. -/
structure Decimal where
  digits : Nat
  exponent : Int
  deriving DecidableEq, Repr

/-- Which of two equally near numbers is taken. -/
inductive Tie
  | even
  | up

namespace Decimal

/-- Whether the multiple of the grid lies between the halfway points `low` and
`high`, which are given as numerators over the denominator of the grid. -/
def within (low high denominator : Nat) (closed : Bool) (multiple : Nat) : Bool :=
  let x := multiple * denominator
  if closed then low ≤ x && x ≤ high else low < x && x < high

/-- The multiple of `10 ^ k` nearest to the value `m * 2 ^ q`, if it lies between
the halfway points. The point below is nearer than usual if `m` is the least
mantissa of its exponent. -/
def onGrid (tie : Tie) (m : Nat) (q : Int) (k : Int) : Option Nat :=
  let below := if m = 0x10000000000000 && q > -1074 then 1 else 2
  let scale (n : Nat) : Nat × Nat := divideByTen (scaleByTwo n (q - 2)) k
  let (value, denominator) := scale (4 * m)
  let low := (scale (4 * m - below)).1
  let high := (scale (4 * m + 2)).1
  let floor := value / denominator
  let admitted := within low high denominator (m % 2 == 0)
  match admitted floor, admitted (floor + 1) with
  | true, true =>
    let rest := 2 * (value % denominator)
    let up := rest > denominator || (rest == denominator &&
      match tie with
      | .even => floor % 2 == 1
      | .up => true)
    some (if up then floor + 1 else floor)
  | true, false => some floor
  | false, true => some (floor + 1)
  | false, false => none

/-- The search through `steps` grids from `10 ^ k` downward. -/
def searchGrids (tie : Tie) (m : Nat) (q : Int) : (steps : Nat) → (k : Int) → Decimal
  | 0, k => ⟨0, k⟩
  | steps + 1, k =>
    match onGrid tie m q k with
    | some digits => ⟨digits, k⟩
    | none => searchGrids tie m q steps (k - 1)

/-- The decimal without the zeros at the end of its digits. -/
def stripZeros : (fuel : Nat) → Decimal → Decimal
  | 0, d => d
  | fuel + 1, d =>
    if d.digits ≠ 0 && d.digits % 10 = 0 then stripZeros fuel ⟨d.digits / 10, d.exponent + 1⟩
    else d

/-- The shortest decimal that rounds to the float of value `m * 2 ^ q`, and the
nearest of those. The coarsest grid tried is a power of ten above the value. -/
def shortest (tie : Tie) (m : Nat) (q : Int) : Decimal :=
  let (numerator, denominator) := scaleByTwo m q
  let start := (Nat.toDigits 10 (numerator / denominator)).length
  let d := searchGrids tie m q (start + 345) start
  stripZeros 400 d

end Decimal

end NoteLinks
