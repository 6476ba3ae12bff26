/-
# Numerals

A numeral is a number as it is written: digits, perhaps a fraction, perhaps an
exponent. Data files are made of numerals, and numbers are read from them.

Natural numbers are read from numerals that are nothing but digits.
For floats there are two readings. The exact one takes the float nearest to the
number that is written. The scaled one is that of data files: it takes as many
leading digits as 64 bits hold, and multiplies or divides them once by a power
of ten.
-/
import NoteLinks.Text.Basic

namespace NoteLinks

/-- A number as it is written. -/
structure Numeral where
  negative : Bool
  whole : Text
  fraction : Text
  /-- The sign of the exponent, true for a minus, and its digits. -/
  exponent : Option (Bool × Text)
  deriving DecidableEq, Repr

/-- The value of a decimal digit. -/
def digitValue (c : Char) : Nat := c.toNat - '0'.toNat

/-- The natural number that decimal digits spell. -/
def natOfDigits (t : Text) : Nat := t.foldl (fun n c => 10 * n + digitValue c) 0

/-- The float nearest to `digits * 10 ^ exponent`. Far outside the range of
floats nothing has to be computed. -/
def nearestFloat (digits : Nat) (exponent : Int) : Float :=
  let point := exponent + (Nat.toDigits 10 digits).length
  if digits = 0 || point < -330 then 0.0
  else if point > 320 then 1.0 / 0.0
  else Float.ofScientific digits (exponent < 0) exponent.natAbs

/-- The text with a minus sign in front, if the number is negative. -/
def withSign (negative : Bool) (t : Text) : Text := if negative then '-' :: t else t

namespace Numeral

/-- The text of a numeral. -/
def text (n : Numeral) : Text :=
  let fraction := if n.fraction.isEmpty then [] else '.' :: n.fraction
  let exponent := match n.exponent with
    | none => []
    | some (negative, digits) => 'e' :: withSign negative digits
  withSign n.negative (n.whole ++ fraction ++ exponent)

/-- The numeral of a natural number. -/
def ofNat (n : Nat) : Numeral :=
  { negative := false, whole := Text.ofNat n, fraction := [], exponent := none }

/-- Whether nothing but a sign and digits is written. -/
def isInteger (n : Numeral) : Bool := n.fraction.isEmpty && n.exponent.isNone

/-- The natural number that is written, if it is one without a sign and below a
bound. -/
def natBelow? (bound : Nat) (n : Numeral) : Option Nat :=
  if n.negative || !n.isInteger then none
  else
    let value := natOfDigits n.whole
    if value < bound then some value else none

/-- The exponent that is written, none being zero. -/
def exponentValue (n : Numeral) : Int :=
  match n.exponent with
  | none => 0
  | some (negative, digits) => if negative then -(natOfDigits digits : Int) else natOfDigits digits

/-- The float nearest to the number that is written. -/
def exactFloat (n : Numeral) : Float :=
  let x := nearestFloat (natOfDigits (n.whole ++ n.fraction)) (n.exponentValue - n.fraction.length)
  if n.negative then -x else x

/-! ## The scaled reading -/

/-- Digits taken into a number as long as it stays below `2 ^ 64`, and the digits
that are left. -/
def takeWhileFits (value : Nat) : Text → Nat × Text
  | [] => (value, [])
  | c :: digits =>
    let next := 10 * value + digitValue c
    if next < 0x10000000000000000 then takeWhileFits next digits else (value, c :: digits)

/-- A number of at most 64 bits times a power of ten, multiplied or divided in
steps that are floats themselves. There is no result if it is too large. -/
def scaled? : (fuel : Nat) → Float → Int → Option Float
  | 0, x, _ => some x
  | fuel + 1, x, e =>
    if e.natAbs ≤ 308 then
      if 0 ≤ e then
        let y := x * Float.ofScientific 1 false e.natAbs
        if y.isInf then none else some y
      else some (x / Float.ofScientific 1 false e.natAbs)
    else if x == 0.0 then some x
    else if 0 ≤ e then none
    else scaled? fuel (x / Float.ofScientific 1 false 308) (e + 308)

/-- The float that is read from the leading digits by scaling. Digits of the
integral part that do not fit count as powers of ten, digits of the fraction
that do not fit count for nothing. -/
def scaledFloat? (n : Numeral) : Option Float :=
  let (whole, dropped) := takeWhileFits 0 n.whole
  let (value, unread) := takeWhileFits whole n.fraction
  let places : Int := n.fraction.length - unread.length
  let e := dropped.length - places + n.exponentValue
  let magnitude :=
    match n.exponent with
    | some (negative, digits) =>
      if natOfDigits digits < 0x80000000 then scaled? 8 (UInt64.ofNat value).toFloat e
      else if value ≠ 0 && !negative then none
      else some 0.0
    | none => scaled? 8 (UInt64.ofNat value).toFloat e
  magnitude.map fun x => if n.negative then -x else x

end Numeral

end NoteLinks
