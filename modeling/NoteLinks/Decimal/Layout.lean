/-
# Writing floats

Three layouts are in use. Data files have the shortest decimal with a point in
it, and an exponent when the number is very large or very small. Messages have
the shortest decimal written out in full. Tables have a fixed number of places.
-/
import NoteLinks.Decimal.Numeral
import NoteLinks.Decimal.Shortest

namespace NoteLinks

namespace Decimal

/-- The digits in front of the point and those behind it, with zeros where
digits are missing. -/
def positional (d : Decimal) : Text × Text :=
  let digits := Text.ofNat d.digits
  match d.exponent with
  | .ofNat e => (digits ++ List.replicate e '0', [])
  | .negSucc e =>
    let places := e + 1
    if digits.length ≤ places then
      (['0'], List.replicate (places - digits.length) '0' ++ digits)
    else (digits.take (digits.length - places), digits.drop (digits.length - places))

/-- The digits on both sides of the point, with the point between them if there
are any behind it. -/
def positionalText (d : Decimal) : Text :=
  let (whole, fraction) := d.positional
  if fraction.isEmpty then whole else whole ++ '.' :: fraction

/-- The numeral of a decimal in a data file. It is written out, with a digit
behind the point at least, if the point lies from five places before the digits
to sixteen places behind the first. Otherwise one digit stands in front of the
point. -/
def numeral (negative : Bool) (d : Decimal) : Numeral :=
  let digits := Text.ofNat d.digits
  let point := d.exponent + digits.length
  if -5 < point && point ≤ 16 then
    let (whole, fraction) := d.positional
    { negative, whole, fraction := if fraction.isEmpty then ['0'] else fraction, exponent := none }
  else
    let power := point - 1
    { negative
      whole := digits.take 1
      fraction := digits.drop 1
      exponent := some (power < 0, Text.ofNat power.natAbs) }

end Decimal

/-- The numeral of a finite float in a data file; nothing for the others. -/
def Float.numeral? (x : Float) : Option Numeral :=
  match FloatValue.ofFloat x with
  | .finite negative m q =>
    some (if m = 0 then { negative, whole := ['0'], fraction := ['0'], exponent := none }
      else (Decimal.shortest .even m q).numeral negative)
  | _ => none

/-- The text of a float in a message: all its digits, and no more. -/
def Float.messageText (x : Float) : Text :=
  match FloatValue.ofFloat x with
  | .notANumber => "NaN".toList
  | .infinite negative => withSign negative "inf".toList
  | .finite negative m q =>
    withSign negative (if m = 0 then ['0'] else (Decimal.shortest .up m q).positionalText)

/-- The quotient rounded to the nearest natural number, a half to the even one. -/
def roundHalfEven (numerator denominator : Nat) : Nat :=
  let floor := numerator / denominator
  let rest := 2 * (numerator % denominator)
  if rest > denominator || (rest == denominator && floor % 2 == 1) then floor + 1 else floor

/-- The text of a float with a number of places behind the point. Its exact value
is rounded, a half to the even digit. -/
def Float.fixedText (places : Nat) (x : Float) : Text :=
  match FloatValue.ofFloat x with
  | .notANumber => "NaN".toList
  | .infinite negative => withSign negative "inf".toList
  | .finite negative m q =>
    let (numerator, denominator) := scaleByTwo m q
    let digits := roundHalfEven (numerator * Nat.pow 10 places) denominator
    withSign negative (Decimal.positionalText ⟨digits, -(places : Int)⟩)

end NoteLinks
