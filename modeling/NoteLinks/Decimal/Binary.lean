/-
# Floats as numbers

A float is not a number, an infinity, or a natural number times a power of two
with a sign. Everything that writes a float starts from this form, so that the
rest of the work is exact arithmetic on natural numbers.
-/
namespace NoteLinks

/-- What a float stands for. -/
inductive FloatValue
  | notANumber
  | infinite (negative : Bool)
  /-- The number `mantissa * 2 ^ exponent`, negated if `negative`. -/
  | finite (negative : Bool) (mantissa : Nat) (exponent : Int)
  deriving DecidableEq, Repr

namespace FloatValue

/-- The value of 64 bits: a sign, eleven bits of exponent, and 52 bits of
mantissa, to which a leading one belongs unless the exponent is at its least. -/
def ofBits (bits : UInt64) : FloatValue :=
  let negative := bits >>> 63 == 1
  let biased := ((bits >>> 52) &&& 0x7FF).toNat
  let fraction := (bits &&& 0xFFFFFFFFFFFFF).toNat
  if biased = 0x7FF then
    if fraction = 0 then .infinite negative else .notANumber
  else if biased = 0 then .finite negative fraction (-1074)
  else .finite negative (fraction + 0x10000000000000) ((biased : Int) - 1075)

/-- The value of a float. -/
def ofFloat (x : Float) : FloatValue := ofBits x.toBits

end FloatValue

/-- The whole number nearest to a float, as a float. Halves are rounded away from
zero. What is not finite stays as it is. -/
def roundToWhole (x : Float) : Float :=
  match FloatValue.ofFloat x with
  | .finite negative mantissa (.negSucc e) =>
    let parts := Nat.pow 2 (e + 1)
    let whole := Float.ofNat ((2 * mantissa + parts) / (2 * parts))
    if negative then -whole else whole
  | _ => x

/-- A ratio of natural numbers that is `n` times a power of two. -/
def scaleByTwo (n : Nat) (exponent : Int) : Nat × Nat :=
  match exponent with
  | .ofNat e => (n * Nat.pow 2 e, 1)
  | .negSucc e => (n, Nat.pow 2 (e + 1))

/-- A ratio of natural numbers divided by a power of ten. -/
def divideByTen (ratio : Nat × Nat) (exponent : Int) : Nat × Nat :=
  match exponent with
  | .ofNat e => (ratio.1, ratio.2 * Nat.pow 10 e)
  | .negSucc e => (ratio.1 * Nat.pow 10 (e + 1), ratio.2)

end NoteLinks
