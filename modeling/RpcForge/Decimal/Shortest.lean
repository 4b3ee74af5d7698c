/-!
# The shortest decimal of a binary fraction

A positive number `m · 2 ^ q` stands for every real number that is rounded to it, an interval from
half a step below to half a step above. `Interval.shortest` finds the decimal with the fewest digits
in that interval and, among those, the nearest one. All arithmetic is on natural numbers.
-/

namespace RpcForge.Decimal

/-- A decimal in scientific form. -/
structure Scientific where
  /-- The digits, read as a natural number. -/
  digits : Nat
  /-- Power of ten of the first digit. -/
  exponent : Int
deriving DecidableEq, Repr

/-- A positive number with the interval of the reals that are rounded to it, over one denominator:
the number is `value / scale`, and the interval reaches `below / scale` down and `above / scale`
up. -/
structure Interval where
  /-- Numerator of the number itself. -/
  value : Nat
  /-- Numerator of the reach downwards. -/
  below : Nat
  /-- Numerator of the reach upwards. -/
  above : Nat
  /-- The common denominator. -/
  scale : Nat
  /-- Whether the ends belong to the interval. -/
  closed : Bool
deriving DecidableEq, Repr

/-- The interval of `mantissa · 2 ^ exponent`. Below a power of two the numbers lie half as far
apart, so where the next number down is that close the interval reaches only half as far. -/
def Interval.ofBinary (mantissa : Nat) (exponent : Int) (closeBelow : Bool) : Interval :=
  let unit := Nat.pow 2 (exponent - 2).toNat
  { value := 4 * mantissa * unit
    below := if closeBelow then unit else 2 * unit
    above := 2 * unit
    scale := Nat.pow 2 (2 - exponent).toNat
    closed := mantissa % 2 == 0 }

/-- How many decimal digits a natural number has. -/
def digitCount (n : Nat) : Nat :=
  (Nat.toDigits 10 n).length

/-- Power of ten of the first digit of a positive number. -/
def Interval.exponent (i : Interval) : Int :=
  if i.scale ≤ i.value then digitCount (i.value / i.scale) - 1
  else
    let shift := digitCount i.scale - digitCount i.value
    if i.scale ≤ i.value * Nat.pow 10 shift then -shift else -(shift + 1)

/-- The decimal with the given count of digits that lies in the interval; of two, the nearer one,
and of two equally near ones the one with an even last digit. -/
def Interval.withDigits? (i : Interval) (count : Nat) : Option Scientific :=
  let place := i.exponent - count + 1
  let up := Nat.pow 10 (-place).toNat
  let unit := i.scale * Nat.pow 10 place.toNat
  let floor := i.value * up / unit
  let down := i.value * up - floor * unit
  let rise := (floor + 1) * unit - i.value * up
  let within (distance reach : Nat) : Bool :=
    distance < reach || (i.closed && distance == reach)
  let lower : Scientific := ⟨floor, i.exponent⟩
  let upper : Scientific :=
    if floor + 1 = Nat.pow 10 count then ⟨1, i.exponent + 1⟩ else ⟨floor + 1, i.exponent⟩
  match within down (i.below * up), within rise (i.above * up) with
  | true, true =>
    if down < rise || (down == rise && floor % 2 == 0) then some lower else some upper
  | true, false => some lower
  | false, true => some upper
  | false, false => none

/-- The decimal with the fewest digits in the interval. Seventeen digits suffice for every interval
of a number with fifty-three binary digits. -/
def Interval.shortest (i : Interval) : Scientific :=
  ((List.range 17).findSome? fun count ↦ i.withDigits? (count + 1)).getD ⟨0, 0⟩

end RpcForge.Decimal
