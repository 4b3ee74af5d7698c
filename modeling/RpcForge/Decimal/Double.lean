import RpcForge.Decimal.Shortest

/-!
# Double-precision numbers

Finite numbers of the binary64 format, held by their bits. A number is read from a decimal by
scaling its first digits with a power of ten, and taken apart exactly for writing.
-/

namespace RpcForge.Decimal

/-- A double-precision number, held by its bits. -/
structure Double where
  /-- Sign, exponent and fraction as the format lays them out. -/
  bits : UInt64
deriving DecidableEq, Repr, Inhabited

namespace Double

/-- The number that a machine float holds. -/
def ofFloat (x : Float) : Double :=
  ⟨x.toBits⟩

/-- Whether the sign bit is set. -/
def isNegative (d : Double) : Bool :=
  d.bits.toNat / Nat.pow 2 63 == 1

/-- The exponent field. -/
def exponentField (d : Double) : Nat :=
  d.bits.toNat / Nat.pow 2 52 % Nat.pow 2 11

/-- The fraction field. -/
def fraction (d : Double) : Nat :=
  d.bits.toNat % Nat.pow 2 52

/-- Whether the number is zero, with either sign. -/
def isZero (d : Double) : Bool :=
  d.exponentField == 0 && d.fraction == 0

/-- The magnitude of a finite number with the interval of the reals that are rounded to it. -/
def interval (d : Double) : Interval :=
  if d.exponentField = 0 then .ofBinary d.fraction (-1074) false
  else .ofBinary (Nat.pow 2 52 + d.fraction) (d.exponentField - 1075)
    (d.fraction == 0 && 1 < d.exponentField)

/-- The shortest decimal that is rounded to the magnitude of a number. -/
def shortest (d : Double) : Scientific :=
  if d.isZero then ⟨0, 0⟩ else d.interval.shortest

/-- Divide by a power of ten, in steps where the power itself is too large for a double. -/
def divideByPower (x : Float) (power : Nat) : Float :=
  if power ≤ 308 then x / Float.ofScientific 1 false power
  else if x == 0 then x
  else divideByPower (x / Float.ofScientific 1 false 308) (power - 308)
termination_by power

/-- The number `significand · 10 ^ exponent`, rounded once for the significand and once for each
scaling step; nothing where it is too large. -/
def ofDecimal? (negative : Bool) (significand : UInt64) (exponent : Int) : Option Double :=
  let x := significand.toFloat
  let signed (x : Float) : Double := ofFloat (if negative then -x else x)
  if exponent < 0 then some (signed (divideByPower x (-exponent).toNat))
  else if x == 0 then some (signed x)
  else if 308 < exponent then none
  else
    let scaled := x * Float.ofScientific 1 false exponent.toNat
    if scaled.isInf then none else some (signed scaled)

end Double

end RpcForge.Decimal
