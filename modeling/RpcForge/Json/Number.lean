import RpcForge.Decimal.Double

/-!
# JSON numbers

A number of a document is a whole number that fits in 64 bits, with or without sign, or else a
double-precision number. Whole numbers are written as they are. Doubles are written with the fewest
digits that read back, positionally within a range of magnitudes and scientifically outside of it.
-/

namespace RpcForge.Json

open RpcForge.Decimal

/-- A JSON number. -/
inductive Number where
  /-- A whole number; reading yields only those of 64 bits. -/
  | int (n : Int)
  /-- A finite double-precision number. -/
  | double (d : Double)
deriving DecidableEq, Repr, Inhabited

namespace Number

/-- Least whole number with 64 bits and a sign, `-2 ^ 63`. -/
def minInt : Int := -9223372036854775808

/-- Greatest whole number with 64 bits and no sign, `2 ^ 64 - 1`. -/
def maxInt : Int := 18446744073709551615

/-- Powers of ten of the first digit for which a double is written positionally: from `10 ^ -5` to
below `10 ^ 16`. -/
def isPositional (exponent : Int) : Bool :=
  -5 ≤ exponent && exponent < 16

/-- Digits with the point in its place; a fraction always follows it. -/
def positional (digits : List Char) (exponent : Int) : List Char :=
  if exponent < 0 then
    ['0', '.'] ++ List.replicate (-exponent - 1).toNat '0' ++ digits
  else
    let whole := exponent.toNat + 1
    let fraction := digits.drop whole
    digits.take whole ++ List.replicate (whole - digits.length) '0' ++
      '.' :: (if fraction.isEmpty then ['0'] else fraction)

/-- The first digit, the others behind a point, and the power of ten with its sign. -/
def scientific (digits : List Char) (exponent : Int) : List Char :=
  digits.take 1 ++ (if digits.length ≤ 1 then [] else '.' :: digits.drop 1) ++
    ['e', if exponent < 0 then '-' else '+'] ++ Nat.toDigits 10 exponent.natAbs

/-- A double as it is written. -/
def renderDouble (d : Double) : List Char :=
  let decimal := d.shortest
  let digits := Nat.toDigits 10 decimal.digits
  (if d.isNegative then ['-'] else []) ++
    if isPositional decimal.exponent then positional digits decimal.exponent
    else scientific digits decimal.exponent

/-- A whole number as it is written. -/
def renderInt (n : Int) : List Char :=
  (if n < 0 then ['-'] else []) ++ Nat.toDigits 10 n.natAbs

/-- A number as it is written. -/
def render : Number → String
  | .int n => String.ofList (renderInt n)
  | .double d => String.ofList (renderDouble d)

end Number

end RpcForge.Json
