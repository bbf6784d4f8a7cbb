/-!
# BlockGrid.Number.Binary64

Double-precision numbers as bit patterns, read exactly.

* `Binary64`  — sixty-four bits. Equality is equality of patterns, so `0.0` and `-0.0` differ.
* `Scaled`    — an integer times a power of two, the exact value of a finite pattern.
* `Extended`  — what a pattern is among numbers: an exact value, one of the infinities, or nothing
  that has a place among them.
* `toInt?`    — the integer a pattern stands for, if it stands for one.
* `ofRatio`   — the pattern nearest to a quotient of naturals, a tie going to the even one.

Patterns with an all-ones exponent field are not finite: `infinity` with a fraction of zero, `nan`
with any other.
-/

namespace BlockGrid

/-- `mantissa * 2 ^ exponent`. -/
structure Scaled where
  mantissa : Int
  exponent : Int
  deriving DecidableEq, Repr

namespace Scaled

/-- The two mantissas over the smaller of the two exponents. -/
def align (x y : Scaled) : Int × Int :=
  let e := min x.exponent y.exponent
  (x.mantissa * Int.pow 2 (x.exponent - e).toNat,
    y.mantissa * Int.pow 2 (y.exponent - e).toNat)

def lt (x y : Scaled) : Bool :=
  let (a, b) := x.align y
  a < b

def le (x y : Scaled) : Bool :=
  let (a, b) := x.align y
  a ≤ b

def same (x y : Scaled) : Bool :=
  let (a, b) := x.align y
  a == b

def ofInt (n : Int) : Scaled := ⟨n, 0⟩

/-- The integer part: fractions are cut off toward zero. -/
def trunc (x : Scaled) : Int :=
  if 0 ≤ x.exponent then x.mantissa * Int.pow 2 x.exponent.toNat
  else x.mantissa.tdiv (Int.pow 2 (-x.exponent).toNat)

/-- The integer itself, when there is no fraction to cut off. -/
def toInt? (x : Scaled) : Option Int :=
  if x.same (ofInt x.trunc) then some x.trunc else none

end Scaled

inductive Extended where
  | finite (x : Scaled)
  | infinite (negative : Bool)
  | notANumber
  deriving DecidableEq, Repr

namespace Extended

def ofInt (n : Int) : Extended := .finite (.ofInt n)

/-- The infinities lie beyond every exact value. What is not a number lies nowhere: it is neither
below nor above anything, and not even the same as itself. -/
def lt : Extended → Extended → Bool
  | .finite x, .finite y => x.lt y
  | .finite _, .infinite negative => !negative
  | .infinite negative, .finite _ => negative
  | .infinite a, .infinite b => a && !b
  | _, _ => false

def same : Extended → Extended → Bool
  | .finite x, .finite y => x.same y
  | .infinite a, .infinite b => a == b
  | _, _ => false

def le : Extended → Extended → Bool
  | .finite x, .finite y => x.le y
  | x, y => x.lt y || x.same y

end Extended

structure Binary64 where
  bits : UInt64
  deriving DecidableEq, Inhabited, Repr

namespace Binary64

def isNegative (x : Binary64) : Bool := Nat.pow 2 63 ≤ x.bits.toNat

def exponentField (x : Binary64) : Nat := x.bits.toNat / Nat.pow 2 52 % Nat.pow 2 11

def fractionField (x : Binary64) : Nat := x.bits.toNat % Nat.pow 2 52

def isFinite (x : Binary64) : Bool := x.exponentField < 2047

/-- The whole significand: normal patterns have a hidden leading bit, subnormal ones do not. -/
def significand (x : Binary64) : Nat :=
  if x.exponentField = 0 then x.fractionField else Nat.pow 2 52 + x.fractionField

/-- The weight of the significand's last bit, as a power of two. -/
def lastPlace (x : Binary64) : Int := (max x.exponentField 1 : Nat) - 1075

def scaled (x : Binary64) : Scaled :=
  ⟨if x.isNegative then -(x.significand : Int) else x.significand, x.lastPlace⟩

def extended (x : Binary64) : Extended :=
  if x.isFinite then .finite x.scaled
  else if x.fractionField = 0 then .infinite x.isNegative
  else .notANumber

/-- What is not finite is no integer. -/
def toInt? (x : Binary64) : Option Int := if x.isFinite then x.scaled.toInt? else none

/-- Both zeros are zero. -/
def isZero (x : Binary64) : Bool := x.significand = 0

def ofFields (negative : Bool) (magnitude : Nat) : Binary64 :=
  ⟨((if negative then Nat.pow 2 63 else 0) + magnitude).toUInt64⟩

def zero (negative : Bool) : Binary64 := ofFields negative 0

def infinity (negative : Bool) : Binary64 := ofFields negative (2047 * Nat.pow 2 52)

/-- Not a number, without a sign. -/
def nan : Binary64 := ofFields false (2047 * Nat.pow 2 52 + Nat.pow 2 51)

/-- The quotient `a / b` as a natural, rounded to nearest with ties to even. -/
def roundDiv (a b : Nat) : Nat :=
  let q := a / b
  let r := a % b
  if 2 * r < b then q
  else if b < 2 * r then q + 1
  else if q % 2 = 0 then q else q + 1

/-- `num / den` in units of `2 ^ e`, as a numerator and a denominator. -/
def inUnits (num den : Nat) (e : Int) : Nat × Nat :=
  if 0 ≤ e then (num, den * Nat.pow 2 e.toNat) else (num * Nat.pow 2 (-e).toNat, den)

/-- The last place of the pattern nearest to `num / den`: fifty-three bits, or the subnormal
grid. -/
def lastPlaceOf (num den : Nat) : Int :=
  let guess : Int := (num.log2 : Int) - den.log2 - 53
  let (a, b) := inUnits num den guess
  max (if a / b < Nat.pow 2 53 then guess else guess + 1) (-1074)

/-- The magnitude bits of `m` last places of weight `2 ^ e`. A significand that rounding carried to
`2 ^ 53` runs over into the exponent field, which is the next pattern. -/
def magnitude (m : Nat) (e : Int) : Nat :=
  if m < Nat.pow 2 52 then m else (e + 1074).toNat * Nat.pow 2 52 + m

/-- The pattern nearest to `num / den`; values past the largest finite one become infinite. -/
def ofRatio (negative : Bool) (num den : Nat) : Binary64 :=
  if num = 0 then zero negative
  else
    let e := lastPlaceOf num den
    let (a, b) := inUnits num den e
    let bits := magnitude (roundDiv a b) e
    if bits < 2047 * Nat.pow 2 52 then ofFields negative bits else infinity negative

/-- `digits * 10 ^ exponent`. Exponents far outside the range of the format are decided by
their size alone. -/
def ofDecimal (negative : Bool) (digits : Nat) (exponent : Int) : Binary64 :=
  let size := exponent + (Nat.toDigits 10 digits).length
  if digits = 0 ∨ size < -330 then zero negative
  else if 310 < size then infinity negative
  else if 0 ≤ exponent then ofRatio negative (digits * Nat.pow 10 exponent.toNat) 1
  else ofRatio negative digits (Nat.pow 10 (-exponent).toNat)

end Binary64

end BlockGrid
