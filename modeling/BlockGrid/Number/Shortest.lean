import BlockGrid.Number.Binary64

/-!
# BlockGrid.Number.Shortest

The decimal text of a double.

* `shortest` — the fewest digits that read back to the pattern, and of those the nearest.
* `Layout`   — how digits and a power of ten are written down.
* `toText`   — positional from `10 ^ -4` to below `10 ^ 16`, with a fraction always shown.
-/

namespace BlockGrid

namespace Binary64

/-- Digits times a power of ten. -/
structure Decimal where
  digits : Nat
  exponent : Int
  deriving DecidableEq, Repr

/-- Trailing zeros moved into the exponent; the fuel is the number of digits. -/
def Decimal.strip : Nat → Decimal → Decimal
  | 0, d => d
  | n + 1, d =>
    if d.digits ≠ 0 ∧ d.digits % 10 = 0 then strip n ⟨d.digits / 10, d.exponent + 1⟩ else d

/-- The reals that round to a pattern, over one denominator: `low / den` to `high / den`, with
`mid / den` the pattern's own value. The ends belong to it when `closed`. -/
structure Interval where
  low : Nat
  mid : Nat
  high : Nat
  den : Nat
  closed : Bool

/-- Half a last place on either side, a quarter below where the places change size. -/
def interval (x : Binary64) : Interval :=
  let s := x.significand
  let e := x.lastPlace - 2
  let below := if s = Nat.pow 2 52 ∧ 1 < x.exponentField then 1 else 2
  let up := Nat.pow 2 e.toNat
  ⟨(4 * s - below) * up, 4 * s * up, (4 * s + 2) * up, Nat.pow 2 (-e).toNat, s % 2 = 0⟩

/-- Whether `d * 10 ^ k` lies in the interval. -/
def Interval.contains (i : Interval) (d : Nat) (k : Int) : Bool :=
  let v := d * Nat.pow 10 k.toNat * i.den
  let u := Nat.pow 10 (-k).toNat
  if i.closed then i.low * u ≤ v ∧ v ≤ i.high * u else i.low * u < v ∧ v < i.high * u

/-- Zeros between the point and the first digit of a value below one. -/
def leadingZeros (mid den : Nat) : Nat → Nat
  | 0 => 0
  | n + 1 => if den ≤ mid * 10 then 0 else 1 + leadingZeros (mid * 10) den n

/-- The least `p` with the value below `10 ^ p`. -/
def Interval.magnitude (i : Interval) : Int :=
  if i.den ≤ i.mid then (Nat.toDigits 10 (i.mid / i.den)).length
  else -(leadingZeros i.mid i.den 400 : Int)

/-- The two neighbours of the value on the grid `10 ^ k`; the nearer one that reads back. -/
def Interval.onGrid? (i : Interval) (k : Int) : Option Decimal :=
  let a := i.mid * Nat.pow 10 (-k).toNat
  let b := i.den * Nat.pow 10 k.toNat
  let d := a / b
  match i.contains d k, i.contains (d + 1) k with
  | true, false => some ⟨d, k⟩
  | false, true => some ⟨d + 1, k⟩
  | true, true =>
    let twice := 2 * (a % b)
    if twice < b then some ⟨d, k⟩
    else if b < twice then some ⟨d + 1, k⟩
    else if d % 2 = 0 then some ⟨d, k⟩ else some ⟨d + 1, k⟩
  | false, false => none

/-- The first grid with a hit, from one digit up; seventeen digits always hit. -/
def shortest (x : Binary64) : Decimal :=
  let i := x.interval
  let p := i.magnitude
  let found := (List.range 17).findSome? fun n => i.onGrid? (p - (n + 1 : Nat))
  (found.getD ⟨0, 0⟩).strip 20

/-- Bounds on the decimal exponent between which a number is written positionally, and the least
number of exponent digits otherwise. -/
structure Layout where
  positionalFrom : Int
  positionalBelow : Int
  exponentDigits : Nat

/-- Positional from `10 ^ -4` to below `10 ^ 16`, two exponent digits at least. -/
def layout : Layout := ⟨-4, 16, 2⟩

def zeros (n : Nat) : String := String.ofList (List.replicate n '0')

/-- The digits with a point after the first `n` of them. -/
def pointAfter (digits : List Char) (n : Nat) : String :=
  String.ofList (digits.take n) ++ "." ++ String.ofList (digits.drop n)

def Layout.write (l : Layout) (d : Decimal) : String :=
  let digits := Nat.toDigits 10 d.digits
  let top := (digits.length : Int) + d.exponent - 1
  if l.positionalFrom ≤ top ∧ top < l.positionalBelow then
    if 0 ≤ d.exponent then
      String.ofList digits ++ zeros d.exponent.toNat ++ ".0"
    else if 0 ≤ top then pointAfter digits (top + 1).toNat
    else "0." ++ zeros (-top - 1).toNat ++ String.ofList digits
  else
    let head := if digits.length = 1 then String.ofList digits else pointAfter digits 1
    let power := Nat.toDigits 10 top.natAbs
    let sign := if top < 0 then "-" else "+"
    head ++ "e" ++ sign ++ zeros (l.exponentDigits - power.length) ++ String.ofList power

def toText (x : Binary64) : String :=
  let sign := if x.isNegative then "-" else ""
  if ¬ x.isFinite then if x.fractionField = 0 then sign ++ "inf" else "nan"
  else if x.isZero then sign ++ "0.0"
  else sign ++ layout.write x.shortest

end Binary64

end BlockGrid
