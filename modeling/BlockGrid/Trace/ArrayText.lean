import BlockGrid.Number.Shortest
import BlockGrid.Trace.Uniform

/-!
# BlockGrid.Trace.ArrayText

Arrays as text: items of one width, and lines of at most seventy-five characters.

* `Figure`         — a double cut at its point.
* `Json.arrayText` — the text of an array. A value that is no list is spoken.
-/

namespace BlockGrid

/-- Text with blanks before it, up to a width. -/
def setRight (width : Nat) (s : String) : String := String.ofList (s.toList.leftpad width ' ')

/-- The digits before the point have the sign. A power of ten is given if it is to be written. -/
structure Figure where
  whole : String
  fraction : List Char
  power : Option Int

namespace Figure

/-- Digits after the point, at most. -/
def places : Nat := 8

def withoutZeros (digits : List Char) : List Char :=
  (digits.reverse.dropWhile (· = '0')).reverse

/-- The shortest digits, as far as none is below `10 ^ last`. -/
def digitsDownTo (x : Binary64) (last : Int) : Binary64.Decimal :=
  let d := x.shortest
  if x.isZero then ⟨0, 0⟩
  else if last ≤ d.exponent then d
  else
    let s := x.scaled
    let num := s.mantissa.natAbs * Nat.pow 2 s.exponent.toNat * Nat.pow 10 (-last).toNat
    ⟨Binary64.roundDiv num (Nat.pow 2 (-s.exponent).toNat * Nat.pow 10 last.toNat), last⟩

def sign (x : Binary64) : String := if x.isNegative then "-" else ""

def positional (x : Binary64) : Figure :=
  let d := digitsDownTo x (-places)
  let n := (-d.exponent).toNat
  ⟨sign x ++ toString (d.digits * Nat.pow 10 d.exponent.toNat / Nat.pow 10 n),
    withoutZeros ((Nat.toDigits 10 (d.digits % Nat.pow 10 n)).leftpad n '0'), none⟩

/-- The power of the first of some digits. -/
def leadingPower (d : Binary64.Decimal) : Int := (Nat.toDigits 10 d.digits).length + d.exponent - 1

def scientific (x : Binary64) : Figure :=
  let d := digitsDownTo x (leadingPower x.shortest - places)
  let digits := Nat.toDigits 10 d.digits
  ⟨sign x ++ String.ofList (digits.take 1), withoutZeros (digits.drop 1), some (leadingPower d)⟩

/-- Powers are written when some number is large, or small, or much larger than another one. -/
def needPowers (xs : List Binary64) : Bool :=
  let sizes := (xs.filter fun x => !x.isZero).map fun x =>
    (⟨x.scaled.mantissa.natAbs, x.scaled.exponent⟩ : Scaled)
  sizes.any fun s =>
    (Scaled.ofInt (Int.pow 10 8)).le s || s.lt (Binary64.ofDecimal false 1 (-4)).scaled
      || sizes.any fun t => Scaled.lt ⟨1000 * t.mantissa, t.exponent⟩ s

def ofAll (xs : List Binary64) (x : Binary64) : Figure :=
  if needPowers xs then scientific x else positional x

/-- The greatest of some lengths. -/
def most (lengths : List Nat) : Nat := lengths.foldl max 0

def powerDigits (n : Int) : List Char := Nat.toDigits 10 n.natAbs

/-- A figure in line with others. Behind the fraction there are zeros before a power, and blanks
otherwise. -/
def write (all : List Figure) (f : Figure) : String :=
  let whole := setRight (most (all.map fun g => g.whole.length)) f.whole
  let fraction := f.fraction.rightpad (most (all.map fun g => g.fraction.length))
  match f.power with
  | none => whole ++ "." ++ String.ofList (fraction ' ')
  | some p =>
    let width := max 2 (most (all.map fun g => (powerDigits (g.power.getD 0)).length))
    whole ++ "." ++ String.ofList (fraction '0') ++ "e" ++ (if p < 0 then "-" else "+")
      ++ String.ofList ((powerDigits p).leftpad width '0')

/-- A double among others, of which only the finite ones have figures. -/
def among (xs : List Binary64) (x : Binary64) : String :=
  let finite := xs.filter Binary64.isFinite
  if x.isFinite then (ofAll finite x).write (finite.map (ofAll finite)) else x.toText

end Figure

namespace Json

def double? : Json → Option Binary64
  | .float x => some x
  | _ => none

/-- How an item is written among all the items of an array. -/
def itemText (k : ItemKind) (items : List Json) (v : Json) : String :=
  match k with
  | .text _ => v.shown
  | .truth => setRight k.width v.spoken
  | .double =>
    let xs := items.filterMap double?
    let width := Figure.most (xs.map fun x => (Figure.among xs x).length)
    (v.double?.map fun x => setRight width (Figure.among xs x)).getD v.shown
  | _ => setRight (Figure.most (items.map fun w => w.spoken.length)) v.spoken

def indentation (n : Nat) : List Char := List.replicate n ' '

/-- Words one after the other. A line that would grow too long is ended, and the next one begins
further in. -/
def fill (indent width : Nat) (line : List Char) : List (List Char) → List Char
  | [] => line
  | word :: rest =>
    let word' := if rest.isEmpty then word else word ++ [' ']
    if indent < line.length ∧ width < line.length + word.length then
      (line.reverse.dropWhile (· = ' ')).reverse
        ++ '\n' :: fill indent width (indentation indent ++ word') rest
    else fill indent width (line ++ word') rest

/-- Lists in lists so many levels deep. The deeper the lists, the more lines lie between two of
them. -/
def layOut (item : Json → String) : Nat → Nat → Nat → Json → List Char
  | 1, indent, width, .arr items =>
    let words := items.map fun v => (item v).toList
    '[' :: (fill indent (width - 1) (indentation indent) words).drop indent ++ [']']
  | depth + 2, indent, width, .arr items =>
    let gap := List.replicate (depth + 1) '\n' ++ indentation indent
    '[' :: gap.intercalate (items.map (layOut item (depth + 1) (indent + 1) (width - 1))) ++ [']']
  | _, _, _, v => (item v).toList

def lineWidth : Nat := 75

def arrayText (v : Json) : String :=
  let e := Extent.of v
  if e.levels = 0 then v.spoken
  else if e.sizes.contains 0 then "[]"
  else
    let k := ItemKind.of v
    let v := v.mapItems (toKind k)
    String.ofList (layOut (itemText k (v.atDepth e.levels)) e.levels 1 lineWidth v)

end Json

end BlockGrid
