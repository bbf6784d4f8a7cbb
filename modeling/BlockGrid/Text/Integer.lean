import BlockGrid.Text.Blank
import BlockGrid.Text.Digit

/-!
# BlockGrid.Text.Integer

Integers written in text.

* `digits?`       — digits with single underscores between them, as a number.
* `integer?`      — a numeral with white space around it and at most one sign, digits of any script.
* `plainInteger?` — ASCII digits only; zeros in front and a fraction of zeros are allowed.
-/

namespace BlockGrid

namespace Text

/-- Digits read so far as `acc`; `mayBreak` says that an underscore, or the end, may come next. -/
def digitsFrom? (digit? : Char → Option Nat) (acc : Nat) (mayBreak : Bool) : List Char → Option Nat
  | [] => if mayBreak then some acc else none
  | '_' :: rest => if mayBreak then digitsFrom? digit? acc false rest else none
  | c :: rest => do digitsFrom? digit? (10 * acc + (← digit? c)) true rest

def digits? (digit? : Char → Option Nat) (s : List Char) : Option Nat :=
  digitsFrom? digit? 0 false s

/-- At most one sign before what `read?` reads. -/
def signed? (read? : List Char → Option Nat) : List Char → Option Int
  | '-' :: rest => (read? rest).map fun n => -(n : Int)
  | '+' :: rest => (read? rest).map fun n => (n : Int)
  | s => (read? s).map fun n => (n : Int)

def integer? (s : List Char) : Option Int := signed? (digits? decimalDigit?) (trim isSpace s)

/-- Text without its underscores, each of which has to stand alone between other characters;
`mayBreak` says that one, or the end, may come next. -/
def joinFrom? (mayBreak : Bool) : List Char → Option (List Char)
  | [] => if mayBreak then some [] else none
  | '_' :: rest => if mayBreak then joinFrom? false rest else none
  | c :: rest => (joinFrom? true rest).map (c :: ·)

def joined? (s : List Char) : Option (List Char) := joinFrom? false s

def asciiDigit? (c : Char) : Option Nat := if c.isDigit then some (c.toNat - '0'.toNat) else none

/-- A plus sign counts for nothing, but a minus sign may not follow it. -/
def withoutPlus? : List Char → Option (List Char)
  | '+' :: '-' :: _ => none
  | '+' :: rest => some rest
  | s => some s

def beginsNumeral (c : Char) : Bool := c = '-' || ('1' ≤ c && c ≤ '9')

/-- What follows zeros and the underscores among them, of which `last` was the latest. It stays
before a point and at the end. -/
def afterZeros? (last : Char) : List Char → Option (List Char)
  | [] => some [last]
  | c :: rest =>
    if c = '0' ∨ c = '_' then afterZeros? c rest
    else if c = '.' then some (last :: c :: rest)
    else if beginsNumeral c then some (c :: rest)
    else none

def withoutZeros? : List Char → Option (List Char)
  | [] => none
  | '0' :: rest => afterZeros? '0' rest
  | c :: rest => if beginsNumeral c then some (c :: rest) else none

/-- `.` and one or more zeros. -/
def isZeroFraction : List Char → Bool
  | '.' :: '0' :: rest => rest.all (· = '0')
  | _ => false

/-- The part before the point, if nothing but zeros follows it. -/
def wholePart (s : List Char) : List Char :=
  let (whole, fraction) := s.span (· ≠ '.')
  if isZeroFraction fraction then whole else s

/-- Zeros in front are dropped before a sign is looked for, so that `0-1` is minus one; those behind
a sign do not count either. -/
def plainInteger? (s : List Char) : Option Int := do
  let s ← withoutPlus? (trim isSpace s)
  let s ← withoutZeros? s
  let s ← joined? (wholePart s)
  signed? (digits? asciiDigit?) s

end Text

end BlockGrid
