import BlockGrid.Number.Binary64
import BlockGrid.Text.Integer

/-!
# BlockGrid.Text.Decimal

Decimal numerals as doubles: digits of any script with single underscores between them, a point, an
exponent, white space around the whole. What is not finite is written as a word.
-/

namespace BlockGrid

namespace Text

/-- The values of the leading digits and what follows them. An underscore has to stand between two
digits. -/
def digitRun (s : List Char) : List Nat × List Char :=
  match s with
  | [] => ([], [])
  | '_' :: rest => ([], '_' :: rest)
  | c :: rest =>
    match decimalDigit? c with
    | none => ([], c :: rest)
    | some d =>
      match rest with
      | '_' :: c' :: rest' =>
        if (decimalDigit? c').isSome then
          let (ds, tail) := digitRun (c' :: rest')
          (d :: ds, tail)
        else ([d], '_' :: c' :: rest')
      | rest =>
        let (ds, tail) := digitRun rest
        (d :: ds, tail)

def digitsValue (ds : List Nat) : Nat := ds.foldl (fun n d => 10 * n + d) 0

/-- The exponent that is all of what is left, zero if nothing is left. -/
def exponent? : List Char → Option Int
  | [] => some 0
  | c :: rest =>
    if c = 'e' ∨ c = 'E' then
      let read := fun s =>
        let (ds, tail) := digitRun s
        if ds.isEmpty ∨ ¬ tail.isEmpty then none else some (digitsValue ds)
      signed? read rest
    else none

/-- At least one digit stands before the point or after it. -/
def digitsDecimal? (negative : Bool) (s : List Char) : Option Binary64 :=
  let (whole, rest) := digitRun s
  let (fraction, tail) := match rest with
    | '.' :: rest => digitRun rest
    | rest => ([], rest)
  if whole.isEmpty ∧ fraction.isEmpty then none
  else (exponent? tail).map fun e =>
    Binary64.ofDecimal negative (digitsValue (whole ++ fraction)) (e - fraction.length)

/-- Letters of either case make the words. -/
def notFinite? (negative : Bool) (s : List Char) : Option Binary64 :=
  match String.ofList (s.map Char.toLower) with
  | "inf" | "infinity" => some (.infinity negative)
  | "nan" => some .nan
  | _ => none

def unsigned? (negative : Bool) (s : List Char) : Option Binary64 :=
  (digitsDecimal? negative s).or (notFinite? negative s)

def decimal? (s : List Char) : Option Binary64 :=
  match trim isSpace s with
  | '-' :: rest => unsigned? true rest
  | '+' :: rest => unsigned? false rest
  | rest => unsigned? false rest

end Text

end BlockGrid
