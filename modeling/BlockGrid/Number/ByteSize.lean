import BlockGrid.Number.Binary64

/-!
# BlockGrid.Number.ByteSize

Numbers of bytes in units of powers of 1024, with three digits.
-/

namespace BlockGrid

namespace ByteSize

def units : List String := ["bytes", "KiB", "MiB", "GiB", "TiB", "PiB", "EiB"]

/-- A quotient with so many places after the point. -/
def fixed (places num den : Nat) : String :=
  let n := Binary64.roundDiv (num * Nat.pow 10 places) den
  let digits := Nat.toDigits 10 n
  let digits := List.replicate (places + 1 - digits.length) '0' ++ digits
  let whole := digits.length - places
  String.ofList (digits.take whole ++ '.' :: digits.drop whole)

/-- Places that leave three digits, once the last of them is rounded. -/
def placesOf (num den : Nat) : Nat :=
  if Binary64.roundDiv (num * 100) den < 1000 then 2
  else if Binary64.roundDiv (num * 10) den < 1000 then 1
  else 0

/-- `bytes` in the unit number `i`, or in the next one if that makes one of it. -/
def inUnit (bytes i : Nat) : String :=
  let i := if Binary64.roundDiv bytes (Nat.pow 1024 i) = 1024 then i + 1 else i
  fixed (placesOf bytes (Nat.pow 1024 i)) bytes (Nat.pow 1024 i) ++ " " ++ units[i]?.getD ""

end ByteSize

/-- The largest unit of which there is at least one. -/
def sizeInBytes (bytes : Nat) : String :=
  if bytes < 1024 then toString bytes ++ " bytes" else ByteSize.inUnit bytes (bytes.log2 / 10)

end BlockGrid
