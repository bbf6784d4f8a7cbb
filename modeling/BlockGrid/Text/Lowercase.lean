import BlockGrid.Text.LowercaseTable

/-!
# BlockGrid.Text.Lowercase

Full lower-casing. Two characters need more than a table: `İ` becomes two characters, and a
capital sigma takes its final form at the end of a word.
-/

namespace BlockGrid

namespace Text

def simpleLower (c : Char) : Char :=
  match caseRuns.find? fun r =>
      r.first ≤ c.toNat && c.toNat ≤ r.last && (c.toNat - r.first) % r.step == 0 with
  | some r => Char.ofNat (c.toNat + r.shift).toNat
  | none => c

/-- Whether the nearest character that is not passed over has a letter case. -/
def meetsCased (s : List Char) : Bool :=
  match s.dropWhile caseIgnorable.has with
  | [] => false
  | c :: _ => cased.has c

/-- A sigma is final after a letter, unless another letter follows. -/
def isFinalSigma (before after : List Char) : Bool := meetsCased before && !meetsCased after

/-- `before` is what precedes, nearest first. -/
def lowerFrom (before : List Char) : List Char → List Char
  | [] => []
  | c :: rest =>
    let here :=
      if c = 'Σ' then [if isFinalSigma before rest then 'ς' else 'σ']
      else if c = 'İ' then ['i', '\u0307']
      else [simpleLower c]
    here ++ lowerFrom (c :: before) rest

def lower (s : List Char) : List Char := lowerFrom [] s

end Text

def lowercase (s : String) : String := String.ofList (Text.lower s.toList)

end BlockGrid
