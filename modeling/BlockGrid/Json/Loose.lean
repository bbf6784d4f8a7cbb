import BlockGrid.Tree.Program

/-!
# BlockGrid.Json.Loose

Reading values that are only roughly of the right shape: integers from numbers, truth values and
numerals, sequences from lists, strings and objects.

* `ReadError`  — why a value cannot be read so.
* `toInteger`  — the integer of a value; fractions are cut off.
* `elements`   — what a value holds, one after the other.
* `pair`       — the two members of a sequence of two.
* `element`    — the member at a position.
-/

namespace BlockGrid

inductive ReadError where
  | missing (name : String)
  | badNumeral (text : LooseText)
  | notNumber (kind : String)
  | infinite
  | notANumber
  | notIterable (kind : String)
  | notPair (kind : String)
  | tooFew (got : Nat)
  | tooMany
  | notSubscriptable (kind : String)
  | pastList
  | pastString
  deriving DecidableEq, Repr

namespace ReadError

def message : ReadError → String
  | .missing name => name
  | .badNumeral text => badNumeralText text
  | .notNumber kind =>
    "int() argument must be a string, a bytes-like object or a real number, not '" ++ kind ++ "'"
  | .infinite => "cannot convert float infinity to integer"
  | .notANumber => "cannot convert float NaN to integer"
  | .notIterable kind => "'" ++ kind ++ "' object is not iterable"
  | .notPair kind => "cannot unpack non-iterable " ++ kind ++ " object"
  | .tooFew got => "not enough values to unpack (expected 2, got " ++ toString got ++ ")"
  | .tooMany => "too many values to unpack (expected 2)"
  | .notSubscriptable kind => "'" ++ kind ++ "' object is not subscriptable"
  | .pastList => "list index out of range"
  | .pastString => "string index out of range"

/-- In a longer message the name of a missing field stands in quotes. -/
def quotedMessage : ReadError → String
  | .missing name => quoted name
  | e => e.message

end ReadError

namespace Json

def toInteger : Json → Except ReadError Int
  | .int n => .ok n
  | .bool b => .ok (if b then 1 else 0)
  | .float x =>
    match x.extended with
    | .finite y => .ok y.trunc
    | .infinite _ => .error .infinite
    | .notANumber => .error .notANumber
  | .str s =>
    match Text.integer? s.toList with
    | some n => .ok n
    | none => .error (.badNumeral s)
  | .torn s h rest => .error (.badNumeral (.torn s h rest))
  | v => .error (.notNumber v.kindName)

def letters (s : String) : List Json := s.toList.map fun c => .str (String.singleton c)

def tornLetters (t : LooseText) : List Json := t.letters.map ofText

/-- The members of a list, the letters of a string, the names in an object. -/
def elements? : Json → Option (List Json)
  | .arr items => some items
  | .str s => some (letters s)
  | .torn s h rest => some (tornLetters (.torn s h rest))
  | .obj entries => some (entries.map fun e => .str e.1)
  | _ => none

def elements (v : Json) : Except ReadError (List Json) :=
  match v.elements? with
  | some items => .ok items
  | none => .error (.notIterable v.kindName)

def pair (v : Json) : Except ReadError (Json × Json) :=
  match v.elements? with
  | some [a, b] => .ok (a, b)
  | some (_ :: _ :: _) => .error .tooMany
  | some items => .error (.tooFew items.length)
  | none => .error (.notPair v.kindName)

def element (v : Json) (i : Nat) : Except ReadError Json :=
  match v with
  | .arr items =>
    match items[i]? with
    | some w => .ok w
    | none => .error .pastList
  | .str s =>
    match (letters s)[i]? with
    | some w => .ok w
    | none => .error .pastString
  | .torn s h rest =>
    match (tornLetters (.torn s h rest))[i]? with
    | some w => .ok w
    | none => .error .pastString
  | .obj _ => .error (.missing (toString i))
  | v => .error (.notSubscriptable v.kindName)

end Json

end BlockGrid
