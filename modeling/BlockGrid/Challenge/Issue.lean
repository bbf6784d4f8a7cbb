import BlockGrid.Json.Loose

/-!
# BlockGrid.Challenge.Issue

Faults of a descriptor, all of them, each with the place where it was found.

* `Issue`   — a fault and its place.
* `Checked` — a value, or the issues that stand in its way.
* `both`    — two checks side by side; issues of either are kept.
-/

namespace BlockGrid

inductive Place where
  | name (s : String)
  | index (i : Nat)
  deriving DecidableEq, Repr

inductive Fault where
  | missing
  | notObject
  | notList
  | notString
  | notUnicode
  | notInteger
  | fraction
  | notFinite
  | notNumeral
  | tooLarge
  | notPositive
  | negative
  | unknownDirection (name : LooseText)
  deriving DecidableEq, Repr

structure Issue where
  fault : Fault
  place : List Place
  deriving DecidableEq, Repr

abbrev Checked (α : Type) := Except (List Issue) α

namespace Checked

def fail {α : Type} (fault : Fault) : Checked α := .error [⟨fault, []⟩]

/-- Both values; the issues of the first come first. -/
def both {α β : Type} (a : Checked α) (b : Checked β) : Checked (α × β) :=
  match a, b with
  | .ok x, .ok y => .ok (x, y)
  | .ok _, .error es => .error es
  | .error es, .ok _ => .error es
  | .error es, .error es' => .error (es ++ es')

/-- Issues found one level further in. -/
def within {α : Type} (place : Place) (a : Checked α) : Checked α :=
  a.mapError fun es => es.map fun e => { e with place := place :: e.place }

/-- All items from position `i` on. -/
def items {α : Type} (check : Json → Checked α) (i : Nat) : List Json → Checked (List α)
  | [] => .ok []
  | v :: vs =>
    (both (within (.index i) (check v)) (items check (i + 1) vs)).map fun (x, xs) => x :: xs

def list {α : Type} (check : Json → Checked α) : Json → Checked (List α)
  | .arr vs => items check 0 vs
  | _ => fail .notList

def object {α : Type} (check : Entries → Checked α) : Json → Checked α
  | .obj entries => check entries
  | _ => fail .notObject

/-- A field that has to be there. -/
def required {α : Type} (name : String) (check : Json → Checked α) (entries : Entries) :
    Checked α :=
  within (.name name) (match entries.get? name with
    | some v => check v
    | none => fail .missing)

/-- A field with a value of its own when it is not there. -/
def optional {α : Type} (name : String) (default : α) (check : Json → Checked α)
    (entries : Entries) : Checked α :=
  match entries.get? name with
  | some v => within (.name name) (check v)
  | none => .ok default

def nullable {α : Type} (check : Json → Checked α) : Json → Checked (Option α)
  | .null => .ok none
  | v => (check v).map some

/-- A strict checker takes no halves for text. -/
def string (strict : Bool) : Json → Checked LooseText
  | .str s => .ok s
  | .torn s h rest => if strict then fail .notUnicode else .ok (.torn s h rest)
  | _ => fail .notString

/-- Doubles count when they have no fraction and lie within sixty-four signed bits. -/
def ofFloat (x : Binary64) : Checked Int :=
  if !x.isFinite then fail .notFinite
  else match x.toInt? with
    | none => fail .fraction
    | some n => if -Int.pow 2 63 < n ∧ n < Int.pow 2 63 then .ok n else fail .tooLarge

/-- Integers, truth values, doubles without a fraction, and numerals. -/
def integer : Json → Checked Int
  | .int n => .ok n
  | .bool b => .ok (if b then 1 else 0)
  | .float x => ofFloat x
  | .str s =>
    match Text.plainInteger? s.toList with
    | some n => .ok n
    | none => fail .notNumeral
  | .torn _ _ _ => fail .notUnicode
  | _ => fail .notInteger

def atLeast (least : Int) (fault : Fault) (v : Json) : Checked Int :=
  match integer v with
  | .ok n => if n < least then fail fault else .ok n
  | .error es => .error es

def positive : Json → Checked Int := atLeast 1 .notPositive

def natural : Json → Checked Int := atLeast 0 .negative

end Checked

end BlockGrid
