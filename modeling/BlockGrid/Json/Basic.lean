import BlockGrid.Number.Binary64
import BlockGrid.Text.Loose

/-!
# BlockGrid.Json.Basic

* `Json`        — JSON values. Integers have any size; a number with a point or an exponent is a
  double. Text with unpaired halves is `torn`. Object entries keep their order.
* `Entries.put` — an entry under a name that is already there takes the old entry's place.
* `get?`        — the member of an object under a name.
* `number?`     — what a number is among numbers; a truth value counts as zero or one.
* `isTruthy`    — everything but null, false, zero and what is empty.
* `same`        — equality that does not tell `1`, `1.0` and `true` apart.
-/

namespace BlockGrid

inductive Json where
  | null
  | bool (b : Bool)
  | int (n : Int)
  | float (x : Binary64)
  | str (s : String)
  | torn (s : String) (half : Half) (rest : LooseText)
  | arr (items : List Json)
  | obj (entries : List (String × Json))
  deriving Inhabited

abbrev Entries := List (String × Json)

namespace Entries

def get? (name : String) : Entries → Option Json
  | [] => none
  | (k, v) :: rest => if k = name then some v else get? name rest

def put (name : String) (v : Json) : Entries → Entries
  | [] => [(name, v)]
  | (k, w) :: rest => if k = name then (k, v) :: rest else (k, w) :: put name v rest

def erase (name : String) (es : Entries) : Entries := es.filter fun e => e.1 ≠ name

/-- Entries in reading order; of several under one name the first gives the place and the last the
value. -/
def ofList (es : List (String × Json)) : Entries := es.foldl (fun acc e => acc.put e.1 e.2) []

end Entries

namespace Json

def get? (name : String) : Json → Option Json
  | .obj entries => Entries.get? name entries
  | _ => none

def ofText : LooseText → Json
  | .whole s => .str s
  | .torn s h rest => .torn s h rest

def text? : Json → Option LooseText
  | .str s => some s
  | .torn s h rest => some (.torn s h rest)
  | _ => none

def nat (n : Nat) : Json := .int n

/-- The value, or null. -/
def ofOption {α : Type} (f : α → Json) : Option α → Json
  | none => .null
  | some a => f a

def number? : Json → Option Extended
  | .bool b => some (.ofInt (if b then 1 else 0))
  | .int n => some (.ofInt n)
  | .float x => some x.extended
  | _ => none

def isTruthy : Json → Bool
  | .null => false
  | .bool b => b
  | .int n => n ≠ 0
  | .float x => ¬ x.isZero
  | .str s => s ≠ ""
  | .torn _ _ _ => true
  | .arr items => ¬ items.isEmpty
  | .obj entries => ¬ entries.isEmpty

def isNull : Json → Bool
  | .null => true
  | _ => false

/-- Whether values can be looked up by it. -/
def hasHash : Json → Bool
  | .arr _ => false
  | .obj _ => false
  | _ => true

def isObject : Json → Bool
  | .obj _ => true
  | _ => false

/-- The name of a value's kind, as messages give it. -/
def kindName : Json → String
  | .null => "NoneType"
  | .bool _ => "bool"
  | .int _ => "int"
  | .float _ => "float"
  | .str _ => "str"
  | .torn _ _ _ => "str"
  | .arr _ => "list"
  | .obj _ => "dict"

/-- Numbers of any kind are equal when their values are. -/
def sameNumber (a b : Json) : Bool :=
  match a.number?, b.number? with
  | some x, some y => x.same y
  | _, _ => false

mutual

def same : Json → Json → Bool
  | .null, .null => true
  | .str a, .str b => a = b
  | .torn a h t, .torn b k u => LooseText.torn a h t = .torn b k u
  | .arr xs, .arr ys => sameItems xs ys
  | .obj xs, .obj ys => xs.length = ys.length && sameEntries xs ys
  | a, b => sameNumber a b

def sameItems : List Json → List Json → Bool
  | [], [] => true
  | x :: xs, y :: ys => same x y && sameItems xs ys
  | _, _ => false

/-- Every entry of the first is in the second; order does not count. -/
def sameEntries : List (String × Json) → List (String × Json) → Bool
  | [], _ => true
  | (k, v) :: rest, ys =>
    (match Entries.get? k ys with
     | some w => same v w
     | none => false) && sameEntries rest ys

end

end Json

end BlockGrid
