import BlockGrid.Json.Writer
import BlockGrid.Trace.Packed
import BlockGrid.Trace.Uniform

/-!
# BlockGrid.Trace.Attribute

Values that are stored as JSON text though they are not JSON: sets, number arrays, integers of fixed
width.

* `Attribute`        — such a value.
* `Attribute.toJson` — a set becomes the ascending list of its members, an array the list of its
  items. Bytes have no such form.
* `Attribute.text`   — the text that is stored.
-/

namespace BlockGrid

inductive Attribute where
  | null
  | bool (b : Bool)
  | int (n : Int)
  | float (x : Binary64)
  | str (s : String)
  | torn (s : String) (half : Half) (rest : LooseText)
  | list (items : List Attribute)
  | tuple (items : List Attribute)
  | obj (entries : List (String × Attribute))
  | set (items : List Attribute)
  | array (items : Json)
  | word (n : Int)
  | bytes
  deriving Inhabited

inductive AttributeError where
  | notStorable (kind : String)
  | notOrdered (left right : String)
  | notMember (kind : String)
  | ragged (e : RaggedError)
  | tooLarge
  deriving DecidableEq, Repr

def AttributeError.message : AttributeError → String
  | .notStorable kind => "Object of type " ++ kind ++ " is not JSON serializable"
  | .notOrdered left right =>
    "'<' not supported between instances of '" ++ left ++ "' and '" ++ right ++ "'"
  | .notMember kind => "unhashable type: '" ++ kind ++ "'"
  | .ragged e => e.message
  | .tooLarge => PackError.tooLarge.message

namespace Json

/-- Members of a set are tuples where they are sequences. -/
def memberKind : Json → String
  | .arr _ => "tuple"
  | v => v.kindName

mutual

/-- Numbers by value, strings by code points, sequences by their first difference. -/
def before : Json → Json → Except AttributeError Bool
  | .str a, .str b => .ok (a < b)
  | .arr xs, .arr ys => beforeItems xs ys
  | a, b =>
    match a.number?, b.number?, a.text?, b.text? with
    | some x, some y, _, _ => .ok (x.lt y)
    | _, _, some s, some t => .ok (s.before t)
    | _, _, _, _ => .error (.notOrdered a.memberKind b.memberKind)

def beforeItems : List Json → List Json → Except AttributeError Bool
  | _, [] => .ok false
  | [], _ :: _ => .ok true
  | x :: xs, y :: ys => if same x y then beforeItems xs ys else before x y

end

/-- Puts a value into an ascending list, unless an equal one is there. -/
def insertOnce (v : Json) : List Json → Except AttributeError (List Json)
  | [] => .ok [v]
  | w :: ws =>
    if same v w then .ok (w :: ws)
    else do
      if ← before v w then pure (v :: w :: ws) else pure (w :: (← insertOnce v ws))

/-- The values of a list in ascending order, each once; of equal values the first stays. -/
def ascending (vs : List Json) : Except AttributeError (List Json) :=
  vs.foldlM (fun sorted v => insertOnce v sorted) []

end Json

namespace Attribute

/-- The array of a list. -/
def ofItems (v : Json) : Except AttributeError Attribute :=
  (v.uniform.mapError .ragged).map .array

/-- An integer of sixty-four bits. -/
def ofInteger (n : Int) : Except AttributeError Attribute :=
  if Packed.fitsBits 64 n then .ok (.word n) else .error .tooLarge

mutual

def toJson : Attribute → Except AttributeError Json
  | .null => .ok .null
  | .bool b => .ok (.bool b)
  | .int n => .ok (.int n)
  | .float x => .ok (.float x)
  | .str s => .ok (.str s)
  | .torn s h rest => .ok (.torn s h rest)
  | .list items => (toJsonAll items).map .arr
  | .tuple items => (toJsonAll items).map .arr
  | .obj entries => (toJsonEntries entries).map .obj
  | .set items => do
    let members ← toJsonAll items
    let sorted ← Json.ascending members
    pure (.arr sorted)
  | .array items => .ok items
  | .word n => .ok (.int n)
  | .bytes => .error (.notStorable "bytes")

def toJsonAll : List Attribute → Except AttributeError (List Json)
  | [] => .ok []
  | v :: vs => do
    let w ← toJson v
    let ws ← toJsonAll vs
    pure (w :: ws)

def toJsonEntries : List (String × Attribute) → Except AttributeError (List (String × Json))
  | [] => .ok []
  | (k, v) :: rest => do
    let w ← toJson v
    let ws ← toJsonEntries rest
    pure ((k, w) :: ws)

end

def text (v : Attribute) : Except AttributeError String := v.toJson.map Json.render

end Attribute

end BlockGrid
