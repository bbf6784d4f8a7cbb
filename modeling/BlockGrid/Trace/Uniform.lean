import BlockGrid.Tree.Text

/-!
# BlockGrid.Trace.Uniform

Lists in lists as arrays: as deep at every place, as many members at every place of a depth, and all
items of one kind.

* `ItemKind`     — kinds of items; `join` is the kind that takes in two others.
* `Extent.of`    — how deep a value goes and how many members each depth has.
* `Json.uniform` — a value with all its items brought to their common kind.
-/

namespace BlockGrid

/-- Integers of sixty-four bits, with a sign or without; `text` has a greatest length. What has no
other kind in common is `mixed`. -/
inductive ItemKind where
  | truth
  | signed
  | unsigned
  | double
  | text (width : Nat)
  | mixed
  deriving DecidableEq, Repr

namespace ItemKind

/-- The kind of a value that is no list. -/
def ofJson : Json → ItemKind
  | .bool _ => .truth
  | .int n =>
    if -Int.pow 2 63 ≤ n ∧ n < Int.pow 2 63 then .signed
    else if 0 ≤ n ∧ n < Int.pow 2 64 then .unsigned
    else .mixed
  | .float _ => .double
  | .str s => .text s.length
  | .torn s h rest => .text (LooseText.torn s h rest).length
  | _ => .mixed

/-- How much room an item takes when it is written out. -/
def width : ItemKind → Nat
  | .truth => 5
  | .signed => 21
  | .unsigned => 20
  | .double => 32
  | .text n => n
  | .mixed => 0

/-- Integers with and without a sign have only doubles in common. -/
def join : ItemKind → ItemKind → ItemKind
  | .mixed, _ => .mixed
  | _, .mixed => .mixed
  | .text n, k => .text (max n k.width)
  | k, .text n => .text (max k.width n)
  | .truth, k => k
  | k, .truth => k
  | .signed, .signed => .signed
  | .unsigned, .unsigned => .unsigned
  | _, _ => .double

mutual

/-- The kind of the items so far, joined with those of a value. -/
def after (k : Option ItemKind) : Json → Option ItemKind
  | .arr items => afterAll k items
  | v => some (k.elim (ofJson v) fun k => k.join (ofJson v))

def afterAll (k : Option ItemKind) : List Json → Option ItemKind
  | [] => k
  | v :: vs => afterAll (after k v) vs

end

/-- Without any item the kind is that of doubles. -/
def of (v : Json) : ItemKind := (after none v).getD .double

end ItemKind

/-- `sizes` are those first met on the way in; they are all known once `depth` is. -/
structure Extent where
  depth : Option Nat
  sizes : List Nat
  isRagged : Bool
  deriving DecidableEq, Repr

namespace Extent

/-- Nothing is known yet. -/
def start : Extent := ⟨none, [], false⟩

def item (e : Extent) (level : Nat) : Extent :=
  match e.depth with
  | none => { e with depth := some level }
  | some d => if d = level then e else { e with depth := some level, isRagged := true }

mutual

/-- Takes in a value `level` lists deep. -/
def meet (e : Extent) (level : Nat) : Json → Extent
  | .arr items =>
    match e.depth with
    | none =>
      let e := { e with sizes := e.sizes ++ [items.length] }
      if items.isEmpty then { e with depth := some (level + 1) } else meetAll e (level + 1) items
    | some d =>
      if d = level then { e with isRagged := true }
      else if e.sizes[level]? = some items.length then meetAll e (level + 1) items
      else { e with depth := some level, isRagged := true }
  | _ => e.item level

def meetAll (e : Extent) (level : Nat) : List Json → Extent
  | [] => e
  | v :: vs => meetAll (meet e level v) level vs

end

def of (v : Json) : Extent := meet start 0 v

def levels (e : Extent) : Nat := e.depth.getD 0

/-- The sizes of the levels that all places share. -/
def shared (e : Extent) : List Nat := e.sizes.take e.levels

end Extent

namespace Json

mutual

/-- All items are text, and no list is empty. -/
def isText : Json → Bool
  | .str _ => true
  | .torn _ _ _ => true
  | .arr [] => false
  | .arr (v :: vs) => isText v && areText vs
  | _ => false

def areText : List Json → Bool
  | [] => true
  | v :: vs => isText v && areText vs

end

/-- The values so many lists deep. -/
def atDepth : Nat → Json → List Json
  | depth + 1, .arr items => items.flatMap (atDepth depth)
  | _, v => [v]

def asInteger : Json → Json
  | .bool b => .int (if b then 1 else 0)
  | v => v

/-- An integer as a double. -/
def asDouble (v : Json) : Json :=
  match v.asInteger with
  | .int n => .float (Binary64.ofRatio (n < 0) n.natAbs 1)
  | w => w

/-- Zero characters at the end are lost. -/
def asText (v : Json) : Json := .ofText (v.printed.trimEnd (· = '\x00'))

/-- An item brought to a kind that takes in its own. -/
def toKind (k : ItemKind) (v : Json) : Json :=
  match k with
  | .truth | .mixed => v
  | .signed | .unsigned => v.asInteger
  | .double => v.asDouble
  | .text _ => v.asText

mutual

def mapItems (f : Json → Json) : Json → Json
  | .arr items => .arr (mapAllItems f items)
  | v => f v

def mapAllItems (f : Json → Json) : List Json → List Json
  | [] => []
  | v :: vs => mapItems f v :: mapAllItems f vs

end

end Json

/-- Lists that go deeper at one place than at another, or have more members. -/
structure RaggedError where
  shared : List Nat
  deriving DecidableEq, Repr

namespace RaggedError

/-- A single size is followed by a comma. -/
def sizesShown : List Nat → String
  | [n] => "(" ++ toString n ++ ",)"
  | sizes => "(" ++ String.intercalate ", " (sizes.map toString) ++ ")"

def message (e : RaggedError) : String :=
  "setting an array element with a sequence. The requested array has an inhomogeneous shape after "
    ++ toString e.shared.length ++ " dimensions. The detected shape was " ++ sizesShown e.shared
    ++ " + inhomogeneous part."

end RaggedError

namespace Json

def uniform (v : Json) : Except RaggedError Json :=
  let e := Extent.of v
  if e.isRagged then .error ⟨e.shared⟩ else .ok (v.mapItems (toKind (.of v)))

end Json

end BlockGrid
