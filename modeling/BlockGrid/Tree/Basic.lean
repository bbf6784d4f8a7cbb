import BlockGrid.Command.Basic
import BlockGrid.Json.Basic

/-!
# BlockGrid.Tree.Basic

Command trees as a block editor hands them over: JSON values in which canonical commands may
stand anywhere, and sequences may be lists or tuples.

* `Tree`      — such a value.
* `items?`    — a tree as a sequence. A canonical command is the sequence of its fields.
* `firstOf?`  — the first field of an object that is neither absent nor null.
* `size`      — the weight by which trees are walked; a sequence weighs more than its items.
-/

namespace BlockGrid

inductive Tree where
  | null
  | bool (b : Bool)
  | int (n : Int)
  | float (x : Binary64)
  | str (s : String)
  | torn (s : String) (half : Half) (rest : LooseText)
  | list (items : List Tree)
  | tuple (items : List Tree)
  | obj (entries : List (String × Tree))
  | command (c : Command Tree)
  deriving Inhabited

namespace Tree

mutual

def ofJson : Json → Tree
  | .null => .null
  | .bool b => .bool b
  | .int n => .int n
  | .float x => .float x
  | .str s => .str s
  | .torn s h rest => .torn s h rest
  | .arr items => .list (ofItems items)
  | .obj entries => .obj (ofEntries entries)

def ofItems : List Json → List Tree
  | [] => []
  | v :: vs => ofJson v :: ofItems vs

def ofEntries : List (String × Json) → List (String × Tree)
  | [] => []
  | (k, v) :: rest => (k, ofJson v) :: ofEntries rest

end

/-- The fields of a canonical command, in order. -/
def fields : Command Tree → List Tree
  | .act (.move d) => [.int d]
  | .act (.turn s) => [.str s]
  | .act (.unrecognized raw reason) => [raw, .str reason]
  | .loop count body => [.int count, .tuple (body.map .command)]

def items? : Tree → Option (List Tree)
  | .list items => some items
  | .tuple items => some items
  | .command c => some (fields c)
  | _ => none

def isNull : Tree → Bool
  | .null => true
  | _ => false

def isTruthy : Tree → Bool
  | .null => false
  | .bool b => b
  | .int n => n ≠ 0
  | .float x => ¬ x.isZero
  | .str s => s ≠ ""
  | .torn _ _ _ => true
  | .list items => ¬ items.isEmpty
  | .tuple items => ¬ items.isEmpty
  | .obj entries => ¬ entries.isEmpty
  | .command _ => true

/-- The name of a tree's kind, as messages give it. -/
def kindName : Tree → String
  | .null => "NoneType"
  | .bool _ => "bool"
  | .int _ => "int"
  | .float _ => "float"
  | .str _ => "str"
  | .torn _ _ _ => "str"
  | .list _ => "list"
  | .tuple _ => "tuple"
  | .obj _ => "dict"
  | .command (.act (.move _)) => "Move"
  | .command (.act (.turn _)) => "Turn"
  | .command (.act (.unrecognized _ _)) => "Unrecognized"
  | .command (.loop _ _) => "Repeat"

def field? (name : String) : List (String × Tree) → Option Tree
  | [] => none
  | (k, v) :: rest => if k = name then some v else field? name rest

/-- Fields that are absent or null are passed over. -/
def firstOf? (entries : List (String × Tree)) : List String → Option Tree
  | [] => none
  | name :: names =>
    match field? name entries with
    | some v => if v.isNull then firstOf? entries names else some v
    | none => firstOf? entries names

mutual

def size : Tree → Nat
  | .list items => 2 + sizeAll items
  | .tuple items => 2 + sizeAll items
  | .obj entries => 2 + sizeEntries entries
  | .command c => 1 + commandSize c
  | _ => 1

def sizeAll : List Tree → Nat
  | [] => 0
  | t :: ts => t.size + sizeAll ts

def sizeEntries : List (String × Tree) → Nat
  | [] => 0
  | (_, t) :: rest => t.size + sizeEntries rest

/-- The weight of a command's fields and two more. -/
def commandSize : Command Tree → Nat
  | .act (.move _) => 3
  | .act (.turn _) => 3
  | .act (.unrecognized raw _) => 3 + raw.size
  | .loop _ body => 5 + bodySize body

def bodySize : List (Command Tree) → Nat
  | [] => 0
  | c :: cs => 1 + commandSize c + bodySize cs

end

theorem size_pos (t : Tree) : 0 < t.size := by
  cases t <;> simp only [size] <;> omega

theorem sizeAll_commands (body : List (Command Tree)) :
    sizeAll (body.map .command) = bodySize body := by
  induction body with
  | nil => rfl
  | cons c cs ih => simp only [List.map_cons, sizeAll, size, bodySize, ih]

/-- A sequence weighs at least two more than its items. -/
theorem sizeAll_items {t : Tree} {items : List Tree} (h : t.items? = some items) :
    sizeAll items + 2 ≤ t.size := by
  cases t with
  | list _ => cases h; simp only [size]; omega
  | tuple _ => cases h; simp only [size]; omega
  | command c =>
    cases h
    cases c with
    | act a => cases a <;> simp only [fields, sizeAll, size, commandSize] <;> omega
    | loop count body =>
      simp only [fields, sizeAll, size, commandSize, sizeAll_commands]; omega
  | _ => cases h

theorem size_of_field? {name : String} {entries : List (String × Tree)} {t : Tree}
    (h : field? name entries = some t) : t.size ≤ sizeEntries entries := by
  induction entries with
  | nil => cases h
  | cons e rest ih =>
    obtain ⟨k, v⟩ := e
    simp only [field?] at h
    split at h
    · cases h; simp only [sizeEntries]; omega
    · have := ih h; simp only [sizeEntries]; omega

theorem size_of_firstOf? {entries : List (String × Tree)} {names : List String} {t : Tree}
    (h : firstOf? entries names = some t) : t.size ≤ sizeEntries entries := by
  induction names with
  | nil => cases h
  | cons name names ih =>
    simp only [firstOf?] at h
    split at h
    · rename_i hf
      split at h
      · exact ih h
      · cases h; exact size_of_field? hf
    · exact ih h

end Tree

end BlockGrid
