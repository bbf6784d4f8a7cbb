import BlockGrid.Tree.Basic
import BlockGrid.Number.Shortest
import BlockGrid.Text.Quoted

/-!
# BlockGrid.Tree.Text

Values as messages show them.

* `shown`   — a value inside another one: strings in quotes.
* `spoken`  — a value by itself: strings as they stand, with halves spelled out.
* `printed` — the same with halves as they are.
-/

namespace BlockGrid

namespace Tree

def chars (s : String) (rest : List Char) : List Char := s.toList ++ rest

mutual

/-- The text of a tree in front of what follows it. -/
def shownOnto : Tree → List Char → List Char
  | .null, rest => chars "None" rest
  | .bool true, rest => chars "True" rest
  | .bool false, rest => chars "False" rest
  | .int n, rest => chars (toString n) rest
  | .float x, rest => chars x.toText rest
  | .str s, rest => Text.quoteChars s.toList ++ rest
  | .torn s h more, rest => (LooseText.torn s h more).quoteChars ++ rest
  | .list items, rest => '[' :: itemsOnto items (']' :: rest)
  | .tuple [t], rest => '(' :: shownOnto t (',' :: ')' :: rest)
  | .tuple items, rest => '(' :: itemsOnto items (')' :: rest)
  | .obj entries, rest => '\x7b' :: entriesOnto entries ('\x7d' :: rest)
  | .command c, rest => commandOnto c rest

/-- Items with commas between them. -/
def itemsOnto : List Tree → List Char → List Char
  | [], rest => rest
  | [t], rest => shownOnto t rest
  | t :: ts, rest => shownOnto t (',' :: ' ' :: itemsOnto ts rest)

def entriesOnto : List (String × Tree) → List Char → List Char
  | [], rest => rest
  | [(k, t)], rest => Text.quoteChars k.toList ++ ':' :: ' ' :: shownOnto t rest
  | (k, t) :: ts, rest =>
    Text.quoteChars k.toList ++ ':' :: ' ' :: shownOnto t (',' :: ' ' :: entriesOnto ts rest)

def commandOnto : Command Tree → List Char → List Char
  | .act (.move d), rest => chars "Move(distance=" (chars (toString d) (')' :: rest))
  | .act (.turn s), rest => chars "Turn(direction=" (Text.quoteChars s.toList ++ ')' :: rest)
  | .act (.unrecognized raw reason), rest =>
    chars "Unrecognized(raw="
      (shownOnto raw (chars ", reason=" (Text.quoteChars reason.toList ++ ')' :: rest)))
  | .loop count [c], rest =>
    chars "Repeat(count=" (chars (toString count) (chars ", body=("
      (commandOnto c (',' :: ')' :: ')' :: rest))))
  | .loop count body, rest =>
    chars "Repeat(count=" (chars (toString count) (chars ", body=("
      (commandsOnto body (')' :: ')' :: rest))))

def commandsOnto : List (Command Tree) → List Char → List Char
  | [], rest => rest
  | [c], rest => commandOnto c rest
  | c :: cs, rest => commandOnto c (',' :: ' ' :: commandsOnto cs rest)

end

def shown (t : Tree) : String := String.ofList (shownOnto t [])

def spoken : Tree → String
  | .str s => s
  | .torn s h rest => (LooseText.torn s h rest).escaped
  | t => t.shown

def printed : Tree → LooseText
  | .torn s h rest => .torn s h rest
  | t => t.spoken

end Tree

def Json.shown (v : Json) : String := (Tree.ofJson v).shown

def Json.spoken (v : Json) : String := (Tree.ofJson v).spoken

def Json.printed (v : Json) : LooseText := (Tree.ofJson v).printed

end BlockGrid
