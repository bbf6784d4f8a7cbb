import BlockGrid.Json.Basic
import BlockGrid.Number.Shortest
import BlockGrid.Text.Quoted

/-!
# BlockGrid.Json.Writer

JSON text of a value: a blank after each comma and colon, ASCII throughout.

* `onto`   — a value's text in front of what follows it.
* `render` — the text alone.
-/

namespace BlockGrid

namespace Json

def unitEscape (u : Nat) : List Char := '\\' :: 'u' :: Text.hex 4 u

/-- Characters outside the basic plane are written as two halves. -/
def escapeChar (c : Char) : List Char :=
  if c = '"' then ['\\', '"']
  else if c = '\\' then ['\\', '\\']
  else if c = '\n' then ['\\', 'n']
  else if c = '\r' then ['\\', 'r']
  else if c = '\t' then ['\\', 't']
  else if c = '\x0c' then ['\\', 'f']
  else if c = '\x08' then ['\\', 'b']
  else if 0x20 ≤ c.toNat ∧ c.toNat < 0x7f then [c]
  else if c.toNat < 0x10000 then unitEscape c.toNat
  else
    let v := c.toNat - 0x10000
    unitEscape (0xd800 + v / 0x400) ++ unitEscape (0xdc00 + v % 0x400)

def stringOnto (s : String) (rest : List Char) : List Char :=
  '"' :: s.toList.flatMap escapeChar ++ '"' :: rest

def tornOnto (t : LooseText) (rest : List Char) : List Char :=
  '"' :: t.spell escapeChar ++ '"' :: rest

def doubleText (x : Binary64) : String :=
  match x.extended with
  | .finite _ => x.toText
  | .infinite negative => if negative then "-Infinity" else "Infinity"
  | .notANumber => "NaN"

mutual

def onto : Json → List Char → List Char
  | .null, rest => 'n' :: 'u' :: 'l' :: 'l' :: rest
  | .bool true, rest => 't' :: 'r' :: 'u' :: 'e' :: rest
  | .bool false, rest => 'f' :: 'a' :: 'l' :: 's' :: 'e' :: rest
  | .int n, rest => (toString n).toList ++ rest
  | .float x, rest => (doubleText x).toList ++ rest
  | .str s, rest => stringOnto s rest
  | .torn s h more, rest => tornOnto (.torn s h more) rest
  | .arr [], rest => '[' :: ']' :: rest
  | .arr (v :: vs), rest => '[' :: onto v (itemsOnto vs (']' :: rest))
  | .obj [], rest => '\x7b' :: '\x7d' :: rest
  | .obj ((k, v) :: es), rest =>
    '\x7b' :: stringOnto k (':' :: ' ' :: onto v (entriesOnto es ('\x7d' :: rest)))

/-- The items after the first. -/
def itemsOnto : List Json → List Char → List Char
  | [], rest => rest
  | v :: vs, rest => ',' :: ' ' :: onto v (itemsOnto vs rest)

/-- The entries after the first. -/
def entriesOnto : List (String × Json) → List Char → List Char
  | [], rest => rest
  | (k, v) :: es, rest =>
    ',' :: ' ' :: stringOnto k (':' :: ' ' :: onto v (entriesOnto es rest))

end

def render (v : Json) : String := String.ofList (onto v [])

end Json

end BlockGrid
