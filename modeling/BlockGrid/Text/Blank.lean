import BlockGrid.Text.Ranges

/-!
# BlockGrid.Text.Blank

* `isSpace` — the white space of the Unicode property.
* `isBlank` — white space and the four information separators U+001C to U+001F.
* `trim`    — text without the characters of a class at either end.
-/

namespace BlockGrid

namespace Text

def spaces : Ranges :=
  #[(0x9, 0xd), (0x20, 0x20), (0x85, 0x85), (0xa0, 0xa0), (0x1680, 0x1680), (0x2000, 0x200a),
    (0x2028, 0x2029), (0x202f, 0x202f), (0x205f, 0x205f), (0x3000, 0x3000)]

def isSpace (c : Char) : Bool := spaces.has c

def isBlank (c : Char) : Bool := isSpace c || (0x1c ≤ c.toNat && c.toNat ≤ 0x1f)

def trim (p : Char → Bool) (s : List Char) : List Char :=
  ((s.dropWhile p).reverse.dropWhile p).reverse

end Text

end BlockGrid
