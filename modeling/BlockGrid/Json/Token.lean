import BlockGrid.Json.Basic
import BlockGrid.Text.Integer

/-!
# BlockGrid.Json.Token

JSON text cut into tokens, one character at a time.

* `Token`   — brackets, separators and scalars.
* `Mode`    — what the characters read so far leave open.
* `Lexer`   — a mode and the tokens behind it; `feed` takes one character.
* `tokens?` — the tokens of a text, `none` where no token can be formed.
-/

namespace BlockGrid

namespace Json

inductive Token where
  | openList
  | closeList
  | openObject
  | closeObject
  | comma
  | colon
  | scalar (v : Json)

/-- Inside a string the units read so far are held last first, as code points or as halves of a
surrogate pair. -/
inductive Mode where
  | between
  | word (back : List Char)
  | numeral (back : List Char)
  | text (back : List Nat)
  | escape (back : List Nat)
  | code (back : List Nat) (value left : Nat)

structure Lexer where
  back : List Token
  mode : Mode

def isHighHalf (u : Nat) : Bool := 0xd800 ≤ u && u < 0xdc00

def isLowHalf (u : Nat) : Bool := 0xdc00 ≤ u && u < 0xe000

/-- A low half joins the high half just before it. -/
def pushUnit (u : Nat) : List Nat → List Nat
  | h :: rest =>
    if isLowHalf u && isHighHalf h then
      (0x10000 + (h - 0xd800) * 0x400 + (u - 0xdc00)) :: rest
    else u :: h :: rest
  | [] => [u]

/-- What stands behind a run: nothing, or a half and more text. -/
def closeRun (run : List Char) : Option (Half × LooseText) → LooseText
  | none => .whole (String.ofList run)
  | some (h, rest) => .torn (String.ofList run) h rest

/-- Units in front of a run and of what stands behind it. A half without its partner stays one. -/
def textFrom (run : List Char) (behind : Option (Half × LooseText)) : List Nat → LooseText
  | [] => closeRun run behind
  | u :: back =>
    match Half.ofCode? u with
    | some h => textFrom [] (some (h, closeRun run behind)) back
    | none => textFrom (Char.ofNat u :: run) behind back

def textOfUnits (back : List Nat) : LooseText := textFrom [] none back

def hexDigit? (c : Char) : Option Nat :=
  if c.isDigit then some (c.toNat - '0'.toNat)
  else if 'a' ≤ c ∧ c ≤ 'f' then some (c.toNat - 'a'.toNat + 10)
  else if 'A' ≤ c ∧ c ≤ 'F' then some (c.toNat - 'A'.toNat + 10)
  else none

def simpleEscape? : Char → Option Nat
  | '"' => some 0x22
  | '\\' => some 0x5c
  | '/' => some 0x2f
  | 'b' => some 0x08
  | 'f' => some 0x0c
  | 'n' => some 0x0a
  | 'r' => some 0x0d
  | 't' => some 0x09
  | _ => none

/-- Doubles that are not finite have names. -/
def word? (s : List Char) : Option Json :=
  if s = ['n', 'u', 'l', 'l'] then some .null
  else if s = ['t', 'r', 'u', 'e'] then some (.bool true)
  else if s = ['f', 'a', 'l', 's', 'e'] then some (.bool false)
  else if s = "NaN".toList then some (.float .nan)
  else if s = "Infinity".toList then some (.float (.infinity false))
  else if s = "-Infinity".toList then some (.float (.infinity true))
  else none

def naturalOf (digits : List Char) : Nat :=
  digits.foldl (fun n c => 10 * n + (c.toNat - '0'.toNat)) 0

/-- A whole part: a lone zero, or digits that start with another. -/
def whole? : List Char → Option Nat
  | ['0'] => some 0
  | '0' :: _ => none
  | [] => none
  | digits => some (naturalOf digits)

/-- The exponent after `e`: at most one sign, then digits. -/
def power? : List Char → Option Int
  | '+' :: d :: ds => if (d :: ds).all Char.isDigit then some (naturalOf (d :: ds)) else none
  | '-' :: d :: ds =>
    if (d :: ds).all Char.isDigit then some (-(naturalOf (d :: ds) : Int)) else none
  | d :: ds => if (d :: ds).all Char.isDigit then some (naturalOf (d :: ds)) else none
  | [] => none

def isExponentMark (c : Char) : Bool := c = 'e' || c = 'E'

/-- What follows the whole part: digits after a point, and an exponent, either of which may be
missing. -/
def tail? : List Char → Option (List Char × Int)
  | '.' :: rest =>
    let (fraction, more) := rest.span Char.isDigit
    if fraction.isEmpty then none
    else match more with
      | [] => some (fraction, 0)
      | e :: power => if isExponentMark e then (power? power).map (fraction, ·) else none
  | e :: power => if isExponentMark e then (power? power).map ([], ·) else none
  | [] => none

def unsignedNumeral? (negative : Bool) (s : List Char) : Option Json :=
  let (digits, rest) := s.span Char.isDigit
  match whole? digits with
  | none => none
  | some n =>
    if rest.isEmpty then some (.int (if negative then -(n : Int) else n))
    else (tail? rest).map fun (fraction, power) =>
      .float
        (Binary64.ofDecimal negative (naturalOf (digits ++ fraction)) (power - fraction.length))

def numeral? : List Char → Option Json
  | '-' :: rest => unsignedNumeral? true rest
  | s => unsignedNumeral? false s

def isNumeralChar (c : Char) : Bool :=
  c.isDigit || c = '-' || c = '+' || c = '.' || isExponentMark c

def isJsonSpace (c : Char) : Bool := c = ' ' || c = '\n' || c = '\r' || c = '\t'

/-- A character that starts something new. -/
def start? (back : List Token) (c : Char) : Option Lexer :=
  if isJsonSpace c then some ⟨back, .between⟩
  else if c = '[' then some ⟨.openList :: back, .between⟩
  else if c = ']' then some ⟨.closeList :: back, .between⟩
  else if c = '\x7b' then some ⟨.openObject :: back, .between⟩
  else if c = '\x7d' then some ⟨.closeObject :: back, .between⟩
  else if c = ',' then some ⟨.comma :: back, .between⟩
  else if c = ':' then some ⟨.colon :: back, .between⟩
  else if c = '"' then some ⟨back, .text []⟩
  else if c = '-' || c.isDigit then some ⟨back, .numeral [c]⟩
  else if c.isAlpha then some ⟨back, .word [c]⟩
  else none

/-- The token that a word or a numeral leaves behind. -/
def settle? (l : Lexer) : Option (List Token) :=
  match l.mode with
  | .between => some l.back
  | .word w => (word? w.reverse).map fun v => .scalar v :: l.back
  | .numeral w => (numeral? w.reverse).map fun v => .scalar v :: l.back
  | _ => none

/-- After a lone minus sign a letter makes it a word. -/
def feed? (l : Lexer) (c : Char) : Option Lexer :=
  match l.mode with
  | .between => start? l.back c
  | .word w =>
    if c.isAlphanum then some ⟨l.back, .word (c :: w)⟩
    else (settle? l).bind fun back => start? back c
  | .numeral w =>
    if isNumeralChar c then some ⟨l.back, .numeral (c :: w)⟩
    else if w = ['-'] ∧ c.isAlpha then some ⟨l.back, .word (c :: w)⟩
    else (settle? l).bind fun back => start? back c
  | .text us =>
    if c = '"' then some ⟨.scalar (.ofText (textOfUnits us)) :: l.back, .between⟩
    else if c = '\\' then some ⟨l.back, .escape us⟩
    else if c.toNat < 0x20 then none
    else some ⟨l.back, .text (pushUnit c.toNat us)⟩
  | .escape us =>
    if c = 'u' then some ⟨l.back, .code us 0 3⟩
    else (simpleEscape? c).map fun u => ⟨l.back, .text (pushUnit u us)⟩
  | .code us value left =>
    (hexDigit? c).map fun d =>
      match left with
      | 0 => ⟨l.back, .text (pushUnit (16 * value + d) us)⟩
      | n + 1 => ⟨l.back, .code us (16 * value + d) n⟩

def feedAll? : Lexer → List Char → Option Lexer
  | l, [] => some l
  | l, c :: cs => (feed? l c).bind fun l' => feedAll? l' cs

def tokens? (s : List Char) : Option (List Token) :=
  ((feedAll? ⟨[], .between⟩ s).bind settle?).map List.reverse

end Json

end BlockGrid
