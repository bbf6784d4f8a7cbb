import BlockGrid.Text.Blank
import BlockGrid.Text.Lowercase
import BlockGrid.Text.Quoted

/-!
# BlockGrid.Text.Loose

Text that need not be well formed. JSON text can spell one half of a surrogate pair without the
other; no character stands for it.

* `Half`      — a code point that is half of a pair.
* `LooseText` — runs of characters with halves between them. Text without halves is one run.
* `quoted`, `escaped` — a text as messages show it, with its halves spelled out.
* `encode` — a text that can be written in UTF-8, or why it cannot.
-/

namespace BlockGrid

/-- Counted from the first code point that is no character. -/
structure Half where
  index : Fin 0x800
  deriving DecidableEq, Repr

namespace Half

def code (h : Half) : Nat := 0xd800 + h.index

def ofCode? (u : Nat) : Option Half :=
  if h : 0xd800 ≤ u ∧ u < 0xe000 then some ⟨⟨u - 0xd800, by omega⟩⟩ else none

def escape (h : Half) : List Char := '\\' :: 'u' :: Text.hex 4 h.code

end Half

inductive LooseText where
  | whole (s : String)
  | torn (s : String) (half : Half) (rest : LooseText)
  deriving DecidableEq, Repr

/-- Why a text cannot be written in UTF-8: its first halves, and where they stand. -/
structure EncodeError where
  half : Half
  position : Nat
  count : Nat
  deriving DecidableEq, Repr

def EncodeError.message (e : EncodeError) : String :=
  let before := "'utf-8' codec can't encode character"
  let after := ": surrogates not allowed"
  if e.count = 1 then
    before ++ " '" ++ String.ofList e.half.escape ++ "' in position " ++ toString e.position
      ++ after
  else
    before ++ "s in position " ++ toString e.position ++ "-"
      ++ toString (e.position + e.count - 1) ++ after

namespace LooseText

instance : Coe String LooseText := ⟨.whole⟩

def isTorn : LooseText → Bool
  | .whole _ => false
  | .torn _ _ _ => true

def append : LooseText → LooseText → LooseText
  | .whole s, .whole t => .whole (s ++ t)
  | .whole s, .torn t h rest => .torn (s ++ t) h rest
  | .torn s h rest, t => .torn s h (rest.append t)

instance : Append LooseText := ⟨append⟩

@[simp] theorem isTorn_whole (s : String) : (whole s).isTorn = false := rfl

@[simp] theorem isTorn_append (t u : LooseText) : (t ++ u).isTorn = (t.isTorn || u.isTorn) := by
  show (t.append u).isTorn = _
  cases t <;> cases u <;> rfl

/-- The same for every run. -/
def map (f : String → String) : LooseText → LooseText
  | .whole s => .whole (f s)
  | .torn s h rest => .torn (f s) h (rest.map f)

/-- The same for the first run. -/
def mapFirst (f : String → String) : LooseText → LooseText
  | .whole s => .whole (f s)
  | .torn s h rest => .torn (f s) h rest

/-- The same for the last run. -/
def mapLast (f : String → String) : LooseText → LooseText
  | .whole s => .whole (f s)
  | .torn s h rest => .torn s h (rest.mapLast f)

/-- No letter changes with what stands beyond a half. -/
def lower (t : LooseText) : LooseText := t.map lowercase

/-- Without the characters of a class at the end. -/
def trimEnd (p : Char → Bool) (t : LooseText) : LooseText :=
  t.mapLast fun s => String.ofList (s.toList.reverse.dropWhile p).reverse

/-- Without the characters of a class at either end. -/
def trim (p : Char → Bool) (t : LooseText) : LooseText :=
  (t.mapFirst fun s => String.ofList (s.toList.dropWhile p)).trimEnd p

/-- Code points of characters and halves alike. -/
def codes : LooseText → List Nat
  | .whole s => s.toList.map Char.toNat
  | .torn s h rest => s.toList.map Char.toNat ++ h.code :: rest.codes

def length (t : LooseText) : Nat := t.codes.length

/-- By code points. -/
def before (t u : LooseText) : Bool := List.lex t.codes u.codes fun a b => decide (a < b)

def singles (cs : List Char) : List LooseText := cs.map fun c => .whole (String.singleton c)

/-- Texts of one character or half each. -/
def letters : LooseText → List LooseText
  | .whole s => singles s.toList
  | .torn s h rest => singles s.toList ++ .torn "" h "" :: rest.letters

/-- Characters as `f` writes them, and halves spelled out. -/
def spell (f : Char → List Char) : LooseText → List Char
  | .whole s => s.toList.flatMap f
  | .torn s h rest => s.toList.flatMap f ++ (h.escape ++ rest.spell f)

def characters : LooseText → List Char
  | .whole s => s.toList
  | .torn s _ rest => s.toList ++ rest.characters

def quoteChars (t : LooseText) : List Char :=
  let mark := Text.quoteMark t.characters
  mark :: t.spell (Text.escapeChar mark) ++ [mark]

def quoted (t : LooseText) : String := String.ofList t.quoteChars

def escaped : LooseText → String
  | .whole s => s
  | .torn s h rest => s ++ (String.ofList h.escape ++ rest.escaped)

/-- How many halves a text begins with. -/
def halvesFirst : LooseText → Nat
  | .torn s _ rest => if s = "" then 1 + rest.halvesFirst else 0
  | .whole _ => 0

/-- Of text that is torn behind `s`. -/
def refusal (s : String) (h : Half) (rest : LooseText) : EncodeError :=
  ⟨h, s.length, 1 + rest.halvesFirst⟩

/-- The text, if it is well formed. -/
def encode : LooseText → Except EncodeError String
  | .whole s => .ok s
  | .torn s h rest => .error (refusal s h rest)

end LooseText

end BlockGrid
