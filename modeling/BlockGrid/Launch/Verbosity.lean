import BlockGrid.Json.Basic
import BlockGrid.Run.Log
import BlockGrid.Text.Quoted

/-!
# BlockGrid.Launch.Verbosity

How grave a message has to be to be shown.

* `Verbosity.ofJson` — the least rank shown, from the name of a level in any letter case.
-/

namespace BlockGrid

inductive VerbosityError where
  | notText (kind : String)
  | notRank (text : String)
  | notLevel (text : String)
  deriving DecidableEq, Repr

def VerbosityError.message : VerbosityError → String
  | .notText kind => "'" ++ kind ++ "' object has no attribute 'upper'"
  | .notRank text => "Unknown level: '" ++ text ++ "'"
  | .notLevel text => "Level not an integer or a valid string: " ++ text

namespace Verbosity

def initial : Nat := Level.warning.rank

/-- Besides the letters of ASCII, two more letters have an ASCII capital, and two ligatures have two
of them. -/
def capital (c : Char) : List Char :=
  if c = 'ı' then ['I'] else if c = 'ſ' then ['S']
  else if c = '\ufb05' || c = '\ufb06' then ['S', 'T']
  else [c.toUpper]

def capitals (s : String) : String := String.ofList (s.toList.flatMap capital)

def ranks : List (String × Nat) :=
  [("NOTSET", 0), ("DEBUG", Level.debug.rank), ("INFO", Level.info.rank),
    ("WARN", Level.warning.rank), ("WARNING", Level.warning.rank), ("ERROR", Level.error.rank),
    ("CRITICAL", Level.critical.rank), ("FATAL", Level.critical.rank)]

/-- The one name that stands for a text instead of a rank. -/
def formatName : String := "BASIC_FORMAT"

def format : String := "%(levelname)s:%(name)s:%(message)s"

/-- The one name that stands for a table. -/
def stylesName : String := "_STYLES"

/-- A message format in the marks of a style. -/
def styled (opening closing : String) : String :=
  String.intercalate ":" (["levelname", "name", "message"].map fun field =>
    opening ++ field ++ closing)

def style (mark name format : String) : String :=
  quoted mark ++ ": (<class 'logging." ++ name ++ "'>, " ++ quoted format ++ ")"

def styles : String :=
  "\x7b" ++ String.intercalate ", "
    [style "%" "PercentStyle" format, style "\x7b" "StrFormatStyle" (styled "\x7b" "\x7d"),
      style "$" "StringTemplateStyle" (styled "$\x7b" "\x7d")] ++ "\x7d"

/-- Unknown names leave everything as it is. -/
def ofJson : Json → Except VerbosityError Nat
  | .str s =>
    let name := capitals s
    if name = formatName then .error (.notRank format)
    else if name = stylesName then .error (.notLevel styles)
    else .ok ((ranks.lookup name).getD initial)
  | .torn _ _ _ => .ok initial
  | v => .error (.notText v.kindName)

end Verbosity

end BlockGrid
