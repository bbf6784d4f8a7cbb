import BlockGrid.File.Path
import BlockGrid.Launch.Settings
import BlockGrid.Text.Decimal

/-!
# BlockGrid.Launch.CommandLine

The words of a command line as options: three paths and names in order, and flags anywhere between
them. A flag may be shortened as long as it stays clear which one is meant.

* `Flag`          — the flags.
* `Word`          — what a single word is: a value, a flag, or the mark after which all are values.
* `Options.parse` — the options of a command line.
-/

namespace BlockGrid

inductive Flag where
  | help
  | config
  | fast
  | moveDelay
  | turnDelay
  | ignoreBlockLimit
  | exportDir
  | quiet
  | logLevel
  deriving DecidableEq, Repr

/-- Why a command line gives no options: it is wrong, or it asks for help. -/
inductive Stop where
  | usage
  | help
  deriving DecidableEq, Repr

namespace Flag

def names : List (String × Flag) :=
  [("-h", .help), ("--help", .help), ("--config", .config), ("--fast", .fast),
    ("--move-delay", .moveDelay), ("--turn-delay", .turnDelay),
    ("--ignore-block-limit", .ignoreBlockLimit), ("--export-dir", .exportDir),
    ("--quiet", .quiet), ("--log-level", .logLevel)]

def takesValue : Flag → Bool
  | .config | .moveDelay | .turnDelay | .exportDir | .logLevel => true
  | .help | .fast | .ignoreBlockLimit | .quiet => false

end Flag

/-- `short` is a one-letter flag with letters run into it. -/
inductive Word where
  | value (s : String)
  | mark
  | flag (f : Flag) (attached : Option String)
  | short (rest : List Char)
  | unknown
  deriving Repr

namespace Word

/-- The part before the first equals sign and the part after it. -/
def assignment? (s : List Char) : Option (String × String) :=
  match s.dropWhile (· ≠ '=') with
  | [] => none
  | _ :: after => some (String.ofList (s.takeWhile (· ≠ '=')), String.ofList after)

def isDigits (s : List Char) : Bool := s.all fun c => (Text.decimalDigit? c).isSome

/-- Digits with at most one point, not behind the last digit, after a minus sign. -/
def isNegativeNumber (s : List Char) : Bool :=
  match s with
  | '-' :: rest =>
    let rest := if rest.getLast? = some '\n' then rest.dropLast else rest
    let (whole, fraction) := rest.span (· ≠ '.')
    match fraction with
    | [] => !whole.isEmpty && isDigits whole
    | _ :: places => isDigits whole && !places.isEmpty && isDigits places
  | _ => false

/-- Flags that a word may be short for, with the value attached to it. -/
def candidates (s : List Char) : List Word :=
  let (stem, attached) := match assignment? s with
    | some (name, text) => (name.toList, some text)
    | none => (s, none)
  (Flag.names.filter fun e => stem.isPrefixOf e.1.toList).map fun e => .flag e.2 attached

/-- A word that begins with a minus sign and is no flag by its full name. -/
def guess (s : List Char) : Except Stop Word :=
  match s with
  | '-' :: 'h' :: rest => .ok (.short rest)
  | _ =>
    match if ['-', '-'].isPrefixOf s then candidates s else [] with
    | [w] => .ok w
    | _ :: _ :: _ => .error .usage
    | [] =>
      .ok (if isNegativeNumber s || s.contains ' ' then .value (String.ofList s) else .unknown)

def ofText (s : String) : Except Stop Word :=
  match s.toList with
  | '-' :: c :: rest =>
    match Flag.names.lookup s with
    | some f => .ok (.flag f none)
    | none =>
      match assignment? ('-' :: c :: rest) with
      | some (name, text) =>
        match Flag.names.lookup name with
        | some .help => if c = '-' then .ok (.flag .help (some text)) else .ok (.short text.toList)
        | some f => .ok (.flag f (some text))
        | none => guess ('-' :: c :: rest)
      | none => guess ('-' :: c :: rest)
  | _ => .ok (.value s)

def markText : String := "--"

/-- After the mark every word is a value. -/
def ofTexts : List String → Except Stop (List Word)
  | [] => .ok []
  | s :: rest =>
    if s = markText then .ok (.mark :: rest.map .value)
    else do
      let w ← ofText s
      let ws ← ofTexts rest
      pure (w :: ws)

end Word

/-- A command line part way through. -/
structure Taking where
  places : List (Option String)
  options : Options
  surplus : Bool

namespace Taking

def isFull (t : Taking) : Bool := 3 ≤ t.places.length

/-- One of the texts may be a mark, which does not count; there need not be one left. -/
def single (texts : List String) : Option String := (texts.erase Word.markText).head?

def place (t : Taking) (texts : List String) : Taking :=
  { t with places := t.places ++ [single texts] }

def delay (s : String) : Except Stop Json :=
  match Text.decimal? s.toList with
  | some x => .ok (.float x)
  | none => .error .usage

def levels : List String := ["DEBUG", "INFO", "WARNING", "ERROR"]

def level (s : String) : Except Stop Json :=
  if levels.contains s then .ok (.str s) else .error .usage

def path (s : String) : Json := .str (Path.ofText s).text

def setFlag (o : Options) : Flag → Except Stop Options
  | .help => .error .help
  | .fast => .ok { o with fast := .bool true }
  | .ignoreBlockLimit => .ok { o with ignoreBlockLimit := .bool true }
  | .quiet => .ok { o with quiet := .bool true }
  | _ => .error .usage

/-- Where no text is left the value is an empty list, of whatever kind values otherwise are. -/
def valueOf (read : String → Except Stop Json) : Option String → Except Stop Json
  | none => .ok (.arr [])
  | some s => read s

def setValue (o : Options) (f : Flag) (s : Option String) : Except Stop Options :=
  match f with
  | .config => (valueOf (.ok ∘ path) s).map fun v => { o with config := v }
  | .moveDelay => (valueOf delay s).map fun v => { o with moveDelay := v }
  | .turnDelay => (valueOf delay s).map fun v => { o with turnDelay := v }
  | .exportDir => (valueOf (.ok ∘ path) s).map fun v => { o with exportDir := v }
  | .logLevel => (valueOf level s).map fun v => { o with logLevel := v }
  | _ => .error .usage

def attach (t : Taking) (f : Flag) (s : String) : Except Stop Taking :=
  if f.takesValue then (setValue t.options f (single [s])).map fun o => { t with options := o }
  else .error .usage

/-- Words in order. A value that has no place any more is kept in mind. -/
def run (t : Taking) : List Word → Except Stop Taking
  | [] => .ok t
  | .flag f (some s) :: rest => do
    let t ← t.attach f s
    t.run rest
  | .flag f none :: rest =>
    if f.takesValue then
      match rest with
      | .value s :: rest => do
        let t ← t.attach f s
        t.run rest
      | _ => .error .usage
    else do
      let options ← setFlag t.options f
      run { t with options := options } rest
  | .short letters :: _ =>
    if letters ≠ [] ∧ letters.all (· = 'h') then .error .help else .error .usage
  | .unknown :: rest => run { t with surplus := true } rest
  | .value s :: .mark :: rest =>
    if t.isFull then run { t with surplus := true } rest
    else run (t.place [s, Word.markText]) rest
  | .value s :: rest =>
    if t.isFull then run { t with surplus := true } rest
    else run (t.place [s]) rest
  | .mark :: .value s :: rest =>
    if t.isFull then run { t with surplus := true } rest
    else run (t.place [Word.markText, s]) rest
  | .mark :: rest => run { t with surplus := true } rest

end Taking

/-- All three places have to be taken, and no word may be left over. -/
def Options.parse (arguments : List String) : Except Stop Options := do
  let words ← Word.ofTexts arguments
  let t ← Taking.run ⟨[], .none, false⟩ words
  match t.places, t.surplus with
  | [catalog, challenge, program], false =>
    let catalog ← Taking.valueOf (.ok ∘ Taking.path) catalog
    let challenge ← Taking.valueOf (.ok ∘ .str) challenge
    let program ← Taking.valueOf (.ok ∘ Taking.path) program
    pure { t.options with catalog, challenge, program }
  | _, _ => throw .usage

end BlockGrid
