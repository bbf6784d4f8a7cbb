import BlockGrid.Tree.Text
import BlockGrid.Text.Integer
import BlockGrid.Text.Lowercase

/-!
# BlockGrid.Tree.Program

Programs from command trees. The spellings of a field are settled here, once:

* a move's distance is `value` or `steps`, one if neither is given;
* a turn's direction is `dir`, right if not given;
* a loop's count is `times`, one if not given, and its body `body`, `commands` or `do`.

A node that cannot be read becomes `unrecognized`, with the reason; only a tree that is no
sequence at all, and a numeral that looks like digits but is none, stop the reading.

* `readNode`       — one node. A loop comes back open, with its body still to be read.
* `Reading.run`    — the whole tree, with the loops still open on a stack.
* `Program.ofTree` — the program of a tree; null is the empty program.
-/

namespace BlockGrid

inductive ProgramError where
  | notSequence (kind : String)
  | badNumeral (text : String)
  deriving DecidableEq, Repr

/-- No more than so much of a quoted text is shown. -/
def shownLength : Nat := 200

/-- The wording for text that is no integer. Long text is cut off, the closing mark with it. -/
def badNumeralText (text : LooseText) : String :=
  "invalid literal for int() with base 10: "
    ++ String.ofList (text.quoteChars.take shownLength)

def ProgramError.message : ProgramError → String
  | .notSequence kind => "command tree must be a list, got " ++ kind
  | .badNumeral text => badNumeralText text

namespace Tree

/-- White space and case do not count in tags and directions. -/
def keyword (t : Tree) : String :=
  String.ofList (Text.lower (Text.trim Text.isBlank t.spoken.toList))

/-- A keyword in quotes. -/
def quotedKeyword (t : Tree) : String := (t.printed.trim Text.isBlank).lower.quoted

/-- Digits behind any number of minus signs. -/
def looksNumeric (s : List Char) : Bool :=
  let digits := s.dropWhile (· = '-')
  ¬ digits.isEmpty ∧ digits.all Text.isDigit

/-- Integers, doubles without a fraction, and strings that look like digits. -/
def integer? : Tree → Except ProgramError (Option Int)
  | .int n => .ok (some n)
  | .float x => .ok x.toInt?
  | .str s =>
    let inner := Text.trim Text.isBlank s.toList
    if looksNumeric inner then
      match Text.integer? inner with
      | some n => .ok (some n)
      | none => .error (.badNumeral (String.ofList inner))
    else .ok none
  | _ => .ok none

/-- A node that has been read: a command, or a loop whose body has not been read yet. -/
inductive Node where
  | done (c : Command Tree)
  | opened (count : Int) (body : List Tree)

def unrecognized (t : Tree) (reason : String) : Node := .done (.act (.unrecognized t reason))

def turnNames : List String := ["left", "right"]

def readMove (t : Tree) (entries : List (String × Tree)) : Except ProgramError Node :=
  (((firstOf? entries ["value", "steps"]).getD (.int 1)).integer?).map fun distance =>
    match distance with
    | some d =>
      if d < 1 then unrecognized t "move distance must be a positive integer"
      else .done (.act (.move d))
    | none => unrecognized t "move distance must be a positive integer"

/-- A direction that is empty or zero counts as not given. -/
def turnField (entries : List (String × Tree)) : Tree :=
  match field? "dir" entries with
  | some v => if v.isTruthy then v else .str "right"
  | none => .str "right"

def readTurn (t : Tree) (entries : List (String × Tree)) : Node :=
  let direction := (turnField entries).keyword
  if turnNames.contains direction then .done (.act (.turn direction))
  else unrecognized t "turn direction must be one of ('left', 'right')"

def readLoop (t : Tree) (entries : List (String × Tree)) : Except ProgramError Node :=
  (((firstOf? entries ["times"]).getD (.int 1)).integer?).map fun count =>
    match count with
    | some n =>
      if n < 0 then unrecognized t "repeat count must be a non-negative integer"
      else
        match firstOf? entries ["body", "commands", "do"] with
        | none => .opened n []
        | some body =>
          match body.items? with
          | some items => .opened n items
          | none => unrecognized t "repeat body must be a list"
    | none => unrecognized t "repeat count must be a non-negative integer"

/-- `shown` is the tag as a reason shows it. -/
def readTagged (t : Tree) (tag shown : String) (entries : List (String × Tree)) :
    Except ProgramError Node :=
  if tag = "move" then readMove t entries
  else if tag = "turn" then .ok (readTurn t entries)
  else if tag = "repeat" then readLoop t entries
  else if tag = "" then .ok (unrecognized t "missing command tag")
  else .ok (unrecognized t ("unknown command " ++ shown))

def readNode (t : Tree) : Except ProgramError Node :=
  match t with
  | .command c => .ok (.done c)
  | .obj entries =>
    let tag := (field? "cmd" entries).getD (.str "")
    readTagged t tag.keyword tag.quotedKeyword entries
  | _ => .ok (unrecognized t "command node is not an object")

theorem readMove_ne_opened {t : Tree} {entries : List (String × Tree)} {count : Int}
    {body : List Tree} : readMove t entries ≠ .ok (.opened count body) := by
  unfold readMove
  cases ((firstOf? entries ["value", "steps"]).getD (.int 1)).integer? with
  | error e => simp [Except.map]
  | ok distance =>
    cases distance with
    | none => simp [Except.map, unrecognized]
    | some d => by_cases hd : d < 1 <;> simp [Except.map, unrecognized, hd]

theorem readTurn_ne_opened {t : Tree} {entries : List (String × Tree)} {count : Int}
    {body : List Tree} : readTurn t entries ≠ .opened count body := by
  unfold readTurn
  simp only [unrecognized]
  split <;> simp

theorem sizeAll_of_readLoop {t : Tree} {entries : List (String × Tree)} {count : Int}
    {body : List Tree} (h : readLoop t entries = .ok (.opened count body)) :
    sizeAll body ≤ sizeEntries entries := by
  unfold readLoop at h
  cases hc : ((firstOf? entries ["times"]).getD (.int 1)).integer? with
  | error e => simp [hc, Except.map] at h
  | ok times =>
    simp only [hc, Except.map] at h
    cases times with
    | none => simp [unrecognized] at h
    | some n =>
      by_cases hn : n < 0
      · simp [hn, unrecognized] at h
      · simp only [hn, if_false] at h
        split at h
        · simp only [Except.ok.injEq, Node.opened.injEq] at h
          simp [← h.2, sizeAll]
        · rename_i b hb
          split at h
          · rename_i items hi
            simp only [Except.ok.injEq, Node.opened.injEq] at h
            have := size_of_firstOf? hb
            have := sizeAll_items hi
            rw [← h.2]
            omega
          · simp [unrecognized] at h

/-- The body of a loop weighs less than its node, by enough to keep the loop on the stack. -/
theorem sizeAll_of_opened {t : Tree} {count : Int} {body : List Tree}
    (h : t.readNode = .ok (.opened count body)) : sizeAll body + 2 ≤ t.size := by
  cases t with
  | obj entries =>
    have key : sizeAll body ≤ sizeEntries entries := by
      simp only [readNode, readTagged] at h
      split at h
      · exact absurd h readMove_ne_opened
      · split at h
        · simp only [Except.ok.injEq] at h
          exact absurd h readTurn_ne_opened
        · split at h
          · exact sizeAll_of_readLoop h
          · split at h <;> simp [unrecognized] at h
    simp only [size]
    omega
  | _ => simp [readNode, unrecognized] at h

end Tree

namespace Reading

/-- A program part way through: the nodes still to read, and the commands read, last first. -/
structure Level where
  rest : List Tree
  back : Program Tree

/-- An enclosing level, and the count of the loop being read inside it. -/
structure Open where
  count : Int
  level : Level

def openWork : List Open → Nat
  | [] => 0
  | o :: os => Tree.sizeAll o.level.rest + 1 + openWork os

/-- Nodes are read in the order of the text; the first error ends the reading. -/
def run : Level → List Open → Except ProgramError (Program Tree)
  | ⟨[], back⟩, [] => .ok back.reverse
  | ⟨[], back⟩, ⟨count, outer⟩ :: os =>
    run ⟨outer.rest, .loop count back.reverse :: outer.back⟩ os
  | ⟨t :: rest, back⟩, os =>
    match _h : t.readNode with
    | .error e => .error e
    | .ok (.done c) => run ⟨rest, c :: back⟩ os
    | .ok (.opened count body) => run ⟨body, []⟩ (⟨count, ⟨rest, back⟩⟩ :: os)
  termination_by l os => Tree.sizeAll l.rest + openWork os
  decreasing_by
    · simp only [Tree.sizeAll, openWork]; omega
    · have := t.size_pos
      simp only [Tree.sizeAll]; omega
    · have := Tree.sizeAll_of_opened ‹_›
      simp only [Tree.sizeAll, openWork]; omega

end Reading

def Program.ofTree (t : Tree) : Except ProgramError (Program Tree) :=
  if t.isNull then .ok []
  else
    match t.items? with
    | none => .error (.notSequence t.kindName)
    | some items => Reading.run ⟨items, []⟩ []

end BlockGrid
