import BlockGrid.Grid.Motion
import BlockGrid.Json.Names

/-!
# BlockGrid.Run.Pacing

How long a run waits before each effect. Delays are presentation only: any value stands for
itself, and none changes what a run does.

* `Pacing.delay`    — the delay before a motion.
* `Pacing.delayFor` — the same, with the kind of effect given by name.
* `Pacing.ofJson`   — pacing from named delays.
-/

namespace BlockGrid

structure Pacing where
  moveDelay : Json
  turnDelay : Json
  deriving Inhabited

inductive PacingError where
  | notObject (kind : String)
  | name (e : NameError)
  | noDelay (shownKind : String)
  deriving DecidableEq, Repr

def PacingError.message : PacingError → String
  | .notObject kind =>
    "interfaces.config.PacingConfig() argument after ** must be a mapping, not " ++ kind
  | .name e => e.message "PacingConfig.__new__()"
  | .noDelay kind => "no pacing defined for effect kind " ++ kind

namespace Pacing

def tenths (n : Nat) : Json := .float (Binary64.ofDecimal false n (-1))

/-- Two fifths of a second before a step, one fifth before a turn. -/
def default : Pacing := ⟨tenths 4, tenths 2⟩

/-- No waiting at all. -/
def immediate : Pacing := ⟨tenths 0, tenths 0⟩

def delay (p : Pacing) : Motion → Json
  | .step => p.moveDelay
  | .turn _ => p.turnDelay

/-- The name of a kind may be any value. -/
def delayFor (p : Pacing) (kind : Json) : Except PacingError Json :=
  if kind.same (.str Kind.step.name) then .ok p.moveDelay
  else if kind.same (.str Kind.turn.name) then .ok p.turnDelay
  else .error (.noDelay kind.shown)

def names : List String := ["move_delay", "turn_delay"]

/-- The name that the pacing itself goes by. -/
def taken : String := "_cls"

/-- A delay that is not given is the default one. -/
def ofEntries (entries : Entries) : Except PacingError Pacing := do
  (entries.checkNames taken names).mapError .name
  pure ⟨(entries.get? "move_delay").getD default.moveDelay,
    (entries.get? "turn_delay").getD default.turnDelay⟩

def ofJson : Json → Except PacingError Pacing
  | .obj entries => ofEntries entries
  | v => .error (.notObject v.kindName)

def toJson (p : Pacing) : Json :=
  .obj [("move_delay", p.moveDelay), ("turn_delay", p.turnDelay)]

end Pacing

end BlockGrid
