import BlockGrid.Run.Course
import BlockGrid.Run.Pacing

/-!
# BlockGrid.Run.Clock

How the delays of a run are slept. A pacing may ask for what no clock can wait for.

* `Sleep`         — what becomes of a delay.
* `Clock.loop`    — the clock of an event loop, which keeps its times as doubles.
* `Clock.through` — a run up to the first delay that is not over some time.
-/

namespace BlockGrid

/-- Why a delay is not slept. -/
inductive SleepError where
  | notOrdered (kind : String)
  | tooLarge
  | notANumber
  deriving DecidableEq, Repr

def SleepError.message : SleepError → String
  | .notOrdered kind => "'<=' not supported between instances of '" ++ kind ++ "' and 'int'"
  | .tooLarge => "int too large to convert to float"
  | .notANumber => "Invalid delay: NaN (not a number)"

inductive Sleep where
  | elapsed
  | endless
  | refused (e : SleepError)
  deriving DecidableEq, Repr

/-- What becomes of each delay. -/
abbrev Clock := Json → Sleep

namespace Clock

/-- Integers from here on are rounded past the largest double. -/
def limit : Nat := Nat.pow 2 1024 - Nat.pow 2 970

/-- Zero and less is over at once. So is what is not a number, unless the loop refuses it: older
loops do not look. -/
def loop (refusesNaN : Bool) : Clock := fun delay =>
  match delay.number? with
  | none => .refused (.notOrdered delay.kindName)
  | some (.finite x) => if x.lt (.ofInt limit) then .elapsed else .refused .tooLarge
  | some (.infinite negative) => if negative then .elapsed else .endless
  | some .notANumber => if refusesNaN then .refused .notANumber else .elapsed

/-- Only a run that goes to sleep waits for anything. -/
def await (clock : Clock) (pacing : Pacing) : Event → Sleep
  | .slept m => clock (pacing.delay m)
  | _ => .elapsed

/-- The events up to the first delay that is not over some time, and what becomes of that one. -/
def through (clock : Clock) (pacing : Pacing) : List Event → List Event × Sleep
  | [] => ([], .elapsed)
  | e :: es =>
    match clock.await pacing e with
    | .elapsed =>
      let (later, sleep) := clock.through pacing es
      (e :: later, sleep)
    | sleep => ([e], sleep)

end Clock

end BlockGrid
