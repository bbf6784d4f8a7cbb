import BlockGrid.Proofs.Run.Uninterrupted
import Mathlib.Data.List.Induction
import Mathlib.Logic.Function.Basic

/-!
# BlockGrid.Proofs.Run.Timeline

One interpreter from its first start on, whatever is done to it and in whatever order.

* `Act`      — starts, going on with a run, stops and seeds. A run that has called back goes on
  like one that sleeps, by `resume`; so anything may be done inside a callback, and runs may be
  resumed in any order.
* `Life`     — an accepted run from its beginning: where it will go on, if it is not over, whether
  a stop came while it was not over, and whether it came to its own end before.
* `Timeline` — the interpreter, the lives by number, and all that was shown, each event with the
  run or the refused start that it came from. The lives are only looked at; what happens is what
  `Interpreter.start`, `Job.advance`, `Interpreter.stop` and the seeds make happen.
* `Timeline.after` — the timeline of a history of acts.
-/

namespace BlockGrid

inductive Act where
  | start (t : Tree) (w : World) (initial : Initial)
  | resume (n : Nat)
  | stop
  | seed (state : Except StateError Actor)
  | reset (w : World)

/-- A start that was refused, by its place in the history, or an accepted run, by its number. -/
inductive Sender where
  | start (k : Nat)
  | run (n : Nat)
  deriving DecidableEq, Repr

structure Shown where
  sender : Sender
  event : Event
  deriving DecidableEq, Repr

def Signal.shownBy (s : Signal) (sender : Sender) : List Shown := s.events.map (.mk sender)

/-- What came from one sender, in order. -/
def shownOf (sender : Sender) (log : List Shown) : List Event :=
  log.filterMap fun x => if x.sender = sender then some x.event else none

theorem shownOf_append (sender : Sender) (log more : List Shown) :
    shownOf sender (log ++ more) = shownOf sender log ++ shownOf sender more :=
  List.filterMap_append ..

theorem shownOf_shownBy (s : Signal) (sender : Sender) :
    shownOf sender (s.shownBy sender) = s.events := by
  have hself : (fun x => if x.sender = sender then some x.event else none) ∘ Shown.mk sender =
      some := by
    funext e
    exact if_pos rfl
  rw [shownOf, Signal.shownBy, List.filterMap_map, hself, List.filterMap_some]

theorem shownOf_shownBy_ne {sender other : Sender} (h : other ≠ sender) (s : Signal) :
    shownOf sender (s.shownBy other) = [] := by
  refine List.filterMap_eq_nil_iff.mpr fun x hx => ?_
  obtain ⟨e, -, rfl⟩ := List.mem_map.mp hx
  exact if_neg h

structure Life where
  program : Program Tree
  world : World
  origin : Actor
  job : Option Job
  stopped : Bool
  reached : Bool

namespace Life

/-- An accepted run before its first piece, number `n`. -/
def new (n : Nat) (p : Program Tree) (w : World) (a : Actor) : Life :=
  ⟨p, w, a, some (Interpreter.first n p w a), false, false⟩

/-- A run has come to its own end when it goes on unstopped with nothing that can be done. -/
def pass (l : Life) (j : Job) (s : Signal) : Life :=
  { l with job := s.job?, reached := l.reached || (!l.stopped && j.isAtEnd) }

/-- A stop counts for every run that is not over. -/
def stop (l : Life) : Life := { l with stopped := l.stopped || l.job.isSome }

/-- All that the run shows when it is left alone. -/
def alone (l : Life) : List Event := Interpreter.alone l.program l.world l.origin

end Life

structure Timeline where
  interpreter : Interpreter
  acts : Nat
  lives : Nat → Option Life
  log : List Shown

namespace Timeline

def fresh : Timeline := ⟨.idle, 0, fun _ => none, []⟩

/-- What the run or the start has shown so far. -/
def shown (c : Timeline) (sender : Sender) : List Event := shownOf sender c.log

/-- The states that run `n` has called back. -/
def states (c : Timeline) (n : Nat) : List Actor := statesOf (c.shown (.run n))

/-- All verdicts called back, with their senders. -/
def verdicts (c : Timeline) : List (Sender × Bool) :=
  c.log.filterMap fun x => x.event.verdict?.map fun b => (x.sender, b)

/-- The run is neither over nor stopped. -/
def Running (c : Timeline) (n : Nat) : Prop :=
  ∃ l, c.lives n = some l ∧ l.job.isSome = true ∧ l.stopped = false

theorem Running.life {c : Timeline} {n : Nat} {l : Life} (h : c.Running n)
    (hl : c.lives n = some l) : l.job.isSome = true ∧ l.stopped = false := by
  obtain ⟨l', hl', hrunning⟩ := h
  rw [hl] at hl'
  cases hl'
  exact hrunning

theorem running_iff_any {c : Timeline} {n : Nat} :
    c.Running n ↔ (c.lives n).any (fun l => l.job.isSome && !l.stopped) = true := by
  simp [Running, Option.any_eq_true]

/-- Run `n` has come from `j` to what `r` says. -/
def settle (c : Timeline) (n : Nat) (l : Life) (j : Job) (r : Interpreter × List Log × Signal) :
    Timeline :=
  { c with
    interpreter := r.1
    lives := Function.update c.lives n (some (l.pass j r.2.2))
    log := c.log ++ r.2.2.shownBy (.run n) }

/-- Nothing happens to a run that is over. -/
def resume (c : Timeline) (n : Nat) : Timeline :=
  match c.lives n with
  | some l =>
    match l.job with
    | some j => c.settle n l j (j.advance c.interpreter)
    | none => c
  | none => c

/-- A start that ends in an error has done nothing. -/
def start (c : Timeline) (t : Tree) (w : World) (initial : Initial) : Timeline :=
  match c.interpreter.start t w initial with
  | .error _ => c
  | .ok r =>
    match c.interpreter.admission t w initial with
    | .ok (.ok (p, a)) =>
      let n := c.interpreter.accepted + 1
      c.settle n (.new n p w a) (Interpreter.first n p w a) r
    | _ => { c with interpreter := r.1, log := c.log ++ r.2.2.shownBy (.start c.acts) }

def carry (c : Timeline) : Act → Timeline
  | .start t w initial => c.start t w initial
  | .resume n => c.resume n
  | .stop => { c with interpreter := c.interpreter.stop, lives := fun n => (c.lives n).map .stop }
  | .seed (.ok a) => { c with interpreter := c.interpreter.seed a }
  | .seed (.error _) => c
  | .reset w => { c with interpreter := c.interpreter.reset w }

def act (c : Timeline) (x : Act) : Timeline := { c.carry x with acts := c.acts + 1 }

def after (h : List Act) : Timeline := h.foldl act fresh

theorem after_snoc (h : List Act) (x : Act) : after (h ++ [x]) = (after h).act x := by
  simp only [after, List.foldl_append, List.foldl_cons, List.foldl_nil]

theorem after_append (h g : List Act) : after (h ++ g) = g.foldl act (after h) :=
  List.foldl_append ..

@[simp] theorem interpreter_act (c : Timeline) (x : Act) :
    (c.act x).interpreter = (c.carry x).interpreter := rfl

@[simp] theorem lives_act (c : Timeline) (x : Act) : (c.act x).lives = (c.carry x).lives := rfl

@[simp] theorem log_act (c : Timeline) (x : Act) : (c.act x).log = (c.carry x).log := rfl

@[simp] theorem shown_act (c : Timeline) (x : Act) (sender : Sender) :
    (c.act x).shown sender = (c.carry x).shown sender := rfl

theorem acts_after (h : List Act) : (after h).acts = h.length := by
  induction h using List.reverseRecOn with
  | nil => rfl
  | append_singleton h x ih => rw [after_snoc, List.length_append, ← ih]; rfl

/-! ## One act -/

theorem lives_stop {c : Timeline} {n : Nat} {l : Life} (h : c.lives n = some l) :
    (c.carry .stop).lives n = some l.stop := by
  show (c.lives n).map Life.stop = _
  rw [h]; rfl

theorem resume_of_none {c : Timeline} {n : Nat} (h : c.lives n = none) : c.resume n = c := by
  simp only [resume, h]

theorem resume_of_over {c : Timeline} {n : Nat} {l : Life} (h : c.lives n = some l)
    (hj : l.job = none) : c.resume n = c := by
  simp only [resume, h, hj]

theorem resume_of_job {c : Timeline} {n : Nat} {l : Life} {j : Job} (h : c.lives n = some l)
    (hj : l.job = some j) : c.resume n = c.settle n l j (j.advance c.interpreter) := by
  simp only [resume, h, hj]

/-- An accepted run before its first piece. -/
def enter (c : Timeline) (p : Program Tree) (w : World) (a : Actor) : Timeline :=
  { c with
    interpreter := c.interpreter.entered a
    lives := Function.update c.lives (c.interpreter.accepted + 1)
      (some (.new (c.interpreter.accepted + 1) p w a)) }

section Enter

variable {c : Timeline} {p : Program Tree} {w : World} {a : Actor}

theorem lives_enter_self :
    (c.enter p w a).lives (c.interpreter.accepted + 1) =
      some (.new (c.interpreter.accepted + 1) p w a) := Function.update_self ..

theorem lives_enter_ne {m : Nat} (h : m ≠ c.interpreter.accepted + 1) :
    (c.enter p w a).lives m = c.lives m := Function.update_of_ne h ..

end Enter

/-- A start that is accepted makes the first piece of its run at once. -/
theorem start_of_accepted {c : Timeline} {t : Tree} {w : World} {initial : Initial}
    {p : Program Tree} {a : Actor} (h : c.interpreter.admission t w initial = .ok (.ok (p, a))) :
    c.start t w initial = (c.enter p w a).resume (c.interpreter.accepted + 1) := by
  rw [resume_of_job lives_enter_self rfl]
  simp only [start, Interpreter.start_eq_admission, h, settle, enter, Function.update_idem]
  rfl

theorem start_of_refused {c : Timeline} {t : Tree} {w : World} {initial : Initial} {r : Refusal}
    (h : c.interpreter.admission t w initial = .ok (.error r)) :
    c.start t w initial =
      { c with
        interpreter := c.interpreter.concluded r.outcome
        log := c.log ++ [⟨.start c.acts, .reported false⟩] } := by
  simp only [start, Interpreter.start_eq_admission, h]
  rfl

theorem start_of_error {c : Timeline} {t : Tree} {w : World} {initial : Initial} {e : StartError}
    (h : c.interpreter.admission t w initial = .error e) : c.start t w initial = c := by
  simp only [start, Interpreter.start_eq_admission, h]

/-- What a start comes to: an error, a refusal, or a new run. -/
theorem start_cases (c : Timeline) (t : Tree) (w : World) (initial : Initial) :
    (∃ e, c.interpreter.admission t w initial = .error e ∧ c.start t w initial = c) ∨
    (∃ r, c.interpreter.admission t w initial = .ok (.error r) ∧
      c.start t w initial =
        { c with
          interpreter := c.interpreter.concluded r.outcome
          log := c.log ++ [⟨.start c.acts, .reported false⟩] }) ∨
    (∃ p a, c.interpreter.admission t w initial = .ok (.ok (p, a)) ∧
      c.start t w initial = (c.enter p w a).resume (c.interpreter.accepted + 1)) := by
  cases h : c.interpreter.admission t w initial with
  | error e => exact .inl ⟨e, rfl, start_of_error h⟩
  | ok answer =>
    cases answer with
    | error r => exact .inr (.inl ⟨r, rfl, start_of_refused h⟩)
    | ok begin => exact .inr (.inr ⟨begin.1, begin.2, rfl, start_of_accepted h⟩)

end Timeline

end BlockGrid
