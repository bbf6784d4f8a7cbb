import BlockGrid.Trace.Recorder

/-!
# BlockGrid.Proofs.Trace.Attribution

A recorder in use: whatever is called back, and whenever traces begin and end, every state belongs
to one trace.

* `Recorder.Use`   — one thing done to a recorder; `perform` and `after` do one and several.
* `Shelf`          — a recorder that keeps all traces in one list and knows the open one by its
  place. `shelf_after`: it goes the same way, so a trace that is open is the last of the list.
* `recorded_after`, `passedOn_after`, `length_traces_after`, `closed_after` — each follows from what
  a single use does, by induction on the uses.
* `every_state_in_one_trace` — all of it, for every new recorder and all uses.
-/

namespace BlockGrid

namespace Received

def state? : Received → Option Actor
  | .state a => some a
  | .verdict _ => none

end Received

namespace Recorder

/-- What is done to a recorder. -/
inductive Use where
  | begin (challengeId : Json) (initial : Option Actor) (program : Json)
  | receive (x : Received)
  | finish (outcome : Json)

namespace Use

def received? : Use → Option Received
  | .receive x => some x
  | _ => none

def isBegin : Use → Bool
  | .begin _ _ _ => true
  | _ => false

/-- A trace is open after a use. -/
def opens : Use → Bool
  | .finish _ => false
  | _ => true

end Use

/-- All that is called back, in order. -/
def receivedIn (us : List Use) : List Received := us.filterMap Use.received?

/-- The callbacks that come while no trace is open; `isOpen` says whether one is to begin with. -/
def unattended (isOpen : Bool) : List Use → Nat
  | [] => 0
  | u :: us => (if !isOpen && u.received?.isSome then 1 else 0) + unattended u.opens us

/-- What is passed on, and the recorder after a use. -/
def perform (r : Recorder) : Use → List Received × Recorder
  | .begin challengeId initial program => ([], r.begin challengeId initial program)
  | .receive x => r.receive x
  | .finish outcome => ([], (r.finish outcome).2)

/-- All that is passed on, and the recorder after several uses. -/
def after (r : Recorder) : List Use → List Received × Recorder
  | [] => ([], r)
  | u :: us =>
    let (now, next) := r.perform u
    let (later, last) := next.after us
    (now ++ later, last)

end Recorder

/-! ## One list for all traces -/

/-- All traces in one list, and the place of the open one. -/
structure Shelf where
  traces : List (Trace Actor)
  current : Option Nat

namespace Shelf

def empty : Shelf := ⟨[], none⟩

def begin (s : Shelf) (challengeId : Json) (initial : Option Actor) (program : Json) : Shelf :=
  ⟨s.traces ++ [.new challengeId initial program], some s.traces.length⟩

/-- A trace is begun if none is open. -/
def ensure (s : Shelf) : Shelf :=
  match s.current with
  | some _ => s
  | none => s.begin Recorder.unknownId none .null

/-- The open trace is changed where it stands. -/
def alter (s : Shelf) (f : Trace Actor → Trace Actor) : Shelf :=
  match s.current with
  | some k => { s with traces := s.traces.modify k f }
  | none => s

def perform (s : Shelf) : Recorder.Use → Shelf
  | .begin challengeId initial program => s.begin challengeId initial program
  | .receive x => s.ensure.alter fun t => Recorder.Received.addTo t x
  | .finish outcome => ⟨(s.alter fun t => { t with outcome }).traces, none⟩

def after (s : Shelf) (us : List Recorder.Use) : Shelf := us.foldl perform s

/-- The traces of a recorder stand in the list, and an open one is the last of it. -/
structure Holds (s : Shelf) (r : Recorder) : Prop where
  traces : s.traces = r.traces
  current : (s.current = none ∧ r.current = none) ∨
    ∃ k t, s.current = some k ∧ r.current = some t ∧ s.traces[k]? = some t ∧
      k + 1 = s.traces.length

theorem modify_last {α : Type} (xs : List α) (x : α) (f : α → α) :
    (xs ++ [x]).modify xs.length f = xs ++ [f x] := by
  induction xs with
  | nil => rfl
  | cons y xs ih => exact congrArg (y :: ·) ih

theorem alter_last (ts : List (Trace Actor)) (t : Trace Actor) (f : Trace Actor → Trace Actor) :
    alter ⟨ts ++ [t], some ts.length⟩ f = ⟨ts ++ [f t], some ts.length⟩ := by
  rw [alter]
  exact congrArg (Shelf.mk · (some ts.length)) (modify_last ts t f)

end Shelf

namespace Recorder

variable {r : Recorder}

/-- The open trace comes behind those that are over. -/
def shelf (r : Recorder) : Shelf := ⟨r.traces, r.current.map fun _ => r.closed.length⟩

theorem traces_of_closed (h : r.current = none) : r.traces = r.closed := by
  rw [traces, h]
  exact List.append_nil _

theorem traces_of_open {t : Trace Actor} (h : r.current = some t) :
    r.traces = r.closed ++ [t] := by
  rw [traces, h]
  rfl

theorem shelf_of_closed (h : r.current = none) : r.shelf = ⟨r.closed, none⟩ := by
  rw [shelf, traces_of_closed h, h]
  rfl

theorem shelf_of_open {t : Trace Actor} (h : r.current = some t) :
    r.shelf = ⟨r.closed ++ [t], some r.closed.length⟩ := by
  rw [shelf, traces_of_open h, h]
  rfl

/-- What one use can do: what is passed on, and the recorder after it. -/
inductive Step (r : Recorder) : Use → List Received → Recorder → Prop where
  | begins (challengeId : Json) (initial : Option Actor) (program : Json) :
      Step r (.begin challengeId initial program) []
        { r with closed := r.traces, current := some (.new challengeId initial program) }
  | takes {t : Trace Actor} (x : Received) : r.current = some t →
      Step r (.receive x) (if r.forwards x then [x] else [])
        { r with current := some (Received.addTo t x) }
  | opens (x : Received) : r.current = none →
      Step r (.receive x) (if r.forwards x then [x] else [])
        { r with
          closed := r.traces
          current := some (Received.addTo (.new unknownId none .null) x) }
  | finishes {t : Trace Actor} (outcome : Json) : r.current = some t →
      Step r (.finish outcome) []
        { r with closed := r.closed ++ [{ t with outcome }], current := none }
  | rests (outcome : Json) : r.current = none → Step r (.finish outcome) [] r

theorem step_of_perform (r : Recorder) (u : Use) :
    ∃ out next, r.perform u = (out, next) ∧ Step r u out next := by
  cases u with
  | begin challengeId initial program => exact ⟨_, _, rfl, .begins ..⟩
  | receive x =>
    cases h : r.current with
    | none => exact ⟨_, _, by simp only [perform, receive, target, h]; rfl, .opens x h⟩
    | some t => exact ⟨_, _, by simp only [perform, receive, target, h], .takes x h⟩
  | finish outcome =>
    cases h : r.current with
    | none => exact ⟨_, _, by simp only [perform, finish, h], .rests outcome h⟩
    | some t => exact ⟨_, _, by simp only [perform, finish, h], .finishes outcome h⟩

theorem shelf_perform (r : Recorder) (u : Use) : (r.perform u).2.shelf = r.shelf.perform u := by
  obtain ⟨out, next, hperform, hstep⟩ := step_of_perform r u
  rw [hperform]
  cases hstep with
  | begins => rfl
  | takes x h =>
    show shelf _ = r.shelf.ensure.alter _
    rw [shelf_of_open h, Shelf.ensure, Shelf.alter_last]
    rfl
  | opens x h =>
    show shelf _ = r.shelf.ensure.alter _
    rw [shelf_of_closed h, Shelf.ensure, Shelf.begin, Shelf.alter_last, shelf_of_open rfl,
      traces_of_closed h]
  | finishes outcome h =>
    rw [shelf_of_open h, Shelf.perform, Shelf.alter_last, shelf_of_closed rfl]
  | rests outcome h =>
    rw [shelf_of_closed h]
    rfl

theorem shelf_after (r : Recorder) (us : List Use) : (r.after us).2.shelf = r.shelf.after us := by
  induction us generalizing r with
  | nil => rfl
  | cons u us ih => exact (ih (r.perform u).2).trans (by rw [shelf_perform]; rfl)

theorem holds_shelf (r : Recorder) : r.shelf.Holds r where
  traces := rfl
  current := by
    cases h : r.current with
    | none =>
      rw [shelf_of_closed h]
      exact .inl ⟨rfl, rfl⟩
    | some t =>
      rw [shelf_of_open h]
      refine .inr ⟨_, t, rfl, rfl, List.getElem?_concat_length, ?_⟩
      rw [List.length_append, List.length_singleton]

/-! ## What a use adds -/

theorem forwards_perform (r : Recorder) (u : Use) : (r.perform u).2.forwards = r.forwards := by
  obtain ⟨out, next, hperform, hstep⟩ := step_of_perform r u
  rw [hperform]
  cases hstep <;> rfl

theorem passedOn_perform (r : Recorder) (u : Use) :
    (r.perform u).1 = (receivedIn [u]).filter r.forwards := by
  obtain ⟨out, next, hperform, hstep⟩ := step_of_perform r u
  rw [hperform]
  cases hstep with
  | takes x h => cases hx : r.forwards x <;> simp [receivedIn, Use.received?, hx]
  | opens x h => cases hx : r.forwards x <;> simp [receivedIn, Use.received?, hx]
  | _ => rfl

/-- A state goes to one trace, behind all that were recorded before. -/
theorem recorded_perform (r : Recorder) (u : Use) :
    (r.perform u).2.traces.flatMap Trace.states =
      r.traces.flatMap Trace.states ++ (receivedIn [u]).filterMap Received.state? := by
  obtain ⟨out, next, hperform, hstep⟩ := step_of_perform r u
  rw [hperform]
  cases hstep with
  | begins => simp [traces, Trace.new, receivedIn, Use.received?]
  | takes x h =>
    rw [traces_of_open h, traces_of_open rfl]
    cases x <;> simp [Received.addTo, receivedIn, Use.received?, Received.state?]
  | opens x h =>
    rw [traces_of_open rfl]
    cases x <;> simp [Received.addTo, Trace.new, receivedIn, Use.received?, Received.state?]
  | finishes outcome h =>
    rw [traces_of_open h, traces_of_closed rfl]
    simp [receivedIn, Use.received?]
  | rests outcome h => simp [receivedIn, Use.received?]

theorem isOpen_perform (r : Recorder) (u : Use) : (r.perform u).2.current.isSome = u.opens := by
  obtain ⟨out, next, hperform, hstep⟩ := step_of_perform r u
  rw [hperform]
  cases hstep with
  | rests outcome h =>
    rw [h]
    rfl
  | _ => rfl

theorem length_traces_perform (r : Recorder) (u : Use) :
    (r.perform u).2.traces.length = r.traces.length + [u].countP Use.isBegin +
      unattended r.current.isSome [u] := by
  obtain ⟨out, next, hperform, hstep⟩ := step_of_perform r u
  rw [hperform]
  cases hstep with
  | begins =>
    rw [traces_of_open rfl]
    simp [unattended, Use.received?, Use.isBegin]
  | takes x h =>
    rw [traces_of_open h, traces_of_open rfl, h]
    simp [unattended, Use.isBegin]
  | opens x h =>
    rw [traces_of_open rfl, h]
    simp [unattended, Use.received?, Use.isBegin]
  | finishes outcome h =>
    rw [traces_of_open h, traces_of_closed rfl]
    simp [unattended, Use.received?, Use.isBegin]
  | rests outcome h => simp [unattended, Use.received?, Use.isBegin]

theorem closed_perform (r : Recorder) (u : Use) : r.closed <+: (r.perform u).2.closed := by
  obtain ⟨out, next, hperform, hstep⟩ := step_of_perform r u
  rw [hperform]
  cases hstep with
  | begins => exact List.prefix_append ..
  | opens => exact List.prefix_append ..
  | finishes => exact List.prefix_append ..
  | _ => exact List.prefix_rfl

/-! ## What several uses add -/

theorem receivedIn_cons (u : Use) (us : List Use) :
    receivedIn (u :: us) = receivedIn [u] ++ receivedIn us := by
  rw [receivedIn, receivedIn, receivedIn, ← List.filterMap_append]
  rfl

theorem unattended_cons (isOpen : Bool) (u : Use) (us : List Use) :
    unattended isOpen (u :: us) = unattended isOpen [u] + unattended u.opens us := rfl

theorem passedOn_after (r : Recorder) (us : List Use) :
    (r.after us).1 = (receivedIn us).filter r.forwards := by
  induction us generalizing r with
  | nil => rfl
  | cons u us ih =>
    show (r.perform u).1 ++ ((r.perform u).2.after us).1 = _
    rw [ih, forwards_perform, passedOn_perform, ← List.filter_append, ← receivedIn_cons]

theorem recorded_after (r : Recorder) (us : List Use) :
    (r.after us).2.traces.flatMap Trace.states =
      r.traces.flatMap Trace.states ++ (receivedIn us).filterMap Received.state? := by
  induction us generalizing r with
  | nil => exact (List.append_nil _).symm
  | cons u us ih =>
    show ((r.perform u).2.after us).2.traces.flatMap Trace.states = _
    rw [ih, recorded_perform, List.append_assoc, ← List.filterMap_append, ← receivedIn_cons]

theorem length_traces_after (r : Recorder) (us : List Use) :
    (r.after us).2.traces.length =
      r.traces.length + us.countP Use.isBegin + unattended r.current.isSome us := by
  induction us generalizing r with
  | nil => rfl
  | cons u us ih =>
    have hcount : ([u] ++ us).countP Use.isBegin = [u].countP Use.isBegin + us.countP Use.isBegin :=
      List.countP_append
    rw [List.singleton_append] at hcount
    have hnext : ((r.perform u).2.after us).2.traces.length = _ := ih _
    rw [length_traces_perform, isOpen_perform] at hnext
    show ((r.perform u).2.after us).2.traces.length = _
    rw [hnext, hcount, unattended_cons _ u us]
    omega

/-- Two traces open themselves, and a beginning leaves an open one behind. -/
example : ((new false false).after
    [.receive (.verdict .null), .begin .null none .null, .begin .null none .null, .finish .null,
      .receive (.state ⟨0, 0, "up", [], [], 0⟩)]).2.traces.length = 4 := rfl

/-- The last use tells whether a trace is open. -/
theorem isOpen_after (r : Recorder) (us : List Use) :
    (r.after us).2.current.isSome = (us.getLast?.map Use.opens).getD r.current.isSome := by
  induction us generalizing r with
  | nil => rfl
  | cons u us ih =>
    show ((r.perform u).2.after us).2.current.isSome = _
    rw [ih, isOpen_perform, List.getLast?_cons]
    cases us.getLast? <;> rfl

theorem closed_after (r : Recorder) (us : List Use) : r.closed <+: (r.after us).2.closed := by
  induction us generalizing r with
  | nil => exact List.prefix_rfl
  | cons u us ih => exact (closed_perform r u).trans (ih _)

/-- What is no longer open stays as it is. -/
theorem getElem?_traces_after {k : Nat} {t : Trace Actor} (us : List Use)
    (hk : r.traces[k]? = some t) (hclosed : r.current = none ∨ k + 1 < r.traces.length) :
    (r.after us).2.traces[k]? = some t := by
  have hmem : r.closed[k]? = some t := by
    cases h : r.current with
    | none => rwa [traces_of_closed h] at hk
    | some s =>
      have hlt := hclosed.resolve_left (by simp [h])
      rw [traces_of_open h, List.length_append, List.length_singleton,
        Nat.add_lt_add_iff_right] at hlt
      rwa [traces_of_open h, List.getElem?_append_left hlt] at hk
  have hstays : r.closed <+: (r.after us).2.traces :=
    (closed_after r us).trans (List.prefix_append ..)
  obtain ⟨hlt, rfl⟩ := List.getElem?_eq_some_iff.mp hmem
  rw [hstays.getElem hlt]
  exact List.getElem?_eq_getElem _

/-- However a new recorder is used, every state that it receives is recorded in one trace. States and
verdicts are passed on as they come, if the one and the other are. -/
theorem every_state_in_one_trace (forwardsStates forwardsVerdicts : Bool) (us : List Use) :
    ∃ passedOn r, (new forwardsStates forwardsVerdicts).after us = (passedOn, r) ∧
      (Shelf.empty.after us).Holds r ∧
      r.traces.flatMap Trace.states = (receivedIn us).filterMap Received.state? ∧
      passedOn = ((receivedIn us).filter fun x =>
        if x.state?.isSome then forwardsStates else forwardsVerdicts) ∧
      r.traces.length = us.countP Use.isBegin + unattended false us ∧
      r.current.isSome = (us.getLast?.map Use.opens).getD false ∧
      ∀ k t, r.traces[k]? = some t → (r.current = none ∨ k + 1 < r.traces.length) →
        ∀ later, (r.after later).2.traces[k]? = some t := by
  refine ⟨_, _, rfl, ?_, recorded_after _ us, ?_, ?_, isOpen_after _ us,
    fun k t hk hclosed later => getElem?_traces_after later hk hclosed⟩
  · have hshelf := shelf_after (new forwardsStates forwardsVerdicts) us
    exact hshelf ▸ holds_shelf _
  · rw [passedOn_after]
    refine List.filter_congr fun x _ => ?_
    cases x <;> rfl
  · have hlength := length_traces_after (new forwardsStates forwardsVerdicts) us
    rwa [show (new forwardsStates forwardsVerdicts).traces.length = 0 from rfl, Nat.zero_add]
      at hlength

end Recorder

end BlockGrid
