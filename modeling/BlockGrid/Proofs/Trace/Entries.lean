import BlockGrid.Proofs.Grid.Travel
import BlockGrid.Proofs.Trace.Session

/-!
# BlockGrid.Proofs.Trace.Entries

Traces as entries of a store and back.

* `Trace.Storable`  — a trace of the kind that runs leave: an id, packable states, a known or an
  open verdict, an outcome.
* `Trace.entry`     — what is stored of it.
* `Store.admission`     — why a storable trace cannot be stored: its texts and the compression.
* `entryOf_eq`      — so nothing else is looked at, and the entry is the one above.
* `read_of_find`    — what is read from that entry is the trace.
-/

namespace BlockGrid

/-- The characters of a text; of other values none. -/
def Json.text : Json → String
  | .str s => s
  | _ => ""

namespace Trace

structure Storable (t : Trace Actor) : Prop where
  challengeId : ∃ s, t.challengeId = .str s
  initial : ∀ a, t.initial = some a → Direction.isKnown a.direction = true
  states : ∀ a ∈ t.states, a.Packable
  success : t.success = .null ∨ ∃ b, t.success = .bool b
  outcome : ∃ s, s ≠ "" ∧ t.outcome = .str s

/-- The verdict as a number, below zero for none. -/
def successNumber (t : Trace Actor) : Int :=
  match t.success with
  | .bool true => 1
  | .bool false => 0
  | _ => -1

def entry (t : Trace Actor) : Entry where
  challengeId := t.challengeId.text
  outcome := t.outcome.text
  success := t.successNumber
  program := if t.program.isNull then none else some t.program
  initial := t.initial.map Actor.toJson
  columns := Packed.ofStates t.states

end Trace

namespace Store

variable {s : Store} {t : Trace Actor}

theorem label_str (text : String) :
    label (.str text) =
      if text.contains '\x00' then .error (.label .holdsZero) else .ok text := by
  show ((if text.contains '\x00' then .error .holdsZero else .ok () : Except LabelError Unit).mapError
    WriteError.label).map (fun _ => text) = _
  split <;> rfl

theorem label_of_plain {text : String} (h : '\x00' ∉ text.toList) :
    label (.str text) = .ok text := by
  rw [label_str, String.contains_char_eq]
  simp [h]

/-- What stands in the way of a storable trace. -/
def admission (s : Store) (t : Trace Actor) : Except WriteError Unit := do
  let _ ← label t.challengeId
  let _ ← label t.outcome
  unless t.states.isEmpty do
    s.options.compression.check.mapError .compression

theorem knownOutcome_str {text : String} (h : text ≠ "") : knownOutcome (.str text) = .str text := by
  have htruthy : (Json.str text).isTruthy = true := decide_eq_true h
  rw [knownOutcome, if_pos htruthy]

theorem successNumber_eq (h : t.success = .null ∨ ∃ b, t.success = .bool b) :
    successNumber t.success = .ok t.successNumber := by
  rw [Trace.successNumber]
  rcases h with h | ⟨b, h⟩
  · rw [h]; rfl
  · rw [h]; cases b <;> rfl

theorem label_successNumber (t : Trace Actor) : ∃ text, label (.int t.successNumber) = .ok text := by
  unfold Trace.successNumber
  split
  · exact ⟨_, rfl⟩
  · exact ⟨_, rfl⟩
  · exact ⟨_, rfl⟩

theorem entryOf_eq (h : t.Storable) :
    s.entryOf t.loose = (s.admission t).map fun _ => t.entry := by
  obtain ⟨text, hid⟩ := h.challengeId
  obtain ⟨outcome, hne, houtcome⟩ := h.outcome
  obtain ⟨shown, hsuccess⟩ := label_successNumber t
  have hinitial : (t.initial.map LooseActor.ofActor).map LooseActor.toJson =
      t.initial.map Actor.toJson := by
    rw [Option.map_map]
    exact congrArg (t.initial.map ·) (funext Actor.toJson_loose)
  have hcolumns : Packed.ofSnapshots (t.states.map Snapshot.ofActor) = .ok (.ofStates t.states) :=
    Packed.ofActors_eq_ok h.states
  have hempty : (t.states.map Snapshot.ofActor).isEmpty = t.states.isEmpty := by
    cases t.states <;> rfl
  simp only [entryOf, admission, Trace.loose, hid, houtcome, knownOutcome_str hne, label_str,
    successNumber_eq h.success, hcolumns, hempty, hinitial, Trace.entry, Json.text]
  by_cases hz : text.contains '\x00' = true
  · rw [if_pos hz]
    rfl
  rw [if_neg hz]
  by_cases hz' : outcome.contains '\x00' = true
  · rw [if_pos hz']
    rfl
  rw [if_neg hz']
  simp only [bind, Except.bind, hsuccess]
  cases t.states.isEmpty with
  | true => rfl
  | false => cases s.options.compression.check <;> rfl

theorem successOf_successNumber (h : t.success = .null ∨ ∃ b, t.success = .bool b) :
    successOf t.successNumber = t.success := by
  rw [Trace.successNumber]
  rcases h with h | ⟨b, h⟩
  · rw [h]; rfl
  · rw [h]; cases b <;> rfl

theorem readInitial_entry (h : t.Storable) : readInitial t.entry.initial = .ok t.initial := by
  show readInitial (t.initial.map Actor.toJson) = _
  cases hi : t.initial with
  | none => rfl
  | some a =>
    show ((Actor.ofJson a.toJson).map some).mapError ReadBackError.initial = _
    rw [Actor.ofJson_toJson (h.initial a hi)]
    rfl

theorem read_of_find (h : t.Storable) {name : String} (hfind : s.find name = .ok t.entry) :
    s.read name = .ok t := by
  have hstates : t.entry.columns.states = .ok t.states :=
    Packed.states_ofStates fun a ha => (h.states a ha).direction
  obtain ⟨text, hid⟩ := h.challengeId
  obtain ⟨outcome, -, houtcome⟩ := h.outcome
  have hprogram : t.entry.program.getD .null = t.program := by
    show (if t.program.isNull then none else some t.program).getD .null = _
    cases t.program <;> rfl
  have htrace : (⟨.str t.entry.challengeId, t.initial, t.states, successOf t.entry.success,
      .str t.entry.outcome, t.entry.program.getD .null⟩ : Trace Actor) = t := by
    rw [hprogram, show t.entry.success = t.successNumber from rfl,
      successOf_successNumber h.success, show t.entry.challengeId = t.challengeId.text from rfl,
      show t.entry.outcome = t.outcome.text from rfl, hid, houtcome, Json.text, Json.text, ← hid,
      ← houtcome]
  rw [read, hfind]
  show (do
    let initial ← readInitial t.entry.initial
    let states ← t.entry.columns.states.mapError .unpack
    pure (⟨.str t.entry.challengeId, initial, states, successOf t.entry.success,
      .str t.entry.outcome, t.entry.program.getD .null⟩ : Trace Actor)) = _
  rw [readInitial_entry h, hstates]
  exact congrArg Except.ok htrace

theorem trajectory_of_find {name : String} (hfind : s.find name = .ok t.entry) :
    s.trajectory name = .ok (t.states.map Actor.position) := by
  rw [trajectory, hfind]
  exact congrArg Except.ok (Packed.trajectory_ofStates t.states)

end Store

end BlockGrid
