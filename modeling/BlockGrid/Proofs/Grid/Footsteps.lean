import BlockGrid.Proofs.Grid.Path
import Mathlib.Data.List.Induction

/-!
# BlockGrid.Proofs.Grid.Footsteps

What a clear path leaves behind: the cells that the head went through and what it gathered there.

* `legal_cases`    — all that a legal motion can be: a quarter turn, or a step onto an open cell.
* `World.entered`  — the cells that the head enters, one for each unit step.
* `World.quitted`  — the cells that it leaves, one for each unit step.
* `World.gathered` — the collectibles that the motions bring in.
* `clears_induction` — what holds before the first motion and is kept by each legal one holds at the
  end of every clear path; `arrival_snoc`, `entered_snoc` and `gathered_snoc` say what the last
  motion adds.
-/

namespace BlockGrid

namespace World

variable {w : World} {a b : Actor} {m : Motion} {ms ns : List Motion} {c : Cell} {r : StepResult}

/-! ## One motion -/

/-- A quarter turn is always legal and gathers nothing. -/
def turnedTo (a : Actor) (d : Direction) : StepResult :=
  ⟨{ a with direction := d.name }, true, none⟩

@[simp] theorem position_turnedTo (a : Actor) (d : Direction) :
    (turnedTo a d).actor.position = a.position := rfl
@[simp] theorem body_turnedTo (a : Actor) (d : Direction) :
    (turnedTo a d).actor.body = a.body := rfl
@[simp] theorem collected_turnedTo (a : Actor) (d : Direction) :
    (turnedTo a d).actor.collected = a.collected := rfl
@[simp] theorem stepCount_turnedTo (a : Actor) (d : Direction) :
    (turnedTo a d).actor.stepCount = a.stepCount := rfl
@[simp] theorem turnedTo_collected (a : Actor) (d : Direction) :
    (turnedTo a d).collected = none := rfl

theorem legal_cases (h : w.step a m = .ok r) (hl : r.legal = true) :
    ∃ d, Direction.ofName? a.direction = some d ∧
      ((∃ way, m = .turn way ∧ r = turnedTo a (d.turned way)) ∨
        (m = .step ∧ w.isOpen (d.ahead a.position) = true ∧
          r = w.enter a (d.ahead a.position))) := by
  cases hd : Direction.ofName? a.direction with
  | none => cases m <;> simp [step, turnName, hd, Except.map] at h
  | some d =>
    refine ⟨d, rfl, ?_⟩
    cases m with
    | turn way =>
      simp only [step, turnName, hd, Except.map] at h
      cases h
      exact .inl ⟨way, rfl, rfl⟩
    | step =>
      simp only [step, hd, advance] at h
      by_cases ho : w.isOpen (d.ahead a.position) = true
      · rw [if_pos ho] at h
        cases h
        exact .inr ⟨rfl, ho, rfl⟩
      · rw [if_neg ho] at h
        cases h
        cases hl

theorem next?_of_legal (h : w.step a m = .ok r) (hl : r.legal = true) :
    w.next? a m = some r.actor := by
  simp [next?, h, hl]

theorem next?_eq_some_iff :
    w.next? a m = some b ↔ ∃ r, w.step a m = .ok r ∧ r.legal = true ∧ r.actor = b := by
  constructor
  · intro h
    unfold next? at h
    cases hs : w.step a m with
    | error e => rw [hs] at h; cases h
    | ok r =>
      cases hl : r.legal with
      | false => simp [hs, hl] at h
      | true => exact ⟨r, rfl, hl, by simpa [hs, hl] using h⟩
  · rintro ⟨r, hs, hl, rfl⟩
    exact next?_of_legal hs hl

theorem stepCount_enter (w : World) (a : Actor) (c : Cell) :
    (w.enter a c).actor.stepCount = a.stepCount + 1 := by
  unfold enter
  split
  · split <;> rfl
  · rfl

/-- A collectible is gathered when its cell is entered, unless it is held already. -/
theorem enter_collected_eq_some {d : Cell} :
    (w.enter a c).collected = some d ↔ c = d ∧ d ∈ w.collectibles ∧ d ∉ a.collected := by
  unfold enter grows
  by_cases hw : w.collectibles = []
  · simp [hw]
  · by_cases hc : c ∈ w.collectibles <;> by_cases ha : c ∈ a.collected <;>
      by_cases hd : c = d <;> simp_all

theorem collected_enter (w : World) (a : Actor) (c : Cell) :
    (w.enter a c).actor.collected = a.collected ++ (w.enter a c).collected.toList := by
  unfold enter
  split
  · split <;> simp
  · simp

theorem follow_append_vacated (head : Cell) (body : List Cell) :
    follow head body ++ [vacated head body] = head :: body := by
  cases hb : body with
  | nil => rfl
  | cons d ds =>
    have hne : d :: ds ≠ [] := List.cons_ne_nil d ds
    have hv : vacated head (d :: ds) = (d :: ds).getLast hne := by
      rw [vacated, List.getLast?_eq_some_getLast hne]
      rfl
    rw [hv]
    show head :: ((d :: ds).dropLast ++ [(d :: ds).getLast hne]) = head :: d :: ds
    rw [List.dropLast_concat_getLast hne]

theorem follow_eq_take (head : Cell) (body : List Cell) :
    follow head body = (head :: body).take body.length := by
  have hlen : (follow head body).length = body.length := by
    have := congrArg List.length (follow_append_vacated head body)
    simpa using this
  rw [← follow_append_vacated head body, ← hlen, List.take_left]

/-- The trail is cut from the cell just left and the old trail: as long as before, and one segment
longer when something is gathered. -/
theorem body_enter (hw : w.collectibles ≠ []) (a : Actor) (c : Cell) :
    (w.enter a c).actor.body =
      (a.position :: a.body).take (a.body.length + (w.enter a c).collected.toList.length) := by
  have hg : w.grows = true := by
    unfold grows
    cases hc : w.collectibles with
    | nil => exact absurd hc hw
    | cons d ds => rfl
  by_cases hf : (w.collectibles.contains c && !a.collected.contains c) = true
  · simp only [enter, hg, hf, if_true, Option.toList_some, List.length_singleton]
    rw [follow_append_vacated, ← List.length_cons, List.take_length]
  · simp only [enter, hg, hf, if_true, Bool.false_eq_true, if_false, Option.toList_none,
      List.length_nil, Nat.add_zero]
    exact follow_eq_take a.position a.body

theorem enter_of_no_collectibles (hw : w.collectibles = []) (a : Actor) (c : Cell) :
    (w.enter a c).actor.body = a.body ∧ (w.enter a c).actor.collected = a.collected := by
  simp [enter, grows, hw]

/-! ## Along a path -/

/-- What every motion that is made keeps holds of all states on a path. -/
theorem forall_path {P : Actor → Prop}
    (hstep : ∀ {a b : Actor} {m : Motion}, P a → w.next? a m = some b → P b) :
    ∀ {a : Actor}, P a → ∀ ms, ∀ b ∈ w.path a ms, P b := by
  intro a ha ms
  induction ms generalizing a with
  | nil => intro b hb; cases hb
  | cons m ms ih =>
    intro b hb
    cases hn : w.next? a m with
    | none => rw [path_of_blocked hn] at hb; cases hb
    | some s =>
      have hs := hstep ha hn
      rw [path_of_next? hn] at hb
      rcases List.mem_cons.mp hb with rfl | hb
      · exact hs
      · exact ih hs b hb

/-- After each unit step, the cell that the head is on. -/
def entered (w : World) : Actor → List Motion → List Cell
  | _, [] => []
  | a, m :: ms =>
    match w.next? a m with
    | some b => (if m = .step then [b.position] else []) ++ w.entered b ms
    | none => []

/-- Before each unit step, the cell that the head is on. -/
def quitted (w : World) (a : Actor) (ms : List Motion) : List Cell :=
  (a.position :: w.entered a ms).dropLast

def gathered (w : World) : Actor → List Motion → List Cell
  | _, [] => []
  | a, m :: ms =>
    match w.step a m with
    | .ok r => if r.legal then r.collected.toList ++ w.gathered r.actor ms else []
    | .error _ => []

theorem arrival_cons (h : w.next? a m = some b) (ms : List Motion) :
    w.arrival a (m :: ms) = w.arrival b ms := by
  rw [arrival, path_of_next? h, List.getLastD_cons]
  rfl

theorem clears_append :
    w.clears a (ms ++ ns) = (w.clears a ms && w.clears (w.arrival a ms) ns) := by
  induction ms generalizing a with
  | nil => rfl
  | cons m ms ih =>
    cases hn : w.next? a m with
    | none => simp [clears, hn]
    | some b => simp [clears, hn, ih, arrival_cons hn]

theorem arrival_append (h : w.clears a ms = true) (ns : List Motion) :
    w.arrival a (ms ++ ns) = w.arrival (w.arrival a ms) ns := by
  induction ms generalizing a with
  | nil => rfl
  | cons m ms ih =>
    cases hn : w.next? a m with
    | none => simp [clears, hn] at h
    | some b =>
      simp only [clears, hn] at h
      rw [List.cons_append, arrival_cons hn, arrival_cons hn, ih h]

theorem entered_cons (h : w.next? a m = some b) (ms : List Motion) :
    w.entered a (m :: ms) = (if m = .step then [b.position] else []) ++ w.entered b ms := by
  simp only [entered, h]

theorem entered_append (h : w.clears a ms = true) (ns : List Motion) :
    w.entered a (ms ++ ns) = w.entered a ms ++ w.entered (w.arrival a ms) ns := by
  induction ms generalizing a with
  | nil => rfl
  | cons m ms ih =>
    cases hn : w.next? a m with
    | none => simp [clears, hn] at h
    | some b =>
      simp only [clears, hn] at h
      rw [List.cons_append, entered_cons hn, entered_cons hn, arrival_cons hn, ih h,
        List.append_assoc]

theorem gathered_append (h : w.clears a ms = true) (ns : List Motion) :
    w.gathered a (ms ++ ns) = w.gathered a ms ++ w.gathered (w.arrival a ms) ns := by
  induction ms generalizing a with
  | nil => rfl
  | cons m ms ih =>
    cases hn : w.next? a m with
    | none => simp [clears, hn] at h
    | some b =>
      simp only [clears, hn] at h
      obtain ⟨r, hs, hl, rfl⟩ := next?_eq_some_iff.mp hn
      simp [gathered, hs, hl, arrival_cons hn, ih h]

/-- The last motion of a clear path. -/
structure LastMotion (w : World) (a : Actor) (ms : List Motion) (m : Motion) (r : StepResult) :
    Prop where
  clears : w.clears a ms = true
  step : w.step (w.arrival a ms) m = .ok r
  legal : r.legal = true

theorem clears_snoc_iff : w.clears a (ms ++ [m]) = true ↔ ∃ r, LastMotion w a ms m r := by
  rw [clears_append, Bool.and_eq_true]
  constructor
  · rintro ⟨hc, hm⟩
    cases hn : w.next? (w.arrival a ms) m with
    | none => simp [clears, hn] at hm
    | some b =>
      obtain ⟨r, hs, hl, -⟩ := next?_eq_some_iff.mp hn
      exact ⟨r, hc, hs, hl⟩
  · rintro ⟨r, hc, hs, hl⟩
    exact ⟨hc, by simp [clears, next?_of_legal hs hl]⟩

namespace LastMotion

theorem arrival_snoc (h : LastMotion w a ms m r) : w.arrival a (ms ++ [m]) = r.actor := by
  rw [arrival_append h.clears, arrival_cons (next?_of_legal h.step h.legal)]
  rfl

theorem entered_snoc (h : LastMotion w a ms m r) :
    w.entered a (ms ++ [m]) = w.entered a ms ++ if m = .step then [r.actor.position] else [] := by
  rw [entered_append h.clears, entered_cons (next?_of_legal h.step h.legal)]
  simp [entered]

theorem gathered_snoc (h : LastMotion w a ms m r) :
    w.gathered a (ms ++ [m]) = w.gathered a ms ++ r.collected.toList := by
  rw [gathered_append h.clears]
  simp [gathered, h.step, h.legal]

end LastMotion

/-- What holds at the beginning and is kept by every legal motion holds after every clear path. -/
theorem clears_induction {motive : List Motion → Prop} (nil : motive [])
    (snoc : ∀ ms m r, LastMotion w a ms m r → motive ms → motive (ms ++ [m])) :
    ∀ ms, w.clears a ms = true → motive ms := by
  intro ms
  induction ms using List.reverseRecOn with
  | nil => intro _; exact nil
  | append_singleton ms m ih =>
    intro h
    obtain ⟨r, hlast⟩ := clears_snoc_iff.mp h
    exact snoc ms m r hlast (ih hlast.clears)

end World

end BlockGrid
