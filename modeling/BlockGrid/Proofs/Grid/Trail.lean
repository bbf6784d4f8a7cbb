import BlockGrid.Proofs.Grid.Footsteps
import Mathlib.Data.List.Chain

/-!
# BlockGrid.Proofs.Grid.Trail

The trail is a window on the way of the head. Segment by segment it is moved up, cut and now and
then lengthened; taken together it always holds the cells that the head left last.

* `body_arrival`  — the trail after a clear path: the cells that the head left, nearest first, and
  the old trail behind them, cut to the old length and one more for each collectible gathered.
* `chain_quitted` — from the head backwards, each cell is next to the one before it.
* `trail_eq_window` — both, with the counts, and what they come to from the declared start.
-/

namespace BlockGrid

/-- One unit step apart. -/
def Cell.Adjacent (c d : Cell) : Prop := (c.1 - d.1).natAbs + (c.2 - d.2).natAbs = 1

theorem Direction.ahead_adjacent (d : Direction) (c : Cell) : (d.ahead c).Adjacent c := by
  cases d <;> simp only [Direction.ahead, Cell.Adjacent] <;> omega

/-- A window on a list whose tail is seen through a window already. -/
theorem take_cons_take {α : Type} (x : α) (xs : List α) {n k : Nat} (hk : k ≤ 1) :
    (x :: xs.take n).take (n + k) = (x :: xs).take (n + k) := by
  cases hn : n + k with
  | zero => rfl
  | succ j =>
    have hj : j ≤ n := by omega
    rw [List.take_succ_cons, List.take_succ_cons, List.take_take, Nat.min_eq_left hj]

namespace World

variable {w : World} {a : Actor} {ms : List Motion}

theorem stepCount_arrival :
    ∀ ms, w.clears a ms = true → (w.arrival a ms).stepCount = a.stepCount + ms.count .step := by
  refine clears_induction (by simp [arrival, path]) ?_
  intro ms m r h ih
  rw [h.arrival_snoc, List.count_append]
  obtain ⟨d, -, ⟨way, rfl, rfl⟩ | ⟨rfl, -, rfl⟩⟩ := legal_cases h.step h.legal
  · simpa using ih
  · rw [stepCount_enter, ih]
    simp [Int.add_assoc]

theorem collected_arrival :
    ∀ ms, w.clears a ms = true →
      (w.arrival a ms).collected = a.collected ++ w.gathered a ms := by
  refine clears_induction (by simp [arrival, path, gathered]) ?_
  intro ms m r h ih
  rw [h.arrival_snoc, h.gathered_snoc, ← List.append_assoc, ← ih]
  obtain ⟨d, -, ⟨way, rfl, rfl⟩ | ⟨rfl, -, rfl⟩⟩ := legal_cases h.step h.legal
  · simp
  · exact collected_enter w _ _

/-- The cells left, and the one that the head is on, are the first cell and those entered. -/
theorem quitted_append :
    ∀ ms, w.clears a ms = true →
      w.quitted a ms ++ [(w.arrival a ms).position] = a.position :: w.entered a ms := by
  refine clears_induction rfl ?_
  intro ms m r h ih
  rw [quitted, h.entered_snoc, h.arrival_snoc]
  obtain ⟨d, -, ⟨way, rfl, rfl⟩ | ⟨rfl, -, rfl⟩⟩ := legal_cases h.step h.legal
  · simpa [quitted] using ih
  · rw [if_pos rfl, ← List.cons_append, List.dropLast_concat]

theorem quitted_snoc {m : Motion} {r : StepResult} (h : LastMotion w a ms m r) :
    w.quitted a (ms ++ [m]) =
      w.quitted a ms ++ if m = .step then [(w.arrival a ms).position] else [] := by
  rw [quitted, h.entered_snoc]
  by_cases hm : m = .step
  · rw [if_pos hm, if_pos hm, quitted_append ms h.clears, ← List.cons_append, List.dropLast_concat]
  · rw [if_neg hm, if_neg hm, List.append_nil, List.append_nil]
    rfl

theorem length_quitted :
    ∀ ms, w.clears a ms = true → (w.quitted a ms).length = ms.count .step := by
  refine clears_induction rfl ?_
  intro ms m r h ih
  rw [quitted_snoc h, List.length_append, ih, List.count_append]
  by_cases hm : m = .step <;> simp [hm]

theorem length_collected_le (r : StepResult) : r.collected.toList.length ≤ 1 := by
  cases r.collected <;> simp

/-- No more is gathered than steps are made. -/
theorem length_gathered_le :
    ∀ ms, w.clears a ms = true → (w.gathered a ms).length ≤ (w.quitted a ms).length := by
  refine clears_induction (Nat.zero_le _) ?_
  intro ms m r h ih
  rw [quitted_snoc h, h.gathered_snoc, List.length_append, List.length_append]
  have hr := length_collected_le r
  obtain ⟨d, -, ⟨way, rfl, rfl⟩ | ⟨rfl, -, rfl⟩⟩ := legal_cases h.step h.legal
  · simpa using ih
  · rw [if_pos rfl, List.length_singleton]
    omega

theorem body_arrival (hw : w.collectibles ≠ []) :
    ∀ ms, w.clears a ms = true → (w.arrival a ms).body =
      ((w.quitted a ms).reverse ++ a.body).take (a.body.length + (w.gathered a ms).length) := by
  refine clears_induction (by simp [arrival, path, quitted, entered, gathered]) ?_
  intro ms m r h ih
  rw [h.arrival_snoc, quitted_snoc h, h.gathered_snoc]
  obtain ⟨d, -, ⟨way, rfl, rfl⟩ | ⟨rfl, -, rfl⟩⟩ := legal_cases h.step h.legal
  · simpa using ih
  · -- The window before the step is full, so its length is known.
    have hlen : (w.arrival a ms).body.length = a.body.length + (w.gathered a ms).length := by
      have hle := length_gathered_le ms h.clears
      rw [ih, List.length_take, List.length_append, List.length_reverse]
      omega
    have hone := length_collected_le
      (w.enter (w.arrival a ms) (d.ahead (w.arrival a ms).position))
    rw [body_enter hw, hlen, if_pos rfl, List.reverse_append, List.append_assoc,
      List.length_append, ← Nat.add_assoc]
    rw [ih]
    exact take_cons_take _ _ hone

theorem chain_quitted :
    ∀ ms, w.clears a ms = true →
      ((w.arrival a ms).position :: (w.quitted a ms).reverse).IsChain Cell.Adjacent := by
  refine clears_induction (List.isChain_singleton _) ?_
  intro ms m r h ih
  rw [h.arrival_snoc, quitted_snoc h]
  obtain ⟨d, -, ⟨way, rfl, rfl⟩ | ⟨rfl, -, rfl⟩⟩ := legal_cases h.step h.legal
  · simpa using ih
  · rw [if_pos rfl, List.reverse_append, position_enter]
    exact List.isChain_cons_cons.mpr ⟨d.ahead_adjacent _, ih⟩

theorem open_entered :
    ∀ ms, w.clears a ms = true → ∀ c ∈ w.entered a ms, w.isOpen c = true := by
  refine clears_induction (by simp [entered]) ?_
  intro ms m r h ih c hc
  rw [h.entered_snoc] at hc
  obtain ⟨d, -, ⟨way, rfl, rfl⟩ | ⟨rfl, ho, rfl⟩⟩ := legal_cases h.step h.legal
  · exact ih c (by simpa using hc)
  · rw [if_pos rfl, position_enter] at hc
    rcases List.mem_append.mp hc with hc | hc
    · exact ih c hc
    · rw [List.mem_singleton.mp hc]
      exact ho

theorem open_quitted (ha : w.contains a = true) (h : w.clears a ms = true) :
    ∀ c ∈ w.quitted a ms, w.isOpen c = true := by
  intro c hc
  rcases List.mem_cons.mp ((List.dropLast_sublist _).subset hc) with rfl | hc
  · exact (contains_eq_true.mp ha).2
  · exact open_entered ms h c hc

theorem unchanged_of_next? {m : Motion} {b : Actor} (hw : w.collectibles = [])
    (h : w.next? a m = some b) : b.body = a.body ∧ b.collected = a.collected := by
  obtain ⟨r, hs, hl, rfl⟩ := next?_eq_some_iff.mp h
  obtain ⟨d, -, ⟨way, rfl, rfl⟩ | ⟨rfl, -, rfl⟩⟩ := legal_cases hs hl
  · exact ⟨rfl, rfl⟩
  · exact enter_of_no_collectibles hw a _

/-- From the declared start the trail is as long as what was collected. -/
theorem body_reset (hw : w.collectibles ≠ []) (h : w.clears w.reset ms = true) :
    (w.arrival w.reset ms).body =
      (w.quitted w.reset ms).reverse.take (w.arrival w.reset ms).collected.length := by
  have hbody := body_arrival hw ms h
  have hcoll := collected_arrival ms h
  rw [hbody, hcoll]
  simp [reset]

theorem length_body_reset (hw : w.collectibles ≠ []) (h : w.clears w.reset ms = true) :
    (w.arrival w.reset ms).body.length = (w.arrival w.reset ms).collected.length := by
  have hle := length_gathered_le ms h
  have hcoll := collected_arrival ms h
  have hlen : (w.arrival w.reset ms).collected.length = (w.gathered w.reset ms).length := by
    rw [hcoll]
    simp [reset]
  rw [body_reset hw h, List.length_take, List.length_reverse, hlen]
  omega

/-- Along a clear path every state is on an open cell, the steps are counted, and in a world with
collectibles the trail is a window on the cells that the head left: as long as the trail at the
beginning and what was gathered since. From the declared start it lies on open cells that lead back
one after the other. Without collectibles there is nothing to drag along. -/
theorem trail_eq_window (w : World) (a : Actor) (ms : List Motion) (ha : w.contains a = true)
    (h : w.clears a ms = true) :
    (∀ b ∈ a :: w.path a ms, w.contains b = true) ∧
    (w.quitted a ms).length = ms.count .step ∧
    (w.arrival a ms).stepCount = a.stepCount + ms.count .step ∧
    (w.collectibles ≠ [] →
      (w.arrival a ms).collected = a.collected ++ w.gathered a ms ∧
      (w.arrival a ms).body =
        ((w.quitted a ms).reverse ++ a.body).take (a.body.length + (w.gathered a ms).length)) ∧
    (w.collectibles ≠ [] → a = w.reset →
      (w.arrival a ms).body = (w.quitted a ms).reverse.take (w.arrival a ms).collected.length ∧
      (w.arrival a ms).body.length = (w.arrival a ms).collected.length ∧
      (∀ c ∈ (w.arrival a ms).body, w.isOpen c = true) ∧
      ((w.arrival a ms).position :: (w.arrival a ms).body).IsChain Cell.Adjacent) ∧
    (w.goal ≠ none ∨ w.collectibles = [] →
      ∀ b ∈ w.path a ms, b.body = a.body ∧ b.collected = a.collected) := by
  refine ⟨?_, length_quitted ms h, stepCount_arrival ms h, ?_, ?_, ?_⟩
  · intro b hb
    rcases List.mem_cons.mp hb with rfl | hb
    · exact ha
    · exact forall_path contains_of_next? ha ms b hb
  · intro hw
    exact ⟨collected_arrival ms h, body_arrival hw ms h⟩
  · rintro hw rfl
    have hbody := body_reset hw h
    refine ⟨hbody, length_body_reset hw h, ?_, ?_⟩
    · intro c hc
      rw [hbody] at hc
      exact open_quitted ha h c (List.mem_reverse.mp (List.mem_of_mem_take hc))
    · have hchain := (chain_quitted ms h).take ((w.arrival w.reset ms).collected.length + 1)
      rwa [List.take_succ_cons, ← hbody] at hchain
  · intro hg
    have hw : w.collectibles = [] := by
      rcases hg with hg | hw
      · exact w.one_objective.resolve_left hg
      · exact hw
    refine forall_path (P := fun b => b.body = a.body ∧ b.collected = a.collected) ?_ ⟨rfl, rfl⟩ ms
    intro s b m hs hn
    obtain ⟨hbody, hcoll⟩ := unchanged_of_next? hw hn
    exact ⟨hbody.trans hs.1, hcoll.trans hs.2⟩

/-! ## A trail around a corner -/

/-- Two rows with a collectible ahead of the start and one in the far corner. -/
def meadow : World where
  challengeId := .null
  rows := 2
  cols := 3
  obstacles := []
  goal := none
  collectibles := [(0, 1), (1, 2)]
  start := (0, 0)
  facing := .right
  obstacles_inside := rfl
  one_objective := .inl rfl
  start_open := rfl
  goal_open := rfl
  collectibles_open := rfl
  collectibles_nodup := by decide

/-- An actor that drags a segment along already. -/
theorem trail_around_corner :
    meadow.contains ⟨0, 0, "right", [(1, 0)], [], 0⟩ = true ∧
    meadow.clears ⟨0, 0, "right", [(1, 0)], [], 0⟩
      [.step, .turn "right", .step, .turn "left", .step] = true ∧
    (meadow.arrival ⟨0, 0, "right", [(1, 0)], [], 0⟩
      [.step, .turn "right", .step, .turn "left", .step]).body = [(1, 1), (0, 1), (0, 0)] := by
  have ha : meadow.contains ⟨0, 0, "right", [(1, 0)], [], 0⟩ = true := by decide
  have h : meadow.clears ⟨0, 0, "right", [(1, 0)], [], 0⟩
      [.step, .turn "right", .step, .turn "left", .step] = true := by decide
  refine ⟨ha, h, ?_⟩
  rw [((trail_eq_window meadow _ _ ha h).2.2.2.1 (by decide)).2]
  decide

end World

end BlockGrid
