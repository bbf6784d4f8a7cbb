import BlockGrid.Proofs.Grid.Trail
import Mathlib.Data.List.Nodup
import Mathlib.Data.List.Perm.Subperm

/-!
# BlockGrid.Proofs.Grid.Gathering

What is collected, read off the way of the head. A step asks only whether the cell just entered is
a collectible and has been collected yet; over a whole path this comes to the first entries.

* `World.firstEntries` — the collectibles among the cells entered that are not there at the
  beginning, each once, in the order in which they are entered first.
* `gathered_eq`        — these are what the motions bring in.
* `evaluate_iff`       — the objective is met when every collectible was there or has been entered.
* `evaluate_iff_length` — where nothing else than collectibles is held, and nothing twice, counting
  is enough.
* `collected_eq_firstEntries` — the whole account.
-/

namespace BlockGrid

namespace World

variable {w : World} {a : Actor} {m : Motion} {ms ns : List Motion} {c : Cell} {r : StepResult}

/-- A collectible that is still missing at the beginning. -/
def isSought (w : World) (a : Actor) (c : Cell) : Bool :=
  w.collectibles.contains c && !a.collected.contains c

theorem isSought_iff : w.isSought a c = true ↔ c ∈ w.collectibles ∧ c ∉ a.collected := by
  simp [isSought]

def firstEntries (w : World) (a : Actor) (ms : List Motion) : List Cell :=
  ((w.entered a ms).filter (w.isSought a)).eraseDups

theorem mem_firstEntries :
    c ∈ w.firstEntries a ms ↔ c ∈ w.collectibles ∧ c ∉ a.collected ∧ c ∈ w.entered a ms := by
  rw [firstEntries, List.mem_eraseDups, List.mem_filter, isSought_iff]
  constructor
  · rintro ⟨he, hc, ha⟩
    exact ⟨hc, ha, he⟩
  · rintro ⟨hc, ha, he⟩
    exact ⟨he, hc, ha⟩

/-- One more cell is a first entry if it is sought and has not been entered before. -/
theorem eraseDups_filter_snoc (p : Cell → Bool) (cs : List Cell) (c : Cell) :
    ((cs ++ [c]).filter p).eraseDups =
      (cs.filter p).eraseDups ++ if p c = true ∧ c ∉ cs then [c] else [] := by
  have hone : [c].eraseDups = [c] := by rw [List.eraseDups_cons]; rfl
  rw [List.filter_append, List.eraseDups_append]
  by_cases hp : p c = true
  · by_cases hc : c ∈ cs
    · simp [hp, hc, List.removeAll]
    · simp [hp, hc, List.removeAll, hone]
  · simp [hp, List.removeAll]

/-- What a legal motion brings in, when the first entries before it have been collected. -/
theorem collected_of_last (h : LastMotion w a ms m r)
    (hg : w.gathered a ms = w.firstEntries a ms) (c : Cell) :
    r.collected = some c ↔ m = .step ∧ r.actor.position = c ∧
      c ∈ w.collectibles ∧ c ∉ a.collected ∧ c ∉ w.entered a ms := by
  obtain ⟨d, -, ⟨way, rfl, rfl⟩ | ⟨rfl, -, rfl⟩⟩ := legal_cases h.step h.legal
  · simp
  · have hheld : ∀ c, c ∈ (w.arrival a ms).collected ↔
        c ∈ a.collected ∨ c ∈ w.collectibles ∧ c ∉ a.collected ∧ c ∈ w.entered a ms := by
      intro c
      rw [collected_arrival ms h.clears, hg, List.mem_append, mem_firstEntries]
    rw [enter_collected_eq_some, position_enter, hheld]
    constructor
    · rintro ⟨rfl, hc, hn⟩
      have hna : d.ahead (w.arrival a ms).position ∉ a.collected := fun h => hn (.inl h)
      exact ⟨rfl, rfl, hc, hna, fun h => hn (.inr ⟨hc, hna, h⟩)⟩
    · rintro ⟨-, rfl, hc, hna, he⟩
      refine ⟨rfl, hc, ?_⟩
      rintro (h | ⟨-, -, h⟩)
      · exact hna h
      · exact he h

theorem gathered_eq :
    ∀ ms, w.clears a ms = true → w.gathered a ms = w.firstEntries a ms := by
  refine clears_induction rfl ?_
  intro ms m r h ih
  have hlast := collected_of_last h ih
  rw [h.gathered_snoc, ih, firstEntries, firstEntries, h.entered_snoc]
  by_cases hm : m = .step
  · rw [if_pos hm, eraseDups_filter_snoc]
    simp only [isSought_iff]
    congr 1
    cases hr : r.collected with
    | none =>
      have hno := (hlast r.actor.position).not.mp (by simp [hr])
      rw [if_neg]
      · rfl
      · rintro ⟨⟨hc, ha⟩, he⟩
        exact hno ⟨hm, rfl, hc, ha, he⟩
    | some c =>
      obtain ⟨-, rfl, hc, ha, he⟩ := (hlast c).mp hr
      rw [if_pos ⟨⟨hc, ha⟩, he⟩]
      rfl
  · have hnone : r.collected = none := by
      cases hr : r.collected with
      | none => rfl
      | some c => exact absurd ((hlast c).mp hr).1 hm
    rw [if_neg hm, hnone, List.append_nil, Option.toList_none, List.append_nil]

theorem nodup_collected (ha : a.collected.Nodup) :
    ∀ ms, w.clears a ms = true → (w.arrival a ms).collected.Nodup := by
  refine clears_induction ha ?_
  intro ms m r h ih
  rw [h.arrival_snoc]
  obtain ⟨d, -, ⟨way, rfl, rfl⟩ | ⟨rfl, -, rfl⟩⟩ := legal_cases h.step h.legal
  · exact ih
  · rw [collected_enter]
    cases hr : (w.enter (w.arrival a ms) (d.ahead (w.arrival a ms).position)).collected with
    | none => rwa [Option.toList_none, List.append_nil]
    | some c =>
      have hnew := (enter_collected_eq_some.mp hr).2.2
      rw [Option.toList_some, ← List.concat_eq_append]
      exact List.Nodup.concat hnew ih

theorem collected_prefix (h : w.clears a (ms ++ ns) = true) :
    (w.arrival a ms).collected <+: (w.arrival a (ms ++ ns)).collected := by
  have hms : w.clears a ms = true := by
    rw [clears_append, Bool.and_eq_true] at h
    exact h.1
  rw [collected_arrival _ h, collected_arrival ms hms, gathered_append hms, ← List.append_assoc]
  exact List.prefix_append _ _

theorem evaluate_iff (hw : w.collectibles ≠ []) (b : Actor) :
    w.evaluate b = true ↔ ∀ c ∈ w.collectibles, c ∈ b.collected := by
  have hgoal : w.goal = none := w.one_objective.resolve_right hw
  simp [evaluate, hgoal]

/-- Counting is enough where only collectibles are held and none twice. -/
theorem evaluate_iff_length (hw : w.collectibles ≠ []) {b : Actor} (hn : b.collected.Nodup)
    (hs : b.collected ⊆ w.collectibles) :
    w.evaluate b = true ↔ b.collected.length = w.collectibles.length := by
  have hsub : b.collected.Subperm w.collectibles := List.subperm_of_subset hn hs
  rw [evaluate_iff hw]
  constructor
  · intro hall
    have hback : w.collectibles.Subperm b.collected :=
      List.subperm_of_subset w.collectibles_nodup hall
    exact Nat.le_antisymm hsub.length_le hback.length_le
  · intro hlen c hc
    have hperm := hsub.perm_of_length_le (Nat.le_of_eq hlen.symm)
    exact hperm.mem_iff.mpr hc

/-- A path of legal motions collects the collectibles that it enters and that were not held before,
each when it is entered first. So the objective is met when all of them were held or have been
entered; once met it stays so, and from the declared start the number collected tells. -/
theorem collected_eq_firstEntries (w : World) (a : Actor) (ms : List Motion)
    (hw : w.collectibles ≠ []) (h : w.clears a ms = true) :
    (w.arrival a ms).collected = a.collected ++ w.firstEntries a ms ∧
    (∀ before m after, ms = before ++ m :: after →
      ∃ r, w.step (w.arrival a before) m = .ok r ∧
        ∀ c, r.collected = some c ↔ m = .step ∧ r.actor.position = c ∧
          c ∈ w.collectibles ∧ c ∉ a.collected ∧ c ∉ w.entered a before) ∧
    (a.collected.Nodup → (w.arrival a ms).collected.Nodup) ∧
    (w.evaluate (w.arrival a ms) = true ↔
      ∀ c ∈ w.collectibles, c ∈ a.collected ∨ c ∈ w.entered a ms) ∧
    (∀ before after, ms = before ++ after →
      (w.arrival a before).collected <+: (w.arrival a ms).collected ∧
      (w.evaluate (w.arrival a before) = true → w.evaluate (w.arrival a ms) = true)) ∧
    (a = w.reset → (w.evaluate (w.arrival a ms) = true ↔
      (w.arrival a ms).collected.length = w.collectibles.length)) := by
  have hcoll := collected_arrival ms h
  have hgath := gathered_eq ms h
  rw [hgath] at hcoll
  refine ⟨hcoll, ?_, fun hn => nodup_collected hn ms h, ?_, ?_, ?_⟩
  · rintro before m after rfl
    have hpre : w.clears a (before ++ [m]) = true := by
      rw [List.append_cons, clears_append, Bool.and_eq_true] at h
      exact h.1
    obtain ⟨r, hlast⟩ := clears_snoc_iff.mp hpre
    exact ⟨r, hlast.step, collected_of_last hlast (gathered_eq before hlast.clears)⟩
  · rw [evaluate_iff hw, hcoll]
    refine forall₂_congr fun c hc => ?_
    rw [List.mem_append, mem_firstEntries]
    by_cases hm : c ∈ a.collected <;> simp [hm, hc]
  · rintro before after rfl
    have hpre := collected_prefix h
    refine ⟨hpre, ?_⟩
    rw [evaluate_iff hw, evaluate_iff hw]
    intro hall c hc
    exact hpre.subset (hall c hc)
  · rintro rfl
    have hnil : w.reset.collected = [] := rfl
    refine evaluate_iff_length hw (nodup_collected (hnil ▸ List.nodup_nil) ms h) ?_
    intro c hc
    rw [hcoll, hnil, List.nil_append] at hc
    exact (mem_firstEntries.mp hc).1

/-- On the cell of one collectible, with the other one in hand. -/
def halfway : Actor := ⟨0, 1, "right", [], [(1, 2)], 0⟩

def roundTrip : List Motion :=
  [.turn "right", .step, .turn "left", .step, .turn "left", .step, .turn "left", .step]

/-- The cell of the start counts when it is entered again. -/
theorem collected_on_roundTrip :
    meadow.collectibles ≠ [] ∧ meadow.clears halfway roundTrip = true ∧
    (meadow.arrival halfway roundTrip).collected = [(1, 2), (0, 1)] ∧
    meadow.evaluate (meadow.arrival halfway roundTrip) = true := by
  have hw : meadow.collectibles ≠ [] := by decide
  have h : meadow.clears halfway roundTrip = true := by decide
  obtain ⟨hcoll, -, -, heval, -, -⟩ := collected_eq_firstEntries meadow halfway roundTrip hw h
  exact ⟨hw, h, hcoll.trans (by decide), heval.mpr (by decide)⟩

end World

end BlockGrid
