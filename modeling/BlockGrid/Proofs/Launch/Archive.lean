import BlockGrid.Launch.Archive
import BlockGrid.Proofs.Run.Reload
import BlockGrid.Proofs.Trace.Loading

/-!
# BlockGrid.Proofs.Launch.Archive

The archive of a launch, read back.

* `read_of_record`  — what any store gives for the entry of a replay.
* `exists_of_ofRun` — an archive holds one run, and it is that replay.
-/

namespace BlockGrid.Archive

open Store

variable {folder : Folder} {stamp : String} {s : Settings} {w : World} {p : Program Tree}
  {a : Archive}

/-- The entry of a replay has its verdict and its outcome as they are. -/
theorem read_of_record {store : Store} {name : String} {e : Entry} (hfind : store.find name = .ok e)
    (hheld : (w.record p).HeldBy e) : ∃ r, store.read name = .ok r ∧
      r.states = (w.record p).states ∧ r.success = (w.record p).success ∧
      r.outcome = (w.record p).outcome := by
  have hfacing : ∀ b, (w.record p).initial = some b →
      Direction.isKnown (lowercase b.direction) = true := by
    rintro b ⟨⟩
    have hknown : Direction.isKnown w.reset.direction = true := w.facing.isKnown_name
    rw [← Actor.isKnown_of_lowered (Actor.lowered_of_isKnown hknown), hknown]
  have hsuccess : successOf e.success = (w.record p).success := by
    have h : successNumber (.bool (w.result p == .success)) = .ok e.success := hheld.success
    show successOf e.success = .bool (w.result p == .success)
    cases hb : w.result p == .success with
    | false =>
      rw [hb] at h
      have hzero : 0 = e.success := Except.ok.inj h
      rw [← hzero]
      rfl
    | true =>
      rw [hb] at h
      have hone : 1 = e.success := Except.ok.inj h
      rw [← hone]
      rfl
  have houtcome : e.outcome = (w.result p).name := by
    have h : label (knownOutcome (.str (w.result p).name)) = .ok e.outcome := hheld.outcome
    rw [knownOutcome_str (Outcome.name_ne_empty _), label_of_plain (Outcome.name_plain _)] at h
    exact (Except.ok.inj h).symm
  refine ⟨_, read_of_held hfind hheld hfacing, rfl, hsuccess, ?_⟩
  exact congrArg Json.str houtcome

/-- What is stored of a replay is one run. -/
theorem exists_of_ofRun (h : Archive.ofRun folder stamp s w (w.record p) = .ok a) :
    a.store.names = [runName 0] ∧ ∃ r, a.store.fetch (.nat 0) = .ok r ∧
      r.states = (w.record p).states ∧ r.success = (w.record p).success ∧
      r.outcome = (w.record p).outcome := by
  obtain ⟨_, -, h⟩ := exists_of_bind_eq_ok h
  obtain ⟨_, -, h⟩ := exists_of_bind_eq_ok h
  obtain ⟨_, -, h⟩ := exists_of_bind_eq_ok h
  obtain ⟨_, -, h⟩ := exists_of_bind_eq_ok h
  split at h
  · rename_i written store hwrite
    cases h
    obtain ⟨name, found⟩ := written
    obtain ⟨e, he, rfl, hstore, hfind⟩ := exists_of_write (congrArg Prod.fst hwrite)
    rw [hwrite] at hstore
    subst hstore
    exact ⟨rfl, read_of_record hfind (held_of_entryOf he)⟩
  · cases h

end BlockGrid.Archive
