import BlockGrid.Proofs.Trace.Comparisons
import BlockGrid.Proofs.Trace.Loading

/-!
# BlockGrid.Proofs.Trace.Revalidation

A trace without any warning, checked again after it was written and read back.

* `outcomeWarnings_eq_nil_iff`, `verdictWarnings_eq_nil_iff` — the outcomes and the verdicts that are
  not doubtful.
* `Trace.reloaded`    — what is read from the entry of a trace.
* `check_reloaded`    — the states are what they were. An outcome that was not recorded is read back
  as a word that is no outcome, and this is the only new warning.
* `valid_reloaded`    — the same for a session, with whatever is done later in it.
-/

namespace BlockGrid

namespace Trace

variable {σ : Type} {t : Trace Actor} {e : Entry} {b : Bounds}

theorem outcomeWarnings_eq_nil_iff {t : Trace σ} : t.outcomeWarnings = .ok [] ↔
    t.outcome = .null ∨ ∃ name, Outcome.isKnown name = true ∧ t.outcome = .str name := by
  rw [outcomeWarnings]
  constructor
  · intro h
    by_cases hknown : (t.outcome.isNull || t.outcome.isOutcome) = true
    · cases ho : t.outcome with
      | null => exact .inl rfl
      | str name => rw [ho] at hknown; exact .inr ⟨name, hknown, rfl⟩
      | _ => rw [ho] at hknown; cases hknown
    · rw [if_neg hknown] at h
      split at h
      · cases h
      · cases h
  · rintro (ho | ⟨name, hname, ho⟩)
    · rw [ho]; rfl
    · rw [ho]; exact if_pos hname

theorem verdictWarnings_eq_nil_iff {t : Trace σ} : t.verdictWarnings = [] ↔
    (t.outcome.same (.str Outcome.cancelled.name) = true → t.success.isNull = true) := by
  rw [verdictWarnings]
  cases t.success.isNull <;> cases t.outcome.same (.str Outcome.cancelled.name) <;> simp

/-- What is read from the entry of a trace that began with a known facing, in any case. -/
def reloaded (t : Trace Actor) (e : Entry) : Trace Actor :=
  ⟨.str e.challengeId, t.initial.map Actor.lowered, t.states, Store.successOf e.success,
    .str e.outcome, t.program⟩

theorem stepsBefore_reloaded (t : Trace Actor) (e : Entry) :
    (t.reloaded e).loose.stepsBefore = t.loose.stepsBefore := by
  show ((t.initial.map Actor.lowered).map LooseActor.ofActor).elim _ LooseActor.stepCount =
    (t.initial.map LooseActor.ofActor).elim _ LooseActor.stepCount
  cases t.initial with
  | none => rfl
  | some a => rfl

/-- A verdict that is not known stays so. -/
theorem isNull_reloaded (h : t.HeldBy e) (hsuccess : t.success.isNull = true) :
    (t.reloaded e).success.isNull = true := by
  have hnumber := h.success
  rw [Store.successNumber, if_pos hsuccess] at hnumber
  show (Store.successOf e.success).isNull = true
  rw [← Except.ok.inj hnumber]
  rfl

theorem outcome_of_null (h : t.HeldBy e) (ho : t.outcome = .null) : e.outcome = "unknown" := by
  have hlabel : Store.label (.str "unknown") = .ok e.outcome := by
    have := h.outcome
    rwa [ho] at this
  rw [Store.label_of_plain (by decide)] at hlabel
  exact (Except.ok.inj hlabel).symm

theorem outcome_of_known (h : t.HeldBy e) {name : String} (hname : Outcome.isKnown name = true)
    (ho : t.outcome = .str name) : e.outcome = name := by
  have hne : name ≠ "" := by
    rintro rfl
    cases hname
  have hlabel := h.outcome
  rw [ho, Store.knownOutcome_str hne, Store.label_str] at hlabel
  split at hlabel
  · cases hlabel
  · exact (Except.ok.inj hlabel).symm

/-- An outcome that is not known is no outcome once it is stored. -/
def unknownOutcome : String := "unknown outcome 'unknown'"

/-- Nothing is doubtful about the states as they are read, since none of them has changed. -/
theorem check_reloaded_eq {ws : List String} (hvalid : t.loose.check b = .ok [])
    (houtcome : (t.reloaded e).outcomeWarnings = .ok ws)
    (hverdict : (t.reloaded e).verdictWarnings = []) :
    (t.reloaded e).loose.check b = .ok ws := by
  obtain ⟨-, -, hstates⟩ := check_eq_nil_iff.mp hvalid
  rw [← stepsBefore_reloaded t e] at hstates
  refine check_eq_ok_iff.mpr ⟨ws, [], houtcome, hstates, ?_⟩
  have hverdict' : (t.reloaded e).loose.verdictWarnings = [] := hverdict
  rw [hverdict', List.append_nil, List.append_nil]

theorem check_reloaded (h : t.HeldBy e) (hvalid : t.loose.check b = .ok []) :
    (t.reloaded e).loose.check b =
      .ok (if t.outcome.isNull then [unknownOutcome] else []) := by
  obtain ⟨houtcome, hverdict, -⟩ := check_eq_nil_iff.mp hvalid
  rcases outcomeWarnings_eq_nil_iff.mp houtcome with ho | ⟨name, hname, ho⟩
  · have ho' : t.outcome = .null := ho
    have hstored : (t.reloaded e).outcome = .str "unknown" := by
      rw [reloaded, outcome_of_null h ho']
    rw [ho']
    refine check_reloaded_eq hvalid ?_ (verdictWarnings_eq_nil_iff.mpr ?_)
    · rw [outcomeWarnings, hstored]
      rfl
    · rw [hstored]
      intro hcancelled
      cases hcancelled
  · have ho' : t.outcome = .str name := ho
    have hstored : (t.reloaded e).outcome = t.outcome := by
      rw [reloaded, outcome_of_known h hname ho', ho']
    have hnull : t.outcome.isNull = false := by
      rw [ho']
      rfl
    rw [hnull]
    refine check_reloaded_eq hvalid ?_ (verdictWarnings_eq_nil_iff.mpr fun hcancelled => ?_)
    · exact outcomeWarnings_eq_nil_iff.mpr (.inr ⟨name, hname, hstored.trans ho'⟩)
    · rw [hstored] at hcancelled
      exact isNull_reloaded h (verdictWarnings_eq_nil_iff.mp hverdict hcancelled)

end Trace

namespace Store

variable {s : Store} {t : Trace Actor} {e : Entry} {name : String} {b : Bounds}

/-- How a trace that was written without any doubt about it is seen once it is read back. -/
structure Revalidates (s : Store) (name : String) (t : Trace Actor) (b : Bounds) : Prop where
  loads_iff : (∃ r, s.fetch (.str name) = .ok r) ↔
    ∀ a, t.initial = some a → Direction.isKnown (lowercase a.direction) = true
  check_eq : ∀ v r, nameOf v = .ok name → s.fetch v = .ok r →
    r.loose.check b = .ok (if t.outcome.isNull then [Trace.unknownOutcome] else [])

theorem fetch_of_nameOf {v : Json} (h : nameOf v = .ok name) : s.fetch v = s.read name := by
  rw [fetch, h]
  rfl

/-- A run that was read began with a known facing, if with any. -/
theorem isKnown_of_read {r : Trace Actor} (hfind : s.find name = .ok e) (hheld : t.HeldBy e)
    (h : s.read name = .ok r) :
    ∀ a, t.initial = some a → Direction.isKnown (lowercase a.direction) = true := by
  intro a ha
  by_contra hunknown
  rw [read_of_unknown hfind hheld ha (Bool.eq_false_of_not_eq_true hunknown)] at h
  cases h

theorem revalidates_of_held (hfind : s.find name = .ok e) (hheld : t.HeldBy e)
    (hvalid : t.loose.check b = .ok []) : s.Revalidates name t b where
  loads_iff := ⟨fun ⟨_, hr⟩ => isKnown_of_read hfind hheld hr,
    fun hknown => ⟨_, read_of_held hfind hheld hknown⟩⟩
  check_eq v r hv hr := by
    rw [fetch_of_nameOf hv] at hr
    have hread := read_of_held hfind hheld (isKnown_of_read hfind hheld hr)
    obtain rfl := Except.ok.inj (hr.symm.trans hread)
    exact Trace.check_reloaded hheld hvalid

/-- Export keeps a trace valid unless its outcome is not known; this is the one new warning then. It
does so for every size, by name and by number, and whatever is done later in the session. -/
theorem valid_reloaded {found : List String}
    (hwrite : (s.write t.loose).1 = .ok (name, found))
    (hvalid : t.loose.check b = .ok []) (more : List (Deed Json LooseTrace)) :
    (more.foldl perform (s.write t.loose).2).Revalidates name t b := by
  obtain ⟨e, he, -, hwritten, hfind⟩ := exists_of_write hwrite
  rw [hwritten]
  exact revalidates_of_held (find_deeds more hfind) (held_of_entryOf he) hvalid

theorem valid_reloaded_nearRow :
    (usual.write (runToRow 3).loose).1 = .ok ("run_0000", []) ∧
      (runToRow 3).loose.check (.ofSides (some 5) (some 5)) = .ok [] ∧
      (usual.write (runToRow 3).loose).2.Revalidates "run_0000" (runToRow 3)
        (.ofSides (some 5) (some 5)) :=
  have hwrite := congrArg Prod.fst (write_nearRow (r := 3) rfl)
  ⟨hwrite, rfl, valid_reloaded hwrite rfl []⟩

/-- A run of which nothing was recorded. -/
def unjudged : Trace Actor := ⟨.str "field", none, [], .null, .null, .arr []⟩

theorem write_unjudged : (usual.write unjudged.loose).1 = .ok ("run_0000", []) := by
  have hid : label (.str "field") = .ok "field" := label_of_plain (by decide)
  have houtcome : label (knownOutcome .null) = .ok "unknown" := label_of_plain (by decide)
  obtain ⟨e, he⟩ : ∃ e, usual.entryOf unjudged.loose = .ok e :=
    exists_entryOf rfl ⟨_, hid⟩ ⟨_, houtcome⟩ ⟨-1, "-1", rfl, rfl⟩
  have hfree : usual.Free := rfl
  rw [write_of_ok rfl hfree he]
  rfl

/-- An outcome that was left open makes a valid trace invalid. -/
theorem unjudged_invalidated :
    unjudged.loose.check .none = .ok [] ∧
      (usual.write unjudged.loose).1 = .ok ("run_0000", []) ∧
      ∃ r, (usual.write unjudged.loose).2.fetch (.int 0) = .ok r ∧
        r.loose.check .none = .ok ["unknown outcome 'unknown'"] := by
  obtain ⟨e, he, -, hwritten, hfind⟩ := exists_of_write write_unjudged
  have hvalid : unjudged.loose.check .none = .ok [] := rfl
  have hseen := revalidates_of_held hfind (held_of_entryOf he) hvalid
  obtain ⟨r, hr⟩ := hseen.loads_iff.mpr nofun
  have hnumber : (s : Store) → s.fetch (.int 0) = s.fetch (.str "run_0000") := fun _ => rfl
  rw [hwritten, hnumber]
  exact ⟨hvalid, write_unjudged, r, hr, hseen.check_eq (.str "run_0000") r rfl hr⟩

end Store

end BlockGrid
