import BlockGrid.Proofs.Launch.Gates

/-!
# BlockGrid.Proofs.Launch.Notices

What is put out of a launch that begins no run.

* `Output.Notice`        — messages of the launch and of the catalog, and the line on the budget.
* `Stage.Notifies`       — a stage that puts out nothing else; stages in a row, `notifies_bind`.
* `notifies_of_rejected` — a launch that is rejected puts out nothing else: nothing of a run, and no
  archive.
-/

namespace BlockGrid

/-- What may be put out of a launch that begins no run. -/
inductive Output.Notice : Output → Prop
  | launch (log : Log) : Notice (.message .launch log)
  | catalog (log : Log) : Notice (.message .catalog log)
  | tooMany (used limit : String) :
      Notice (.line (.whole
        ("Too many blocks: " ++ used ++ " / " ++ limit ++ ". Try using repeat.")))

theorem Output.eq_of_mem_ofLog {rank : Nat} {source : Source} {log : Log} {o : Output}
    (h : o ∈ Output.ofLog rank source log) : o = .message source log := by
  unfold Output.ofLog at h
  split at h
  · exact List.mem_singleton.mp h
  · cases h

theorem Launch.notice_of_complaint {rank : Nat} {text : String} {o : Output}
    (h : o ∈ complaint rank text) : o.Notice := by
  obtain rfl := Output.eq_of_mem_ofLog h
  exact .launch _

namespace Stage

variable {α β : Type}

def Notifies (s : Stage α) : Prop := ∀ o ∈ s.output, o.Notice

theorem notifies_of_silent {s : Stage α} (h : s.output = []) : s.Notifies := by
  intro o ho
  rw [h] at ho
  cases ho

theorem notifies_bind {s : Stage α} {f : α → Stage β} (hs : s.Notifies)
    (hf : ∀ a, s.result = .ok a → (f a).Notifies) : (s >>= f).Notifies := by
  cases h : s.result with
  | error e => rw [bind_error h]; exact hs
  | ok a =>
    rw [bind_ok h]
    intro o ho
    rcases List.mem_append.mp ho with ho | ho
    · exact hs o ho
    · exact hf a h o ho

theorem notifies_orFail {ε : Type} (wrap : ε → LaunchError) (x : Except ε α) :
    (orFail wrap x).Notifies := by
  cases x <;> exact notifies_of_silent rfl

theorem notifies_of_rejected_bind {s : Stage α} {f : α → Stage β}
    (hs : s.Notifies) (h : (s >>= f).result = .error .rejected)
    (hf : ∀ a, (f a).result = .error .rejected → (f a).Notifies) : (s >>= f).Notifies := by
  refine notifies_bind hs fun a ha => hf a ?_
  rw [result_bind, ha] at h
  exact h

end Stage

namespace Launch

open Stage

variable {host : Host} {folder : Folder} {stamp : String} {arguments : List String}

theorem notifies_complaint {α : Type} (rank : Nat) (text : String) (e : Ending) :
    (stop (complaint rank text) e : Stage α).Notifies := fun _ ho => notice_of_complaint ho

theorem notifies_settings (folder : Folder) (arguments : List String) :
    (settings folder arguments).Notifies := by
  unfold settings
  split
  · exact notifies_of_silent rfl
  · split
    · exact notifies_of_silent rfl
    · exact notifies_of_silent rfl
    · exact notifies_complaint _ _ _

theorem notifies_orReject {α : Type} (rank : Nat) (x : Except SetupError α) :
    (orReject rank x).Notifies := by
  cases x with
  | ok a => exact notifies_of_silent rfl
  | error e =>
    show (reject rank e : Stage α).Notifies
    unfold reject
    split
    · exact notifies_complaint _ _ _
    · exact notifies_of_silent rfl

theorem notifies_setup (host : Host) (rank : Nat) (folder : Folder) (s : Settings) :
    (setup host rank folder s).Notifies := by
  refine notifies_bind (notifies_orReject _ _) fun c _ => ?_
  refine notifies_bind (fun o ho => ?_) fun _ _ => notifies_orReject _ _
  obtain rfl := Output.eq_of_mem_ofLog ho
  exact .catalog _

theorem notifies_budget (rank : Nat) (verbose : Bool) (s : Settings) (u : Setup) :
    (budget rank verbose s u).Notifies := by
  unfold budget
  split
  · intro o ho
    rcases List.mem_append.mp ho with ho | ho
    · exact notice_of_complaint ho
    · cases verbose with
      | false => cases ho
      | true =>
        obtain rfl := List.mem_singleton.mp ho
        exact .tooMany _ _
  · exact notifies_of_silent rfl

theorem play_ne_rejected (host : Host) (rank : Nat) (verbose : Bool) (s : Settings) (u : Setup) :
    (play host rank verbose s u).result ≠ .error .rejected := by
  intro h
  rcases rejected_of_bind h with h | ⟨_, -, h⟩
  · exact sayAll_ne_rejected _ _ h
  rcases rejected_of_bind h with h | ⟨r, -, h⟩
  · exact orFail_ne_rejected _ _ h
  rcases rejected_of_bind h with h | ⟨_, -, h⟩
  · cases h
  rcases rejected_of_bind h with h | ⟨_, -, h⟩
  · exact orWait_ne_rejected _ h
  · cases h

theorem archive_ne_rejected (folder : Folder) (stamp : String) (verbose : Bool) (s : Settings)
    (w : World) (t : Trace Actor) :
    (archive folder stamp verbose s w t).result ≠ .error .rejected := by
  intro h
  unfold archive at h
  split at h
  · rcases rejected_of_bind h with h | ⟨_, -, h⟩
    · exact orFail_ne_rejected _ _ h
    · cases h
  · cases h

/-- The stages up to the block budget put out nothing else, and none after it rejects. -/
theorem notifies_of_rejected (h : (launch host folder stamp arguments).result = .error .rejected) :
    (launch host folder stamp arguments).Notifies := by
  refine notifies_of_rejected_bind (notifies_settings _ _) h fun s h => ?_
  refine notifies_of_rejected_bind (notifies_orFail _ _) h fun rank h => ?_
  refine notifies_of_rejected_bind (notifies_setup _ _ _ _) h fun u h => ?_
  refine notifies_of_rejected_bind (notifies_budget _ _ _ _) h fun _ h => ?_
  rcases rejected_of_bind h with h | ⟨r, -, h⟩
  · exact absurd h (play_ne_rejected _ _ _ _ _)
  rcases rejected_of_bind h with h | ⟨a, -, h⟩
  · exact absurd h (archive_ne_rejected _ _ _ _ _ _)
  · cases h

end Launch

end BlockGrid
