import BlockGrid.Run.Interpreter

/-!
# BlockGrid.Proofs.Run.Admission

Which starts are refused and which begin a run.

* `Interpreter.admission` — the reason to refuse a start, or the program and the state of the new run.
* `start_eq_admission`    — a start does nothing else than refuse or accept accordingly.
* `ofTree_commands`   — a program handed over in canonical form is read as it stands.
-/

namespace BlockGrid

namespace Reading

variable {t : Tree} {rest : List Tree} {back : Program Tree} {os : List Open}

theorem run_cons (t : Tree) (rest : List Tree) (back : Program Tree) (os : List Open) :
    run ⟨t :: rest, back⟩ os =
      match t.readNode with
      | .error e => .error e
      | .ok (.done c) => run ⟨rest, c :: back⟩ os
      | .ok (.opened count body) => run ⟨body, []⟩ (⟨count, ⟨rest, back⟩⟩ :: os) := by
  rw [run]
  split <;> rename_i h <;> rw [h]

theorem run_failed {e : ProgramError} (h : t.readNode = .error e) :
    run ⟨t :: rest, back⟩ os = .error e := by
  rw [run_cons, h]

theorem run_done {c : Command Tree} (h : t.readNode = .ok (.done c)) :
    run ⟨t :: rest, back⟩ os = run ⟨rest, c :: back⟩ os := by
  rw [run_cons, h]

theorem run_opened {count : Int} {body : List Tree} (h : t.readNode = .ok (.opened count body)) :
    run ⟨t :: rest, back⟩ os = run ⟨body, []⟩ (⟨count, ⟨rest, back⟩⟩ :: os) := by
  rw [run_cons, h]

theorem run_commands (p : Program Tree) (back : Program Tree) :
    run ⟨p.map .command, back⟩ [] = .ok (back.reverse ++ p) := by
  induction p generalizing back with
  | nil => rw [List.map_nil, run, List.append_nil]
  | cons c p ih =>
    have hc : (Tree.command c).readNode = .ok (.done c) := rfl
    rw [List.map_cons, run_done hc, ih, List.reverse_cons, List.append_assoc]
    rfl

end Reading

theorem Program.ofTree_commands (p : Program Tree) :
    Program.ofTree (.tuple (p.map .command)) = .ok p := by
  show Reading.run ⟨p.map .command, []⟩ [] = .ok p
  rw [Reading.run_commands]
  rfl

namespace Interpreter

/-- The refusal of a start, or what its run begins with. -/
def admission (i : Interpreter) (t : Tree) (w : World) (initial : Initial) :
    Except StartError (Except Refusal (Program Tree × Actor)) :=
  if i.isRunning then .ok (.error .busy)
  else
    match Program.ofTree t with
    | .error (.notSequence kind) => .ok (.error (.malformed kind))
    | .error (.badNumeral text) => .error (.program (.badNumeral text))
    | .ok p =>
      if p.isEmpty then .ok (.error .empty)
      else
        match i.initialState w initial with
        | .error e => if e.isCaught then .ok (.error (.invalid e)) else .error (.state e)
        | .ok a => .ok (.ok (p, a))

variable {i : Interpreter} {t : Tree} {w : World} {initial : Initial}

theorem start_eq_admission (i : Interpreter) (t : Tree) (w : World) (initial : Initial) :
    i.start t w initial =
      match i.admission t w initial with
      | .error e => .error e
      | .ok (.error r) => .ok (i.refuse r)
      | .ok (.ok (p, a)) => .ok (i.accept p w a) := by
  unfold start admission
  cases i.isRunning with
  | true => rfl
  | false =>
    simp only [Bool.false_eq_true, if_false]
    cases Program.ofTree t with
    | error e => cases e <;> rfl
    | ok p =>
      cases hp : p.isEmpty with
      | true => simp [hp]
      | false =>
        simp only [hp, Bool.false_eq_true, if_false]
        cases i.initialState w initial with
        | ok a => rfl
        | error e => cases he : e.isCaught <;> simp only [he, Bool.false_eq_true, if_true, if_false]

theorem isRunning_of_admission {p : Program Tree} {a : Actor}
    (h : i.admission t w initial = .ok (.ok (p, a))) : i.isRunning = false := by
  unfold admission at h
  by_cases hr : i.isRunning = true
  · simp [hr] at h
  · simpa using hr

theorem initialState_actor {a : Actor} (h : w.contains a = true) :
    i.initialState w (.actor a) = .ok a := by
  show (if w.contains a then pure a else throw _ : Except StateError Actor) = .ok a
  rw [if_pos h]
  rfl

theorem admission_actor {p : Program Tree} {a : Actor} (hi : i.isRunning = false)
    (ht : Program.ofTree t = .ok p) (hp : p ≠ []) (ha : w.contains a = true) :
    i.admission t w (.actor a) = .ok (.ok (p, a)) := by
  have he : p.isEmpty = false := by
    cases p with
    | nil => exact absurd rfl hp
    | cons c p => rfl
  simp [admission, hi, ht, he, initialState_actor ha]

end Interpreter

end BlockGrid
