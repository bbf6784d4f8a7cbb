import BlockGrid.Proofs.Command.Naming

/-!
# BlockGrid.Proofs.Command.Marking

The marking of a program by recursion over its commands, and that the search for idle loops leads to
the same.

* `Program.marks`       — the marking by recursion.
* `Idle.Finds`          — the visits to some loops find those that are idle among all that they hold,
  and nothing else. `Idle.mem_find` says it of a whole program.
* `markAll_eq`          — the two markings are the same.
-/

namespace BlockGrid

open BlockGrid.Named

variable {ρ : Type}

/-- A loop is idle if it has no rounds, or nothing but idle loops in it. -/
def Marked.ofLoop (count : Int) (body : List (Marked ρ)) : Marked ρ :=
  .loop (count == 0 || body.all Marked.isIdle) count body

mutual

def Command.mark : Command ρ → Marked ρ
  | .act a => .act a
  | .loop count body => Marked.ofLoop count (Program.marks body)

def Program.marks : List (Command ρ) → List (Marked ρ)
  | [] => []
  | c :: cs => c.mark :: Program.marks cs

end

/-! ## The search -/

namespace Idle

variable {q r body : List (Named ρ)} {m : Named ρ} {found found' : List Nat} {name : Nat}
  {count : Int}

/-- Whether a loop is idle, by recursion. -/
def isIdle (count : Int) (body : List (Named ρ)) : Bool :=
  (Command.loop count (forgetAll body)).mark.isIdle

/-- Nothing has been found but idle loops. -/
def Sound (q : List (Named ρ)) (found : List Nat) : Prop :=
  ∀ name ∈ found, ∀ count body, Holds q name count body → isIdle count body = true

/-- To what has been found were added the idle loops that stand in `r`. -/
def Adds (r : List (Named ρ)) (found found' : List Nat) : Prop :=
  ∀ name, name ∈ found' ↔
    name ∈ found ∨ ∃ count body, Holds r name count body ∧ isIdle count body = true

theorem Adds.sound (h : Adds r found found') (hq : Unambiguous q)
    (hr : ∀ name count body, Holds r name count body → Holds q name count body)
    (hfound : Sound q found) : Sound q found' := by
  intro name hname count body hheld
  rcases (h name).mp hname with hold | ⟨count', body', hheld', hidle⟩
  · exact hfound name hold count body hheld
  · obtain ⟨rfl, rfl⟩ := hq _ _ _ _ _ hheld (hr _ _ _ hheld')
    exact hidle

/-- The visits to the loops among `r`, and to all that stand in them. -/
def Finds (q r : List (Named ρ)) : Prop :=
  (∀ name count body, Holds r name count body → Holds q name count body) →
    ∀ found, Sound q found → Adds r found (search.run (visits r) found)

theorem finds_nil (q : List (Named ρ)) : Finds q [] := by
  intro _ found _ name
  rw [show visits ([] : List (Named ρ)) = [] from rfl, Worklist.run_nil]
  simp [not_holds_nil]

theorem finds_cons (hq : Unambiguous q) (hm : Finds q [m]) (hr : Finds q r) :
    Finds q (m :: r) := by
  intro hsub found hfound name
  have hsubm := fun name count body h => hsub name count body (holds_cons.mpr (.inl h))
  have hsubr := fun name count body h => hsub name count body (holds_cons.mpr (.inr h))
  have hfirst := hm hsubm found hfound
  have hrest := hr hsubr _ (hfirst.sound hq hsubm hfound)
  have hvisits : visits ([m] ++ r) = visits [m] ++ visits r := List.filterMap_append
  show name ∈ search.run (visits ([m] ++ r)) found ↔ _
  rw [hvisits, Worklist.run_append, hrest name, hfirst name, or_assoc]
  simp only [holds_cons (q := r), or_and_right, exists_or]

theorem finds_of_mem (hq : Unambiguous q) (h : ∀ m ∈ r, Finds q [m]) : Finds q r := by
  induction r with
  | nil => exact finds_nil q
  | cons m r ih =>
    obtain ⟨hm, hr⟩ := List.forall_mem_cons.mp h
    exact finds_cons hq hm (ih hr)

theorem finds_act (q : List (Named ρ)) (a : Action ρ) : Finds q [.act a] := by
  intro _ found _ name
  rw [show visits [Named.act a] = [] from rfl, Worklist.run_nil]
  simp [not_holds_act]

/-- Between the two visits of a loop are those of the loops in its body, the last one first. -/
theorem run_visits_loop (found : List Nat) :
    search.run (visits [.loop name count body]) found =
      close ⟨name, count, body, true⟩ (search.run (visits body.reverse) found) := by
  have hreverse : (visits body).reverse = visits body.reverse := List.filterMap_reverse.symm
  show search.run [⟨name, count, body, false⟩] found = _
  rw [Worklist.run_cons, List.append_nil]
  show search.run ((visits body).reverse ++ [⟨name, count, body, true⟩]) found = _
  rw [hreverse, Worklist.run_append, Worklist.run_cons]
  exact Worklist.run_nil _ _

/-- When the loops in a body are decided, the loop around them can be. -/
theorem all_isFound (count : Int) (h : ∀ name count' body', .loop name count' body' ∈ body →
      (name ∈ found ↔ isIdle count' body' = true)) :
    (count == 0 || body.all (isFound found)) = isIdle count body := by
  have hall : body.all (isFound found) = (Program.marks (forgetAll body)).all Marked.isIdle := by
    induction body with
    | nil => rfl
    | cons m body ih =>
      have hbody := ih fun name c b hmem => h name c b (List.mem_cons_of_mem m hmem)
      have hm : isFound found m = m.forget.mark.isIdle := by
        cases m with
        | act a => rfl
        | loop name c b =>
          rw [Bool.eq_iff_iff, isFound, List.contains_iff_mem]
          exact h name c b List.mem_cons_self
      rw [List.all_cons, hm, hbody]
      rfl
  rw [hall]
  rfl

theorem finds_loop (hq : Unambiguous q) (hbody : Finds q body.reverse) :
    Finds q [.loop name count body] := by
  intro hsub found hfound n
  have hsubr : ∀ name count' body', Holds body.reverse name count' body' →
      Holds q name count' body' :=
    fun _ _ _ h => hsub _ _ _ (holds_loop.mpr (.inr (holds_reverse.mp h)))
  have hinner := hbody hsubr found hfound
  have hsound := hinner.sound hq hsubr hfound
  -- At the second visit the loops in the body are decided.
  have hidle := all_isFound count fun name c b hmem => ⟨
    fun hname => hsound name hname c b (hsub _ _ _ (.inside List.mem_cons_self (.here hmem))),
    fun hidle => (hinner name).mpr (.inr ⟨c, b, holds_reverse.mpr (.here hmem), hidle⟩)⟩
  have hclose : n ∈ close ⟨name, count, body, true⟩ (search.run (visits body.reverse) found) ↔
      n ∈ search.run (visits body.reverse) found ∨ n = name ∧ isIdle count body = true := by
    rw [close, hidle]
    cases isIdle count body <;> simp [or_comm]
  have hself : (∃ c b, (n = name ∧ c = count ∧ b = body) ∧ isIdle c b = true) ↔
      n = name ∧ isIdle count body = true := by
    constructor
    · rintro ⟨c, b, ⟨rfl, rfl, rfl⟩, h⟩
      exact ⟨rfl, h⟩
    · rintro ⟨rfl, h⟩
      exact ⟨count, body, ⟨rfl, rfl, rfl⟩, h⟩
  rw [run_visits_loop, hclose, hinner n]
  simp only [holds_reverse, holds_loop, or_and_right, exists_or, hself]
  exact or_assoc.trans (or_congr_right or_comm)

mutual

theorem finds_command (hq : Unambiguous q) (m : Named ρ) : Finds q [m] := by
  cases m with
  | act a => exact finds_act q a
  | loop name count body =>
    have hbody := finds_members hq body
    exact finds_loop hq (finds_of_mem hq fun m hm => hbody m (List.mem_reverse.mp hm))

theorem finds_members (hq : Unambiguous q) (r : List (Named ρ)) : ∀ m ∈ r, Finds q [m] := by
  cases r with
  | nil => exact List.forall_mem_nil _
  | cons m r =>
    have hm := finds_command hq m
    have hr := finds_members hq r
    exact List.forall_mem_cons.mpr ⟨hm, hr⟩

end

/-- The search finds the idle loops and nothing else. -/
theorem mem_find (hq : Unambiguous q) :
    name ∈ find q ↔ ∃ count body, Holds q name count body ∧ isIdle count body = true := by
  have hreverse : (visits q).reverse = visits q.reverse := List.filterMap_reverse.symm
  have hfinds := finds_of_mem hq fun m hm => finds_members hq q m (List.mem_reverse.mp hm)
  have hadds := hfinds (fun _ _ _ h => holds_reverse.mp h) [] (fun _ h => nomatch h) name
  rw [find, hreverse, hadds]
  simp [holds_reverse]

theorem mem_find_of_holds (hq : Unambiguous q) (h : Holds q name count body) :
    name ∈ find q ↔ isIdle count body = true := by
  rw [mem_find hq]
  constructor
  · rintro ⟨count', body', h', hidle⟩
    obtain ⟨rfl, rfl⟩ := hq _ _ _ _ _ h h'
    exact hidle
  · exact fun hidle => ⟨count, body, h, hidle⟩

end Idle

/-! ## The marking -/

namespace Named

/-- The loops marked that were found. -/
def flagAll (found : List Nat) (q : List (Named ρ)) : List (Marked ρ) :=
  foldAll .act (fun name => .loop (found.contains name)) q

variable {found : List Nat}

mutual

theorem flag_eq (m : Named ρ) (h : ∀ name count body, Holds [m] name count body →
      found.contains name = Idle.isIdle count body) :
    m.fold .act (fun name => .loop (found.contains name)) = m.forget.mark := by
  cases m with
  | act a => rfl
  | loop name count body =>
    have hbody := flagAll_eq body fun n c b hin => h n c b (holds_loop.mpr (.inr hin))
    have hname := h name count body (.here List.mem_cons_self)
    rw [flagAll] at hbody
    rw [fold, hbody, hname]
    rfl

theorem flagAll_eq (q : List (Named ρ)) (h : ∀ name count body, Holds q name count body →
      found.contains name = Idle.isIdle count body) :
    flagAll found q = Program.marks (forgetAll q) := by
  cases q with
  | nil => rfl
  | cons m q =>
    have hm := flag_eq m fun n c b hin => h n c b (holds_cons.mpr (.inl hin))
    have hq := flagAll_eq q fun n c b hin => h n c b (holds_cons.mpr (.inr hin))
    rw [flagAll] at hq ⊢
    rw [foldAll, hm, hq]
    rfl

end

theorem flagAll_find {q : List (Named ρ)} (hq : Unambiguous q) :
    flagAll (Idle.find q) q = Program.marks (forgetAll q) :=
  flagAll_eq q fun name count body h => by
    rw [Bool.eq_iff_iff, List.contains_iff_mem, Idle.mem_find_of_holds hq h]

end Named

theorem markAll_eq (p : Program ρ) : markAll p = Program.marks p := by
  have hmarks := flagAll_find (Program.unambiguous_numbered p 0)
  rw [Program.forgetAll_numbered] at hmarks
  rw [markAll, Numbering.build_eq, Numbering.build_eq, foldAll_self]
  exact hmarks

end BlockGrid
