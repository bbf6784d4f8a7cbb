import BlockGrid.Proofs.Fallible
import BlockGrid.Run.Interpreter

/-!
# BlockGrid.Proofs.Grid.Seeds

States to begin in, and the ways in which there is none.

* `Json.isBounded`      — no infinite number in a value, however deep; `isBounded_get?` and
  `isBounded_elements?`, so there is none in its members.
* `Caught`              — a computation with no errors but those that a start turns into a refusal;
  `Caught.bind` and `Caught.mapM` carry this along.
* `caught_initialState` — the reading of a state, whatever it is read from, is such a computation, but
  for infinite numbers; `isBounded_of_uncaught`.
* `Initial.Gives`       — the state that a start asks for; `initialState_ok_iff`, it has to be in the
  world.
-/

namespace BlockGrid

/-! ## Infinite numbers -/

namespace Json

mutual

def isBounded : Json → Bool
  | .float x =>
    match x.extended with
    | .infinite _ => false
    | _ => true
  | .arr items => areBounded items
  | .obj entries => membersBounded entries
  | _ => true

def areBounded : List Json → Bool
  | [] => true
  | v :: vs => isBounded v && areBounded vs

def membersBounded : List (String × Json) → Bool
  | [] => true
  | (_, v) :: es => isBounded v && membersBounded es

end

variable {v w : Json} {vs : List Json} {es : Entries}

theorem areBounded_iff : areBounded vs = true ↔ ∀ v ∈ vs, v.isBounded = true := by
  induction vs with
  | nil => exact iff_of_true rfl nofun
  | cons v vs ih => rw [areBounded, Bool.and_eq_true, ih, List.forall_mem_cons]

theorem isBounded_get? {name : String} (h : membersBounded es = true)
    (hv : es.get? name = some v) : v.isBounded = true := by
  induction es with
  | nil => cases hv
  | cons e es ih =>
    obtain ⟨k, w⟩ := e
    rw [membersBounded, Bool.and_eq_true] at h
    rw [Entries.get?] at hv
    split at hv
    · cases hv
      exact h.1
    · exact ih h.2 hv

theorem isBounded_ofText (t : LooseText) : (ofText t).isBounded = true := by
  cases t <;> rfl

/-- Letters and names are texts. -/
theorem isBounded_elements? (h : v.isBounded = true) (hvs : v.elements? = some vs) :
    ∀ w ∈ vs, w.isBounded = true := by
  cases v with
  | arr items =>
    cases hvs
    exact areBounded_iff.mp h
  | str s =>
    cases hvs
    intro w hw
    obtain ⟨c, -, rfl⟩ := List.mem_map.mp hw
    rfl
  | torn s half rest =>
    cases hvs
    intro w hw
    obtain ⟨t, -, rfl⟩ := List.mem_map.mp hw
    exact isBounded_ofText t
  | obj entries =>
    cases hvs
    intro w hw
    obtain ⟨e, -, rfl⟩ := List.mem_map.mp hw
    rfl
  | _ => cases hvs

end Json

/-- No infinite number in the state that a start brings. -/
def Initial.isBounded : Initial → Bool
  | .wire v => v.isBounded
  | _ => true

def Caught {α : Type} (x : Except ReadError α) : Prop := ∀ e, x = .error e → e.isCaught = true

namespace Caught

variable {α β : Type}

theorem ok (a : α) : Caught (.ok a) := nofun

theorem error {e : ReadError} (h : e.isCaught = true) : Caught (.error e : Except ReadError α) := by
  rintro _ ⟨⟩
  exact h

theorem bind {x : Except ReadError α} {f : α → Except ReadError β} (hx : Caught x)
    (hf : ∀ a, x = .ok a → Caught (f a)) : Caught (x >>= f) := by
  cases x with
  | error e => exact error (hx e rfl)
  | ok a => exact hf a rfl

theorem mapM {f : α → Except ReadError β} {xs : List α} (hf : ∀ a ∈ xs, Caught (f a)) :
    Caught (xs.mapM f) := by
  induction xs with
  | nil => exact ok []
  | cons x xs ih =>
    rw [List.mapM_cons]
    have hxs : Caught (xs.mapM f) := ih fun a ha => hf a (List.mem_cons_of_mem x ha)
    exact (hf x List.mem_cons_self).bind fun b _ => hxs.bind fun bs _ => ok (b :: bs)

end Caught

/-! ## Reading a state -/

theorem caught_toInteger {v : Json} (h : v.isBounded = true) : Caught v.toInteger := by
  cases v with
  | int n => exact .ok n
  | bool b => exact .ok _
  | float x =>
    rw [Json.isBounded] at h
    rw [Json.toInteger]
    cases hx : x.extended with
    | finite y => exact .ok _
    | infinite negative => rw [hx] at h; cases h
    | notANumber => exact .error rfl
  | str s =>
    rw [Json.toInteger]
    cases Text.integer? s.toList with
    | some n => exact .ok n
    | none => exact .error rfl
  | _ => exact .error rfl

theorem caught_elements (v : Json) : Caught v.elements := by
  unfold Json.elements
  split
  · exact .ok _
  · exact .error rfl

theorem caught_pair (v : Json) : Caught v.pair := by
  unfold Json.pair
  split
  · exact .ok _
  · exact .error rfl
  · exact .error rfl
  · exact .error rfl

theorem isBounded_of_elements {v : Json} {vs : List Json} (h : v.isBounded = true)
    (hvs : v.elements = .ok vs) : ∀ w ∈ vs, w.isBounded = true := by
  unfold Json.elements at hvs
  split at hvs
  · cases hvs
    exact Json.isBounded_elements? h ‹_›
  · cases hvs

theorem isBounded_of_pair {v a b : Json} (h : v.isBounded = true) (hp : v.pair = .ok (a, b)) :
    a.isBounded = true ∧ b.isBounded = true := by
  unfold Json.pair at hp
  split at hp
  · rename_i hvs
    cases hp
    have hall := Json.isBounded_elements? h hvs
    exact ⟨hall _ List.mem_cons_self, hall _ (List.mem_cons_of_mem _ List.mem_cons_self)⟩
  · cases hp
  · cases hp
  · cases hp

namespace Actor

variable {v w : Json} {entries : Entries}

theorem isBounded_either {first second : String} {default : Json}
    (h : Json.membersBounded entries = true) (hdefault : default.isBounded = true) :
    (either entries first second default).isBounded = true := by
  unfold either
  split
  · exact Json.isBounded_get? h ‹_›
  · cases hv : entries.get? second with
    | some v => exact Json.isBounded_get? h hv
    | none => exact hdefault

theorem caught_cellOf (h : v.isBounded = true) : Caught (cellOf v) := by
  have hrest {r c : Json} (hr : r.isBounded = true) (hc : c.isBounded = true) : Caught (do
      let r ← r.toInteger
      let c ← c.toInteger
      pure (r, c)) :=
    (caught_toInteger hr).bind fun r _ => (caught_toInteger hc).bind fun c _ => .ok (r, c)
  unfold cellOf
  dsimp only
  split
  · exact hrest (isBounded_either h rfl) (isBounded_either h rfl)
  · refine (caught_pair _).bind fun cell hcell => ?_
    obtain ⟨hr, hc⟩ := isBounded_of_pair h hcell
    exact hrest hr hc

theorem caught_cellsOf (h : v.isBounded = true) : Caught (cellsOf v) := by
  unfold cellsOf
  split
  · exact (caught_elements v).bind fun items hitems =>
      .mapM fun w hw => caught_cellOf (isBounded_of_elements h hitems w hw)
  · exact .ok []

theorem caught_member (entries : Entries) (name : String) : Caught (member entries name) := by
  unfold member
  split
  · exact .ok _
  · exact .error rfl

theorem isBounded_of_member {name : String} (h : Json.membersBounded entries = true)
    (hv : member entries name = .ok v) : v.isBounded = true := by
  unfold member at hv
  split at hv
  · cases hv
    exact Json.isBounded_get? h ‹_›
  · cases hv

theorem caught_fieldsOf (h : Json.membersBounded entries = true) (direction : String) :
    Caught (fieldsOf entries direction) := by
  have hbody : ((entries.get? "body").getD .null).isBounded = true := by
    cases hv : entries.get? "body" with
    | some v => exact Json.isBounded_get? h hv
    | none => rfl
  refine (caught_member entries "row").bind fun row hrow => ?_
  refine (caught_toInteger (isBounded_of_member h hrow)).bind fun _ _ => ?_
  refine (caught_member entries "col").bind fun col hcol => ?_
  refine (caught_toInteger (isBounded_of_member h hcol)).bind fun _ _ => ?_
  refine (caught_cellsOf hbody).bind fun _ _ => ?_
  refine (caught_cellsOf (isBounded_either h rfl)).bind fun _ _ => ?_
  exact (caught_toInteger (isBounded_either h rfl)).bind fun _ _ => .ok _

theorem caught_ofEntries {e : StateError} (hbounded : Json.membersBounded entries = true)
    (h : ofEntries entries = .error e) : e.isCaught = true := by
  rw [ofEntries] at h
  split at h
  · split at h
    · obtain ⟨d, hd, rfl⟩ := exists_of_mapError_eq_error h
      exact caught_fieldsOf hbounded _ d hd
    · cases h
      rfl
  · cases h
    rfl

/-- What is no object is refused before it is asked for its members. -/
theorem caught_ofSeed {e : StateError} (hbounded : v.isBounded = true) (h : ofSeed v = .error e) :
    e.isCaught = true := by
  cases v with
  | obj entries => exact caught_ofEntries hbounded h
  | _ => cases h; rfl

theorem ofSeed_ok_iff {a : Actor} : ofSeed v = .ok a ↔ ofJson v = .ok a := by
  cases v with
  | obj entries => exact Iff.rfl
  | _ => exact iff_of_false nofun nofun

end Actor

/-! ## Where a start begins -/

/-- The state that a start asks for: the one that it brings, as it is or in travelling form, else
the one last seen, else the declared start. -/
inductive Initial.Gives (i : Interpreter) (w : World) : Initial → Actor → Prop where
  | actor (a : Actor) : Gives i w (.actor a) a
  | wire {v : Json} {a : Actor} : Actor.ofJson v = .ok a → Gives i w (.wire v) a
  | seen {a : Actor} : i.state = some a → Gives i w .unset a
  | declared : i.state = none → Gives i w .unset w.reset

namespace Interpreter

variable {i : Interpreter} {w : World} {initial : Initial} {a : Actor} {e : StateError}

theorem resolve_ok_iff : initial.resolve i w = .ok a ↔ initial.Gives i w a := by
  cases initial with
  | actor b =>
    constructor
    · rintro ⟨⟩
      exact .actor a
    · rintro ⟨⟩
      rfl
  | wire v =>
    rw [Initial.resolve, Actor.ofSeed_ok_iff]
    constructor
    · exact .wire
    · rintro ⟨⟩
      assumption
  | unset =>
    rw [Initial.resolve, Except.ok.injEq]
    constructor
    · rintro rfl
      cases hs : i.state with
      | none => exact .declared hs
      | some b => exact .seen hs
    · rintro (⟨⟩ | ⟨⟩ | hs | hs)
      · rw [hs]; rfl
      · rw [hs]; rfl

theorem initialState_ok_iff :
    i.initialState w initial = .ok a ↔ initial.Gives i w a ∧ w.contains a = true := by
  unfold initialState
  rw [← resolve_ok_iff]
  cases initial.resolve i w with
  | error e => exact iff_of_false nofun fun h => nomatch h.1
  | ok b =>
    show (if w.contains b then pure b else throw _ : Except StateError Actor) = .ok a ↔ _
    rw [Except.ok.injEq]
    by_cases hb : w.contains b = true
    · rw [if_pos hb]
      constructor
      · rintro ⟨⟩
        exact ⟨rfl, hb⟩
      · rintro ⟨rfl, -⟩
        rfl
    · rw [if_neg hb]
      refine iff_of_false nofun ?_
      rintro ⟨rfl, ha⟩
      exact hb ha

theorem initialState_error_iff : (∃ e, i.initialState w initial = .error e) ↔
    ∀ a, initial.Gives i w a → w.contains a = false := by
  have hnone : (∃ e, i.initialState w initial = .error e) ↔
      ∀ a, i.initialState w initial ≠ .ok a := by
    cases i.initialState w initial <;> simp
  rw [hnone]
  refine forall_congr' fun a => ?_
  rw [ne_eq, initialState_ok_iff, not_and, Bool.not_eq_true]

/-- Nothing but what a start catches comes out of the reading of its state. -/
theorem caught_initialState (hbounded : initial.isBounded = true)
    (h : i.initialState w initial = .error e) : e.isCaught = true := by
  unfold initialState at h
  cases hr : initial.resolve i w with
  | error d =>
    rw [hr] at h
    cases h
    cases initial with
    | wire v => exact Actor.caught_ofSeed hbounded hr
    | actor b => cases hr
    | unset => cases hr
  | ok b =>
    rw [hr] at h
    change (if w.contains b then pure b else throw _ : Except StateError Actor) = .error e at h
    split at h
    · cases h
    · cases h
      rfl

theorem isBounded_of_uncaught (h : i.initialState w initial = .error e)
    (he : e.isCaught = false) : initial.isBounded = false := by
  cases hbounded : initial.isBounded with
  | false => rfl
  | true => cases he.symm.trans (caught_initialState hbounded h)

end Interpreter

end BlockGrid
