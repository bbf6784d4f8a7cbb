import BlockGrid.Challenge.Issue
import Mathlib.Data.List.Forall2
import Mathlib.Data.Option.Basic

/-!
# BlockGrid.Proofs.Challenge.Checks

Checks of values and what they are made of.

* `both_eq_ok_iff`, `within_eq_ok_iff`, `map_eq_ok_iff` — two checks side by side, one level further
  in, and put together.
* `items_eq_ok_iff`  — a list is accepted when every item is.
* `string_eq_ok_iff` — a text, whole or torn as the check allows.
* `atLeast_eq_ok_iff` — an integer with a lower bound.
* `Entries.Grown`    — entries to which others were added, under names of their own.
* `required_congr`, `optional_congr`, `object_congr`, `list_congr`, `nullable_congr` — a check that
  answers alike on two values does so wherever it is put.
-/

namespace BlockGrid

namespace Checked

variable {α β : Type} {a : Checked α} {b : Checked β} {x : α} {y : β} {n : Int}

theorem both_eq_ok_iff : both a b = .ok (x, y) ↔ a = .ok x ∧ b = .ok y := by
  cases a with
  | error es =>
    cases b with
    | error es' => exact iff_of_false nofun nofun
    | ok y' => exact iff_of_false nofun nofun
  | ok x' =>
    cases b with
    | error es => exact iff_of_false nofun nofun
    | ok y' => simp [both]

theorem within_eq_ok_iff {place : Place} : within place a = .ok x ↔ a = .ok x := by
  cases a with
  | error es => exact iff_of_false nofun nofun
  | ok x' => exact Iff.rfl

theorem map_eq_ok_iff {f : α → β} : a.map f = .ok y ↔ ∃ x, a = .ok x ∧ f x = y := by
  cases a with
  | error es => exact iff_of_false nofun nofun
  | ok x => simp [Except.map]

theorem required_eq_ok_iff {name : String} {check : Json → Checked α} {entries : Entries} :
    required name check entries = .ok x ↔ ∃ v, entries.get? name = some v ∧ check v = .ok x := by
  rw [required, within_eq_ok_iff]
  cases entries.get? name with
  | none => exact iff_of_false nofun nofun
  | some v => simp

theorem object_eq_ok_iff {check : Entries → Checked α} {v : Json} :
    object check v = .ok x ↔ ∃ es, v = .obj es ∧ check es = .ok x := by
  cases v with
  | obj es => simp [object]
  | _ => exact iff_of_false nofun nofun

theorem items_eq_ok_iff {check : Json → Checked α} {vs : List Json} {xs : List α} (i : Nat) :
    items check i vs = .ok xs ↔ List.Forall₂ (fun v x => check v = .ok x) vs xs := by
  induction vs generalizing i xs with
  | nil =>
    rw [List.forall₂_nil_left_iff, items, Except.ok.injEq]
    exact eq_comm
  | cons v vs ih =>
    rw [items, map_eq_ok_iff]
    constructor
    · rintro ⟨⟨x, xs'⟩, hboth, rfl⟩
      obtain ⟨hx, hxs⟩ := both_eq_ok_iff.mp hboth
      exact .cons (within_eq_ok_iff.mp hx) ((ih (i + 1)).mp hxs)
    · rintro (_ | ⟨hx, hxs⟩)
      exact ⟨_, both_eq_ok_iff.mpr ⟨within_eq_ok_iff.mpr hx, (ih (i + 1)).mpr hxs⟩, rfl⟩

/-- Items that were written one by one. -/
theorem items_map {check : Json → Checked α} {f : α → Json} (h : ∀ x, check (f x) = .ok x)
    (xs : List α) (i : Nat) : items check i (xs.map f) = .ok xs := by
  rw [items_eq_ok_iff]
  exact List.forall₂_map_left_iff.mpr (List.forall₂_same.mpr fun x _ => h x)

theorem string_eq_ok_iff {strict : Bool} {v : Json} {t : LooseText} :
    string strict v = .ok t ↔ v = .ofText t ∧ (strict = true → t.isTorn = false) := by
  constructor
  · intro h
    cases v with
    | str s =>
      cases h
      exact ⟨rfl, fun _ => rfl⟩
    | torn s half rest =>
      cases strict with
      | true => cases h
      | false =>
        cases h
        exact ⟨rfl, nofun⟩
    | _ => cases h
  · rintro ⟨rfl, h⟩
    cases t with
    | whole s => rfl
    | torn s half rest =>
      cases strict with
      | true => cases h rfl
      | false => rfl

theorem atLeast_eq_ok_iff {least : Int} {fault : Fault} {v : Json} :
    atLeast least fault v = .ok n ↔ integer v = .ok n ∧ least ≤ n := by
  rw [atLeast]
  cases integer v with
  | error es => exact iff_of_false nofun nofun
  | ok m =>
    by_cases hm : m < least
    · simp only [hm, if_true]
      refine iff_of_false nofun ?_
      rintro ⟨⟨⟩, hle⟩
      omega
    · simp only [hm, if_false, Except.ok.injEq]
      refine (and_iff_left_of_imp ?_).symm
      rintro rfl
      omega

end Checked

/-! ## More entries -/

/-- Entries to which others may have been added, though none under the given names. Under other names
anything may have changed. -/
inductive Entries.Grown (names : List String) (Grows : String → Json → Json → Prop) :
    Entries → Entries → Prop where
  | nil : Grown names Grows [] []
  | kept {name : String} {v v' : Json} {es es' : Entries} :
      (name ∈ names → Grows name v v') → Grown names Grows es es' →
      Grown names Grows ((name, v) :: es) ((name, v') :: es')
  | added {name : String} {v : Json} {es es' : Entries} : name ∉ names → Grown names Grows es es' →
      Grown names Grows es ((name, v) :: es')

theorem Entries.Grown.get? {names : List String} {Grows : String → Json → Json → Prop}
    {es es' : Entries} (h : Grown names Grows es es') {name : String} (hname : name ∈ names) :
    Option.Rel (Grows name) (es.get? name) (es'.get? name) := by
  induction h with
  | nil => exact .none
  | @kept other v v' es es' hv _ ih =>
    rw [Entries.get?, Entries.get?]
    by_cases ho : other = name
    · rw [if_pos ho, if_pos ho]
      exact .some (ho ▸ hv (ho ▸ hname))
    · rw [if_neg ho, if_neg ho]
      exact ih
  | @added other v es es' hother _ ih =>
    have ho : other ≠ name := fun ho => hother (ho ▸ hname)
    show Option.Rel _ _ (if other = name then some v else Entries.get? name es')
    rw [if_neg ho]
    exact ih

/-- An object whose entries have grown. -/
inductive Json.Grown (names : List String) (Grows : String → Json → Json → Prop) :
    Json → Json → Prop where
  | same (v : Json) : Grown names Grows v v
  | object {es es' : Entries} : Entries.Grown names Grows es es' →
      Grown names Grows (.obj es) (.obj es')

/-- A list whose items have grown. -/
inductive Json.ItemsGrown (Grows : Json → Json → Prop) : Json → Json → Prop where
  | same (v : Json) : ItemsGrown Grows v v
  | list {vs vs' : List Json} : List.Forall₂ Grows vs vs' → ItemsGrown Grows (.arr vs) (.arr vs')

namespace Checked

variable {α : Type} {check : Json → Checked α} {es es' : Entries} {v v' : Json}
  {Grows : Json → Json → Prop} {name : String}

theorem required_congr (h : Option.Rel Grows (es.get? name) (es'.get? name))
    (hcheck : ∀ v v', Grows v v' → check v = check v') :
    required name check es = required name check es' := by
  rw [required, required]
  revert h
  cases es.get? name <;> cases es'.get? name <;> intro h
  · rfl
  · cases h
  · cases h
  · cases h with
    | some hv => exact congrArg (within (.name name)) (hcheck _ _ hv)

theorem optional_congr {default : α} (h : Option.Rel Grows (es.get? name) (es'.get? name))
    (hcheck : ∀ v v', Grows v v' → check v = check v') :
    optional name default check es = optional name default check es' := by
  rw [optional, optional]
  revert h
  cases es.get? name <;> cases es'.get? name <;> intro h
  · rfl
  · cases h
  · cases h
  · cases h with
    | some hv => exact congrArg (within (.name name)) (hcheck _ _ hv)

theorem object_congr {names : List String} {Grows : String → Json → Json → Prop}
    {check : Entries → Checked α} (h : Json.Grown names Grows v v')
    (hcheck : ∀ es es', Entries.Grown names Grows es es' → check es = check es') :
    object check v = object check v' := by
  cases h with
  | same => rfl
  | object hes => exact hcheck _ _ hes

theorem items_congr {vs vs' : List Json} (h : List.Forall₂ Grows vs vs')
    (hcheck : ∀ v v', Grows v v' → check v = check v') (i : Nat) :
    items check i vs = items check i vs' := by
  induction h generalizing i with
  | nil => rfl
  | cons hv _ ih => rw [items, items, hcheck _ _ hv, ih]

theorem list_congr (h : Json.ItemsGrown Grows v v')
    (hcheck : ∀ v v', Grows v v' → check v = check v') : list check v = list check v' := by
  cases h with
  | same => rfl
  | list hvs => exact items_congr hvs hcheck 0

/-- What has grown is an object as it was before. -/
theorem nullable_congr {names : List String} {Grows : String → Json → Json → Prop}
    (h : Json.Grown names Grows v v')
    (hcheck : ∀ v v', Json.Grown names Grows v v' → check v = check v') :
    nullable check v = nullable check v' := by
  cases h with
  | same => rfl
  | object hes => exact congrArg (Except.map some) (hcheck _ _ (.object hes))

end Checked

end BlockGrid
