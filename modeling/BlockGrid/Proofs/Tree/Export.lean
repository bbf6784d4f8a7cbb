import BlockGrid.Proofs.Command.Count
import BlockGrid.Proofs.Command.Effects
import BlockGrid.Proofs.Tree.Spelling

/-!
# BlockGrid.Proofs.Tree.Export

Programs written out in the editor's form and read again.

* `Program.bare_of_isPlain` — where everything was recognized the program comes back as it was.
* `kinds_bare`, `weight_bare`, `size_bare` — what was not recognized still takes its place: the
  effects are of the same kinds, and the counts are the same.
* `Tree.resaved`        — a tree read, and its program written out.
* `exported_reads_back` — all of it, and that a second round changes nothing more.
-/

namespace BlockGrid

mutual

theorem Command.bare_of_isPlain (c : Command Tree) (h : c.isPlain = true) : c.bare = c := by
  cases c with
  | act a =>
    cases a with
    | move d => rfl
    | turn way => rfl
    | unrecognized raw reason => cases h
  | loop count body =>
    have hbody := Program.bare_of_isPlain body h
    rw [Command.bare, hbody]

theorem Program.bare_of_isPlain (p : List (Command Tree)) (h : Program.isPlain p = true) :
    Program.bare p = p := by
  cases p with
  | nil => rfl
  | cons c p =>
    simp only [Program.isPlain, Bool.and_eq_true] at h
    have hc := Command.bare_of_isPlain c h.1
    have hp := Program.bare_of_isPlain p h.2
    rw [Program.bare, hc, hp]

end

/-! ## What stays the same -/

namespace Program

theorem kinds_bare (p : Program Tree) :
    (effects (bare p)).map Prod.fst = (effects p).map Prod.fst := by
  refine bare_invariant (f := fun c => c.effects.map Prod.fst)
    (F := fun p => (effects p).map Prod.fst) (fun a => ?_) ?_ ?_ p
  · cases a <;> rfl
  · intro count p q h
    rw [Command.effects, Command.effects, List.map_flatten, List.map_flatten, List.map_replicate,
      List.map_replicate, h]
  · intro c d p q hc hp
    rw [effects, effects, List.map_append, List.map_append, hc, hp]

theorem weight_bare (p : Program Tree) : weight (bare p) = weight p := by
  refine bare_invariant (f := Command.weight) (fun a => ?_) ?_ ?_ p
  · cases a <;> rfl
  · intro count p q h
    rw [Command.weight, Command.weight, h]
  · intro c d p q hc hp
    rw [weight, weight, hc, hp]

theorem size_bare (p : Program Tree) : size (bare p) = size p := by
  refine bare_invariant (f := Command.size) (fun a => ?_) ?_ ?_ p
  · cases a <;> rfl
  · intro count p q h
    rw [Command.size, Command.size, h]
  · intro c d p q hc hp
    rw [size, size, hc, hp]

theorem isSound_bare (p : Program Tree) : isSound (bare p) = isSound p := by
  refine bare_invariant (f := Command.isSound) (fun a => ?_) ?_ ?_ p
  · cases a <;> rfl
  · intro count p q h
    rw [Command.isSound, Command.isSound, h]
  · intro c d p q hc hp
    rw [isSound, isSound, hc, hp]

/-- The reason of what was not recognized is lost once. What takes its place stays. -/
theorem toJsonList_bare_bare (p : Program Tree) :
    toJsonList (bare (bare p)) = toJsonList (bare p) := by
  refine bare_invariant (f := fun c => c.bare.toJson) (F := fun p => toJsonList (bare p))
    (fun a => ?_) ?_ ?_ p
  · cases a <;> rfl
  · intro count p q h
    rw [Command.bare, Command.bare, Command.toJson, Command.toJson, h]
  · intro c d p q hc hp
    rw [bare, bare, toJsonList, toJsonList, hc, hp]

end Program

/-! ## Writing out and reading again -/

/-- A tree read, and its program written out. -/
def Tree.resaved (t : Tree) : Except ProgramError Json :=
  (Program.ofTree t).map fun p => .arr (Program.toJsonList p)

open BlockGrid.Tree BlockGrid.Walker

namespace Program

theorem resaved_toJsonList {p : Program Tree} (h : isSound p = true) :
    (Tree.ofJson (.arr (toJsonList p))).resaved = .ok (.arr (toJsonList (bare p))) := by
  rw [resaved, ofTree_toJsonList h]
  rfl

/-- The editor's form of a sound program is read as the program, but for what was not recognized:
that comes back as the node that stood for it. Its effects are of the same kinds and its counts the
same. Read and written out, the form changes once at most. -/
theorem exported_reads_back (p : Program Tree) (h : isSound p = true) :
    ofTree (.ofJson (.arr (toJsonList p))) = .ok (bare p) ∧
    (∀ raw reason, Command.bare (.act (.unrecognized raw reason)) =
      .act (.unrecognized (.obj [("cmd", .str "unrecognized"), ("reason", .str reason)])
        "unknown command 'unrecognized'")) ∧
    (isPlain p = true → bare p = p) ∧
    (∀ es es', Walks (.ofProgram p) es → Walks (.ofProgram (bare p)) es' →
      es'.map Prod.fst = es.map Prod.fst) ∧
    countEffects (bare p) = countEffects p ∧
    countBlocks (bare p) = countBlocks p ∧
    ∃ v, (Tree.ofJson (.arr (toJsonList p))).resaved = .ok v ∧
      (Tree.ofJson v).resaved = .ok v := by
  have hreg := isRegular_of_isSound p h
  have hreg' : isRegular (bare p) = true := (isRegular_bare p).trans hreg
  have hsound' : isSound (bare p) = true := (isSound_bare p).trans h
  refine ⟨ofTree_toJsonList h, fun raw reason => ?_, bare_of_isPlain p, ?_, ?_, ?_,
    .arr (toJsonList (bare p)), resaved_toJsonList h, ?_⟩
  · have htext : "unknown command " ++ quoted "unrecognized" =
        "unknown command 'unrecognized'" := by decide +kernel
    rw [Command.bare, htext]
    rfl
  · intro es es' hes hes'
    rw [(walks_ofProgram hreg).mp hes, (walks_ofProgram hreg').mp hes', kinds_bare]
  · rw [countEffects_eq, countEffects_eq, weight_bare]
  · rw [countBlocks_eq, countBlocks_eq, size_bare]
  · rw [resaved_toJsonList hsound', toJsonList_bare_bare]

/-- A loop without rounds, with something unknown in it, and an empty loop. -/
def unknownInside : Program Tree :=
  [.loop 0 [.act (.unrecognized (.int 7) "command node is not an object"), .act (.turn "left")],
    .loop 3 []]

theorem exported_unknownInside : isSound unknownInside = true ∧
    ofTree (.ofJson (.arr (toJsonList unknownInside))) = .ok
      [.loop 0 [.act (.unrecognized (.obj [("cmd", .str "unrecognized"),
          ("reason", .str "command node is not an object")]) "unknown command 'unrecognized'"),
        .act (.turn "left")], .loop 3 []] := by
  have hsound : isSound unknownInside = true := by decide
  obtain ⟨hread, hbare, -⟩ := exported_reads_back unknownInside hsound
  refine ⟨hsound, hread.trans ?_⟩
  rw [← hbare (.int 7)]
  rfl

end Program

end BlockGrid
