import BlockGrid.Proofs.Grid.Path
import BlockGrid.Proofs.Run.Ingestion
import BlockGrid.Tree.Blocks

/-!
# BlockGrid.Proofs.Tree.Blocks

Programs in the editor's form, read again.

* `Program.isSound` — what programs read from plain JSON are like: moves go forward, turns go left
  or right, no count is negative.
* `Program.bare`    — a program without the raw form of what was not recognized.
* `readAll_toJsonList` — the editor's form of a sound program is read as its bare one.
* `motions_bare`    — which asks for the same motions.
* `isSound_of_ofTree` — every program that plain JSON is read as is sound.
-/

namespace BlockGrid

open BlockGrid.Tree

mutual

def Command.isSound : Command Tree → Bool
  | .act (.move d) => decide (1 ≤ d)
  | .act (.turn way) => turnNames.contains way
  | .act (.unrecognized _ _) => true
  | .loop count body => decide (0 ≤ count) && Program.isSound body

def Program.isSound : List (Command Tree) → Bool
  | [] => true
  | c :: cs => c.isSound && Program.isSound cs

end

/-- The node that stands for what was not recognized. -/
def Tree.placeholder (reason : String) : Tree :=
  .obj [("cmd", .str "unrecognized"), ("reason", .str reason)]

mutual

def Command.bare : Command Tree → Command Tree
  | .act (.move d) => .act (.move d)
  | .act (.turn way) => .act (.turn way)
  | .act (.unrecognized _ reason) =>
    .act (.unrecognized (placeholder reason) ("unknown command " ++ quoted "unrecognized"))
  | .loop count body => .loop count (Program.bare body)

def Program.bare : List (Command Tree) → List (Command Tree)
  | [] => []
  | c :: cs => c.bare :: Program.bare cs

end

/-! ## Programs and their bare forms -/

section Invariants

variable {α β : Type} {f : Command Tree → α} {F : Program Tree → β}

mutual

theorem Command.bare_invariant (act : ∀ a, f (Command.bare (.act a)) = f (.act a))
    (loop : ∀ count p q, F p = F q → f (.loop count p) = f (.loop count q))
    (cons : ∀ c d p q, f c = f d → F p = F q → F (c :: p) = F (d :: q)) (c : Command Tree) :
    f c.bare = f c := by
  cases c with
  | act a => exact act a
  | loop count body =>
    have hbody := Program.bare_invariant act loop cons body
    rw [Command.bare]
    exact loop count _ _ hbody

/-- What is found of a program by way of its parts is the same of the bare one, if it is the same
of each action. -/
theorem Program.bare_invariant (act : ∀ a, f (Command.bare (.act a)) = f (.act a))
    (loop : ∀ count p q, F p = F q → f (.loop count p) = f (.loop count q))
    (cons : ∀ c d p q, f c = f d → F p = F q → F (c :: p) = F (d :: q))
    (p : List (Command Tree)) : F (Program.bare p) = F p := by
  cases p with
  | nil => rfl
  | cons c p =>
    have hc := Command.bare_invariant act loop cons c
    have hp := Program.bare_invariant act loop cons p
    rw [Program.bare]
    exact cons _ _ _ _ hc hp

end

end Invariants

theorem Program.isRegular_bare (p : Program Tree) :
    Program.isRegular (Program.bare p) = Program.isRegular p := by
  refine Program.bare_invariant (f := Command.isRegular) (fun a => ?_) ?_ ?_ p
  · cases a <;> rfl
  · intro count p q h
    rw [Command.isRegular, Command.isRegular, h]
  · intro c d p q hc hp
    rw [Program.isRegular, Program.isRegular, hc, hp]

mutual

theorem Command.isRegular_of_isSound (c : Command Tree) (h : c.isSound = true) :
    c.isRegular = true := by
  cases c with
  | act a => rfl
  | loop count body =>
    simp only [Command.isSound, Bool.and_eq_true] at h
    have hbody := Program.isRegular_of_isSound body h.2
    simp only [Command.isRegular, Bool.and_eq_true]
    exact ⟨h.1, hbody⟩

theorem Program.isRegular_of_isSound (p : List (Command Tree)) (h : Program.isSound p = true) :
    Program.isRegular p = true := by
  cases p with
  | nil => rfl
  | cons c p =>
    simp only [Program.isSound, Bool.and_eq_true] at h
    have hc := Command.isRegular_of_isSound c h.1
    have hp := Program.isRegular_of_isSound p h.2
    simp only [Program.isRegular, Bool.and_eq_true]
    exact ⟨hc, hp⟩

end

/-! ## Motions -/

theorem motionsOf_append {ρ : Type} (as bs : List (Action ρ)) :
    motionsOf (as ++ bs) = motionsOf as ++ motionsOf bs := List.filterMap_append ..

theorem motionsOf_rounds {ρ : Type} (n : Nat) (as : List (Action ρ)) :
    motionsOf (List.replicate n as).flatten = (List.replicate n (motionsOf as)).flatten := by
  induction n with
  | zero => rfl
  | succ n ih =>
    rw [List.replicate_succ, List.flatten_cons, motionsOf_append, ih, List.replicate_succ,
      List.flatten_cons]

/-- What was not recognized asks for no motion, whatever is kept of it. -/
theorem Program.motions_bare (p : Program Tree) :
    motionsOf (Program.expand (Program.bare p)) = motionsOf (Program.expand p) := by
  refine Program.bare_invariant (f := fun c => motionsOf c.expand)
    (F := fun p => motionsOf (Program.expand p)) (fun a => ?_) ?_ ?_ p
  · cases a <;> rfl
  · intro count p q h
    rw [Command.expand, Command.expand, motionsOf_rounds, motionsOf_rounds, h]
  · intro c d p q hc hp
    rw [Program.expand, Program.expand, motionsOf_append, motionsOf_append, hc, hp]

/-! ## The editor's form, read again -/

namespace Tree

variable {d count : Int} {way reason : String} {body : List Tree} {p : Program Tree}

theorem read_move (h : 1 ≤ d) :
    read (.obj [("cmd", .str "move"), ("value", .int d)]) = .ok (.act (.move d)) := by
  have htag : tag [("cmd", .str "move"), ("value", .int d)] = "move" := keyword_move
  exact read_of_done (readNode_of_means (.move htag (.int d) h))

theorem read_turn (h : turnNames.contains way = true) :
    read (.obj [("cmd", .str "turn"), ("dir", .str way)]) = .ok (.act (.turn way)) := by
  have htag : tag [("cmd", .str "turn"), ("dir", .str way)] = "turn" := keyword_turn
  have hway : way = "left" ∨ way = "right" := by simpa [turnNames] using h
  have hfield : (turnField [("cmd", .str "turn"), ("dir", .str way)]).keyword = way := by
    rcases hway with rfl | rfl
    · exact keyword_left
    · exact keyword_right
  have hmeans := Means.turn htag (hfield.symm ▸ List.contains_iff_mem.mp h)
  rw [read_of_done (readNode_of_means hmeans), hfield]

theorem read_placeholder (reason : String) :
    read (placeholder reason) = .ok (.act (.unrecognized (placeholder reason)
      ("unknown command " ++ quoted "unrecognized"))) := by
  have htag : (Tree.str "unrecognized").keyword = "unrecognized" :=
    keyword_word (by decide)
  refine read_of_done ?_
  show readTagged _ (Tree.str "unrecognized").keyword (Tree.str "unrecognized").quotedKeyword _ = _
  rw [quotedKeyword_str, htag]
  rfl

theorem read_loop (h : 0 ≤ count) (hbody : readAll body = .ok p) :
    read (.obj [("cmd", .str "repeat"), ("times", .int count), ("body", .list body)]) =
      .ok (.loop count p) := by
  have htag : tag [("cmd", .str "repeat"), ("times", .int count), ("body", .list body)] =
      "repeat" := keyword_repeat
  have hmeans : Means (.obj [("cmd", .str "repeat"), ("times", .int count), ("body", .list body)])
      (.opened count body) := .loop htag (.int count) h rfl
  rw [read_of_opened (readNode_of_means hmeans), hbody]
  rfl

end Tree

mutual

theorem Command.read_toJson (c : Command Tree) (h : c.isSound = true) :
    read (.ofJson c.toJson) = .ok c.bare := by
  cases c with
  | act a =>
    cases a with
    | move d => exact read_move (of_decide_eq_true h)
    | turn way => exact read_turn h
    | unrecognized raw reason => exact read_placeholder reason
  | loop count body =>
    simp only [Command.isSound, Bool.and_eq_true, decide_eq_true_eq] at h
    have hbody := Program.readAll_toJsonList body h.2
    rw [Command.toJson]
    exact read_loop h.1 hbody

theorem Program.readAll_toJsonList (p : List (Command Tree)) (h : Program.isSound p = true) :
    readAll (Tree.ofItems (Program.toJsonList p)) = .ok (Program.bare p) := by
  cases p with
  | nil => exact readAll_nil
  | cons c p =>
    simp only [Program.isSound, Bool.and_eq_true] at h
    have hc := Command.read_toJson c h.1
    have hp := Program.readAll_toJsonList p h.2
    rw [Program.toJsonList, Tree.ofItems, readAll_of_ok hc, hp]
    rfl

end

theorem Program.ofTree_toJsonList {p : Program Tree} (h : Program.isSound p = true) :
    Program.ofTree (.ofJson (.arr (Program.toJsonList p))) = .ok (Program.bare p) :=
  (Program.ofTree_eq _).trans (Program.readAll_toJsonList p h)

/-! ## Programs of plain JSON -/

namespace Tree

variable {v : Json} {t : Tree} {c : Command Tree} {p : Program Tree}

/-- What a field of an object of plain JSON holds is plain JSON. -/
theorem field?_ofEntries {name : String} {entries : List (String × Json)}
    (h : field? name (ofEntries entries) = some t) : ∃ v, t = .ofJson v := by
  induction entries with
  | nil => cases h
  | cons e rest ih =>
    obtain ⟨k, v⟩ := e
    rw [ofEntries, field?] at h
    split at h
    · cases h
      exact ⟨v, rfl⟩
    · exact ih h

theorem firstOf?_ofEntries {entries : List (String × Json)} {names : List String}
    (h : firstOf? (ofEntries entries) names = some t) : ∃ v, t = .ofJson v := by
  induction names with
  | nil => cases h
  | cons name names ih =>
    rw [firstOf?] at h
    split at h
    · rename_i hf
      split at h
      · exact ih h
      · cases h
        exact field?_ofEntries hf
    · exact ih h

theorem items?_ofJson {items : List Tree} (h : (ofJson v).items? = some items) :
    ∃ vs, items = ofItems vs := by
  cases v with
  | arr vs =>
    cases h
    exact ⟨vs, rfl⟩
  | _ => cases h

/-- The body of a loop of plain JSON is plain JSON. -/
theorem plain_of_opened {count : Int} {body : List Tree} (h : Means (ofJson v) (.opened count body)) :
    0 ≤ count ∧ ∃ vs, body = ofItems vs := by
  cases v with
  | obj entries =>
    rw [ofJson] at h
    cases h with
    | loop htag hcount h0 hbody =>
      refine ⟨h0, ?_⟩
      unfold bodyField at hbody
      cases hf : firstOf? (ofEntries entries) ["body", "commands", "do"] with
      | none =>
        rw [hf] at hbody
        cases hbody
        exact ⟨[], rfl⟩
      | some t =>
        obtain ⟨v, rfl⟩ := firstOf?_ofEntries hf
        rw [hf] at hbody
        exact items?_ofJson hbody
  | _ => cases h

theorem isSound_of_done (h : Means (ofJson v) (.done c)) : c.isSound = true := by
  cases v with
  | obj entries =>
    rw [ofJson] at h
    cases h with
    | move htag hd h1 => exact decide_eq_true h1
    | turn htag hway => exact List.contains_iff_mem.mpr hway
  | _ => cases h

/-- A node of plain JSON is sound if the bodies in it are. -/
theorem isSound_of_read (h : read (ofJson v) = .ok c)
    (hbody : ∀ vs p, sizeAll (ofItems vs) < (ofJson v).size → readAll (ofItems vs) = .ok p →
      Program.isSound p = true) : c.isSound = true := by
  cases nodeRead (ofJson v) with
  | @means node hm hr =>
    cases node with
    | done c' =>
      rw [read_of_done hr] at h
      cases h
      exact isSound_of_done hm
    | opened count body =>
      obtain ⟨h0, vs, rfl⟩ := plain_of_opened hm
      rw [read_of_opened hr] at h
      cases hread : readAll (ofItems vs) with
      | error e => rw [hread] at h; cases h
      | ok p =>
        rw [hread] at h
        cases h
        have hsize := sizeAll_of_opened hr
        have hp := hbody vs p (by omega) hread
        simp only [Command.isSound, Bool.and_eq_true]
        exact ⟨decide_eq_true h0, hp⟩
  | kept hno hr =>
    rw [read_of_done hr] at h
    cases h
    rfl
  | stumbles hs hr => rw [read_of_error hr] at h; cases h

theorem isSound_of_readAll (vs : List Json) (h : readAll (ofItems vs) = .ok p) :
    Program.isSound p = true := by
  induction hn : sizeAll (ofItems vs) using Nat.strongRecOn generalizing vs p with
  | ind n ih =>
    subst hn
    cases vs with
    | nil =>
      rw [ofItems, readAll_nil] at h
      cases h
      rfl
    | cons v vs =>
      rw [ofItems] at h ih
      have hpos := (ofJson v).size_pos
      cases hc : read (ofJson v) with
      | error e => rw [readAll_of_error hc] at h; cases h
      | ok c =>
        have hnode : c.isSound = true := by
          refine isSound_of_read hc fun vs' q hsize hq => ?_
          exact ih (sizeAll (ofItems vs')) (by simp only [sizeAll]; omega) vs' hq rfl
        rw [readAll_of_ok hc] at h
        cases hq : readAll (ofItems vs) with
        | error e => rw [hq] at h; cases h
        | ok q =>
          rw [hq] at h
          cases h
          have hrest := ih (sizeAll (ofItems vs)) (by simp only [sizeAll]; omega) vs hq rfl
          simp only [Program.isSound, Bool.and_eq_true]
          exact ⟨hnode, hrest⟩

end Tree

theorem Program.isSound_of_ofTree {v : Json} {p : Program Tree}
    (h : Program.ofTree (.ofJson v) = .ok p) : Program.isSound p = true := by
  rw [Program.ofTree_eq] at h
  cases v with
  | null =>
    rw [show (Tree.ofJson .null).nodes? = some (Tree.ofItems []) from rfl] at h
    exact isSound_of_readAll [] h
  | arr vs =>
    rw [show (Tree.ofJson (.arr vs)).nodes? = some (Tree.ofItems vs) from rfl] at h
    exact isSound_of_readAll vs h
  | _ => cases h

end BlockGrid
