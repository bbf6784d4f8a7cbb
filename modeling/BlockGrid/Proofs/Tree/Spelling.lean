import BlockGrid.Proofs.Number.Value
import BlockGrid.Proofs.Tree.Blocks
import BlockGrid.Proofs.Tree.Fields

/-!
# BlockGrid.Proofs.Tree.Spelling

The ways to write a program. Each node chooses for itself how its tag and its fields are written,
which of their names it uses, and whether a field with its default value is left out.

* `Tree.Writes`      — an integer as such, as decimal text, or as a double that is equal to it.
* `Tree.Field`       — a field under one of its names, or left out.
* `Tree.Spelled`     — a node and the command that it is a way to write; `Tree.Spelling`, a program.
* `spelled_toJson`   — the editor's form is one of the ways.
* `ofTree_of_spelling` — whichever is taken, the program is read.
-/

namespace BlockGrid

mutual

/-- Everything in the command was recognized. -/
def Command.isPlain {ρ : Type} : Command ρ → Bool
  | .act (.unrecognized _ _) => false
  | .act _ => true
  | .loop _ body => Program.isPlain body

def Program.isPlain {ρ : Type} : List (Command ρ) → Bool
  | [] => true
  | c :: cs => c.isPlain && Program.isPlain cs

end

namespace Tree

variable {entries : List (String × Tree)} {names : List String} {t v : Tree} {ts : List Tree}
  {n k : Int} {word : String}

/-! ## Fields -/

inductive Writes (n : Int) : Tree → Prop where
  | int : Writes n (.int n)
  | text {s : String} : Text.Padded (toString n).toList s.toList → Writes n (.str s)
  | float {x : Binary64} : x.isFinite = true → x.scaled.value = n → Writes n (.float x)

theorem spells_of_writes (h : Writes n t) : Spells t n := by
  cases h with
  | int => exact .int n
  | text hs => exact .text (Text.numeral_trim hs)
  | float hf hx => exact .float (Binary64.toInt?_eq_some_iff.mpr ⟨hf, hx⟩)

/-- A field that is written under one of its names, or is lacking under all of them because it has
its default value. -/
inductive Field (entries : List (String × Tree)) (names : List String) (IsValue : Tree → Prop)
    (isDefault : Prop) : Prop where
  | given {v : Tree} : InUse entries names v → IsValue v → Field entries names IsValue isDefault
  | omitted : isDefault → (∀ name ∈ names, Lacks entries name) →
      Field entries names IsValue isDefault

theorem spells_of_field (h : Field entries names (Writes n) (n = k)) :
    Spells ((firstOf? entries names).getD (.int k)) n := by
  cases h with
  | given hv hn =>
    rw [firstOf?_eq_some_iff.mpr hv]
    exact spells_of_writes hn
  | omitted hk hl =>
    rw [firstOf?_eq_none hl, ← hk]
    exact .int n

def Tagged (entries : List (String × Tree)) (word : String) : Prop :=
  ∃ v, field? "cmd" entries = some v ∧ Words word v

theorem tag_of_tagged (h : Tagged entries word) (hword : Text.isWord word.toList = true) :
    tag entries = word := by
  obtain ⟨v, hv, hwords⟩ := h
  rw [tag, hv]
  exact keyword_of_words hwords hword

/-- A direction that is written is not empty, so it counts. -/
theorem isTruthy_of_words (h : Words word t) (hne : word ≠ "") : t.isTruthy = true := by
  cases h with
  | @text s core hcased hpadded =>
    refine decide_eq_true fun hs : s = "" => hne (String.toList_eq_nil_iff.mp ?_)
    subst hs
    obtain ⟨before, after, happend, -⟩ := hpadded
    have hcore : core = [] := by
      have hall := List.append_eq_nil_iff.mp happend.symm
      exact (List.append_eq_nil_iff.mp hall.1).2
    rw [hcore] at hcased
    exact List.forall₂_nil_right_iff.mp hcased

theorem keyword_turnField (h : Field entries ["dir"] (Words word) (word = "right"))
    (hword : turnNames.contains word = true) : (turnField entries).keyword = word := by
  have hnames : word = "left" ∨ word = "right" := by simpa [turnNames] using hword
  have hne : word ≠ "" := by rcases hnames with rfl | rfl <;> decide
  have hletters : Text.isWord word.toList = true := by
    rcases hnames with rfl | rfl <;> decide
  cases h with
  | given hv hw =>
    rw [turnField_of_inUse hv, isTruthy_of_words hw hne]
    exact keyword_of_words hw hletters
  | omitted hright hl =>
    rw [turnField_of_lacks (hl "dir" List.mem_cons_self), hright]
    exact keyword_right

/-! ## Nodes -/

/-- The nodes that are written as the body of a loop. -/
inductive Body (entries : List (String × Tree)) : List Tree → Prop where
  | given {v : Tree} {ts : List Tree} : InUse entries ["body", "commands", "do"] v →
      v = .list ts ∨ v = .tuple ts → Body entries ts
  | omitted : (∀ name ∈ ["body", "commands", "do"], Lacks entries name) → Body entries []

theorem items?_of_body (h : Body entries ts) : (bodyField entries).items? = some ts := by
  cases h with
  | given hv hseq =>
    rw [bodyField, firstOf?_eq_some_iff.mpr hv]
    rcases hseq with rfl | rfl
    · rfl
    · rfl
  | omitted hl =>
    rw [bodyField, firstOf?_eq_none hl]
    rfl

/-- Names of other fields may be there as well, with any values. -/
inductive Spelled : Tree → Command Tree → Prop where
  | move {entries : List (String × Tree)} {d : Int} :
      Tagged entries "move" → Field entries ["value", "steps"] (Writes d) (d = 1) →
      Spelled (.obj entries) (.act (.move d))
  | turn {entries : List (String × Tree)} {way : String} :
      Tagged entries "turn" → Field entries ["dir"] (Words way) (way = "right") →
      Spelled (.obj entries) (.act (.turn way))
  | loop {entries : List (String × Tree)} {n : Int} {ts : List Tree} {p : Program Tree} :
      Tagged entries "repeat" → Field entries ["times"] (Writes n) (n = 1) → Body entries ts →
      List.Forall₂ Spelled ts p → Spelled (.obj entries) (.loop n p)

/-- A program as a list or a tuple of nodes. Null stands for the empty one. -/
inductive Spelling : Tree → Program Tree → Prop where
  | list {ts : List Tree} {p : Program Tree} : List.Forall₂ Spelled ts p → Spelling (.list ts) p
  | tuple {ts : List Tree} {p : Program Tree} : List.Forall₂ Spelled ts p → Spelling (.tuple ts) p
  | null : Spelling .null []

end Tree

open BlockGrid.Tree

mutual

theorem Command.read_of_spelled (c : Command Tree) (hc : c.isSound = true) (t : Tree)
    (h : Spelled t c) : read t = .ok c := by
  cases c with
  | act a =>
    cases h with
    | move htag hd =>
      have htag := tag_of_tagged htag (by decide)
      exact read_of_done (readNode_of_means
        (.move htag (spells_of_field hd) (of_decide_eq_true hc)))
    | turn htag hway =>
      have htag := tag_of_tagged htag (by decide)
      have hfield := keyword_turnField hway hc
      have hmeans := Means.turn htag (hfield.symm ▸ List.contains_iff_mem.mp hc)
      rw [read_of_done (readNode_of_means hmeans), hfield]
  | loop n body =>
    simp only [Command.isSound, Bool.and_eq_true, decide_eq_true_eq] at hc
    cases h with
    | loop htag hn hbody hnodes =>
      have htag := tag_of_tagged htag (by decide)
      have hread := Program.readAll_of_spelled body hc.2 _ hnodes
      rw [read_of_opened (readNode_of_means
        (.loop htag (spells_of_field hn) hc.1 (items?_of_body hbody))), hread]
      rfl

theorem Program.readAll_of_spelled (p : List (Command Tree)) (hp : Program.isSound p = true)
    (ts : List Tree) (h : List.Forall₂ Spelled ts p) : readAll ts = .ok p := by
  cases p with
  | nil =>
    cases h
    exact readAll_nil
  | cons c p =>
    simp only [Program.isSound, Bool.and_eq_true] at hp
    cases h with
    | @cons t _ ts _ hc hrest =>
      have hread := Command.read_of_spelled c hp.1 t hc
      have hreads := Program.readAll_of_spelled p hp.2 ts hrest
      rw [readAll_of_ok hread, hreads]
      rfl

end

/-! ## The editor's form -/

mutual

theorem Command.spelled_toJson (c : Command Tree) (h : c.isPlain = true) :
    Spelled (.ofJson c.toJson) c := by
  cases c with
  | act a =>
    cases a with
    | move d => exact .move ⟨_, rfl, words_self "move"⟩ (.given (.here rfl nofun) .int)
    | turn way =>
      exact .turn ⟨_, rfl, words_self "turn"⟩ (.given (.here rfl nofun) (words_self way))
    | unrecognized raw reason => cases h
  | loop n body =>
    have hbody := Program.spelled_toJsonList body h
    rw [Command.toJson]
    exact .loop ⟨_, rfl, words_self "repeat"⟩ (.given (.here rfl nofun) .int)
      (.given (.here rfl nofun) (.inl rfl)) hbody

theorem Program.spelled_toJsonList (p : List (Command Tree)) (h : Program.isPlain p = true) :
    List.Forall₂ Spelled (Tree.ofItems (Program.toJsonList p)) p := by
  cases p with
  | nil => exact .nil
  | cons c p =>
    simp only [Program.isPlain, Bool.and_eq_true] at h
    have hc := Command.spelled_toJson c h.1
    have hp := Program.spelled_toJsonList p h.2
    rw [Program.toJsonList, Tree.ofItems]
    exact .cons hc hp

end

/-! ## Programs -/

namespace Program

/-- A sound program in which everything was recognized can be written, in the editor's form at
least, and is read again however it was written. -/
theorem ofTree_of_spelling (p : Program Tree) (hsound : isSound p = true)
    (hplain : isPlain p = true) :
    Spelling (.ofJson (.arr (toJsonList p))) p ∧ ∀ t, Spelling t p → ofTree t = .ok p := by
  refine ⟨.list (spelled_toJsonList p hplain), fun t ht => ?_⟩
  cases ht with
  | list hts => exact (ofTree_of_nodes rfl).trans (readAll_of_spelled p hsound _ hts)
  | tuple hts => exact (ofTree_of_nodes rfl).trans (readAll_of_spelled p hsound _ hts)
  | null => exact (ofTree_of_nodes rfl).trans readAll_nil

/-- Three steps, then twice a turn to the right and a step. -/
def corner : Program Tree :=
  [.act (.move 3), .loop 2 [.act (.turn "right"), .act (.move 1)]]

/-- The same in capitals, with text and a double for numbers, under other names, and with what can
be left out left out. -/
def writtenCorner : Tree :=
  .tuple [
    .obj [("cmd", .str " MOVE"), ("value", .null), ("steps", .str "3\t")],
    .obj [("times", .float ⟨0x4000000000000000⟩), ("cmd", .str "Repeat"), ("do", .tuple [
      .obj [("cmd", .str "turn")],
      .obj [("cmd", .str "move"), ("dir", .int 7)]])]]

theorem spelling_writtenCorner : Spelling writtenCorner corner := by
  have hcapitals : Text.Cased "move".toList "MOVE".toList := by simp [Text.Cased]
  have hcapital : Text.Cased "repeat".toList "Repeat".toList := by simp [Text.Cased]
  have hmove : Words "move" (.str " MOVE") :=
    .text hcapitals ⟨[' '], [], rfl, List.forall_mem_singleton.mpr (by decide +kernel),
      List.forall_mem_nil _⟩
  have hthree : Writes 3 (.str "3\t") :=
    .text ⟨[], ['\t'], rfl, List.forall_mem_nil _,
      List.forall_mem_singleton.mpr (by decide +kernel)⟩
  have hrepeat : Words "repeat" (.str "Repeat") := .text hcapital (Text.Padded.refl _)
  have htwo : Writes 2 (.float ⟨0x4000000000000000⟩) :=
    .float (by decide) (Scaled.value_eq_iff.mpr (by decide +kernel))
  refine .tuple (.cons ?_ (.cons ?_ .nil))
  · exact .move ⟨_, rfl, hmove⟩ (.given (.later (.inr rfl) (.here rfl (by simp))) hthree)
  · refine .loop ⟨_, rfl, hrepeat⟩ (.given (.here rfl (by simp)) htwo)
      (.given (.later (.inl rfl) (.later (.inl rfl) (.here rfl (by simp)))) (.inr rfl))
      (.cons ?_ (.cons ?_ .nil))
    · exact .turn ⟨_, rfl, words_self "turn"⟩ (.omitted rfl (by simp [Lacks, field?]))
    · exact .move ⟨_, rfl, words_self "move"⟩ (.omitted rfl (by simp [Lacks, field?]))

theorem ofTree_writtenCorner : isSound corner = true ∧ isPlain corner = true ∧
    Spelling writtenCorner corner ∧ ofTree writtenCorner = .ok corner := by
  have hsound : isSound corner = true := by decide
  have hplain : isPlain corner = true := by decide
  exact ⟨hsound, hplain, spelling_writtenCorner,
    (ofTree_of_spelling corner hsound hplain).2 _ spelling_writtenCorner⟩

end Program

end BlockGrid
