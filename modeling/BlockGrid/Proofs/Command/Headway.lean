import BlockGrid.Proofs.Command.Effects

/-!
# BlockGrid.Proofs.Command.Headway

A walk makes headway, however large the counts and the distances are.

* `Walker.Quiet`   — all that a move without an action can be.
* `Walker.Runs`    — the walkers that a walker comes to, with the actions handed out on the way.
* `Walker.Round`   — the walkers within one time round a loop, with the actions handed out since the
  round began.
* `Walker.wait`    — how many moves there are before the next action. A move without one lessens it,
  and it depends on the sizes of the open bodies alone.
* `Walker.Lively`  — the invariant behind both: nothing but the program itself is open that could be
  gone round without an action.
* `rounds_hand_out` — no round ends without an action, and the next action or the end comes within
  a number of moves that the size of the program bounds.
-/

namespace BlockGrid

variable {ρ : Type}

/-! ## Marked commands -/

mutual

def Marked.size : Marked ρ → Nat
  | .act _ => 1
  | .loop _ _ body => 1 + Marked.sizeAll body

def Marked.sizeAll : List (Marked ρ) → Nat
  | [] => 0
  | m :: ms => m.size + Marked.sizeAll ms

end

mutual

/-- Whatever is entered in the command comes to an action. -/
def Marked.isBrisk : Marked ρ → Bool
  | .act a => decide (0 < a.repeats)
  | .loop idle _ body => idle || (!body.all Marked.isIdle && Marked.areBrisk body)

def Marked.areBrisk : List (Marked ρ) → Bool
  | [] => true
  | m :: ms => m.isBrisk && Marked.areBrisk ms

end

mutual

/-- How many moves are made in the command before its first action, or before it is passed over. -/
def Marked.lead : Marked ρ → Nat
  | .act _ => 1
  | .loop idle _ body => 1 + if idle then 0 else Marked.leadAll body

def Marked.leadAll : List (Marked ρ) → Nat
  | [] => 0
  | m :: ms => m.lead + if m.isIdle then Marked.leadAll ms else 0

end

namespace Marked

variable {m : Marked ρ} {ms ns : List (Marked ρ)}

theorem areBrisk_iff : areBrisk ms = true ↔ ∀ m ∈ ms, m.isBrisk = true := by
  induction ms with
  | nil => exact iff_of_true rfl (List.forall_mem_nil _)
  | cons m ms ih => rw [areBrisk, Bool.and_eq_true, ih, List.forall_mem_cons]

theorem isBrisk_loop {count : Int} (h : (loop false count ms).isBrisk = true) :
    ms.all isIdle = false ∧ areBrisk ms = true := by
  simpa only [isBrisk, Bool.false_or, Bool.and_eq_true, Bool.not_eq_true'] using h

theorem sizeAll_le_of_suffix (h : ns <:+ ms) : sizeAll ns ≤ sizeAll ms := by
  obtain ⟨before, rfl⟩ := h
  induction before with
  | nil => exact Nat.le_refl _
  | cons m before ih => rw [List.cons_append, sizeAll]; omega

mutual

theorem lead_le (m : Marked ρ) : m.lead ≤ m.size := by
  cases m with
  | act a => exact Nat.le_refl 1
  | loop idle count body =>
    have hbody := leadAll_le body
    rw [lead, size]
    split <;> omega

theorem leadAll_le (ms : List (Marked ρ)) : leadAll ms ≤ sizeAll ms := by
  cases ms with
  | nil => exact Nat.le_refl 0
  | cons m ms =>
    have hm := lead_le m
    have hms := leadAll_le ms
    rw [leadAll, sizeAll]
    split <;> omega

end

mutual

theorem expand_ne_nil (m : Marked ρ) (hbrisk : m.isBrisk = true) (hidle : m.isIdle = false) :
    m.expand ≠ [] := by
  cases m with
  | act a =>
    rw [isBrisk, decide_eq_true_eq] at hbrisk
    rw [expand, ne_eq, List.replicate_eq_nil_iff]
    omega
  | loop idle count body =>
    cases hidle
    obtain ⟨hlively, hbody⟩ := isBrisk_loop hbrisk
    have hne := expandAll_ne_nil body hbody hlively
    rw [expand, if_neg Bool.false_ne_true, List.replicate_succ, List.flatten_cons]
    exact fun h => hne (List.append_eq_nil_iff.mp h).1

/-- Not all of it is passed over, so there is an action in it. -/
theorem expandAll_ne_nil (ms : List (Marked ρ)) (hbrisk : areBrisk ms = true)
    (hlively : ms.all isIdle = false) : expandAll ms ≠ [] := by
  cases ms with
  | nil => cases hlively
  | cons m ms =>
    rw [areBrisk, Bool.and_eq_true] at hbrisk
    rw [expandAll, ne_eq, List.append_eq_nil_iff]
    rintro ⟨hm, hms⟩
    cases hidle : m.isIdle with
    | false => exact expand_ne_nil m hbrisk.1 hidle hm
    | true =>
      rw [List.all_cons, hidle, Bool.true_and] at hlively
      exact expandAll_ne_nil ms hbrisk.2 hlively hms

end

end Marked

mutual

theorem Command.size_mark (c : Command ρ) : c.mark.size = c.size := by
  cases c with
  | act a => rfl
  | loop count body =>
    have hbody := Program.sizeAll_marks body
    rw [Command.mark, Marked.ofLoop, Marked.size, Command.size, hbody]

theorem Program.sizeAll_marks (p : List (Command ρ)) :
    Marked.sizeAll (Program.marks p) = Program.size p := by
  cases p with
  | nil => rfl
  | cons c p =>
    have hc := Command.size_mark c
    have hp := Program.sizeAll_marks p
    rw [Program.marks, Marked.sizeAll, Program.size, hc, hp]

end

mutual

theorem Command.isBrisk_mark (c : Command ρ) (h : c.strides 1 = true) : c.mark.isBrisk = true := by
  cases c with
  | act a =>
    rw [Command.mark, Marked.isBrisk, decide_eq_true_eq]
    cases a with
    | move d =>
      rw [Command.strides, decide_eq_true_eq] at h
      rw [Action.repeats]
      omega
    | turn way => exact Nat.zero_lt_one
    | unrecognized raw reason => exact Nat.zero_lt_one
  | loop count body =>
    rw [Command.strides, Bool.and_eq_true] at h
    have hbody := Program.areBrisk_marks body h.2
    rw [Command.mark, Marked.ofLoop, Marked.isBrisk, hbody]
    cases (Program.marks body).all Marked.isIdle <;> simp

/-- The marking leaves nothing to be entered in vain. -/
theorem Program.areBrisk_marks (p : List (Command ρ)) (h : Program.strides 1 p = true) :
    Marked.areBrisk (Program.marks p) = true := by
  cases p with
  | nil => rfl
  | cons c p =>
    rw [Program.strides, Bool.and_eq_true] at h
    have hc := Command.isBrisk_mark c h.1
    have hp := Program.areBrisk_marks p h.2
    rw [Program.marks, Marked.areBrisk, hc, hp]
    rfl

end

namespace Walker

/-! ## Moves -/

/-- A move that hands out nothing. -/
inductive Quiet : Walker ρ → Walker ρ → Prop where
  | exhausted (a : Action ρ) (fs : List (Frame ρ)) : Quiet ⟨some (a, 0), fs⟩ ⟨none, fs⟩
  | again (body : List (Marked ρ)) (k : Nat) (fs : List (Frame ρ)) :
      Quiet ⟨none, ⟨body, [], k + 1⟩ :: fs⟩ ⟨none, ⟨body, body, k⟩ :: fs⟩
  | close (body : List (Marked ρ)) (fs : List (Frame ρ)) :
      Quiet ⟨none, ⟨body, [], 0⟩ :: fs⟩ ⟨none, fs⟩
  | take (a : Action ρ) (body rest : List (Marked ρ)) (k : Nat) (fs : List (Frame ρ)) :
      Quiet ⟨none, ⟨body, .act a :: rest, k⟩ :: fs⟩ ⟨some (a, a.repeats), ⟨body, rest, k⟩ :: fs⟩
  | pass (count : Int) (inner body rest : List (Marked ρ)) (k : Nat) (fs : List (Frame ρ)) :
      Quiet ⟨none, ⟨body, .loop true count inner :: rest, k⟩ :: fs⟩ ⟨none, ⟨body, rest, k⟩ :: fs⟩
  | enter (count : Int) (inner body rest : List (Marked ρ)) (k : Nat) (fs : List (Frame ρ)) :
      Quiet ⟨none, ⟨body, .loop false count inner :: rest, k⟩ :: fs⟩
        ⟨none, ⟨inner, inner, roundsAfterFirst count⟩ :: ⟨body, rest, k⟩ :: fs⟩

variable {w w' : Walker ρ} {a : Action ρ}

theorem quiet_of_step (h : w.step = .silent w') : Quiet w w' := by
  obtain ⟨pending, frames⟩ := w
  rcases pending with _ | ⟨a, _ | n⟩
  · rcases frames with _ | ⟨⟨body, rest, again⟩, frames⟩
    · cases h
    rcases rest with _ | ⟨m, rest⟩
    · cases again with
      | zero => cases h; exact .close body frames
      | succ k => cases h; exact .again body k frames
    cases m with
    | act a => cases h; exact .take a body rest again frames
    | loop idle count inner =>
      cases idle with
      | true => cases h; exact .pass count inner body rest again frames
      | false => cases h; exact .enter count inner body rest again frames
  · cases h; exact .exhausted a frames
  · cases h

/-- Handing out an action leaves the frames as they are, and nothing due that is done already. -/
theorem frames_of_emit (h : w.step = .emit a w') :
    w'.frames = w.frames ∧ ∀ b n, w'.pending = some (b, n) → n ≠ 0 := by
  obtain ⟨pending, frames⟩ := w
  rcases pending with _ | ⟨b, _ | n⟩
  · rcases frames with _ | ⟨⟨body, _ | ⟨m, rest⟩, again⟩, frames⟩
    · cases h
    · cases again <;> cases h
    cases m with
    | act b => cases h
    | loop idle count inner => cases idle <;> cases h
  · cases h
  · simp only [step, emitting, Move.emit.injEq] at h
    obtain ⟨-, rfl⟩ := h
    refine ⟨rfl, fun b k hk => ?_⟩
    by_cases hn : n = 0
    · simp [hn] at hk
    · simp only [if_neg hn, Option.some.injEq, Prod.mk.injEq] at hk
      exact hk.2 ▸ hn

/-! ## The invariant -/

/-- Moves before the next action or the end, where no action is due. -/
def framesWait : List (Frame ρ) → Nat
  | [] => 0
  | f :: fs => Marked.leadAll f.rest +
    if f.rest.all Marked.isIdle then
      1 + if f.again = 0 then framesWait fs else Marked.leadAll f.body
    else 0

def wait (w : Walker ρ) : Nat :=
  match w.pending with
  | none => framesWait w.frames
  | some _ => 0

/-- The size of all that is left of the current rounds. -/
def span : List (Frame ρ) → Nat
  | [] => 0
  | f :: fs => Marked.sizeAll f.rest + 1 + span fs

/-- An open frame with what is around it, in a program of a given size. Only the program itself may
be gone through without an action, and it is gone through once. -/
structure Fits (size : Nat) (f : Frame ρ) (below : List (Frame ρ)) : Prop where
  brisk : Marked.areBrisk f.body = true
  suffix : f.rest <:+ f.body
  lively : below = [] ∧ f.again = 0 ∨ f.body.all Marked.isIdle = false
  room : Marked.sizeAll f.body + span below ≤ size

def AllFit (size : Nat) (fs : List (Frame ρ)) : Prop :=
  ∀ f below, f :: below <:+ fs → Fits size f below

structure Lively (size : Nat) (w : Walker ρ) : Prop where
  due : ∀ a n, w.pending = some (a, n) → n ≠ 0
  frames : AllFit size w.frames

section Frames

variable {size : Nat} {f : Frame ρ} {fs : List (Frame ρ)}

theorem allFit_cons_iff : AllFit size (f :: fs) ↔ Fits size f fs ∧ AllFit size fs := by
  simp only [AllFit, List.suffix_cons_iff, List.cons.injEq]
  constructor
  · intro h
    exact ⟨h f fs (.inl ⟨rfl, rfl⟩), fun g below hg => h g below (.inr hg)⟩
  · rintro ⟨hf, hfs⟩ g below (⟨rfl, rfl⟩ | hg)
    · exact hf
    · exact hfs g below hg

/-- Each rest is gone through once, and at most one body from its beginning. -/
theorem framesWait_le (h : AllFit size fs) : framesWait fs ≤ span fs + size := by
  induction fs with
  | nil => exact Nat.zero_le _
  | cons f fs ih =>
    obtain ⟨hf, hfs⟩ := allFit_cons_iff.mp h
    have hrest := Marked.leadAll_le f.rest
    have hbody := Marked.leadAll_le f.body
    have hroom := hf.room
    have hbelow := ih hfs
    rw [framesWait, span]
    split
    · split <;> omega
    · omega

theorem span_le (h : AllFit size fs) : span fs ≤ size + 1 := by
  cases fs with
  | nil => exact Nat.zero_le _
  | cons f fs =>
    have hf := (allFit_cons_iff.mp h).1
    have hrest := Marked.sizeAll_le_of_suffix hf.suffix
    have hroom := hf.room
    rw [span]
    omega

theorem Fits.rest {m : Marked ρ} {body rest : List (Marked ρ)} {k : Nat}
    (h : Fits size ⟨body, m :: rest, k⟩ fs) : Fits size ⟨body, rest, k⟩ fs :=
  ⟨h.brisk, (List.suffix_cons m rest).trans h.suffix, h.lively, h.room⟩

/-- A loop that is entered is not gone round without an action. -/
theorem Fits.inner {count : Int} {inner body rest : List (Marked ρ)} {k : Nat}
    (h : Fits size ⟨body, .loop false count inner :: rest, k⟩ fs) :
    Fits size ⟨inner, inner, roundsAfterFirst count⟩ (⟨body, rest, k⟩ :: fs) := by
  have hmem : Marked.loop false count inner ∈ body := h.suffix.subset List.mem_cons_self
  obtain ⟨hlively, hbrisk⟩ := Marked.isBrisk_loop (Marked.areBrisk_iff.mp h.brisk _ hmem)
  refine ⟨hbrisk, List.suffix_refl _, .inr hlively, ?_⟩
  have hsize := Marked.sizeAll_le_of_suffix h.suffix
  have hroom := h.room
  simp only [Marked.sizeAll, Marked.size] at hsize hroom
  simp only [span]
  omega

end Frames

section Moves

variable {size : Nat} {v w w' : Walker ρ} {a : Action ρ} {es : List (Action ρ)}

theorem lively_of_frames {fs : List (Frame ρ)} (h : AllFit size fs) : Lively size ⟨none, fs⟩ where
  due a n hn := by cases hn
  frames := h

/-- A move without an action keeps the invariant and brings the next action nearer. -/
theorem Lively.quiet (h : Lively size w) (hq : Quiet w w') :
    Lively size w' ∧ w'.wait < w.wait := by
  cases hq with
  | exhausted a fs => exact absurd rfl (h.due a 0 rfl)
  | again body k fs =>
    obtain ⟨hf, hfs⟩ := allFit_cons_iff.mp h.frames
    have hlively : body.all Marked.isIdle = false :=
      hf.lively.resolve_left fun hroot => absurd hroot.2 (Nat.succ_ne_zero k)
    refine ⟨lively_of_frames (allFit_cons_iff.mpr ⟨?_, hfs⟩), ?_⟩
    · exact ⟨hf.brisk, List.suffix_refl _, .inr hlively, hf.room⟩
    · simp [wait, framesWait, hlively, Marked.leadAll]
  | close body fs =>
    refine ⟨lively_of_frames (allFit_cons_iff.mp h.frames).2, ?_⟩
    simp [wait, framesWait, Marked.leadAll]
  | take a body rest k fs =>
    obtain ⟨hf, hfs⟩ := allFit_cons_iff.mp h.frames
    have hmem : Marked.act a ∈ body := hf.suffix.subset List.mem_cons_self
    have hbrisk := Marked.areBrisk_iff.mp hf.brisk _ hmem
    rw [Marked.isBrisk, decide_eq_true_eq] at hbrisk
    refine ⟨⟨fun b n hn => ?_, allFit_cons_iff.mpr ⟨hf.rest, hfs⟩⟩, ?_⟩
    · cases hn
      exact Nat.pos_iff_ne_zero.mp hbrisk
    · simp only [wait, framesWait, Marked.leadAll, Marked.lead]
      omega
  | pass count inner body rest k fs =>
    obtain ⟨hf, hfs⟩ := allFit_cons_iff.mp h.frames
    refine ⟨lively_of_frames (allFit_cons_iff.mpr ⟨hf.rest, hfs⟩), ?_⟩
    simp only [wait, framesWait, Marked.leadAll, Marked.lead, Marked.isIdle, List.all_cons,
      Bool.true_and, if_true]
    omega
  | enter count inner body rest k fs =>
    obtain ⟨hf, hfs⟩ := allFit_cons_iff.mp h.frames
    have hlively : inner.all Marked.isIdle = false :=
      hf.inner.lively.resolve_left fun hroot => List.cons_ne_nil _ _ hroot.1
    have hframes := allFit_cons_iff.mpr ⟨hf.inner, allFit_cons_iff.mpr ⟨hf.rest, hfs⟩⟩
    refine ⟨lively_of_frames hframes, ?_⟩
    simp [wait, framesWait, Marked.leadAll, Marked.lead, Marked.isIdle, hlively]

theorem Lively.emit (h : Lively size w) (hs : w.step = .emit a w') : Lively size w' := by
  obtain ⟨hframes, hdue⟩ := frames_of_emit hs
  exact ⟨hdue, hframes ▸ h.frames⟩

theorem Lively.wait_le (h : Lively size w) : w.wait ≤ 2 * size + 1 := by
  unfold wait
  split
  · have hwait := framesWait_le h.frames
    have hspan := span_le h.frames
    omega
  · exact Nat.zero_le _

theorem ofProgram_eq (p : Program ρ) :
    ofProgram p = ⟨none, [⟨Program.marks p, Program.marks p, 0⟩]⟩ := by
  rw [ofProgram, markAll_eq]

theorem lively_ofProgram {p : Program ρ} (h : Program.strides 1 p = true) :
    Lively (Program.size p) (ofProgram p) := by
  rw [ofProgram_eq]
  refine lively_of_frames (allFit_cons_iff.mpr ⟨?_, fun g below hg => ?_⟩)
  · exact ⟨Program.areBrisk_marks p h, List.suffix_refl _, .inl ⟨rfl, rfl⟩,
      Nat.le_of_eq (Program.sizeAll_marks p)⟩
  · exact absurd (List.suffix_nil.mp hg) (List.cons_ne_nil g below)

/-! ## Runs -/

/-- From `v` the walker comes to `w`, and hands out `es` on the way. -/
inductive Runs (v : Walker ρ) : List (Action ρ) → Walker ρ → Prop where
  | refl : Runs v [] v
  | silent {es : List (Action ρ)} {w w' : Walker ρ} :
      Runs v es w → w.step = .silent w' → Runs v es w'
  | emit {es : List (Action ρ)} {a : Action ρ} {w w' : Walker ρ} :
      Runs v es w → w.step = .emit a w' → Runs v (es ++ [a]) w'

theorem Lively.runs (h : Lively size v) (hw : Runs v es w) : Lively size w := by
  induction hw with
  | refl => exact h
  | silent _ hs ih => exact (ih.quiet (quiet_of_step hs)).1
  | emit _ hs ih => exact ih.emit hs

/-- Within `n` moves the walker hands out an action or is at its end. -/
def answersWithin : Nat → Walker ρ → Bool
  | 0, _ => false
  | n + 1, w =>
    match w.step with
    | .silent w' => answersWithin n w'
    | .emit _ _ => true
    | .finished => true

theorem Lively.answersWithin {n : Nat} (h : Lively size w) (hn : w.wait < n) :
    w.answersWithin n = true := by
  induction n generalizing w with
  | zero => exact absurd hn (Nat.not_lt_zero _)
  | succ n ih =>
    unfold Walker.answersWithin
    cases hs : w.step with
    | silent w' =>
      obtain ⟨hw', hless⟩ := h.quiet (quiet_of_step hs)
      exact ih hw' (by omega)
    | emit a w' => rfl
    | finished => rfl

end Moves

/-! ## Rounds -/

/-- The loop with body `body`, `again` rounds to follow this one and `below` around it has been open
since this round began, and `es` has been handed out in the round. -/
inductive Round (body : List (Marked ρ)) (again : Nat) (below : List (Frame ρ)) :
    List (Action ρ) → Walker ρ → Prop where
  | begins : Round body again below [] ⟨none, ⟨body, body, again⟩ :: below⟩
  | silent {es : List (Action ρ)} {w w' : Walker ρ} {rest : List (Marked ρ)} :
      Round body again below es w → w.step = .silent w' →
      ⟨body, rest, again⟩ :: below <:+ w'.frames → Round body again below es w'
  | emit {es : List (Action ρ)} {a : Action ρ} {w w' : Walker ρ} :
      Round body again below es w → w.step = .emit a w' → Round body again below (es ++ [a]) w'

section Rounds

variable {w w' : Walker ρ} {es handed : List (Action ρ)} {body rest : List (Marked ρ)}
  {again : Nat} {below : List (Frame ρ)} {p : Program ρ}

/-- A frame stays open while what is left of its round changes. -/
theorem open_of_rest {m : Marked ρ} {ms ns : List (Marked ρ)} {k : Nat} {fs : List (Frame ρ)}
    (h : ⟨body, rest, again⟩ :: below <:+ ⟨ms, ns, k⟩ :: fs) :
    ∃ rest', ⟨body, rest', again⟩ :: below <:+ ⟨ms, m :: ns, k⟩ :: fs := by
  rcases List.suffix_cons_iff.mp h with he | h
  · cases he
    exact ⟨_, List.suffix_refl _⟩
  · exact ⟨rest, h.trans (List.suffix_cons _ _)⟩

/-- A frame that is open after a move was open before it, unless its round has just begun. -/
theorem Quiet.open_or_begins (hq : Quiet w w')
    (h : ⟨body, rest, again⟩ :: below <:+ w'.frames) :
    (∃ rest', ⟨body, rest', again⟩ :: below <:+ w.frames) ∨
      w' = ⟨none, ⟨body, body, again⟩ :: below⟩ := by
  cases hq with
  | exhausted a fs => exact .inl ⟨rest, h⟩
  | again body k fs =>
    rcases List.suffix_cons_iff.mp h with he | h
    · cases he
      exact .inr rfl
    · exact .inl ⟨rest, h.trans (List.suffix_cons _ _)⟩
  | close body fs => exact .inl ⟨rest, h.trans (List.suffix_cons _ _)⟩
  | take a body rest' k fs => exact .inl (open_of_rest h)
  | pass count inner body rest' k fs => exact .inl (open_of_rest h)
  | enter count inner body rest' k fs =>
    rcases List.suffix_cons_iff.mp h with he | h
    · cases he
      exact .inr rfl
    · exact .inl (open_of_rest h)

/-- Every open loop is in a round, and what the round has handed out is the last of all. -/
theorem Runs.round (hw : Runs (ofProgram p) es w)
    (h : ⟨body, rest, again⟩ :: below <:+ w.frames) :
    ∃ handed, handed <:+ es ∧ Round body again below handed w := by
  induction hw generalizing rest with
  | refl =>
    rw [ofProgram_eq] at h ⊢
    rcases List.suffix_cons_iff.mp h with he | h
    · cases he
      exact ⟨[], List.nil_suffix, .begins⟩
    · exact absurd (List.suffix_nil.mp h) (List.cons_ne_nil _ _)
  | silent _ hs ih =>
    rcases (quiet_of_step hs).open_or_begins h with ⟨rest', h'⟩ | rfl
    · obtain ⟨handed, hlast, hround⟩ := ih h'
      exact ⟨handed, hlast, hround.silent hs h⟩
    · exact ⟨[], List.nil_suffix, .begins⟩
  | emit _ hs ih =>
    obtain ⟨hframes, -⟩ := frames_of_emit hs
    obtain ⟨handed, ⟨before, rfl⟩, hround⟩ := ih (hframes ▸ h)
    exact ⟨_, ⟨before, (List.append_assoc ..).symm⟩, hround.emit hs⟩

/-- What was left when the round began has been handed out in the round or is left still. -/
theorem Round.left (h : Round body again below handed w) :
    (⟨none, ⟨body, body, again⟩ :: below⟩ : Walker ρ).left = handed ++ w.left := by
  induction h with
  | begins => rfl
  | silent _ hs _ ih => rw [ih, left_of_silent hs]
  | emit _ hs ih => rw [ih, left_of_emit hs, List.append_assoc, List.singleton_append]

/-- A round that is over has handed out what there is in the body. -/
theorem Round.eq_expandAll
    (h : Round body again below handed ⟨none, ⟨body, [], again⟩ :: below⟩) :
    handed = Marked.expandAll body := by
  have hleft := h.left
  simp only [Walker.left, pendingLeft, List.flatMap_cons, Frame.left, Marked.expandAll,
    List.nil_append, List.append_assoc] at hleft
  exact (List.append_cancel_right hleft).symm

end Rounds

/-- Wherever the walk of a program has come to: every open loop is in a round; a round of a loop
that is over has handed out an action at least; and the next action or the end comes within a number
of moves that depends on the size of the program alone. -/
theorem rounds_hand_out (p : Program ρ) (h : Program.strides 1 p = true) (es : List (Action ρ))
    (w : Walker ρ) (hw : Runs (.ofProgram p) es w) :
    (∀ body rest again below, ⟨body, rest, again⟩ :: below <:+ w.frames →
      ∃ handed, handed <:+ es ∧ Round body again below handed w) ∧
    (∀ body again below handed, below ≠ [] → w = ⟨none, ⟨body, [], again⟩ :: below⟩ →
      Round body again below handed w → handed ≠ []) ∧
    w.answersWithin (2 * Program.size p + 2) = true := by
  have hlively := (lively_ofProgram h).runs hw
  refine ⟨fun body rest again below hopen => hw.round hopen, ?_, ?_⟩
  · rintro body again below handed hloop rfl hround
    have hf := hlively.frames _ _ (List.suffix_refl _)
    rw [hround.eq_expandAll]
    exact Marked.expandAll_ne_nil body hf.brisk
      (hf.lively.resolve_left fun hroot => hloop hroot.1)
  · exact hlively.answersWithin (Nat.lt_succ_of_le hlively.wait_le)

/-- Loops of nothing in a loop that is gone round a million million times. -/
def spinning : Program Nat :=
  [.loop 1000000000000 [.loop 0 [.act (.move 5)], .loop 7 [], .act (.turn "left")]]

/-- What `spinning` repeats, as it is walked. -/
def spinningBody : List (Marked Nat) :=
  [.loop true 0 [.act (.move 5)], .loop true 7 [], .act (.turn "left")]

/-- The end of the first round of `spinning`. -/
def spunOnce : Walker Nat :=
  ⟨none, [⟨spinningBody, [], 999999999999⟩,
    ⟨[.loop false 1000000000000 spinningBody], [], 0⟩]⟩

theorem ofProgram_spinning : ofProgram spinning = ⟨none, [⟨[.loop false 1000000000000 spinningBody],
    [.loop false 1000000000000 spinningBody], 0⟩]⟩ := by
  rw [ofProgram_eq]
  rfl

theorem runs_spinning : Runs (.ofProgram spinning) [.turn "left"] spunOnce := by
  have enter : Runs (.ofProgram spinning) [] ⟨none, [⟨spinningBody, spinningBody, 999999999999⟩,
      ⟨[.loop false 1000000000000 spinningBody], [], 0⟩]⟩ := by
    rw [ofProgram_spinning]
    exact Runs.refl.silent rfl
  have take := ((enter.silent rfl).silent rfl).silent rfl
  exact take.emit rfl

theorem spunOnce_hands_out : Program.strides 1 spinning = true ∧
    (∃ handed, handed <:+ [.turn "left"] ∧ Round spinningBody 999999999999
      [⟨[.loop false 1000000000000 spinningBody], [], 0⟩] handed spunOnce ∧ handed ≠ []) ∧
    spunOnce.answersWithin 12 = true := by
  have hstrides : Program.strides 1 spinning = true := by decide
  obtain ⟨hround, hne, hanswers⟩ :=
    rounds_hand_out spinning hstrides [.turn "left"] spunOnce runs_spinning
  refine ⟨hstrides, ?_, hanswers⟩
  obtain ⟨handed, hlast, hr⟩ := hround spinningBody [] 999999999999 _ (List.suffix_refl _)
  exact ⟨handed, hlast, hr, hne _ _ _ _ (List.cons_ne_nil _ _) rfl hr⟩

end Walker

end BlockGrid
