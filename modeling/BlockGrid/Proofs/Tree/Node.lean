import BlockGrid.Proofs.Text.Spelling
import BlockGrid.Tree.Program

/-!
# BlockGrid.Proofs.Tree.Node

What a single node of a command tree means, said apart from the way it is read.

* `Tree.Spells`   — the integers that a field stands for.
* `Tree.Words`    — the ways to write a word; `keyword_of_words`.
* `Tree.Means`    — the nodes that can be interpreted: canonical commands, and objects whose tag and
  fields are in order.
* `Tree.Stumbles` — nodes on which the reading stops: the number of a move or a loop is text of
  signs and digits, but no numeral.
* `nodeRead`      — a node is read as what it means; one that means nothing is kept as it is, unless
  the reading stumbles over it.
-/

namespace BlockGrid

namespace Tree

variable {t : Tree} {entries : List (String × Tree)} {e : ProgramError} {n : Int} {text : String}

/-- White space around a numeral does not count. -/
def trimmed (s : String) : List Char := Text.trim Text.isBlank s.toList

/-- An integer, a double without a fraction, or a numeral. -/
inductive Spells : Tree → Int → Prop where
  | int (n : Int) : Spells (.int n) n
  | float {x : Binary64} {n : Int} : x.toInt? = some n → Spells (.float x) n
  | text {s : String} {n : Int} : Text.Numeral (trimmed s) n → Spells (.str s) n

/-- Text that looks like an integer and is none, as it is shown. -/
inductive LooksLike : Tree → String → Prop where
  | text {s : String} : Text.Misleading (trimmed s) → LooksLike (.str s) (String.ofList (trimmed s))

/-! ## Integer fields -/

theorem looksNumeric_iff {s : List Char} :
    looksNumeric s = true ↔ ∃ signs ds, Text.Numeric s signs ds := by
  have hsplit : s = s.takeWhile (· = '-') ++ s.dropWhile (· = '-') :=
    List.takeWhile_append_dropWhile.symm
  constructor
  · intro h
    simp only [looksNumeric, decide_eq_true_eq, List.isEmpty_iff, List.all_eq_true] at h
    have hsigns : s.takeWhile (· = '-') = List.replicate (s.takeWhile (· = '-')).length '-' := by
      refine List.eq_replicate_iff.mpr ⟨rfl, fun c hc => ?_⟩
      have hall := List.all_eq_true.mp (List.all_takeWhile (p := (· = '-')) (l := s)) c hc
      simpa using hall
    exact ⟨_, _, hsigns ▸ hsplit, h.1, h.2⟩
  · rintro ⟨signs, ds, rfl, hne, hds⟩
    have hdrop : (List.replicate signs '-' ++ ds).dropWhile (· = '-') = ds := by
      rw [List.dropWhile_append_of_pos (by simp)]
      refine Text.dropWhile_of_head? fun c hc => ?_
      have hd := hds c (List.mem_of_head? hc)
      simpa using Text.ne_of_isDigit hd Text.isDigit_minus
    simp only [looksNumeric, hdrop, decide_eq_true_eq, List.isEmpty_iff, List.all_eq_true]
    exact ⟨hne, hds⟩

theorem integer?_trimmed (s : String) :
    Text.integer? (trimmed s) = Text.signed? (Text.digits? Text.decimalDigit?) (trimmed s) := by
  rw [Text.integer?, trimmed, Text.trim_trim Text.isBlank_of_isSpace]

theorem integer?_str (s : String) :
    (Tree.str s).integer? =
      if looksNumeric (trimmed s) then
        match Text.signed? (Text.digits? Text.decimalDigit?) (trimmed s) with
        | some n => .ok (some n)
        | none => .error (.badNumeral (String.ofList (trimmed s)))
      else .ok none := by
  rw [← integer?_trimmed]
  rfl

theorem integer?_of_spells (h : Spells t n) : t.integer? = .ok (some n) := by
  cases h with
  | int n => rfl
  | float hx => simp [integer?, hx]
  | text hs =>
    rw [integer?_str, if_pos (looksNumeric_iff.mpr hs.isNumeric), hs.signed?_eq]

theorem integer?_of_looksLike (h : LooksLike t text) : t.integer? = .error (.badNumeral text) := by
  cases h with
  | @text s hs =>
    have hnum : looksNumeric (trimmed s) = true := by
      obtain ⟨signs, ds, hn, -⟩ := hs
      exact looksNumeric_iff.mpr ⟨signs, ds, hn⟩
    rw [integer?_str, if_pos hnum, hs.signed?_eq]

/-- A field stands for an integer, or only looks as if it did, or neither. -/
theorem integer?_cases (t : Tree) :
    (∃ n, Spells t n) ∨ (∃ text, LooksLike t text) ∨ t.integer? = .ok none := by
  cases t with
  | int n => exact .inl ⟨n, .int n⟩
  | float x =>
    cases hx : x.toInt? with
    | none => exact .inr (.inr (by simp [integer?, hx]))
    | some n => exact .inl ⟨n, .float hx⟩
  | str s =>
    by_cases hs : looksNumeric (trimmed s) = true
    · obtain ⟨signs, ds, hn⟩ := looksNumeric_iff.mp hs
      rcases hn.numeral_or_misleading with ⟨n, h⟩ | h
      · exact .inl ⟨n, .text h⟩
      · exact .inr (.inl ⟨_, .text h⟩)
    · exact .inr (.inr (by rw [integer?_str, if_neg hs]))
  | _ => exact .inr (.inr rfl)

theorem Spells.unique {m : Int} (h : Spells t n) (h' : Spells t m) : n = m := by
  have := (integer?_of_spells h).symm.trans (integer?_of_spells h')
  simpa using this

/-! ## Words -/

/-- A word in any letter case, with white space around it. -/
inductive Words (word : String) : Tree → Prop where
  | text {s : String} {core : List Char} :
      Text.Cased word.toList core → Text.Padded core s.toList → Words word (.str s)

theorem words_self (word : String) : Words word (.str word) :=
  .text (Text.Cased.refl _) (Text.Padded.refl _)

theorem keyword_of_words {word : String} (h : Words word t)
    (hword : Text.isWord word.toList = true) : t.keyword = word := by
  cases h with
  | @text s core hcased hpadded =>
    show String.ofList (Text.lower (Text.trim Text.isBlank s.toList)) = word
    rw [Text.lower_trim hcased hpadded hword, String.ofList_toList]

theorem keyword_word {word : String} (hword : Text.isWord word.toList = true) :
    (Tree.str word).keyword = word := keyword_of_words (words_self word) hword

/-- Text without halves is quoted as a whole. -/
theorem quotedKeyword_str (s : String) :
    (Tree.str s).quotedKeyword = quoted (Tree.str s).keyword := by
  have hwhole : ((LooseText.whole s).trim Text.isBlank).lower =
      .whole (String.ofList (Text.lower (Text.trim Text.isBlank s.toList))) := by
    simp only [LooseText.trim, LooseText.mapFirst, LooseText.trimEnd, LooseText.mapLast,
      LooseText.lower, LooseText.map, lowercase, String.toList_ofList, Text.trim]
  show ((LooseText.whole s).trim Text.isBlank).lower.quoted = _
  rw [hwhole]
  rfl

theorem keyword_move : (Tree.str "move").keyword = "move" := keyword_word (by decide)
theorem keyword_turn : (Tree.str "turn").keyword = "turn" := keyword_word (by decide)
theorem keyword_repeat : (Tree.str "repeat").keyword = "repeat" := keyword_word (by decide)
theorem keyword_left : (Tree.str "left").keyword = "left" := keyword_word (by decide)
theorem keyword_right : (Tree.str "right").keyword = "right" := keyword_word (by decide)

/-! ## Nodes -/

def tag (entries : List (String × Tree)) : String :=
  ((field? "cmd" entries).getD (.str "")).keyword

def distanceField (entries : List (String × Tree)) : Tree :=
  (firstOf? entries ["value", "steps"]).getD (.int 1)

def countField (entries : List (String × Tree)) : Tree :=
  (firstOf? entries ["times"]).getD (.int 1)

def bodyField (entries : List (String × Tree)) : Tree :=
  (firstOf? entries ["body", "commands", "do"]).getD (.list [])

/-- A canonical command means itself. An object means a command when its tag is known and its fields
are in order; for a loop, the nodes of its body are still to be read. -/
inductive Means : Tree → Node → Prop where
  | canonical (c : Command Tree) : Means (.command c) (.done c)
  | move {entries : List (String × Tree)} {d : Int} :
      tag entries = "move" → Spells (distanceField entries) d → 1 ≤ d →
      Means (.obj entries) (.done (.act (.move d)))
  | turn {entries : List (String × Tree)} :
      tag entries = "turn" → (turnField entries).keyword ∈ ["left", "right"] →
      Means (.obj entries) (.done (.act (.turn (turnField entries).keyword)))
  | loop {entries : List (String × Tree)} {n : Int} {body : List Tree} :
      tag entries = "repeat" → Spells (countField entries) n → 0 ≤ n →
      (bodyField entries).items? = some body → Means (.obj entries) (.opened n body)

inductive Stumbles : Tree → String → Prop where
  | move {entries : List (String × Tree)} {text : String} :
      tag entries = "move" → LooksLike (distanceField entries) text → Stumbles (.obj entries) text
  | loop {entries : List (String × Tree)} {text : String} :
      tag entries = "repeat" → LooksLike (countField entries) text → Stumbles (.obj entries) text

/-- What an object can mean is decided by its tag. -/
theorem Means.of_move {node : Node} (h : Means (.obj entries) node) (htag : tag entries = "move") :
    ∃ d, node = .done (.act (.move d)) ∧ Spells (distanceField entries) d ∧ 1 ≤ d := by
  cases h with
  | move _ hd h1 => exact ⟨_, rfl, hd, h1⟩
  | turn h' _ => exact absurd (htag.symm.trans h') (by decide)
  | loop h' _ _ _ => exact absurd (htag.symm.trans h') (by decide)

theorem Means.of_turn {node : Node} (h : Means (.obj entries) node) (htag : tag entries = "turn") :
    node = .done (.act (.turn (turnField entries).keyword)) ∧
      (turnField entries).keyword ∈ ["left", "right"] := by
  cases h with
  | move h' _ _ => exact absurd (htag.symm.trans h') (by decide)
  | turn _ hway => exact ⟨rfl, hway⟩
  | loop h' _ _ _ => exact absurd (htag.symm.trans h') (by decide)

theorem Means.of_loop {node : Node} (h : Means (.obj entries) node)
    (htag : tag entries = "repeat") :
    ∃ n body, node = .opened n body ∧ Spells (countField entries) n ∧ 0 ≤ n ∧
      (bodyField entries).items? = some body := by
  cases h with
  | move h' _ _ => exact absurd (htag.symm.trans h') (by decide)
  | turn h' _ => exact absurd (htag.symm.trans h') (by decide)
  | loop _ hn h0 hbody => exact ⟨_, _, rfl, hn, h0, hbody⟩

theorem readNode_move (h : tag entries = "move") :
    (Tree.obj entries).readNode = (distanceField entries).integer?.map fun distance =>
      match distance with
      | some d =>
        if d < 1 then unrecognized (.obj entries) "move distance must be a positive integer"
        else .done (.act (.move d))
      | none => unrecognized (.obj entries) "move distance must be a positive integer" := by
  show readTagged _ (tag entries) _ entries = _
  rw [h]
  rfl

theorem readNode_turn (h : tag entries = "turn") :
    (Tree.obj entries).readNode = .ok (readTurn (.obj entries) entries) := by
  show readTagged _ (tag entries) _ entries = _
  rw [h]
  rfl

theorem readNode_loop (h : tag entries = "repeat") :
    (Tree.obj entries).readNode = (countField entries).integer?.map fun count =>
      match count with
      | some n =>
        if n < 0 then unrecognized (.obj entries) "repeat count must be a non-negative integer"
        else
          match (bodyField entries).items? with
          | some items => .opened n items
          | none => unrecognized (.obj entries) "repeat body must be a list"
      | none => unrecognized (.obj entries) "repeat count must be a non-negative integer" := by
  show readTagged _ (tag entries) _ entries = _
  rw [h]
  show readLoop _ entries = _
  unfold readLoop countField bodyField
  cases firstOf? entries ["body", "commands", "do"] <;> rfl

theorem readNode_of_means {node : Node} (h : Means t node) : t.readNode = .ok node := by
  cases h with
  | canonical c => rfl
  | move htag hd h1 =>
    rw [readNode_move htag, integer?_of_spells hd]
    simp only [Except.map, if_neg (Int.not_lt.mpr h1)]
  | @turn entries htag hway =>
    have hc : turnNames.contains (turnField entries).keyword = true :=
      List.contains_iff_mem.mpr hway
    rw [readNode_turn htag]
    simp only [readTurn, hc, if_true]
  | loop htag hn h0 hbody =>
    rw [readNode_loop htag, integer?_of_spells hn]
    simp only [Except.map, if_neg (Int.not_lt.mpr h0), hbody]

theorem readNode_of_stumbles (h : Stumbles t text) : t.readNode = .error (.badNumeral text) := by
  cases h with
  | move htag hl =>
    rw [readNode_move htag, integer?_of_looksLike hl]
    rfl
  | loop htag hl =>
    rw [readNode_loop htag, integer?_of_looksLike hl]
    rfl

/-- How the reading of a node goes. -/
inductive NodeRead (t : Tree) : Prop where
  | means {node : Node} : Means t node → t.readNode = .ok node → NodeRead t
  | kept {reason : String} :
      (∀ node, ¬ Means t node) → t.readNode = .ok (unrecognized t reason) → NodeRead t
  | stumbles {text : String} :
      Stumbles t text → t.readNode = .error (.badNumeral text) → NodeRead t

theorem Means.nodeRead {node : Node} (h : Means t node) : NodeRead t :=
  .means h (readNode_of_means h)

theorem Stumbles.nodeRead (h : Stumbles t text) : NodeRead t :=
  .stumbles h (readNode_of_stumbles h)

theorem nodeRead_move (h : tag entries = "move") : NodeRead (.obj entries) := by
  have hread := readNode_move h
  rcases integer?_cases (distanceField entries) with ⟨d, hd⟩ | ⟨text, hl⟩ | hnone
  · rw [integer?_of_spells hd] at hread
    by_cases h1 : d < 1
    · simp only [Except.map, if_pos h1] at hread
      refine .kept (fun node hm => ?_) hread
      obtain ⟨d', -, hd', h1'⟩ := hm.of_move h
      have := hd.unique hd'
      omega
    · exact (Means.move h hd (Int.not_lt.mp h1)).nodeRead
  · exact (Stumbles.move h hl).nodeRead
  · rw [hnone] at hread
    refine .kept (fun node hm => ?_) hread
    obtain ⟨d, -, hd, -⟩ := hm.of_move h
    rw [integer?_of_spells hd] at hnone
    cases hnone

theorem nodeRead_turn (h : tag entries = "turn") : NodeRead (.obj entries) := by
  by_cases hway : (turnField entries).keyword ∈ ["left", "right"]
  · exact (Means.turn h hway).nodeRead
  · have hread := readNode_turn h
    have hc : ¬ turnNames.contains (turnField entries).keyword = true :=
      fun hc => hway (List.contains_iff_mem.mp hc)
    simp only [readTurn, if_neg hc] at hread
    exact .kept (fun node hm => hway (hm.of_turn h).2) hread

theorem nodeRead_loop (h : tag entries = "repeat") : NodeRead (.obj entries) := by
  have hread := readNode_loop h
  rcases integer?_cases (countField entries) with ⟨n, hn⟩ | ⟨text, hl⟩ | hnone
  · rw [integer?_of_spells hn] at hread
    by_cases h0 : n < 0
    · simp only [Except.map, if_pos h0] at hread
      refine .kept (fun node hm => ?_) hread
      obtain ⟨n', _, -, hn', h0', -⟩ := hm.of_loop h
      have := hn.unique hn'
      omega
    · simp only [Except.map, if_neg h0] at hread
      cases hbody : (bodyField entries).items? with
      | some body => exact (Means.loop h hn (Int.not_lt.mp h0) hbody).nodeRead
      | none =>
        rw [hbody] at hread
        refine .kept (fun node hm => ?_) hread
        obtain ⟨_, body, -, -, -, hbody'⟩ := hm.of_loop h
        rw [hbody] at hbody'
        cases hbody'
  · exact (Stumbles.loop h hl).nodeRead
  · rw [hnone] at hread
    refine .kept (fun node hm => ?_) hread
    obtain ⟨n, _, -, hn, -⟩ := hm.of_loop h
    rw [integer?_of_spells hn] at hnone
    cases hnone

theorem nodeRead (t : Tree) : NodeRead t := by
  cases t with
  | command c => exact (Means.canonical c).nodeRead
  | obj entries =>
    by_cases hm : tag entries = "move"
    · exact nodeRead_move hm
    by_cases ht : tag entries = "turn"
    · exact nodeRead_turn ht
    by_cases hr : tag entries = "repeat"
    · exact nodeRead_loop hr
    have hno : ∀ node, ¬ Means (.obj entries) node := by
      intro node h
      cases h with
      | move h' _ _ => exact hm h'
      | turn h' _ => exact ht h'
      | loop h' _ _ _ => exact hr h'
    have hread : (Tree.obj entries).readNode = readTagged (.obj entries) (tag entries)
        ((field? "cmd" entries).getD (.str "")).quotedKeyword entries := rfl
    simp only [readTagged, if_neg hm, if_neg ht, if_neg hr] at hread
    by_cases he : tag entries = ""
    · exact .kept hno (hread.trans (if_pos he))
    · exact .kept hno (hread.trans (if_neg he))
  | _ => exact .kept (fun node h => by cases h) rfl

end Tree

end BlockGrid
