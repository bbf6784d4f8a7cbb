import BlockGrid.Text.Integer

/-!
# BlockGrid.Proofs.Text.Numeral

Two ways to tell a numeral: by its characters, before it is read, and by reading it. They differ.
A text of minus signs and digits is looked upon as a numeral (`Numeric`); it can be read when there
is at most one sign and every digit has a decimal value (`Numeral`), and is `Misleading` otherwise.

* `trim_trim`        — text that is trimmed stays as it is when fewer characters are trimmed.
* `signed?_numeric`  — what reading numeric text gives, by the number of signs.
* `Numeral.signed?_eq`, `Misleading.signed?_eq`, `Numeric.numeral_or_misleading` — of numeric text
  exactly the numerals are read.
-/

namespace BlockGrid

namespace Text

variable {p q : Char → Bool} {s : List Char} {c : Char}

/-! ## Trimming -/

theorem dropWhile_of_head? (h : ∀ c, s.head? = some c → p c = false) : s.dropWhile p = s := by
  cases s with
  | nil => rfl
  | cons c s =>
    have hc := h c rfl
    rw [List.dropWhile_cons_of_neg (by simp [hc])]

theorem of_head?_dropWhile (h : (s.dropWhile p).head? = some c) : p c = false := by
  have := List.head?_dropWhile_not p s
  rw [h] at this
  simpa using this

theorem of_head?_trim (h : (trim p s).head? = some c) : p c = false := by
  -- What is left after trimming the end begins as it did before.
  have hpre : trim p s <+: s.dropWhile p := by
    have hsuf := List.dropWhile_suffix (l := (s.dropWhile p).reverse) p
    have := List.reverse_prefix.mpr hsuf
    rwa [List.reverse_reverse] at this
  obtain ⟨rest, hrest⟩ := hpre
  refine of_head?_dropWhile (s := s) ?_
  rw [← hrest, List.head?_append, h]
  rfl

theorem of_head?_reverse_trim (h : (trim p s).reverse.head? = some c) : p c = false := by
  rw [trim, List.reverse_reverse] at h
  exact of_head?_dropWhile h

theorem trim_of_ends (hfirst : ∀ c, s.head? = some c → p c = false)
    (hlast : ∀ c, s.reverse.head? = some c → p c = false) : trim p s = s := by
  rw [trim, dropWhile_of_head? hfirst, dropWhile_of_head? hlast, List.reverse_reverse]

theorem trim_trim (h : ∀ c, p c = true → q c = true) (s : List Char) :
    trim p (trim q s) = trim q s := by
  have hpq : ∀ c, q c = false → p c = false := by
    intro c hq
    cases hp : p c with
    | false => rfl
    | true => rw [h c hp] at hq; cases hq
  exact trim_of_ends (fun c hc => hpq c (of_head?_trim hc))
    (fun c hc => hpq c (of_head?_reverse_trim hc))

theorem isBlank_of_isSpace (c : Char) (h : isSpace c = true) : isBlank c = true := by
  simp [isBlank, h]

/-! ## Digits -/

/-- Most significant digit first. -/
def numberOf (vs : List Nat) : Nat := vs.foldl (fun n v => 10 * n + v) 0

section Digits

variable {digit? : Char → Option Nat}

theorem digitsFrom?_cons (hc : c ≠ '_') (acc : Nat) (mayBreak : Bool) (cs : List Char) :
    digitsFrom? digit? acc mayBreak (c :: cs) =
      (digit? c).bind fun v => digitsFrom? digit? (10 * acc + v) true cs := by
  rw [digitsFrom?]
  · cases digit? c <;> rfl
  · exact hc

/-- Without underscores, digits are read one after the other. -/
theorem digitsFrom?_eq (cs : List Char) (h : ∀ c ∈ cs, c ≠ '_') (acc : Nat) :
    digitsFrom? digit? acc true cs =
      (cs.mapM digit?).map fun vs => vs.foldl (fun n v => 10 * n + v) acc := by
  induction cs generalizing acc with
  | nil => rfl
  | cons c cs ih =>
    have ih := ih fun d hd => h d (List.mem_cons_of_mem c hd)
    rw [digitsFrom?_cons (h c List.mem_cons_self), List.mapM_cons]
    cases digit? c with
    | none => rfl
    | some v =>
      show digitsFrom? digit? (10 * acc + v) true cs = _
      rw [ih]
      cases cs.mapM digit? <;> rfl

theorem digits?_eq {cs : List Char} (hne : cs ≠ []) (h : ∀ c ∈ cs, c ≠ '_') :
    digits? digit? cs = (cs.mapM digit?).map numberOf := by
  cases cs with
  | nil => exact absurd rfl hne
  | cons c cs =>
    have hc : c ≠ '_' := h c List.mem_cons_self
    -- Before the first digit no underscore may stand, which makes no difference here.
    have hbreak : digits? digit? (c :: cs) = digitsFrom? digit? 0 true (c :: cs) := by
      rw [digits?, digitsFrom?_cons hc, digitsFrom?_cons hc]
    rw [hbreak, digitsFrom?_eq _ h]
    rfl

end Digits

theorem isDigit_of_decimalDigit? {v : Nat} (h : decimalDigit? c = some v) : isDigit c = true := by
  simp [isDigit, h]

theorem ne_of_isDigit {d : Char} (hc : isDigit c = true) (hd : isDigit d = false) : c ≠ d := by
  rintro rfl
  rw [hc] at hd
  cases hd

theorem isDigit_minus : isDigit '-' = false := by decide +kernel
theorem isDigit_plus : isDigit '+' = false := by decide +kernel
theorem isDigit_underscore : isDigit '_' = false := by decide +kernel

/-! ## Numerals -/

/-- Digits behind any number of minus signs. -/
structure Numeric (s : List Char) (signs : Nat) (ds : List Char) : Prop where
  split : s = List.replicate signs '-' ++ ds
  ne_nil : ds ≠ []
  digits : ∀ c ∈ ds, isDigit c = true

/-- At most one minus sign, then digits that have a decimal value. -/
inductive Numeral : List Char → Int → Prop where
  | plain {ds : List Char} {vs : List Nat} :
      ds ≠ [] → ds.mapM decimalDigit? = some vs → Numeral ds (numberOf vs)
  | minus {ds : List Char} {vs : List Nat} :
      ds ≠ [] → ds.mapM decimalDigit? = some vs → Numeral ('-' :: ds) (-(numberOf vs : Int))

/-- Two signs or more, or a digit without a decimal value. -/
def Misleading (s : List Char) : Prop :=
  ∃ signs ds, Numeric s signs ds ∧ (2 ≤ signs ∨ ∃ c ∈ ds, decimalDigit? c = none)

/-- What comes of numeric text when it is read. -/
theorem signed?_numeric {signs : Nat} {ds : List Char} (h : Numeric s signs ds) :
    signed? (digits? decimalDigit?) s =
      if signs = 0 then (ds.mapM decimalDigit?).map fun vs => (numberOf vs : Int)
      else if signs = 1 then (ds.mapM decimalDigit?).map fun vs => -(numberOf vs : Int)
      else none := by
  obtain ⟨rfl, hne, hds⟩ := h
  have hread : digits? decimalDigit? ds = (ds.mapM decimalDigit?).map numberOf :=
    digits?_eq hne fun c hc => ne_of_isDigit (hds c hc) isDigit_underscore
  rcases signs with _ | _ | k
  · cases ds with
    | nil => exact absurd rfl hne
    | cons c cs =>
      have hc := hds c List.mem_cons_self
      have hminus : c ≠ '-' := ne_of_isDigit hc isDigit_minus
      have hplus : c ≠ '+' := ne_of_isDigit hc isDigit_plus
      show signed? _ (c :: cs) = _
      rw [signed?, hread]
      · cases (c :: cs).mapM decimalDigit? <;> rfl
      · intro rest h; exact hminus (List.cons.inj h).1
      · intro rest h; exact hplus (List.cons.inj h).1
  · show signed? _ ('-' :: ds) = _
    rw [signed?, hread]
    cases ds.mapM decimalDigit? <;> rfl
  · have hnone : decimalDigit? '-' = none := by decide +kernel
    show signed? _ ('-' :: '-' :: (List.replicate k '-' ++ ds)) = _
    rw [signed?, digits?, digitsFrom?_cons (by decide), hnone]
    rfl

theorem mapM_eq_none_iff {α β : Type} {f : α → Option β} {xs : List α} :
    xs.mapM f = none ↔ ∃ x ∈ xs, f x = none := by
  induction xs with
  | nil => simp
  | cons x xs ih =>
    rw [List.mapM_cons]
    cases hx : f x with
    | none => simp [hx]
    | some y =>
      cases hxs : xs.mapM f with
      | none => simpa [hx, hxs] using ih
      | some ys => simpa [hx, hxs] using ih

/-- Digits that have a decimal value are digits. -/
theorem isDigit_of_mapM {ds : List Char} {vs : List Nat} (h : ds.mapM decimalDigit? = some vs) :
    ∀ c ∈ ds, isDigit c = true := by
  intro c hc
  cases hd : decimalDigit? c with
  | none =>
    rw [mapM_eq_none_iff.mpr ⟨c, hc, hd⟩] at h
    cases h
  | some v => exact isDigit_of_decimalDigit? hd

theorem Numeral.isNumeric {n : Int} (h : Numeral s n) : ∃ signs ds, Numeric s signs ds := by
  cases h with
  | plain hne hvs => exact ⟨0, s, rfl, hne, isDigit_of_mapM hvs⟩
  | minus hne hvs => exact ⟨1, _, rfl, hne, isDigit_of_mapM hvs⟩

theorem Numeral.signed?_eq {n : Int} (h : Numeral s n) :
    signed? (digits? decimalDigit?) s = some n := by
  cases h with
  | plain hne hvs =>
    have hn : Numeric s 0 s := ⟨rfl, hne, isDigit_of_mapM hvs⟩
    rw [signed?_numeric hn, hvs]
    rfl
  | @minus ds vs hne hvs =>
    have hn : Numeric ('-' :: ds) 1 ds := ⟨rfl, hne, isDigit_of_mapM hvs⟩
    rw [signed?_numeric hn, hvs]
    rfl

theorem Misleading.signed?_eq (h : Misleading s) :
    signed? (digits? decimalDigit?) s = none := by
  obtain ⟨signs, ds, hn, h⟩ := h
  rw [signed?_numeric hn]
  rcases h with hsigns | hc
  · rw [if_neg (by omega), if_neg (by omega)]
  · rw [mapM_eq_none_iff.mpr hc]
    split
    · rfl
    · split <;> rfl

theorem Numeric.numeral_or_misleading {signs : Nat} {ds : List Char} (h : Numeric s signs ds) :
    (∃ n, Numeral s n) ∨ Misleading s := by
  cases hvs : ds.mapM decimalDigit? with
  | none => exact .inr ⟨signs, ds, h, .inr (mapM_eq_none_iff.mp hvs)⟩
  | some vs =>
    rcases signs with _ | _ | k
    · obtain ⟨rfl, hne, -⟩ := h
      exact .inl ⟨_, .plain hne hvs⟩
    · obtain ⟨rfl, hne, -⟩ := h
      exact .inl ⟨_, .minus hne hvs⟩
    · exact .inr ⟨k + 2, ds, h, .inl (by omega)⟩

end Text

end BlockGrid
