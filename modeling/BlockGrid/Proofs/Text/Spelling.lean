import BlockGrid.Proofs.Text.Numeral
import BlockGrid.Text.Lowercase
import Mathlib.Data.List.Forall2

/-!
# BlockGrid.Proofs.Text.Spelling

Words and numbers with white space around them, and words in any letter case.

* `Padded` — a text with white space on both sides; `trim_padded` takes it off again.
* `Cased`  — a word in small letters and capitals; `lower_trim`, it is read as the word.
* `lowercase_word` — a word in small letters stays as it is.
* `simpleLower_of_lt` — among the first characters only `A` to `Z` have another small form.
* `numeral_trim`      — the decimal text of an integer is a numeral of it.
-/

namespace BlockGrid

namespace Text

variable {word core s : List Char} {c d : Char}

/-! ## White space around a text -/

def Padded (core s : List Char) : Prop :=
  ∃ before after, s = before ++ core ++ after ∧
    (∀ c ∈ before, isBlank c = true) ∧ ∀ c ∈ after, isBlank c = true

theorem Padded.refl (core : List Char) : Padded core core :=
  ⟨[], [], by simp, nofun, nofun⟩

theorem trim_padded (h : Padded core s) (hne : core ≠ [])
    (hcore : ∀ c ∈ core, isBlank c = false) : trim isBlank s = core := by
  obtain ⟨before, after, rfl, hbefore, hafter⟩ := h
  have hfront : (before ++ core ++ after).dropWhile isBlank = core ++ after := by
    rw [List.append_assoc, List.dropWhile_append_of_pos hbefore]
    refine dropWhile_of_head? fun c hc => ?_
    rw [List.head?_append_of_ne_nil _ hne] at hc
    exact hcore c (List.mem_of_head? hc)
  have hback : (core ++ after).reverse.dropWhile isBlank = core.reverse := by
    rw [List.reverse_append, List.dropWhile_append_of_pos]
    · exact dropWhile_of_head? fun c hc => hcore c (List.mem_reverse.mp (List.mem_of_head? hc))
    · exact fun c hc => hafter c (List.mem_reverse.mp hc)
  rw [trim, hfront, hback, List.reverse_reverse]

/-! ## Letter case -/

/-- Each letter as it is or as a capital. -/
def Cased (word s : List Char) : Prop := List.Forall₂ (fun c d => d = c ∨ d = c.toUpper) word s

theorem Cased.refl (word : List Char) : Cased word word :=
  List.forall₂_same.mpr fun _ _ => .inl rfl

/-- The run of `A` to `Z`. -/
def CaseRun.isLatin (r : CaseRun) : Bool :=
  r.first == 0x41 && r.last == 0x5a && r.step == 1 && r.shift == 32

theorem CaseRun.latin_or_accented {r : CaseRun} (h : r ∈ caseRuns) :
    r.isLatin = true ∨ 0xc0 ≤ r.first := by
  have hall : (caseRuns.toList.all fun r => r.isLatin || decide (0xc0 ≤ r.first)) = true := by
    decide +kernel
  simpa using List.all_eq_true.mp hall r (Array.mem_toList_iff.mpr h)

theorem CaseRun.exists_latin : ∃ r ∈ caseRuns, r.isLatin = true := by
  have hany : caseRuns.toList.any CaseRun.isLatin = true := by decide +kernel
  simpa using List.any_eq_true.mp hany

/-- Before the first accented capital only `A` to `Z` have another small form. -/
theorem simpleLower_of_lt (h : c.toNat < 0xc0) :
    simpleLower c =
      if 0x41 ≤ c.toNat ∧ c.toNat ≤ 0x5a then Char.ofNat (c.toNat + 32) else c := by
  unfold simpleLower
  split
  · rename_i r hr
    have hin := Array.find?_some hr
    simp only [Bool.and_eq_true, decide_eq_true_eq] at hin
    obtain ⟨⟨hfirst, hlast⟩, -⟩ := hin
    have hlatin : r.isLatin = true :=
      (CaseRun.latin_or_accented (Array.mem_of_find?_eq_some hr)).resolve_right (by omega)
    simp only [CaseRun.isLatin, Bool.and_eq_true, beq_iff_eq] at hlatin
    obtain ⟨⟨⟨h1, h2⟩, -⟩, h32⟩ := hlatin
    rw [if_pos ⟨h1 ▸ hfirst, h2 ▸ hlast⟩, h32]
    rfl
  · rename_i hnone
    obtain ⟨r, hr, hlatin⟩ := CaseRun.exists_latin
    have hout := Array.find?_eq_none.mp hnone r hr
    simp only [CaseRun.isLatin, Bool.and_eq_true, beq_iff_eq] at hlatin
    obtain ⟨⟨⟨h1, h2⟩, hstep⟩, -⟩ := hlatin
    rw [if_neg]
    rintro ⟨hfirst, hlast⟩
    exact hout (by simp [h1, h2, hstep, hfirst, hlast, Nat.mod_one])

def letters : List Char := "abcdefghijklmnopqrstuvwxyz".toList

/-- Small letters, one at least. -/
def isWord (word : List Char) : Bool := !word.isEmpty && word.all letters.contains

theorem isWord_iff : isWord word = true ↔ word ≠ [] ∧ ∀ c ∈ word, c ∈ letters := by
  simp [isWord]

theorem forms_of_letter (hc : c ∈ letters) (hd : d = c ∨ d = c.toUpper) :
    simpleLower d = c ∧ d ≠ 'Σ' ∧ d ≠ 'İ' ∧ isBlank d = false := by
  -- The table of cases is not gone through here: these characters are all before its second run.
  have hall : (letters.all fun c => [c, c.toUpper].all fun d => d.toNat < 0xc0 ∧ isBlank d = false ∧
      (if 0x41 ≤ d.toNat ∧ d.toNat ≤ 0x5a then Char.ofNat (d.toNat + 32) else d) = c) = true := by
    decide +kernel
  have hforms := List.all_eq_true.mp (List.all_eq_true.mp hall c hc) d (by simpa using hd)
  obtain ⟨hlt, hblank, hlower⟩ := of_decide_eq_true hforms
  refine ⟨(simpleLower_of_lt hlt).trans hlower, ?_, ?_, hblank⟩
  · rintro rfl
    exact absurd hlt (by decide)
  · rintro rfl
    exact absurd hlt (by decide)

theorem lowerFrom_of_cased (h : Cased word s) (hword : ∀ c ∈ word, c ∈ letters)
    (before : List Char) : lowerFrom before s = word := by
  induction h generalizing before with
  | nil => rfl
  | @cons c d word s hd _ ih =>
    obtain ⟨hlower, hsigma, hdot, -⟩ := forms_of_letter (hword c List.mem_cons_self) hd
    rw [lowerFrom, if_neg hsigma, if_neg hdot, hlower,
      ih fun c hc => hword c (List.mem_cons_of_mem _ hc)]
    rfl

theorem lower_of_cased (h : Cased word s) (hword : ∀ c ∈ word, c ∈ letters) : lower s = word :=
  lowerFrom_of_cased h hword []

theorem isBlank_of_cased (h : Cased word s) (hword : ∀ c ∈ word, c ∈ letters) :
    ∀ d ∈ s, isBlank d = false := by
  induction h with
  | nil => nofun
  | @cons c d word s hd _ ih =>
    have hrest := ih fun c hc => hword c (List.mem_cons_of_mem _ hc)
    exact List.forall_mem_cons.mpr
      ⟨(forms_of_letter (hword c List.mem_cons_self) hd).2.2.2, hrest⟩

/-- A word of letters is read whatever the case of its letters and the white space around it. -/
theorem lower_trim (hcased : Cased word core) (hpadded : Padded core s)
    (hword : isWord word = true) : lower (trim isBlank s) = word := by
  obtain ⟨hne, hword⟩ := isWord_iff.mp hword
  have hcore : core ≠ [] := by
    rintro rfl
    cases hcased
    exact hne rfl
  rw [trim_padded hpadded hcore (isBlank_of_cased hcased hword), lower_of_cased hcased hword]

/-! ## Decimal text -/

theorem decimalDigit?_of_isDigit (h : c.isDigit = true) :
    decimalDigit? c = some (c.toNat - '0'.toNat) := by
  obtain ⟨hlow, hhigh⟩ : 48 ≤ c.toNat ∧ c.toNat ≤ 57 := Char.isDigit_iff_toNat.mp h
  rw [decimalDigit?, digitZeros, List.find?_toArray, List.find?_cons_of_pos]
  · rfl
  · simp only [Bool.and_eq_true, decide_eq_true_eq]
    omega

theorem isBlank_of_isDigit (h : c.isDigit = true) : isBlank c = false := by
  obtain ⟨hlow, hhigh⟩ : 48 ≤ c.toNat ∧ c.toNat ≤ 57 := Char.isDigit_iff_toNat.mp h
  rw [Bool.eq_false_iff]
  intro hblank
  simp only [isBlank, isSpace, Ranges.has, spaces, List.any_toArray, List.any_cons, List.any_nil,
    Bool.or_eq_true, Bool.and_eq_true, decide_eq_true_eq, Bool.false_eq_true, or_false] at hblank
  omega

theorem mapM_digits {ds : List Char} (h : ∀ c ∈ ds, c.isDigit = true) :
    ds.mapM decimalDigit? = some (ds.map fun c => c.toNat - '0'.toNat) := by
  induction ds with
  | nil => rfl
  | cons c ds ih =>
    have hrest := ih fun c hc => h c (List.mem_cons_of_mem _ hc)
    rw [List.mapM_cons, decimalDigit?_of_isDigit (h c List.mem_cons_self), hrest]
    rfl

theorem mapM_toDigits (n : Nat) :
    ∃ vs, (Nat.toDigits 10 n).mapM decimalDigit? = some vs ∧ numberOf vs = n := by
  have hdigits : ∀ c ∈ Nat.toDigits 10 n, c.isDigit = true := fun c hc =>
    Nat.isDigit_of_mem_toDigits (by omega) (by omega) hc
  refine ⟨_, mapM_digits hdigits, ?_⟩
  rw [numberOf, List.foldl_map]
  exact Nat.ofDigitChars_ten_toDigits

theorem toList_toString (n : Int) :
    (toString n).toList =
      if n < 0 then '-' :: Nat.toDigits 10 n.natAbs else Nat.toDigits 10 n.natAbs := by
  cases n with
  | ofNat m =>
    rw [if_neg (by simp)]
    exact String.toList_ofList
  | negSucc m =>
    rw [if_pos (Int.negSucc_lt_zero m)]
    show ("-" ++ String.ofList (Nat.toDigits 10 (m + 1))).toList = _
    rw [String.toList_append]
    exact congrArg ('-' :: ·) String.toList_ofList

/-- The decimal text of an integer is a numeral of it. -/
theorem numeral_toString (n : Int) : Numeral (toString n).toList n := by
  obtain ⟨vs, hvs, hvalue⟩ := mapM_toDigits n.natAbs
  have hne : Nat.toDigits 10 n.natAbs ≠ [] := Nat.toDigits_ne_nil
  rw [toList_toString]
  split
  · have h := Numeral.minus hne hvs
    rwa [hvalue, show -(n.natAbs : Int) = n by omega] at h
  · have h := Numeral.plain hne hvs
    rwa [hvalue, show (n.natAbs : Int) = n by omega] at h

theorem Numeral.ne_nil {n : Int} (h : Numeral s n) : s ≠ [] := by
  cases h with
  | plain hne _ => exact hne
  | minus _ _ => exact List.cons_ne_nil _ _

theorem isBlank_toString (n : Int) : ∀ c ∈ (toString n).toList, isBlank c = false := by
  have hdigits : ∀ c ∈ Nat.toDigits 10 n.natAbs, isBlank c = false := fun c hc =>
    isBlank_of_isDigit (Nat.isDigit_of_mem_toDigits (by omega) (by omega) hc)
  rw [toList_toString]
  split
  · exact List.forall_mem_cons.mpr ⟨by decide +kernel, hdigits⟩
  · exact hdigits

/-- The decimal text of an integer with white space around it. -/
theorem numeral_trim {n : Int} (h : Padded (toString n).toList s) :
    Numeral (trim isBlank s) n := by
  have hnum := numeral_toString n
  rwa [trim_padded h hnum.ne_nil (isBlank_toString n)]

end Text

theorem lowercase_of_cased {word s : String} (h : Text.Cased word.toList s.toList)
    (hword : Text.isWord word.toList = true) : lowercase s = word := by
  rw [lowercase, Text.lower_of_cased h (Text.isWord_iff.mp hword).2, String.ofList_toList]

theorem lowercase_word {word : String} (h : Text.isWord word.toList = true) :
    lowercase word = word := lowercase_of_cased (Text.Cased.refl _) h

end BlockGrid
