import BlockGrid.Json.Reader
import BlockGrid.Json.Writer
import BlockGrid.Proofs.Text.Loose

/-!
# BlockGrid.Proofs.Json.Escape

Text in double quotes is read back as it was written, whatever characters are in it.

* `hex_four`       — a unit of sixteen bits is written with four digits.
* `pushUnit_char`  — no character is the half of a pair, so it joins nothing before it.
* `over_escapeChar` — a character is read back from whatever is written for it: itself, a letter
  after a backslash, four digits, or two halves.
* `over_stringOnto` — so is the text as a whole.
* `codes_textOfUnits` — whatever a string spells, each unit stays as a character or as a half.
-/

namespace BlockGrid

namespace Text

variable {n w : Nat}

theorem hex_one (h : n < 16) : hex 1 n = [n.digitChar] := by
  rw [hex, Nat.toDigits_of_lt_base h]
  rfl

/-- The last digit stands apart; the others are those of the rest, padded to one less. -/
theorem hex_snoc (hw : 0 < w) : hex (w + 1) n = hex w (n / 16) ++ [(n % 16).digitChar] := by
  by_cases hn : n < 16
  · have hzero : n / 16 = 0 := Nat.div_eq_of_lt hn
    obtain ⟨v, rfl⟩ := Nat.exists_eq_add_of_lt hw
    rw [hzero, Nat.mod_eq_of_lt hn, hex, hex, Nat.toDigits_of_lt_base hn,
      Nat.toDigits_of_lt_base (by omega)]
    simp [List.replicate_succ']
  · rw [hex, hex, Nat.toDigits_of_base_le (by omega) (by omega), List.length_append,
      List.length_singleton, Nat.add_sub_add_right, List.append_assoc]

theorem hex_four (h : n < 65536) : hex 4 n =
    [(n / 16 / 16 / 16).digitChar, (n / 16 / 16 % 16).digitChar, (n / 16 % 16).digitChar,
      (n % 16).digitChar] := by
  rw [hex_snoc (by omega), hex_snoc (by omega), hex_snoc (by omega), hex_one (by omega)]
  rfl

end Text

namespace Json

variable {l m k : Lexer} {f g : List Char → List Char} {back : List Token} {us : List Nat}
  {u value left : Nat} {c : Char}

/-- Whatever follows, the text that is written in front of it takes the lexer from `l` to `m`. -/
def Lexer.Over (l : Lexer) (write : List Char → List Char) (m : Lexer) : Prop :=
  ∀ rest, feedAll? l (write rest) = feedAll? m rest

theorem Lexer.Over.trans (h : l.Over f m) (h' : m.Over g k) :
    l.Over (fun rest => f (g rest)) k :=
  fun rest => (h (g rest)).trans (h' rest)

theorem Lexer.Over.cons (h : feed? l c = some m) (h' : m.Over f k) :
    l.Over (fun rest => c :: f rest) k := by
  intro rest
  rw [feedAll?, h, Option.bind_some]
  exact h' rest

/-! ## Units -/

theorem hexDigit?_digitChar : ∀ d < 16, hexDigit? d.digitChar = some d := by decide

theorem feed_code (h : u < 16) : feed? ⟨back, .code us value (left + 1)⟩ u.digitChar =
    some ⟨back, .code us (16 * value + u) left⟩ := by
  simp only [feed?, hexDigit?_digitChar u h, Option.map_some]

theorem feed_lastCode (h : u < 16) : feed? ⟨back, .code us value 0⟩ u.digitChar =
    some ⟨back, .text (pushUnit (16 * value + u) us)⟩ := by
  simp only [feed?, hexDigit?_digitChar u h, Option.map_some]

theorem over_unitEscape (back : List Token) (us : List Nat) (h : u < 65536) :
    Lexer.Over ⟨back, .text us⟩ (unitEscape u ++ ·) ⟨back, .text (pushUnit u us)⟩ := by
  have hvalue : 16 * (16 * (16 * (16 * 0 + u / 16 / 16 / 16) + u / 16 / 16 % 16) + u / 16 % 16) +
      u % 16 = u := by omega
  have hcode : Lexer.Over ⟨back, .code us 0 3⟩ (Text.hex 4 u ++ ·)
      ⟨back, .text (pushUnit u us)⟩ := by
    rw [Text.hex_four h]
    refine .cons (feed_code (by omega)) (.cons (feed_code (by omega)) (.cons (feed_code (by omega))
      (.cons (feed_lastCode (by omega)) fun rest => ?_)))
    rw [hvalue]
    rfl
  exact .cons (c := '\\') (m := ⟨back, .escape us⟩) rfl
    (.cons (c := 'u') (m := ⟨back, .code us 0 3⟩) rfl hcode)

theorem pushUnit_of_not_low (h : isLowHalf u = false) : pushUnit u us = u :: us := by
  cases us with
  | nil => rfl
  | cons v us => rw [pushUnit, h]; rfl

theorem isLowHalf_toNat (c : Char) : isLowHalf c.toNat = false := by
  have hvalid := Half.valid_toNat c
  simp only [isLowHalf, Bool.and_eq_false_iff, decide_eq_false_iff_not]
  omega

theorem pushUnit_char (c : Char) : pushUnit c.toNat us = c.toNat :: us :=
  pushUnit_of_not_low (isLowHalf_toNat c)

/-- The two halves of a unit outside the basic plane, one after the other. -/
theorem pushUnit_halves {v : Nat} (h : v < 0x100000) :
    pushUnit (0xdc00 + v % 0x400) (pushUnit (0xd800 + v / 0x400) us) = (0x10000 + v) :: us := by
  have hhigh : isHighHalf (0xd800 + v / 0x400) = true := by
    simp only [isHighHalf, Bool.and_eq_true, decide_eq_true_eq]
    omega
  have hnotLow : isLowHalf (0xd800 + v / 0x400) = false := by
    simp only [isLowHalf, Bool.and_eq_false_iff, decide_eq_false_iff_not]
    omega
  have hlow : isLowHalf (0xdc00 + v % 0x400) = true := by
    simp only [isLowHalf, Bool.and_eq_true, decide_eq_true_eq]
    omega
  rw [pushUnit_of_not_low hnotLow, pushUnit, hhigh, hlow]
  simp only [Bool.and_self, if_true, List.cons.injEq, and_true]
  omega

theorem over_halves (back : List Token) (us : List Nat) {v : Nat} (h : v < 0x100000) :
    Lexer.Over ⟨back, .text us⟩
      (unitEscape (0xd800 + v / 0x400) ++ unitEscape (0xdc00 + v % 0x400) ++ ·)
      ⟨back, .text ((0x10000 + v) :: us)⟩ := by
  have hboth := (over_unitEscape back us (u := 0xd800 + v / 0x400) (by omega)).trans
    (over_unitEscape back _ (u := 0xdc00 + v % 0x400) (by omega))
  rw [pushUnit_halves h] at hboth
  simp only [List.append_assoc]
  exact hboth

/-! ## Characters -/

theorem over_plain (hquote : c ≠ '"') (hslash : c ≠ '\\') (hplain : 0x20 ≤ c.toNat) :
    Lexer.Over ⟨back, .text us⟩ ([c] ++ ·) ⟨back, .text (pushUnit c.toNat us)⟩ := by
  refine .cons (m := ⟨back, .text (pushUnit c.toNat us)⟩) ?_ fun rest => rfl
  simp only [feed?, if_neg hquote, if_neg hslash, if_neg (Nat.not_lt.mpr hplain)]

/-- A letter after a backslash stands for another character. -/
theorem over_letter {d : Char} (hd : d ≠ 'u') (h : simpleEscape? d = some u) :
    Lexer.Over ⟨back, .text us⟩ (['\\', d] ++ ·) ⟨back, .text (pushUnit u us)⟩ := by
  have hletter : feed? ⟨back, .escape us⟩ d = some ⟨back, .text (pushUnit u us)⟩ := by
    simp only [feed?, if_neg hd, h, Option.map_some]
  exact .cons (c := '\\') (m := ⟨back, .escape us⟩) rfl (.cons hletter fun rest => rfl)

theorem over_escapeChar (back : List Token) (us : List Nat) (c : Char) :
    Lexer.Over ⟨back, .text us⟩ (escapeChar c ++ ·) ⟨back, .text (c.toNat :: us)⟩ := by
  rw [← pushUnit_char c, escapeChar]
  -- Characters that have a letter of their own come first.
  split
  next hc => subst hc; exact over_letter (by decide) rfl
  split
  next hc => subst hc; exact over_letter (by decide) rfl
  split
  next hc => subst hc; exact over_letter (by decide) rfl
  split
  next hc => subst hc; exact over_letter (by decide) rfl
  split
  next hc => subst hc; exact over_letter (by decide) rfl
  split
  next hc => subst hc; exact over_letter (by decide) rfl
  split
  next hc => subst hc; exact over_letter (by decide) rfl
  split
  next hquote hslash _ _ _ _ _ hplain => exact over_plain hquote hslash hplain.1
  split
  next hbasic => exact over_unitEscape back us hbasic
  next hbasic =>
    have hvalid := Half.valid_toNat c
    obtain ⟨v, hv⟩ := Nat.exists_eq_add_of_le (Nat.not_lt.mp hbasic)
    rw [pushUnit_char, hv, Nat.add_sub_cancel_left]
    exact over_halves back us (by omega)

/-! ## Texts -/

theorem over_chars (back : List Token) (us : List Nat) (cs : List Char) :
    Lexer.Over ⟨back, .text us⟩ (cs.flatMap escapeChar ++ ·)
      ⟨back, .text ((cs.map Char.toNat).reverse ++ us)⟩ := by
  induction cs generalizing us with
  | nil => exact fun rest => rfl
  | cons c cs ih =>
    have hboth := (over_escapeChar back us c).trans (ih (c.toNat :: us))
    simp only [List.flatMap_cons, List.append_assoc, List.map_cons, List.reverse_cons,
      List.singleton_append]
    exact hboth

theorem textFrom_chars (cs run : List Char) :
    textFrom run none (cs.map Char.toNat) = String.ofList (cs.reverse ++ run) := by
  induction cs generalizing run with
  | nil => rfl
  | cons c cs ih =>
    rw [List.map_cons, textFrom, Half.ofCode?_toNat, List.reverse_cons, List.append_assoc]
    show textFrom (Char.ofNat c.toNat :: run) none _ = _
    rw [Char.ofNat_toNat, ih]
    rfl

theorem textOfUnits_chars (cs : List Char) :
    textOfUnits (cs.map Char.toNat).reverse = String.ofList cs := by
  rw [textOfUnits, ← List.map_reverse, textFrom_chars, List.reverse_reverse, List.append_nil]

theorem codes_closeRun_cons (c : Char) (run : List Char) (behind : Option (Half × LooseText)) :
    (closeRun (c :: run) behind).codes = c.toNat :: (closeRun run behind).codes := by
  cases behind <;> simp [closeRun, LooseText.codes]

theorem codes_textFrom (h : ∀ u ∈ us, u < 0x110000) (run : List Char)
    (behind : Option (Half × LooseText)) :
    (textFrom run behind us).codes = us.reverse ++ (closeRun run behind).codes := by
  induction us generalizing run behind with
  | nil => rfl
  | cons u us ih =>
    obtain ⟨hu, hus⟩ := List.forall_mem_cons.mp h
    rw [textFrom, List.reverse_cons, List.append_assoc]
    split
    · rename_i half hhalf
      rw [ih hus, ← Half.code_of_ofCode? hhalf]
      rfl
    · rename_i hnone
      rw [ih hus, codes_closeRun_cons, Half.toNat_ofNat hu hnone]
      rfl

/-- No unit of a string is lost, halves without a partner included. -/
theorem codes_textOfUnits (h : ∀ u ∈ us, u < 0x110000) : (textOfUnits us).codes = us.reverse := by
  rw [textOfUnits, codes_textFrom h]
  exact List.append_nil _

theorem over_stringOnto (s : String) :
    Lexer.Over ⟨back, .between⟩ (stringOnto s) ⟨.scalar (.str s) :: back, .between⟩ := by
  have hclosed : Lexer.Over ⟨back, .text (s.toList.map Char.toNat).reverse⟩ ('"' :: ·)
      ⟨.scalar (.str s) :: back, .between⟩ := by
    have hread : textOfUnits (s.toList.map Char.toNat).reverse = s :=
      (textOfUnits_chars s.toList).trans (congrArg LooseText.whole String.ofList_toList)
    refine .cons (m := ⟨.scalar (.str s) :: back, .between⟩) ?_ fun rest => rfl
    exact congrArg (fun t => some (Lexer.mk (.scalar (.ofText t) :: back) .between)) hread
  have hchars := over_chars back [] s.toList
  rw [List.append_nil] at hchars
  exact .cons (c := '"') (m := ⟨back, .text []⟩) rfl (hchars.trans hclosed)

end Json

end BlockGrid
