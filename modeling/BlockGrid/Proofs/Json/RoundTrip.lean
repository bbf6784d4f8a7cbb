import BlockGrid.Proofs.Json.Escape
import BlockGrid.Proofs.Text.Spelling
import Mathlib.Data.List.TakeDrop
import Mathlib.Data.List.TakeWhile

/-!
# BlockGrid.Proofs.Json.RoundTrip

Values are read back from their text.

* `Json.isPlain`   — no doubles and no halves in it, and no name twice in an object.
* `Json.tokens`    — the tokens of a value.
* `lexed`          — the text of a value is cut into its tokens. A numeral or a word is only known
  to be over when something else follows, so the lexer is left where a separator settles it
  (`Rests`).
* `steps_tokens`   — the reader delivers the value once it has seen its tokens.
* `parse?_render`  — both together.
-/

namespace BlockGrid

namespace Entries

variable {name : String} {v : Json} {es : Entries}

def names (es : Entries) : List String := es.map Prod.fst

theorem put_of_new (h : name ∉ names es) : es.put name v = es ++ [(name, v)] := by
  induction es with
  | nil => rfl
  | cons e es ih =>
    have hne : e.1 ≠ name := fun he => h (he ▸ List.mem_cons_self)
    rw [put, if_neg hne, ih fun hmem => h (List.mem_cons_of_mem _ hmem)]
    rfl

/-- Entries under new names are put behind those that are there. -/
theorem foldl_put (done es : Entries) (h : (names (done ++ es)).Nodup) :
    es.foldl (fun acc e => acc.put e.1 e.2) done = done ++ es := by
  induction es generalizing done with
  | nil => exact (List.append_nil done).symm
  | cons e es ih =>
    have hsplit : done ++ e :: es = done ++ [e] ++ es := by
      rw [List.append_assoc, List.singleton_append]
    have hnew : e.1 ∉ names done := by
      intro hmem
      rw [names, List.map_append, List.nodup_append] at h
      exact h.2.2 _ hmem _ List.mem_cons_self rfl
    rw [hsplit] at h ⊢
    rw [List.foldl_cons, put_of_new hnew, ih _ h]

theorem ofList_of_nodup (h : (names es).Nodup) : ofList es = es := foldl_put [] es h

end Entries

namespace Json

/-! ## Plain values -/

mutual

def isPlain : Json → Bool
  | .float _ => false
  | .torn _ _ _ => false
  | .arr items => arePlain items
  | .obj entries => decide (Entries.names entries).Nodup && membersPlain entries
  | _ => true

def arePlain : List Json → Bool
  | [] => true
  | v :: vs => isPlain v && arePlain vs

def membersPlain : List (String × Json) → Bool
  | [] => true
  | (_, v) :: es => isPlain v && membersPlain es

end

mutual

def tokens : Json → List Token
  | .arr [] => [.openList, .closeList]
  | .arr (v :: vs) => .openList :: (tokens v ++ itemTokens vs ++ [.closeList])
  | .obj [] => [.openObject, .closeObject]
  | .obj ((k, v) :: es) =>
    .openObject :: .scalar (.str k) :: .colon :: (tokens v ++ entryTokens es ++ [.closeObject])
  | v => [.scalar v]

/-- Those of the items after the first. -/
def itemTokens : List Json → List Token
  | [] => []
  | v :: vs => .comma :: (tokens v ++ itemTokens vs)

/-- Those of the entries after the first. -/
def entryTokens : List (String × Json) → List Token
  | [] => []
  | (k, v) :: es => .comma :: .scalar (.str k) :: .colon :: (tokens v ++ entryTokens es)

end

/-! ## Numerals -/

/-- A numeral starts with a zero only if it is the zero. -/
theorem exists_toDigits_cons (n : Nat) :
    ∃ d ds, d < 10 ∧ Nat.toDigits 10 n = d.digitChar :: ds ∧ (d = 0 → n = 0) := by
  induction n using Nat.strongRecOn with
  | ind n ih =>
    by_cases hn : n < 10
    · exact ⟨n, [], hn, Nat.toDigits_of_lt_base hn, id⟩
    · obtain ⟨d, ds, hd, hdigits, hzero⟩ := ih (n / 10) (by omega)
      refine ⟨d, ds ++ [(n % 10).digitChar], hd, ?_, fun h => ?_⟩
      · rw [Nat.toDigits_of_base_le (by omega) (by omega), hdigits, List.cons_append]
      · have := hzero h
        omega

theorem whole?_toDigits (n : Nat) : whole? (Nat.toDigits 10 n) = some n := by
  obtain ⟨d, ds, -, hdigits, hzero⟩ := exists_toDigits_cons n
  by_cases hn : n = 0
  · rw [hn]
    rfl
  · have hd : d.digitChar ≠ '0' := fun h => hn (hzero (Nat.digitChar_eq_zero.mp h))
    have hwhole : whole? (d.digitChar :: ds) = some (naturalOf (d.digitChar :: ds)) := by
      rw [whole?]
      · exact fun h => hd (List.cons.inj h).1
      · exact fun tail h => hd (List.cons.inj h).1
      · exact nofun
    rw [hdigits, hwhole, ← hdigits]
    exact congrArg some Nat.ofDigitChars_ten_toDigits

theorem forall_isDigit (n : Nat) : ∀ c ∈ Nat.toDigits 10 n, c.isDigit = true :=
  fun _ => Nat.isDigit_of_mem_toDigits (by omega) (by omega)

theorem unsignedNumeral?_toDigits (negative : Bool) (n : Nat) :
    unsignedNumeral? negative (Nat.toDigits 10 n) =
      some (.int (if negative then -(n : Int) else n)) := by
  have hspan : (Nat.toDigits 10 n).span Char.isDigit = (Nat.toDigits 10 n, []) := by
    rw [List.span_eq_takeWhile_dropWhile, List.takeWhile_eq_self_iff.mpr (forall_isDigit n),
      List.dropWhile_eq_nil_iff.mpr (forall_isDigit n)]
  rw [unsignedNumeral?, hspan]
  simp only [whole?_toDigits, List.isEmpty_nil, if_true]

theorem numeral?_toDigits (n : Nat) : numeral? (Nat.toDigits 10 n) = some (.int n) := by
  obtain ⟨d, ds, hd, hdigits, -⟩ := exists_toDigits_cons n
  have hminus : d.digitChar ≠ '-' := by
    intro h
    have hdigit : d.digitChar.isDigit = true := by rw [Nat.isDigit_digitChar, decide_eq_true hd]
    rw [h] at hdigit
    cases hdigit
  have hplain : numeral? (Nat.toDigits 10 n) = unsignedNumeral? false (Nat.toDigits 10 n) := by
    rw [hdigits, numeral?]
    exact fun rest h => hminus (List.cons.inj h).1
  rw [hplain, unsignedNumeral?_toDigits]
  rfl

theorem numeral?_toString (n : Int) : numeral? (toString n).toList = some (.int n) := by
  rw [Text.toList_toString]
  split
  · rw [numeral?, unsignedNumeral?_toDigits, if_pos rfl, show -(n.natAbs : Int) = n by omega]
  · rw [numeral?_toDigits, show (n.natAbs : Int) = n by omega]

/-! ## Lexing -/

variable {l : Lexer} {back : List Token} {v : Json} {w : List Char}

def isSeparator (c : Char) : Prop := c = ',' ∨ c = ']' ∨ c = '\x7d'

/-- The lexer is done with the tokens behind it as soon as a separator or the end follows. -/
structure Lexer.Rests (l : Lexer) (back : List Token) : Prop where
  settled : settle? l = some back
  separated : ∀ c, isSeparator c → feed? l c = start? back c

theorem rests_between : Lexer.Rests ⟨back, .between⟩ back := ⟨rfl, fun _ _ => rfl⟩

/-- What a separator ends, it settles before it is looked at itself. -/
theorem Lexer.Rests.of_settled (hsettled : settle? l = some back)
    (hends : ∀ c, isSeparator c → feed? l c = (settle? l).bind fun back => start? back c) :
    l.Rests back := by
  refine ⟨hsettled, fun c hc => ?_⟩
  rw [hends c hc, hsettled, Option.bind_some]

theorem rests_word (h : word? w.reverse = some v) :
    Lexer.Rests ⟨back, .word w⟩ (.scalar v :: back) := by
  refine .of_settled (by simp only [settle?, h, Option.map_some]) fun c hc => if_neg ?_
  rcases hc with rfl | rfl | rfl <;> decide

theorem rests_numeral (h : numeral? w.reverse = some v) :
    Lexer.Rests ⟨back, .numeral w⟩ (.scalar v :: back) := by
  refine .of_settled (by simp only [settle?, h, Option.map_some]) fun c hc => ?_
  have hchar : isNumeralChar c = false ∧ c.isAlpha = false := by
    rcases hc with rfl | rfl | rfl <;> decide
  simp only [feed?, hchar, Bool.false_eq_true, if_false, and_false]

theorem over_numeralChars (back : List Token) (w : List Char) {cs : List Char}
    (h : ∀ c ∈ cs, c.isDigit = true) :
    Lexer.Over ⟨back, .numeral w⟩ (cs ++ ·) ⟨back, .numeral (cs.reverse ++ w)⟩ := by
  induction cs generalizing w with
  | nil => exact fun rest => rfl
  | cons c cs ih =>
    have hc : isNumeralChar c = true := by
      simp only [isNumeralChar, h c List.mem_cons_self, Bool.true_or]
    have hcs := ih (c :: w) fun d hd => h d (List.mem_cons_of_mem c hd)
    rw [List.reverse_cons, List.append_assoc, List.singleton_append]
    exact .cons (m := ⟨back, .numeral (c :: w)⟩) (by simp only [feed?, hc, if_true]) hcs

theorem start?_digitChar : ∀ d < 10,
    start? back (Nat.digitChar d) = some ⟨back, .numeral [Nat.digitChar d]⟩
  | 0, _ | 1, _ | 2, _ | 3, _ | 4, _ | 5, _ | 6, _ | 7, _ | 8, _ | 9, _ => rfl

theorem over_int (n : Int) : Lexer.Over ⟨back, .between⟩ ((toString n).toList ++ ·)
    ⟨back, .numeral (toString n).toList.reverse⟩ := by
  obtain ⟨d, ds, hd, hdigits, -⟩ := exists_toDigits_cons n.natAbs
  have hall := forall_isDigit n.natAbs
  rw [Text.toList_toString]
  split
  · have hrest := over_numeralChars back ['-'] hall
    rw [List.reverse_cons]
    exact .cons (m := ⟨back, .numeral ['-']⟩) rfl hrest
  · rw [hdigits] at hall ⊢
    have hrest := over_numeralChars back [d.digitChar] fun c hc =>
      hall c (List.mem_cons_of_mem _ hc)
    rw [List.reverse_cons]
    exact .cons (m := ⟨back, .numeral [d.digitChar]⟩) (start?_digitChar d hd) hrest

/-- A separator settles what is open and is the next token. -/
theorem Lexer.Rests.feed {c : Char} {t : Token} (h : l.Rests back) (hc : isSeparator c)
    (hstart : ∀ back, start? back c = some ⟨t :: back, .between⟩) :
    feed? l c = some ⟨t :: back, .between⟩ :=
  (h.separated c hc).trans (hstart back)

theorem over_colon : Lexer.Over ⟨back, .between⟩ (fun rest => ':' :: ' ' :: rest)
    ⟨.colon :: back, .between⟩ :=
  fun _ => rfl

mutual

theorem lexed (v : Json) (h : v.isPlain = true) (back : List Token) : ∃ m : Lexer,
    m.Rests ((tokens v).reverse ++ back) ∧ Lexer.Over ⟨back, .between⟩ (onto v) m :=
  match v, h with
  | .null, _ => ⟨⟨back, .word ['l', 'l', 'u', 'n']⟩, rests_word rfl, fun rest => rfl⟩
  | .bool true, _ => ⟨⟨back, .word ['e', 'u', 'r', 't']⟩, rests_word rfl, fun rest => rfl⟩
  | .bool false, _ =>
    ⟨⟨back, .word ['e', 's', 'l', 'a', 'f']⟩, rests_word rfl, fun rest => rfl⟩
  | .int n, _ => by
    refine ⟨_, rests_numeral ?_, over_int n⟩
    rw [List.reverse_reverse, numeral?_toString]
  | .str s, _ => ⟨_, rests_between, over_stringOnto s⟩
  | .arr [], _ => ⟨_, rests_between, fun rest => rfl⟩
  | .arr (v :: vs), h => by
    rw [isPlain, arePlain, Bool.and_eq_true] at h
    obtain ⟨l, hl, hv⟩ := lexed v h.1 (.openList :: back)
    obtain ⟨m, hm, hvs⟩ := lexed_items vs h.2 hl
    have hclose := hm.feed (c := ']') (.inr (.inl rfl)) fun _ => rfl
    refine ⟨_, ?_, .cons (c := '[') (m := ⟨.openList :: back, .between⟩) rfl
      (hv.trans (hvs.trans (.cons hclose fun rest => rfl)))⟩
    simp only [tokens, List.reverse_cons, List.reverse_append, List.append_assoc]
    exact rests_between
  | .obj [], _ => ⟨_, rests_between, fun rest => rfl⟩
  | .obj ((k, v) :: es), h => by
    rw [isPlain, membersPlain, Bool.and_eq_true, Bool.and_eq_true] at h
    obtain ⟨l, hl, hv⟩ := lexed v h.2.1 (.colon :: .scalar (.str k) :: .openObject :: back)
    obtain ⟨m, hm, hes⟩ := lexed_entries es h.2.2 hl
    have hclose := hm.feed (c := '\x7d') (.inr (.inr rfl)) fun _ => rfl
    refine ⟨_, ?_, .cons (c := '\x7b') (m := ⟨.openObject :: back, .between⟩) rfl
      ((over_stringOnto k).trans (over_colon.trans
        (hv.trans (hes.trans (.cons hclose fun rest => rfl)))))⟩
    simp only [tokens, List.reverse_cons, List.reverse_append, List.append_assoc]
    exact rests_between

theorem lexed_items (vs : List Json) (h : arePlain vs = true) {l : Lexer} {back : List Token}
    (hl : l.Rests back) :
    ∃ m : Lexer, m.Rests ((itemTokens vs).reverse ++ back) ∧ l.Over (itemsOnto vs) m :=
  match vs, h with
  | [], _ => ⟨l, hl, fun rest => rfl⟩
  | v :: vs, h => by
    rw [arePlain, Bool.and_eq_true] at h
    have hcomma := hl.feed (c := ',') (.inl rfl) fun _ => rfl
    obtain ⟨l', hl', hv⟩ := lexed v h.1 (.comma :: back)
    obtain ⟨m, hm, hvs⟩ := lexed_items vs h.2 hl'
    refine ⟨m, ?_, .cons hcomma (.cons (c := ' ') (m := ⟨.comma :: back, .between⟩) rfl
      (hv.trans hvs))⟩
    simp only [itemTokens, List.reverse_cons, List.reverse_append, List.append_assoc]
    exact hm

theorem lexed_entries (es : Entries) (h : membersPlain es = true) {l : Lexer}
    {back : List Token} (hl : l.Rests back) :
    ∃ m : Lexer, m.Rests ((entryTokens es).reverse ++ back) ∧ l.Over (entriesOnto es) m :=
  match es, h with
  | [], _ => ⟨l, hl, fun rest => rfl⟩
  | (k, v) :: es, h => by
    rw [membersPlain, Bool.and_eq_true] at h
    have hcomma := hl.feed (c := ',') (.inl rfl) fun _ => rfl
    obtain ⟨l', hl', hv⟩ := lexed v h.1 (.colon :: .scalar (.str k) :: .comma :: back)
    obtain ⟨m, hm, hes⟩ := lexed_entries es h.2 hl'
    refine ⟨m, ?_, .cons hcomma (.cons (c := ' ') (m := ⟨.comma :: back, .between⟩) rfl
      ((over_stringOnto k).trans (over_colon.trans (hv.trans hes))))⟩
    simp only [entryTokens, List.reverse_cons, List.reverse_append, List.append_assoc]
    exact hm

end

theorem tokens?_onto (h : v.isPlain = true) : tokens? (onto v []) = some (tokens v) := by
  obtain ⟨m, hm, hover⟩ := lexed v h []
  rw [tokens?, hover []]
  show ((some m).bind settle?).map List.reverse = _
  rw [Option.bind_some, hm.settled, List.append_nil, Option.map_some, List.reverse_reverse]

/-! ## Reading -/

theorem steps_cons {r q : Reader} {t : Token} (h : r.step? t = some q) (ts : List Token) :
    r.steps? (t :: ts) = q.steps? ts := by
  rw [Reader.steps?, h, Option.bind_some]

/-- Where a value is due, with or without the alternative that a list ends. -/
def awaitsValue (e : Expect) : Prop := e = .value ∨ e = .valueOrClose

mutual

theorem steps_tokens (v : Json) (h : v.isPlain = true) (stack : List Frame) {e : Expect}
    (he : awaitsValue e) (ts : List Token) :
    Reader.steps? ⟨stack, e⟩ (tokens v ++ ts) = (Reader.deliver v stack).steps? ts :=
  match v, h with
  | .null, _ | .bool _, _ | .int _, _ | .str _, _ => by
    rcases he with rfl | rfl <;> exact steps_cons rfl ts
  | .arr [], _ => by
    rcases he with rfl | rfl <;> exact (steps_cons rfl _).trans (steps_cons rfl ts)
  | .arr (v :: vs), h => by
    rw [isPlain, arePlain, Bool.and_eq_true] at h
    have hopen : Reader.step? ⟨stack, e⟩ .openList = some ⟨.list [] :: stack, .valueOrClose⟩ := by
      rcases he with rfl | rfl <;> rfl
    have hclose : Reader.step? ⟨.list (vs.reverse ++ [v]) :: stack, .commaOrClose⟩ .closeList =
        some (Reader.deliver (.arr (v :: vs)) stack) := by
      rw [← List.reverse_cons]
      show some (Reader.deliver (.arr (v :: vs).reverse.reverse) stack) = _
      rw [List.reverse_reverse]
    simp only [tokens, List.append_assoc, List.cons_append, List.nil_append]
    rw [steps_cons hopen, steps_tokens v h.1 _ (.inr rfl), Reader.deliver,
      steps_items vs h.2, steps_cons hclose]
  | .obj [], _ => by
    rcases he with rfl | rfl <;> exact (steps_cons rfl _).trans (steps_cons rfl ts)
  | .obj ((k, v) :: es), h => by
    rw [isPlain, membersPlain, Bool.and_eq_true, Bool.and_eq_true, decide_eq_true_eq] at h
    have hopen : Reader.step? ⟨stack, e⟩ .openObject =
        some ⟨.entries [] "" :: stack, .nameOrClose⟩ := by
      rcases he with rfl | rfl <;> rfl
    have hclose : Reader.step? ⟨.entries (es.reverse ++ [(k, v)]) "" :: stack, .commaOrClose⟩
        .closeObject = some (Reader.deliver (.obj ((k, v) :: es)) stack) := by
      rw [← List.reverse_cons]
      show some (Reader.deliver (.obj (Entries.ofList ((k, v) :: es).reverse.reverse)) stack) = _
      rw [List.reverse_reverse, Entries.ofList_of_nodup h.1]
    simp only [tokens, List.append_assoc, List.cons_append, List.nil_append]
    rw [steps_cons hopen, steps_cons (q := ⟨.entries [] k :: stack, .colon⟩) rfl,
      steps_cons (q := ⟨.entries [] k :: stack, .value⟩) rfl, steps_tokens v h.2.1 _ (.inl rfl),
      Reader.deliver, steps_entries es h.2.2, steps_cons hclose]

theorem steps_items (vs : List Json) (h : arePlain vs = true) (done : List Json)
    (stack : List Frame) (ts : List Token) :
    Reader.steps? ⟨.list done :: stack, .commaOrClose⟩ (itemTokens vs ++ ts) =
      Reader.steps? ⟨.list (vs.reverse ++ done) :: stack, .commaOrClose⟩ ts :=
  match vs, h with
  | [], _ => rfl
  | v :: vs, h => by
    rw [arePlain, Bool.and_eq_true] at h
    simp only [itemTokens, List.append_assoc, List.cons_append, List.reverse_cons,
      List.nil_append]
    rw [steps_cons (q := ⟨.list done :: stack, .value⟩) rfl, steps_tokens v h.1 _ (.inl rfl),
      Reader.deliver, steps_items vs h.2]

theorem steps_entries (es : Entries) (h : membersPlain es = true) (done : Entries)
    (stack : List Frame) (ts : List Token) :
    Reader.steps? ⟨.entries done "" :: stack, .commaOrClose⟩ (entryTokens es ++ ts) =
      Reader.steps? ⟨.entries (es.reverse ++ done) "" :: stack, .commaOrClose⟩ ts :=
  match es, h with
  | [], _ => rfl
  | (k, v) :: es, h => by
    rw [membersPlain, Bool.and_eq_true] at h
    simp only [entryTokens, List.append_assoc, List.cons_append, List.reverse_cons,
      List.nil_append]
    rw [steps_cons (q := ⟨.entries done "" :: stack, .name⟩) rfl,
      steps_cons (q := ⟨.entries done k :: stack, .colon⟩) rfl,
      steps_cons (q := ⟨.entries done k :: stack, .value⟩) rfl,
      steps_tokens v h.1 _ (.inl rfl), Reader.deliver, steps_entries es h.2]

end

theorem ofTokens?_tokens (h : v.isPlain = true) : ofTokens? (tokens v) = some v := by
  have hsteps := steps_tokens v h [] (.inl rfl) []
  rw [List.append_nil] at hsteps
  rw [ofTokens?, hsteps]
  rfl

theorem parse?_render (h : v.isPlain = true) : parse? v.render = some v := by
  rw [parse?, render, String.toList_ofList, tokens?_onto h, Option.bind_some, ofTokens?_tokens h]

end Json

end BlockGrid
