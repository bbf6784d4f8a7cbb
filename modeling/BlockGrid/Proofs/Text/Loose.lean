import BlockGrid.Text.Loose

/-!
# BlockGrid.Proofs.Text.Loose

Texts with halves, as the code points that they are made of.

* `isTorn_iff` — a text is torn when one of its code points is a half.
* `RefusedFor`, `refusedFor_of_encode` — text that is not written in UTF-8 is refused for its first
  halves, and the refusal says which they are, where they stand and how many there are.
-/

namespace BlockGrid

namespace Half

theorem code_bounds (h : Half) : 0xd800 ≤ h.code ∧ h.code < 0xe000 :=
  ⟨Nat.le_add_right 0xd800 h.index, Nat.add_lt_add_left h.index.isLt 0xd800⟩

theorem ofCode?_code (h : Half) : ofCode? h.code = some h := by
  rw [ofCode?, dif_pos h.code_bounds]
  exact congrArg (fun i => some (Half.mk i)) (Fin.ext (Nat.add_sub_cancel_left _ _))

theorem code_of_ofCode? {u : Nat} {h : Half} (hu : ofCode? u = some h) : h.code = u := by
  unfold ofCode? at hu
  split at hu
  · rename_i hbounds
    obtain rfl := Option.some.inj hu
    exact Nat.add_sub_cancel' hbounds.1
  · cases hu

theorem valid_toNat (c : Char) : c.toNat < 0xd800 ∨ 0xdfff < c.toNat ∧ c.toNat < 0x110000 :=
  c.valid

theorem ofCode?_toNat (c : Char) : ofCode? c.toNat = none := by
  have hvalid := valid_toNat c
  exact dif_neg (by omega)

theorem toNat_ofNat {u : Nat} (hbound : u < 0x110000) (hu : ofCode? u = none) :
    (Char.ofNat u).toNat = u := by
  have hvalid : u.isValidChar := by
    unfold ofCode? at hu
    split at hu
    · cases hu
    · simp only [Nat.isValidChar]
      omega
  rw [Char.ofNat, dif_pos hvalid]
  rfl

def isCode (u : Nat) : Bool := (ofCode? u).isSome

theorem isCode_code (h : Half) : isCode h.code = true := by
  rw [isCode, ofCode?_code]
  rfl

theorem isCode_toNat (c : Char) : isCode c.toNat = false := by
  rw [isCode, ofCode?_toNat]
  rfl

end Half

namespace LooseText

variable {t : LooseText} {s : String}

/-! ## Code points -/

theorem isCode_chars {c : Nat} (h : c ∈ s.toList.map Char.toNat) : Half.isCode c = false := by
  obtain ⟨d, -, rfl⟩ := List.mem_map.mp h
  exact Half.isCode_toNat d

theorem isTorn_iff : t.isTorn = true ↔ ∃ c ∈ t.codes, Half.isCode c = true := by
  cases t with
  | whole s =>
    refine iff_of_false Bool.false_ne_true ?_
    rintro ⟨c, hc, hcode⟩
    cases hcode.symm.trans (isCode_chars hc)
  | torn s h rest =>
    refine iff_of_true rfl ⟨h.code, ?_, Half.isCode_code h⟩
    exact List.mem_append_right _ List.mem_cons_self

/-! ## What UTF-8 takes -/

theorem halvesFirst_eq (t : LooseText) :
    t.halvesFirst = (t.codes.takeWhile Half.isCode).length := by
  induction t with
  | whole s =>
    rw [halvesFirst, codes]
    cases s.toList with
    | nil => rfl
    | cons c cs => simp [Half.isCode_toNat]
  | torn s h rest ih =>
    rw [halvesFirst, codes]
    split
    · rename_i hempty
      simp [hempty, Half.isCode_code, ih, Nat.add_comm]
    · rename_i hne
      cases hs : s.toList with
      | nil => exact absurd (String.toList_eq_nil_iff.mp hs) hne
      | cons c cs => simp [Half.isCode_toNat]

/-- Before the refused place there are characters only; from there on, so many halves. -/
structure RefusedFor (t : LooseText) (e : EncodeError) : Prop where
  before : ∀ c ∈ t.codes.take e.position, Half.isCode c = false
  half : (t.codes.drop e.position).head? = some e.half.code
  count : e.count = ((t.codes.drop e.position).takeWhile Half.isCode).length

theorem refusedFor_of_encode {e : EncodeError} (h : t.encode = .error e) : t.RefusedFor e := by
  cases t with
  | whole s => cases h
  | torn s half rest =>
    cases h
    have hlength : (s.toList.map Char.toNat).length = s.length :=
      (List.length_map _).trans String.length_toList
    have hdrop : ((torn s half rest).codes).drop s.length = half.code :: rest.codes := by
      rw [codes, ← hlength, List.drop_left]
    refine ⟨?_, ?_, ?_⟩
    · show ∀ c ∈ (torn s half rest).codes.take s.length, _
      rw [codes, ← hlength, List.take_left]
      exact fun c hc => isCode_chars hc
    · show ((torn s half rest).codes.drop s.length).head? = _
      rw [hdrop]
      rfl
    · show 1 + rest.halvesFirst = (((torn s half rest).codes.drop s.length).takeWhile _).length
      rw [hdrop, List.takeWhile_cons_of_pos (Half.isCode_code half), List.length_cons, Nat.add_comm,
        halvesFirst_eq]

end LooseText

end BlockGrid
