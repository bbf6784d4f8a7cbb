import BlockGrid.Proofs.Json.RoundTrip
import Mathlib.Data.List.Nodup

/-!
# BlockGrid.Proofs.Json.Distinct

Entries by name, and values in which no object has a name twice.

* `get?_put`, `names_put` — a look-up and the names after an entry was put.
* `eq_of_get?`      — distinct names in order and the values under them are all there is to entries.
* `Json.Tidy`       — no name twice in an object, however deep it lies in other objects.
* `tidy_of_parse?`  — what is read from a text is tidy, since of several entries under one name the
  reader keeps one.
-/

namespace BlockGrid

namespace Entries

variable {name other : String} {v : Json} {es fs : Entries}

theorem get?_cons (k : String) (v : Json) (es : Entries) (name : String) :
    get? name ((k, v) :: es) = if k = name then some v else get? name es := rfl

theorem names_cons (k : String) (v : Json) (es : Entries) : names ((k, v) :: es) = k :: names es :=
  rfl

theorem get?_put (name : String) (v : Json) (es : Entries) (other : String) :
    get? other (put name v es) = if name = other then some v else get? other es := by
  induction es with
  | nil => rfl
  | cons e es ih =>
    obtain ⟨k, w⟩ := e
    by_cases hk : k = name
    · subst hk
      rw [put, if_pos rfl, get?_cons, get?_cons]
      split <;> rfl
    · rw [put, if_neg hk, get?_cons, get?_cons, ih]
      split
      · subst k
        rw [if_neg fun h => hk h.symm]
      · rfl

theorem get?_eq_none_iff : get? name es = none ↔ name ∉ names es := by
  induction es with
  | nil => exact iff_of_true rfl List.not_mem_nil
  | cons e es ih =>
    obtain ⟨k, v⟩ := e
    rw [get?_cons, names_cons, List.mem_cons]
    split
    · rename_i he
      exact iff_of_false (Option.some_ne_none v) fun h => h (.inl he.symm)
    · rename_i he
      rw [ih]
      exact (not_congr (or_iff_right fun h => he h.symm)).symm

theorem mem_of_get? (h : get? name es = some v) : (name, v) ∈ es := by
  induction es with
  | nil => cases h
  | cons e es ih =>
    rw [get?_cons] at h
    split at h
    · rename_i he
      cases h
      exact he ▸ List.mem_cons_self
    · exact List.mem_cons_of_mem _ (ih h)

theorem put_of_mem (h : name ∈ names es) (v : Json) : names (put name v es) = names es := by
  induction es with
  | nil => cases h
  | cons e es ih =>
    rw [put]
    split
    · rfl
    · rename_i he
      have hrest : name ∈ names es := (List.mem_cons.mp h).resolve_left fun h => he h.symm
      exact congrArg (e.1 :: ·) (ih hrest)

theorem names_put (name : String) (v : Json) (es : Entries) :
    names (put name v es) = if name ∈ names es then names es else names es ++ [name] := by
  split
  · exact put_of_mem ‹_› v
  · rw [put_of_new ‹_›, names, names, List.map_append]
    rfl

theorem nodup_put (h : (names es).Nodup) (name : String) (v : Json) :
    (names (put name v es)).Nodup := by
  rw [names_put]
  split
  · exact h
  · rename_i hnew
    exact List.nodup_append.mpr ⟨h, List.nodup_singleton _, fun k hk l hl hkl =>
      hnew (List.mem_singleton.mp hl ▸ hkl ▸ hk)⟩

theorem eq_of_get? (hnodup : (names es).Nodup) (hnames : names es = names fs)
    (h : ∀ name, get? name es = get? name fs) : es = fs := by
  induction es generalizing fs with
  | nil =>
    cases fs with
    | nil => rfl
    | cons f fs => cases hnames
  | cons e es ih =>
    cases fs with
    | nil => cases hnames
    | cons f fs =>
      obtain ⟨k, v⟩ := e
      obtain ⟨l, w⟩ := f
      obtain ⟨rfl, hrest⟩ : k = l ∧ names es = names fs := List.cons_eq_cons.mp hnames
      obtain ⟨hk, hes⟩ := List.nodup_cons.mp hnodup
      have hv := h k
      rw [get?_cons, get?_cons, if_pos rfl, if_pos rfl] at hv
      cases hv
      refine congrArg ((k, v) :: ·) (ih hes hrest fun name => ?_)
      have hname := h name
      rw [get?_cons, get?_cons] at hname
      split at hname
      · rename_i he
        subst he
        rw [get?_eq_none_iff.mpr hk, get?_eq_none_iff.mpr (hrest ▸ hk)]
      · exact hname

end Entries

namespace Json

/-- No name twice in an object, nor in one of its members. What lies in a list does not count. -/
inductive Tidy : Json → Prop where
  | leaf {v : Json} : v.isObject = false → Tidy v
  | object {es : Entries} : (Entries.names es).Nodup → (∀ e ∈ es, Tidy e.2) → Tidy (.obj es)

theorem Tidy.nodup {es : Entries} (h : Tidy (.obj es)) : (Entries.names es).Nodup := by
  cases h with
  | leaf h => cases h
  | object hnodup _ => exact hnodup

theorem Tidy.member {es : Entries} {name : String} {v : Json} (h : Tidy (.obj es))
    (hv : Entries.get? name es = some v) : Tidy v := by
  cases h with
  | leaf h => cases h
  | object _ hmembers => exact hmembers _ (Entries.mem_of_get? hv)

theorem mem_put {name : String} {v : Json} {es : Entries} {e : String × Json}
    (h : e ∈ Entries.put name v es) : e.2 = v ∨ e ∈ es := by
  induction es with
  | nil => exact .inl (List.mem_singleton.mp h ▸ rfl)
  | cons d es ih =>
    rw [Entries.put] at h
    split at h
    · rcases List.mem_cons.mp h with rfl | h
      · exact .inl rfl
      · exact .inr (List.mem_cons_of_mem d h)
    · rcases List.mem_cons.mp h with rfl | h
      · exact .inr List.mem_cons_self
      · exact (ih h).imp_right (List.mem_cons_of_mem d)

theorem tidy_empty : Tidy (.obj []) := by
  have hnodup : (Entries.names []).Nodup := List.nodup_nil
  exact .object hnodup nofun

theorem tidy_put {name : String} {v : Json} {es : Entries} (hes : Tidy (.obj es)) (hv : Tidy v) :
    Tidy (.obj (Entries.put name v es)) := by
  refine .object (Entries.nodup_put hes.nodup name v) fun e he => ?_
  rcases mem_put he with h | h
  · exact h ▸ hv
  · cases hes with
    | leaf h => cases h
    | object _ hmembers => exact hmembers e h

theorem tidy_foldl_put {done es : Entries} (hdone : Tidy (.obj done)) (hes : ∀ e ∈ es, Tidy e.2) :
    Tidy (.obj (es.foldl (fun acc e => Entries.put e.1 e.2 acc) done)) := by
  induction es generalizing done with
  | nil => exact hdone
  | cons e es ih =>
    exact ih (tidy_put hdone (hes e List.mem_cons_self)) fun d hd =>
      hes d (List.mem_cons_of_mem e hd)

theorem tidy_ofList {es : Entries} (h : ∀ e ∈ es, Tidy e.2) : Tidy (.obj (Entries.ofList es)) :=
  tidy_foldl_put tidy_empty h

/-! ## Tokens -/

/-- The value of a token, if it has one, holds no entries. -/
def Token.Scalar (t : Token) : Prop := ∀ v, t = .scalar v → v.isObject = false

theorem isObject_of_word? {s : List Char} {v : Json} (h : word? s = some v) :
    v.isObject = false := by
  unfold word? at h
  iterate 6
    split at h
    · cases h; rfl
  cases h

theorem isObject_of_unsignedNumeral? {negative : Bool} {s : List Char} {v : Json}
    (h : unsignedNumeral? negative s = some v) : v.isObject = false := by
  unfold unsignedNumeral? at h
  dsimp only at h
  split at h
  · cases h
  split at h
  · cases h; rfl
  · obtain ⟨_, -, rfl⟩ := Option.map_eq_some_iff.mp h
    rfl

theorem isObject_of_numeral? {s : List Char} {v : Json} (h : numeral? s = some v) :
    v.isObject = false := by
  unfold numeral? at h
  split at h <;> exact isObject_of_unsignedNumeral? h

theorem isObject_ofText (t : LooseText) : (ofText t).isObject = false := by
  cases t <;> rfl

theorem scalar_scalar {v : Json} (h : v.isObject = false) : (Token.scalar v).Scalar := by
  rintro _ ⟨⟩
  exact h

section Lexing

variable {l l' : Lexer} {back : List Token} {c : Char} {cs : List Char}

theorem scalars_of_settle? (h : settle? l = some back) (hl : ∀ t ∈ l.back, t.Scalar) :
    ∀ t ∈ back, t.Scalar := by
  unfold settle? at h
  split at h
  · cases h
    exact hl
  · obtain ⟨v, hv, rfl⟩ := Option.map_eq_some_iff.mp h
    exact List.forall_mem_cons.mpr ⟨scalar_scalar (isObject_of_word? hv), hl⟩
  · obtain ⟨v, hv, rfl⟩ := Option.map_eq_some_iff.mp h
    exact List.forall_mem_cons.mpr ⟨scalar_scalar (isObject_of_numeral? hv), hl⟩
  · cases h

/-- One of several conditions on a character. -/
theorem scalars_of_ite {p : Prop} [Decidable p] {m : Lexer} {rest : Option Lexer}
    (hm : ∀ t ∈ m.back, t.Scalar) (hrest : rest = some l → ∀ t ∈ l.back, t.Scalar)
    (h : (if p then some m else rest) = some l) : ∀ t ∈ l.back, t.Scalar := by
  by_cases hp : p
  · rw [if_pos hp] at h
    exact Option.some.inj h ▸ hm
  · rw [if_neg hp] at h
    exact hrest h

theorem scalars_of_start? (h : start? back c = some l) (hback : ∀ t ∈ back, t.Scalar) :
    ∀ t ∈ l.back, t.Scalar := by
  have hbracket {t : Token} (ht : ∀ v, t ≠ .scalar v) : ∀ u ∈ t :: back, u.Scalar :=
    List.forall_mem_cons.mpr ⟨fun v hv => absurd hv (ht v), hback⟩
  revert h
  unfold start?
  -- A blank, then brackets and separators, then what is still open: a text, a numeral, a word.
  refine scalars_of_ite hback ?_
  iterate 6 refine scalars_of_ite (hbracket nofun) ?_
  iterate 3 refine scalars_of_ite hback ?_
  exact nofun

theorem scalars_of_feed? (h : feed? l c = some l') (hl : ∀ t ∈ l.back, t.Scalar) :
    ∀ t ∈ l'.back, t.Scalar := by
  have hsettled (h : ((settle? l).bind fun back => start? back c) = some l') :
      ∀ t ∈ l'.back, t.Scalar := by
    obtain ⟨back, hback, hstart⟩ := Option.bind_eq_some_iff.mp h
    exact scalars_of_start? hstart (scalars_of_settle? hback hl)
  unfold feed? at h
  split at h
  · exact scalars_of_start? h hl
  · split at h
    · cases h
      exact hl
    · exact hsettled h
  · split at h
    · cases h
      exact hl
    split at h
    · cases h
      exact hl
    · exact hsettled h
  · split at h
    · cases h
      exact List.forall_mem_cons.mpr ⟨scalar_scalar (isObject_ofText _), hl⟩
    split at h
    · cases h
      exact hl
    split at h
    · cases h
    · cases h
      exact hl
  · split at h
    · cases h
      exact hl
    · obtain ⟨u, -, rfl⟩ := Option.map_eq_some_iff.mp h
      exact hl
  · obtain ⟨d, -, rfl⟩ := Option.map_eq_some_iff.mp h
    split <;> exact hl

theorem scalars_of_feedAll? (h : feedAll? l cs = some l') (hl : ∀ t ∈ l.back, t.Scalar) :
    ∀ t ∈ l'.back, t.Scalar := by
  induction cs generalizing l with
  | nil =>
    cases h
    exact hl
  | cons c cs ih =>
    obtain ⟨m, hm, hrest⟩ := Option.bind_eq_some_iff.mp h
    exact ih hrest (scalars_of_feed? hm hl)

theorem scalars_of_tokens? {ts : List Token} (h : tokens? cs = some ts) :
    ∀ t ∈ ts, t.Scalar := by
  obtain ⟨back, hback, rfl⟩ := Option.map_eq_some_iff.mp h
  obtain ⟨l, hl, hsettle⟩ := Option.bind_eq_some_iff.mp hback
  intro t ht
  exact scalars_of_settle? hsettle (scalars_of_feedAll? hl nofun) t (List.mem_reverse.mp ht)

end Lexing

/-! ## Reading -/

def Frame.Tidy : Frame → Prop
  | .list _ => True
  | .entries back _ => ∀ e ∈ back, Json.Tidy e.2

/-- All that has been read so far is tidy. -/
structure Reader.Tidy (r : Reader) : Prop where
  stack : ∀ f ∈ r.stack, f.Tidy
  result : ∀ v, r.expect = .nothing v → Json.Tidy v

variable {stack : List Frame} {v : Json} {r q : Reader} {t : Token}

theorem Reader.tidy_deliver (hv : Json.Tidy v) (hstack : ∀ f ∈ stack, f.Tidy) :
    (deliver v stack).Tidy := by
  match stack, hstack with
  | [], _ => exact ⟨nofun, by rintro _ ⟨⟩; exact hv⟩
  | .list back :: rest, hstack =>
    exact ⟨List.forall_mem_cons.mpr ⟨trivial, (List.forall_mem_cons.mp hstack).2⟩, nofun⟩
  | .entries back name :: rest, hstack =>
    obtain ⟨hback, hrest⟩ := List.forall_mem_cons.mp hstack
    exact ⟨List.forall_mem_cons.mpr ⟨List.forall_mem_cons.mpr ⟨hv, hback⟩, hrest⟩, nofun⟩

theorem Reader.tidy_value? (h : value? stack t = some q) (ht : t.Scalar)
    (hstack : ∀ f ∈ stack, f.Tidy) : q.Tidy := by
  unfold value? at h
  split at h
  · cases h
    exact ⟨List.forall_mem_cons.mpr ⟨trivial, hstack⟩, nofun⟩
  · cases h
    exact ⟨List.forall_mem_cons.mpr ⟨nofun, hstack⟩, nofun⟩
  · cases h
    exact tidy_deliver (.leaf (ht _ rfl)) hstack
  · cases h

theorem Reader.tidy_name? (h : name? stack t = some q) (hstack : ∀ f ∈ stack, f.Tidy) :
    q.Tidy := by
  unfold name? at h
  split at h
  · cases h
    obtain ⟨hback, hrest⟩ := List.forall_mem_cons.mp hstack
    exact ⟨List.forall_mem_cons.mpr ⟨hback, hrest⟩, nofun⟩
  · cases h
    obtain ⟨hback, hrest⟩ := List.forall_mem_cons.mp hstack
    exact ⟨List.forall_mem_cons.mpr ⟨hback, hrest⟩, nofun⟩
  · cases h

theorem Reader.tidy_step? (h : r.step? t = some q) (hr : r.Tidy) (ht : t.Scalar) : q.Tidy := by
  obtain ⟨stack, expect⟩ := r
  have hstack : ∀ f ∈ stack, f.Tidy := hr.stack
  unfold step? at h
  dsimp only at h
  split at h
  · exact tidy_value? h ht hstack
  · cases h
    exact tidy_deliver (.leaf rfl) (List.forall_mem_cons.mp hstack).2
  · exact tidy_value? h ht hstack
  · cases h
    exact tidy_deliver tidy_empty (List.forall_mem_cons.mp hstack).2
  · exact tidy_name? h hstack
  · exact tidy_name? h hstack
  · cases h
    exact ⟨hstack, nofun⟩
  · cases h
    exact ⟨hstack, nofun⟩
  · cases h
    exact ⟨hstack, nofun⟩
  · cases h
    exact tidy_deliver (.leaf rfl) (List.forall_mem_cons.mp hstack).2
  · cases h
    obtain ⟨hback, hrest⟩ := List.forall_mem_cons.mp hstack
    exact tidy_deliver (tidy_ofList fun e he => hback e (List.mem_reverse.mp he)) hrest
  · cases h

theorem Reader.tidy_steps? {ts : List Token} (h : r.steps? ts = some q) (hr : r.Tidy)
    (hts : ∀ t ∈ ts, t.Scalar) : q.Tidy := by
  induction ts generalizing r with
  | nil =>
    cases h
    exact hr
  | cons t ts ih =>
    obtain ⟨ht, hrest⟩ := List.forall_mem_cons.mp hts
    obtain ⟨m, hm, hsteps⟩ := Option.bind_eq_some_iff.mp h
    exact ih hsteps (tidy_step? hm hr ht) hrest

theorem tidy_of_parse? {s : String} (h : parse? s = some v) : Tidy v := by
  obtain ⟨ts, hts, h⟩ := Option.bind_eq_some_iff.mp h
  unfold ofTokens? at h
  split at h
  · rename_i w hsteps
    cases h
    exact (Reader.tidy_steps? hsteps ⟨nofun, nofun⟩ (scalars_of_tokens? hts)).result _ rfl
  · cases h

end Json

end BlockGrid
