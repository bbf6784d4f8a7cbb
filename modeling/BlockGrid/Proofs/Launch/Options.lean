import BlockGrid.Launch.CommandLine
import BlockGrid.Proofs.Fallible

/-!
# BlockGrid.Proofs.Launch.Options

What the options of a command line can be.

* `Json.IsWording`     — the value of an option that takes a text: none, or no text behind the mark,
  or a text with something in it. Such a value counts just when it is a text.
* `Options.IsWorded`   — all options of this kind have such values.
* `isWorded_of_parse`  — every command line leads to such options, whatever its words are. No flag
  does away with this (`isWorded_attach`, `isWorded_setFlag`), so it holds after all of them.
-/

namespace BlockGrid

def Json.IsWording (v : Json) : Prop := v = .null ∨ v = .arr [] ∨ ∃ s, v = .str s ∧ s ≠ ""

/-- The text that an option was given, if it was given one. -/
def Json.wording? : Json → Option String
  | .str s => some s
  | _ => none

theorem Json.IsWording.isTruthy {v : Json} (h : v.IsWording) :
    v.isTruthy = v.wording?.isSome := by
  rcases h with rfl | rfl | ⟨s, rfl, hs⟩
  · rfl
  · rfl
  · exact decide_eq_true hs

theorem Path.text_ne_empty (s : String) : (Path.ofText s).text ≠ "" := by
  unfold text
  split
  · decide
  · rename_i h
    intro htext
    have hchars := congrArg String.toList htext
    rw [String.toList_ofList, String.toList_empty, List.append_eq_nil_iff] at hchars
    obtain ⟨hroot, hsteps⟩ := hchars
    refine h ⟨hroot, ?_⟩
    cases hs : (ofText s).steps with
    | nil => rfl
    | cons step steps =>
      have hstep : step ∈ (ofText s).steps := hs ▸ List.mem_cons_self
      have hne : isStep step = true := (List.mem_filter.mp hstep).2
      rw [hs] at hsteps
      cases step with
      | nil => cases hne
      | cons c cs => cases steps <;> cases hsteps

namespace Options

structure IsWorded (o : Options) : Prop where
  config : o.config.IsWording
  exportDir : o.exportDir.IsWording
  logLevel : o.logLevel.IsWording

theorem isWorded_none : Options.none.IsWorded := ⟨.inl rfl, .inl rfl, .inl rfl⟩

end Options

namespace Taking

variable {t t' : Taking} {o o' : Options} {f : Flag} {v : Json}

theorem isWording_path {s : Option String} (h : valueOf (.ok ∘ path) s = .ok v) : v.IsWording := by
  cases s with
  | none => cases h; exact .inr (.inl rfl)
  | some s => cases h; exact .inr (.inr ⟨_, rfl, Path.text_ne_empty s⟩)

theorem isWording_level {s : Option String} (h : valueOf level s = .ok v) : v.IsWording := by
  cases s with
  | none => cases h; exact .inr (.inl rfl)
  | some s =>
    have h : level s = .ok v := h
    unfold level at h
    split at h
    · rename_i hlevel
      cases h
      refine .inr (.inr ⟨s, rfl, ?_⟩)
      rintro rfl
      revert hlevel
      decide
    · cases h

theorem isWorded_setValue {s : Option String} (h : setValue o f s = .ok o') (ho : o.IsWorded) :
    o'.IsWorded := by
  cases f with
  | config =>
    obtain ⟨v, hv, rfl⟩ := exists_of_map_eq_ok h
    exact ⟨isWording_path hv, ho.exportDir, ho.logLevel⟩
  | moveDelay =>
    obtain ⟨v, -, rfl⟩ := exists_of_map_eq_ok h
    exact ⟨ho.config, ho.exportDir, ho.logLevel⟩
  | turnDelay =>
    obtain ⟨v, -, rfl⟩ := exists_of_map_eq_ok h
    exact ⟨ho.config, ho.exportDir, ho.logLevel⟩
  | exportDir =>
    obtain ⟨v, hv, rfl⟩ := exists_of_map_eq_ok h
    exact ⟨ho.config, isWording_path hv, ho.logLevel⟩
  | logLevel =>
    obtain ⟨v, hv, rfl⟩ := exists_of_map_eq_ok h
    exact ⟨ho.config, ho.exportDir, isWording_level hv⟩
  | _ => cases h

theorem isWorded_setFlag (h : setFlag o f = .ok o') (ho : o.IsWorded) : o'.IsWorded := by
  cases f with
  | fast => cases h; exact ⟨ho.config, ho.exportDir, ho.logLevel⟩
  | ignoreBlockLimit => cases h; exact ⟨ho.config, ho.exportDir, ho.logLevel⟩
  | quiet => cases h; exact ⟨ho.config, ho.exportDir, ho.logLevel⟩
  | _ => cases h

theorem isWorded_attach {s : String} (h : t.attach f s = .ok t') (ht : t.options.IsWorded) :
    t'.options.IsWorded := by
  unfold attach at h
  split at h
  · obtain ⟨o, hset, rfl⟩ := exists_of_map_eq_ok h
    exact isWorded_setValue hset ht
  · cases h

theorem isWorded_run {ws : List Word} (h : t.run ws = .ok t') (ht : t.options.IsWorded) :
    t'.options.IsWorded := by
  fun_induction run t ws with
  | case1 => cases h; exact ht
  | case2 t f s rest ih =>
    obtain ⟨u, hu, hrest⟩ := exists_of_bind_eq_ok h
    exact ih u hrest (isWorded_attach hu ht)
  | case3 t f _ s rest ih =>
    obtain ⟨u, hu, hrest⟩ := exists_of_bind_eq_ok h
    exact ih u hrest (isWorded_attach hu ht)
  | case4 => cases h
  | case5 t f rest _ ih =>
    obtain ⟨o, ho, hrest⟩ := exists_of_bind_eq_ok h
    exact ih o hrest (isWorded_setFlag ho ht)
  | case6 => cases h
  | case7 => cases h
  -- A value, a mark or a word that is not known leaves the options as they are.
  | _ => rename_i ih; exact ih h ht

end Taking

theorem Options.isWorded_of_parse {words : List String} {o : Options}
    (h : Options.parse words = .ok o) : o.IsWorded := by
  obtain ⟨ws, -, h⟩ := exists_of_bind_eq_ok h
  obtain ⟨t, ht, h⟩ := exists_of_bind_eq_ok h
  have hworded := Taking.isWorded_run ht isWorded_none
  split at h
  · obtain ⟨catalog, -, h⟩ := exists_of_bind_eq_ok h
    obtain ⟨challenge, -, h⟩ := exists_of_bind_eq_ok h
    obtain ⟨program, -, h⟩ := exists_of_bind_eq_ok h
    cases h
    exact ⟨hworded.config, hworded.exportDir, hworded.logLevel⟩
  · cases h

end BlockGrid
