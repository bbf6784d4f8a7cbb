import BlockGrid.File.Folder
import BlockGrid.Proofs.Fallible

/-!
# BlockGrid.Proofs.File.Reading

What it takes to read a file.

* `readJson_of_file`       — a path that leads to a file gives its document.
* `readJson_holdsZero_iff` — a path is no path at all just when a zero character stands in it. No
  other fault is taken for that.
-/

namespace BlockGrid.Folder

variable {f : Folder} {path : String} {here : Path} {content : String} {v : Json}

theorem checkText_of_zero (h : '\x00' ∈ path.toList) : checkText path = .error .holdsZero := by
  rw [checkText, String.contains_char_eq, if_pos (decide_eq_true h)]

theorem checkText_of_plain (h : '\x00' ∉ path.toList) (hlong : path.utf8ByteSize ≤ longestText) :
    checkText path = .ok () := by
  rw [checkText, String.contains_char_eq, if_neg (by simpa using h), if_neg (by omega)]

theorem checkText_ne_holdsZero (h : '\x00' ∉ path.toList) : checkText path ≠ .error .holdsZero := by
  rw [checkText, String.contains_char_eq, if_neg (by simpa using h)]
  split <;> exact nofun

theorem walk_ne_holdsZero (here : Path) (steps : List (List Char)) :
    f.walk path here steps ≠ .error .holdsZero := by
  induction steps generalizing here with
  | nil => exact nofun
  | cons step rest ih =>
    intro h
    rcases cases_of_bind_eq_error h with h | ⟨next, -, h⟩
    · unfold stepFrom at h
      split at h
      · cases h
      · cases h
      · split at h <;> cases h
    · exact ih next h

theorem find_ne_holdsZero (h : '\x00' ∉ path.toList) : f.find path ≠ .error .holdsZero := by
  intro hfind
  rcases cases_of_bind_eq_error hfind with hcheck | ⟨_, -, hfind⟩
  · exact checkText_ne_holdsZero h hcheck
  rcases cases_of_bind_eq_error hfind with hwalk | ⟨_, -, hfind⟩
  · exact walk_ne_holdsZero _ _ hwalk
  split at hfind <;> cases hfind

theorem read_ne_holdsZero (h : '\x00' ∉ path.toList) : f.read path ≠ .error .holdsZero := by
  intro hread
  rcases cases_of_bind_eq_error hread with hfind | ⟨⟨place, occupant⟩, -, hread⟩
  · exact find_ne_holdsZero h hfind
  cases occupant with
  | folder => cases hread
  | file content =>
    dsimp only at hread
    split at hread <;> cases hread

theorem readJson_of_error {e : FileError} (h : f.read path = .error e) :
    f.readJson (.str path) = .error (.file e) := by
  rw [readJson, readNamed, h]

theorem readJson_holdsZero_iff :
    f.readJson (.str path) = .error (.file .holdsZero) ↔ '\x00' ∈ path.toList := by
  constructor
  · intro h
    refine Decidable.byContradiction fun hzero => ?_
    cases hread : f.read path with
    | error e =>
      rw [readJson_of_error hread] at h
      cases h
      exact read_ne_holdsZero hzero hread
    | ok content =>
      rw [readJson, readNamed, hread] at h
      dsimp only at h
      split at h <;> cases h
  · intro h
    refine readJson_of_error ?_
    rw [read, find, checkText_of_zero h]
    rfl

theorem readJson_of_file (h : '\x00' ∉ path.toList) (hlong : path.utf8ByteSize ≤ longestText)
    (hwalk : f.walk path (Path.ofText path).base (Path.ofText path).steps = .ok here)
    (hnode : f.node? here = some (.file content)) (hfile : Path.asksFolder path = false)
    (hparse : Json.parse? content = some v) : f.readJson (.str path) = .ok v := by
  have hfind : f.find path = .ok (here, .file content) := by
    simp only [find, checkText_of_plain h hlong, hwalk, hnode, bind, Except.bind]
    rfl
  have hread : f.read path = .ok content := by
    simp only [read, hfind, hfile, bind, Except.bind]
    rfl
  rw [readJson, readNamed, hread]
  simp only [hparse]

end BlockGrid.Folder
