import BlockGrid.Json.Token

/-!
# BlockGrid.Json.Reader

Values from tokens, with the containers that are still open on a stack, so that no text is nested
too deeply to be read.

* `Frame`  — an open list or object.
* `Expect` — which tokens may come next.
* `step?`  — one token.
* `parse?` — the value of a text, `none` for a text that is not JSON.
-/

namespace BlockGrid

namespace Json

/-- Items and entries are held last first. -/
inductive Frame where
  | list (back : List Json)
  | entries (back : List (String × Json)) (name : String)

inductive Expect where
  | value
  | valueOrClose
  | nameOrClose
  | name
  | colon
  | commaOrClose
  | nothing (result : Json)

structure Reader where
  stack : List Frame
  expect : Expect

/-- A finished value goes into the innermost open container. -/
def Reader.deliver (v : Json) : List Frame → Reader
  | [] => ⟨[], .nothing v⟩
  | .list back :: rest => ⟨.list (v :: back) :: rest, .commaOrClose⟩
  | .entries back name :: rest => ⟨.entries ((name, v) :: back) "" :: rest, .commaOrClose⟩

/-- A token where a value is due. -/
def Reader.value? (stack : List Frame) : Token → Option Reader
  | .openList => some ⟨.list [] :: stack, .valueOrClose⟩
  | .openObject => some ⟨.entries [] "" :: stack, .nameOrClose⟩
  | .scalar v => some (deliver v stack)
  | _ => none

/-- The halves of a name are kept as they are spelled. -/
def Reader.name? : List Frame → Token → Option Reader
  | .entries back _ :: rest, .scalar (.str s) => some ⟨.entries back s :: rest, .colon⟩
  | .entries back _ :: rest, .scalar (.torn s h more) =>
    some ⟨.entries back (LooseText.torn s h more).escaped :: rest, .colon⟩
  | _, _ => none

def Reader.step? (r : Reader) (t : Token) : Option Reader :=
  match r.expect, t, r.stack with
  | .value, t, stack => value? stack t
  | .valueOrClose, .closeList, .list back :: rest => some (deliver (.arr back.reverse) rest)
  | .valueOrClose, t, stack => value? stack t
  | .nameOrClose, .closeObject, .entries _ _ :: rest => some (deliver (.obj []) rest)
  | .nameOrClose, t, stack => name? stack t
  | .name, t, stack => name? stack t
  | .colon, .colon, stack => some ⟨stack, .value⟩
  | .commaOrClose, .comma, .list back :: rest => some ⟨.list back :: rest, .value⟩
  | .commaOrClose, .comma, .entries back n :: rest => some ⟨.entries back n :: rest, .name⟩
  | .commaOrClose, .closeList, .list back :: rest => some (deliver (.arr back.reverse) rest)
  | .commaOrClose, .closeObject, .entries back _ :: rest =>
    some (deliver (.obj (Entries.ofList back.reverse)) rest)
  | _, _, _ => none

def Reader.steps? : Reader → List Token → Option Reader
  | r, [] => some r
  | r, t :: ts => (r.step? t).bind fun r' => steps? r' ts

def ofTokens? (ts : List Token) : Option Json :=
  match Reader.steps? ⟨[], .value⟩ ts with
  | some ⟨[], .nothing v⟩ => some v
  | _ => none

def parse? (s : String) : Option Json := (tokens? s.toList).bind ofTokens?

end Json

end BlockGrid
