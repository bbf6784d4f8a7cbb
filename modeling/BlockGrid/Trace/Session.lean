import BlockGrid.Trace.Store

/-!
# BlockGrid.Trace.Session

A store from its opening on. A deed that fails ends nothing: the ones after it are done to the store
that it left.

* `Deed`          — a description is saved, or a trace is written.
* `Store.perform` — the store after a deed; `after`, after some deeds.
* `Store.answers` — what the writes come to.
-/

namespace BlockGrid

inductive Deed (κ τ : Type) where
  | save (config : κ)
  | write (t : τ)

namespace Deed

variable {κ τ : Type}

def trace? : Deed κ τ → Option τ
  | .save _ => none
  | .write t => some t

def config? : Deed κ τ → Option κ
  | .save config => some config
  | .write _ => none

end Deed

namespace Store

def perform (s : Store) : Deed Json LooseTrace → Store
  | .save config => s.saveWorld config
  | .write t => (s.write t).2

def after (options : StoreOptions) (ds : List (Deed Json LooseTrace)) : Store :=
  ds.foldl perform (empty options)

/-- What the writes come to, in order: a name and warnings each, or an error. -/
def answers (s : Store) :
    List (Deed Json LooseTrace) → List (Except WriteError (String × List String))
  | [] => []
  | .save config :: ds => (s.saveWorld config).answers ds
  | .write t :: ds => (s.write t).1 :: (s.write t).2.answers ds

/-- The warnings that a write puts out, whatever it comes to after them. -/
def warned (s : Store) (t : LooseTrace) : List String :=
  match s.warnings t with
  | .ok found => found
  | .error _ => []

end Store

end BlockGrid
