import BlockGrid.Trace.Uniform

/-!
# BlockGrid.Trace.Label

What may be written on a store or on one of its runs: text, a truth value, a number, or an array of
them.

* `LabelError`      — why a value cannot be written so.
* `Json.checkLabel` — the first such reason.
-/

namespace BlockGrid

inductive LabelError where
  | ragged (e : RaggedError)
  | mixed
  | mixedText (width : Nat)
  | listOfTexts
  | holdsZero
  | encode (e : EncodeError)
  deriving DecidableEq, Repr

def LabelError.message : LabelError → String
  | .ragged e => e.message
  | .mixed => "Object dtype dtype('O') has no native HDF5 equivalent"
  | .mixedText width => "No conversion path for dtype: dtype('<U" ++ toString width ++ "')"
  | .listOfTexts => "Can't implicitly convert non-string objects to strings"
  | .holdsZero => "VLEN strings do not support embedded NULLs"
  | .encode e => e.message

namespace Json

/-- Texts end where a zero character stands, so none may stand inside. They are kept in UTF-8. -/
def checkTexts : List Json → Except LabelError Unit
  | [] => .ok ()
  | .str s :: rest => if s.contains '\x00' then .error .holdsZero else checkTexts rest
  | .torn s h more :: _ => .error (.encode (LooseText.refusal s h more))
  | _ :: _ => .error .listOfTexts

/-- Items that are all text need not be as deep at every place to be looked at one by one. -/
def checkLabel (v : Json) : Except LabelError Unit :=
  let e := Extent.of v
  if v.isText then checkTexts (v.atDepth e.levels)
  else if e.isRagged then .error (.ragged ⟨e.shared⟩)
  else
    match ItemKind.of v with
    | .mixed => .error .mixed
    | .text width => .error (.mixedText width)
    | _ => .ok ()

end Json

end BlockGrid
