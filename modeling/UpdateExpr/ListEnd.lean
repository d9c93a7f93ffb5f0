/-
The ends of a list at which elements are added. Reading is lenient: one spelling means the front and
every other text the back, so reading undoes writing but not the other way round.
-/
import UpdateExpr.Json.Decode

namespace UpdateExpr

/-- The end of a list at which new elements are put. -/
inductive ListEnd where
  | front
  | back
deriving Repr, DecidableEq

namespace ListEnd

instance : Inhabited ListEnd := ⟨.back⟩

/-- The spelling of an end. -/
def text : ListEnd → String
  | .front => "start"
  | .back => "end"

/-- The end that a text names. -/
def ofText (s : String) : ListEnd :=
  if s = "start" then .front else .back

@[simp] theorem ofText_text (e : ListEnd) : ofText e.text = e := by
  cases e <;> decide

/-! ## From JSON -/

/-- The end that a JSON value names. -/
def ofJson (j : Json) : Except DecodeError ListEnd :=
  j.asText.map ofText

/-- The end that a place in a text names. -/
def ofSource (v : Source) : Except Fault ListEnd :=
  v.asText.map ofText

/-- The end that a JSON text names. -/
def ofJsonText (text : String) : Except Fault ListEnd :=
  (Document.ofText text).decode fun _ => ofSource

end ListEnd

end UpdateExpr
