/-
Records as JSON objects. The written members stand in the order of the fields; the JSON value has
them in key order, like every canonical value.
-/
import UpdateExpr.AttributeValue.Encode
import UpdateExpr.Json.Printer
import UpdateExpr.Record.Schema

namespace UpdateExpr

namespace Record

/-- The JSON value of a field's value. An absent optional value has the value null. -/
def Shape.toJson : (shape : Shape) → shape.Carrier → Json
  | .text, (s : String) => .str s
  | .flag, (b : Bool) => .bool b
  | .value, (v : AttributeValue) => v.toJson
  | .listEnd, (e : ListEnd) => .str e.text
  | .names, (t : Table String) => .obj (t.entries.map fun p => (p.1, .str p.2))
  | .values, (t : Table AttributeValue) => .obj (AttributeValue.membersToJson t.entries)
  | .optional shape, (x : Option shape.Carrier) =>
    match x with
    | none => .null
    | some x => shape.toJson x

/-- The members that are written for a row, in the order of the fields. -/
def Row.members : {fields : List Field} → Row fields → List (String × Json)
  | [], () => []
  | f :: _, (x, row) =>
    if f.omits x then row.members else (f.name, f.shape.toJson x) :: row.members

variable {α : Type} [Record α]

/-- The members that are written for a record, in the order of its fields. -/
def members (a : α) : List (String × Json) :=
  (toRow a).members

/-- The JSON value of a record. -/
def toJson (a : α) : Json :=
  .obj (Entries.ofPairs (members a))

/-- The compact text of a record. -/
def wire (a : α) : String :=
  (Json.obj (members a)).compact

end Record

end UpdateExpr
