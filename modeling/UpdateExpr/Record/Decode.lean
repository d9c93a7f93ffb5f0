/-
Records from JSON, by members or by position. Members are read in the order in which they stand, and
absent ones are looked for after the last; members of no field are skipped. An array gives the fields
in their order and may leave out those at the end that have defaults.
-/
import UpdateExpr.AttributeValue.Decode
import UpdateExpr.Record.Schema

namespace UpdateExpr

namespace Record

/-! ## By position -/

/-- Reads the fields from the items, one each. `atEnd` says whether the items may end here, and
`short` is the error if they end before the required field at an index. Gives what is left over. -/
def Row.ofItems {σ ε : Type} (read : (shape : Shape) → σ → Except ε shape.Carrier)
    (atEnd : Except ε Unit) (short : Nat → ε) :
    (fields : List Field) → (index : Nat) → List σ → Except ε (Row fields × List σ)
  | [], _, items => .ok ((), items)
  | f :: fields, index, item :: items => do
    let x ← read f.shape item
    let (row, rest) ← ofItems read atEnd short fields (index + 1) items
    .ok ((x, row), rest)
  | f :: fields, index, [] => do
    atEnd
    match f.default? with
    | none => .error (short index)
    | some x => do
      let (row, rest) ← ofItems read atEnd short fields (index + 1) []
      .ok ((x, row), rest)

/-! ## From values -/

/-- The value of a field from a JSON value. -/
def Shape.ofJson : (shape : Shape) → Json → Except DecodeError shape.Carrier
  | .text, j => j.asText
  | .flag, j => j.asFlag
  | .value, j => AttributeValue.ofJson j
  | .listEnd, j => ListEnd.ofJson j
  | .names, j => j.asTextTable
  | .values, .obj members => (AttributeValue.ofMembers members).map Table.ofPairs
  | .values, j => j.mismatch .map
  | .optional _, .null => .ok none
  | .optional shape, j => (shape.ofJson j).map some

/-- Reads members into their slots. -/
def Slots.readMembers {fields : List Field} (slots : Slots fields) :
    List (String × Json) → Except DecodeError (Slots fields)
  | [] => .ok slots
  | (key, j) :: rest => do
    let slots ← slots.put (.duplicateField key) (fun shape => shape.ofJson j) key
    slots.readMembers rest

variable {α : Type} [Record α]

/-- The record of a JSON value. -/
def ofJson : Json → Except DecodeError α
  | .obj members => do
    let slots ← (Slots.empty (fields α)).readMembers members
    let row ← slots.complete
    .ok (ofRow row)
  | .arr items => do
    let (row, rest) ← Row.ofItems Shape.ofJson (.ok ())
      (fun index => .tooShort index (name α) (fields α).length) (fields α) 0 items
    if rest.isEmpty then .ok (ofRow row) else .error (.tooLong items.length)
  | j => j.mismatch (.record (name α))

/-! ## From texts -/

/-- The value of a field that stands at a place in a text. -/
def Shape.ofSource (depth : Nat) : (shape : Shape) → Source → Except Fault shape.Carrier
  | .text, v => v.asText
  | .flag, v => v.asFlag
  | .value, v => AttributeValue.ofSource depth v
  | .listEnd, v => ListEnd.ofSource v
  | .names, v => v.asTextTable depth
  | .values, .obj members closed =>
    Source.enter depth fun depth =>
      (AttributeValue.ofSourceMembers depth closed members).map Table.ofPairs
  | .values, v => v.mismatch .map
  | .optional _, .null => .ok none
  | .optional shape, v => (shape.ofSource depth v).map some

/-- Reads members into their slots up to the end of an object. A member of no field is skipped, which
only asks that its value be complete. -/
def Slots.readSourceMembers {fields : List Field} (depth : Nat) (closed : Bool)
    (slots : Slots fields) : List (Option String × Source) → Except Fault (Slots fields)
  | [] => Source.close closed slots
  | (key, v) :: rest => do
    let key ← Source.asKey key
    if fields.any fun f => f.name = key then
      let slots ← slots.put (.decode (.duplicateField key)) (fun shape => shape.ofSource depth v) key
      slots.readSourceMembers depth closed rest
    else if v.isComplete then slots.readSourceMembers depth closed rest
    else .error .malformed

/-- The record that stands at a place in a text. An array must end with the last field it gives. -/
def ofSource (depth : Nat) : Source → Except Fault α
  | .obj members closed =>
    Source.enter depth fun depth => do
      let slots ← (Slots.empty (fields α)).readSourceMembers depth closed members
      let row ← Fault.lift slots.complete
      .ok (ofRow row)
  | .arr items closed =>
    Source.enter depth fun depth => do
      let (row, rest) ← Row.ofItems (Shape.ofSource depth) (Source.close closed ())
        (fun index => .decode (.tooShort index (name α) (fields α).length)) (fields α) 0 items
      Source.close (closed && rest.isEmpty) (ofRow row)
  | v => v.mismatch (.record (name α))

/-- The record of a text. -/
def ofText (text : String) : Except Fault α :=
  (Document.ofText text).decode ofSource

end Record

end UpdateExpr
