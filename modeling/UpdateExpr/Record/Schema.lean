/-
Records as lists of typed fields. A field has a name, a shape that says what its values are, perhaps
a default for when it is absent, and a rule for when it is left out in writing: only where reading
puts the same value back. A row has a value for every field, slots have room for one.
-/
import UpdateExpr.AttributeValue.Basic
import UpdateExpr.DecodeError
import UpdateExpr.ListEnd
import UpdateExpr.Table

namespace UpdateExpr

namespace Record

/-! ## Fields -/

/-- What the values of a field are. -/
inductive Shape where
  | text
  | flag
  | value
  | listEnd
  | names
  | values
  | optional (shape : Shape)
deriving Repr, DecidableEq

/-- The values of a shape. -/
def Shape.Carrier : Shape → Type
  | .text => String
  | .flag => Bool
  | .value => AttributeValue
  | .listEnd => ListEnd
  | .names => Table String
  | .values => Table AttributeValue
  | .optional shape => Option shape.Carrier

/-- A field of a record. -/
structure Field where
  name : String
  shape : Shape
  /-- The value of an absent field; a field without one is required. -/
  default? : Option shape.Carrier
  /-- Whether a value is left out in writing. -/
  omits : shape.Carrier → Bool
  /-- What is left out comes back as the default. -/
  default_of_omits : ∀ x, omits x = true → default? = some x

namespace Field

/-- A field that must be there. -/
def required (name : String) (shape : Shape) : Field :=
  ⟨name, shape, none, fun _ => false, fun _ h => nomatch h⟩

/-- A field that is always written and may be absent in reading. -/
def defaulted (name : String) (shape : Shape) (value : shape.Carrier) : Field :=
  ⟨name, shape, some value, fun _ => false, fun _ h => nomatch h⟩

/-- A field that may be absent, and is left out if it is. -/
def optional (name : String) (shape : Shape) : Field :=
  ⟨name, .optional shape, some (none : Option shape.Carrier), fun (x : Option shape.Carrier) => x.isNone,
    fun _ h => congrArg some (Option.isNone_iff_eq_none.1 h).symm⟩

/-- A table of name aliases that is left out if it is empty. -/
def aliases (name : String) : Field :=
  ⟨name, .names, some (Table.empty : Table String), fun (x : Table String) => x.isEmpty,
    fun _ h => congrArg some (Table.eq_empty_of_isEmpty h).symm⟩

end Field

/-! ## Rows and slots -/

/-- A value for every field. -/
def Row : List Field → Type
  | [] => Unit
  | f :: fields => f.shape.Carrier × Row fields

/-- Room for a value of every field. -/
def Slots : List Field → Type
  | [] => Unit
  | f :: fields => Option f.shape.Carrier × Slots fields

namespace Slots

/-- No value yet. -/
def empty : (fields : List Field) → Slots fields
  | [] => ()
  | _ :: fields => (none, empty fields)

/-- Reads the member `key` into its slot. A slot that is taken is refused before anything is read,
and a key of no field changes nothing. -/
def put {ε : Type} (taken : ε) (read : (shape : Shape) → Except ε shape.Carrier) (key : String) :
    {fields : List Field} → Slots fields → Except ε (Slots fields)
  | [], () => .ok ()
  | f :: _, (slot, rest) =>
    if f.name = key then
      match slot with
      | some _ => .error taken
      | none => do
        let x ← read f.shape
        .ok (some x, rest)
    else do
      let rest ← put taken read key rest
      .ok (slot, rest)

/-- The row of the slots, with defaults in those that are free; the first required field without a
value is the error. -/
def complete : {fields : List Field} → Slots fields → Except DecodeError (Row fields)
  | [], () => .ok ()
  | f :: _, (slot, rest) =>
    match slot.or f.default? with
    | none => .error (.missingField f.name)
    | some x => do
      let row ← complete rest
      .ok (x, row)

end Slots

end Record

/-! ## Records -/

/-- A type whose values are records: the name and fields it has on the wire, and how its values and
rows correspond. -/
class Record (α : Type) where
  name : String
  fields : List Record.Field
  toRow : α → Record.Row fields
  ofRow : Record.Row fields → α
  ofRow_toRow : ∀ a, ofRow (toRow a) = a
  toRow_ofRow : ∀ row, toRow (ofRow row) = row
  distinct : (fields.map (·.name)).Nodup

end UpdateExpr
