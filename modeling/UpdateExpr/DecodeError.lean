/-
Why a JSON value or text does not decode. An error names its cause; its wording is in one place. A
text can also fail to be JSON at all, and a fault is either of the two.
-/
import UpdateExpr.Base64
import UpdateExpr.Json.Basic
import UpdateExpr.Json.Source
import UpdateExpr.Text.Quoted

namespace UpdateExpr

/-! ## Causes -/

/-- What was found where something else was wanted. -/
inductive Found where
  | null
  | bool (b : Bool)
  | num (n : Number)
  | str (s : String)
  | sequence
  | map
deriving Repr

/-- What was wanted. -/
inductive Wanted where
  | string
  | boolean
  | sequence
  | map
  | record (name : String)
  | attributeValue
deriving Repr, DecidableEq

/-- Why well-formed JSON does not decode. -/
inductive DecodeError where
  | invalidType (found : Found) (wanted : Wanted)
  | missingField (name : String)
  | duplicateField (name : String)
  | unknownType (key : String)
  | notOneKey
  /-- An array of `length` items is too short for a record of `fields` fields. -/
  | tooShort (length : Nat) (record : String) (fields : Nat)
  /-- An array of `length` items is too long for a record. -/
  | tooLong (length : Nat)
  | binary (cause : Base64.Error)
deriving Repr

/-- Why a text does not decode. -/
inductive Fault where
  /-- The text is not acceptable JSON. -/
  | malformed
  | decode (cause : DecodeError)
deriving Repr

/-- Decoding that may fail on contents, in a text that may also fail to be JSON. -/
def Fault.lift {α : Type} : Except DecodeError α → Except Fault α
  | .ok a => .ok a
  | .error cause => .error (.decode cause)

/-! ## Wording -/

/-- A found thing in words. -/
def Found.text : Found → String
  | .null => "null"
  | .bool true => "boolean `true`"
  | .bool false => "boolean `false`"
  | .num (.int i) => "integer `" ++ String.ofList (Number.intChars i) ++ "`"
  | .num (.float x) => "floating point `" ++ String.ofList (Number.floatChars x) ++ "`"
  | .str s => "string " ++ Text.quoted s
  | .sequence => "sequence"
  | .map => "map"

/-- A wanted thing in words. -/
def Wanted.text : Wanted → String
  | .string => "a string"
  | .boolean => "a boolean"
  | .sequence => "a sequence"
  | .map => "a map"
  | .record name => "struct " ++ name
  | .attributeValue => "an attribute value object with exactly one type key"

/-- The text of an error. -/
def DecodeError.message : DecodeError → String
  | .invalidType found wanted => "invalid type: " ++ found.text ++ ", expected " ++ wanted.text
  | .missingField name => "missing field `" ++ name ++ "`"
  | .duplicateField name => "duplicate field `" ++ name ++ "`"
  | .unknownType key =>
    "unknown field `" ++ key ++
      "`, expected one of `S`, `N`, `B`, `SS`, `NS`, `BS`, `BOOL`, `NULL`, `L`, `M`"
  | .notOneKey => "attribute value must have exactly one key"
  | .tooShort length record fields =>
    "invalid length " ++ toString length ++ ", expected struct " ++ record ++ " with " ++
      toString fields ++ " elements"
  | .tooLong length => "invalid length " ++ toString length ++ ", expected fewer elements in array"
  | .binary cause => cause.message

/-! ## What stands at a place -/

/-- What a value is, seen from outside. -/
def Json.found : Json → Found
  | .null => .null
  | .bool b => .bool b
  | .num n => .num n
  | .str s => .str s
  | .arr _ => .sequence
  | .obj _ => .map

/-- The error of a value that is not what was wanted. -/
def Json.mismatch {α : Type} (j : Json) (wanted : Wanted) : Except DecodeError α :=
  .error (.invalidType j.found wanted)

/-- The fault of a place in a text that does not hold what was wanted. A scalar is read first, so a
hole is a malformed text; of an array or object only the opening bracket is. -/
def Source.mismatch {α : Type} (v : Source) (wanted : Wanted) : Except Fault α :=
  match v with
  | .null => .error (.decode (.invalidType .null wanted))
  | .bool b => .error (.decode (.invalidType (.bool b) wanted))
  | .num (some n) => .error (.decode (.invalidType (.num n) wanted))
  | .str (some s) => .error (.decode (.invalidType (.str s) wanted))
  | .arr _ _ => .error (.decode (.invalidType .sequence wanted))
  | .obj _ _ => .error (.decode (.invalidType .map wanted))
  | .num none | .str none | .broken => .error .malformed

end UpdateExpr
