/-
Attribute values from JSON: an object with exactly one member, whose key is a tag. The key is looked
at first, then the value, and only then whether there is another member; the first fault met in
reading order is the one reported.
-/
import UpdateExpr.AttributeValue.Basic
import UpdateExpr.Json.Decode

namespace UpdateExpr.AttributeValue

/-! ## Binary data -/

/-- Reads base64 from a text. -/
def binaryOf (text : String) : Except DecodeError Text.Bytes :=
  match Base64.decode text with
  | .ok data => .ok data
  | .error cause => .error (.binary cause)

/-- Reads base64 from several texts, from left to right. -/
def binariesOf : List String → Except DecodeError (List Text.Bytes)
  | [] => .ok []
  | text :: rest => do
    let data ← binaryOf text
    let more ← binariesOf rest
    .ok (data :: more)

/-! ## From values -/

mutual

/-- The attribute value of a JSON value. -/
def ofJson : Json → Except DecodeError AttributeValue
  | .obj [] => .error .notOneKey
  | .obj ((key, j) :: rest) =>
    match Tag.ofKey? key with
    | none => .error (.unknownType key)
    | some tag => do
      let value ← ofContents tag j
      if rest.isEmpty then .ok value else .error .notOneKey
  | j => j.mismatch .attributeValue

/-- The attribute value with a tag and the contents under it. -/
def ofContents : Tag → Json → Except DecodeError AttributeValue
  | .s, j => j.asText.map .string
  | .n, j => j.asText.map .number
  | .b, j => (j.asText.bind binaryOf).map .binary
  | .ss, j => j.asTexts.map .stringSet
  | .ns, j => j.asTexts.map .numberSet
  | .bs, j => (j.asTexts.bind binariesOf).map .binarySet
  | .bool, j => j.asFlag.map .bool
  | .null, j => j.asFlag.map .null
  | .l, .arr items => (ofItems items).map .list
  | .l, j => j.mismatch .sequence
  | .m, .obj members => (ofMembers members).map ofPairs
  | .m, j => j.mismatch .map

/-- The attribute values of the items of an array. -/
def ofItems : List Json → Except DecodeError (List AttributeValue)
  | [] => .ok []
  | j :: rest => do
    let value ← ofJson j
    let values ← ofItems rest
    .ok (value :: values)

/-- The attribute values of the members of an object, with their keys. -/
def ofMembers : List (String × Json) → Except DecodeError (List (String × AttributeValue))
  | [] => .ok []
  | (key, j) :: rest => do
    let value ← ofJson j
    let values ← ofMembers rest
    .ok ((key, value) :: values)

end

/-- The attribute values of an array. -/
def listOfJson : Json → Except DecodeError (List AttributeValue)
  | .arr items => ofItems items
  | j => j.mismatch .sequence

/-! ## From texts -/

/-- What follows the first member of an attribute value must be the end of the object. -/
def endOfValue (closed : Bool) (value : AttributeValue) :
    List (Option String × Source) → Except Fault AttributeValue
  | [] => Source.close closed value
  | (key, _) :: _ => do
    let _ ← Source.asKey key
    .error (.decode .notOneKey)

mutual

/-- The attribute value that stands at a place in a text. -/
def ofSource (depth : Nat) : Source → Except Fault AttributeValue
  | .obj [] closed =>
    Source.enter depth fun _ => .error (if closed then .decode .notOneKey else .malformed)
  | .obj ((key, v) :: rest) closed =>
    Source.enter depth fun depth => do
      let key ← Source.asKey key
      match Tag.ofKey? key with
      | none => .error (.decode (.unknownType key))
      | some tag =>
        let value ← ofSourceContents depth tag v
        endOfValue closed value rest
  | v => v.mismatch .attributeValue

/-- The attribute value with a tag and the contents that stand behind it. -/
def ofSourceContents (depth : Nat) : Tag → Source → Except Fault AttributeValue
  | .s, v => v.asText.map .string
  | .n, v => v.asText.map .number
  | .b, v => (v.asText.bind fun text => Fault.lift (binaryOf text)).map .binary
  | .ss, v => (v.asTexts depth).map .stringSet
  | .ns, v => (v.asTexts depth).map .numberSet
  | .bs, v => ((v.asTexts depth).bind fun texts => Fault.lift (binariesOf texts)).map .binarySet
  | .bool, v => v.asFlag.map .bool
  | .null, v => v.asFlag.map .null
  | .l, .arr items closed =>
    Source.enter depth fun depth => (ofSourceItems depth closed items).map .list
  | .l, v => v.mismatch .sequence
  | .m, .obj members closed =>
    Source.enter depth fun depth => (ofSourceMembers depth closed members).map ofPairs
  | .m, v => v.mismatch .map

/-- The attribute values up to the end of an array. -/
def ofSourceItems (depth : Nat) (closed : Bool) : List Source → Except Fault (List AttributeValue)
  | [] => Source.close closed []
  | v :: rest => do
    let value ← ofSource depth v
    let values ← ofSourceItems depth closed rest
    .ok (value :: values)

/-- The attribute values up to the end of an object, with their keys. -/
def ofSourceMembers (depth : Nat) (closed : Bool) :
    List (Option String × Source) → Except Fault (List (String × AttributeValue))
  | [] => Source.close closed []
  | (key, v) :: rest => do
    let key ← Source.asKey key
    let value ← ofSource depth v
    let values ← ofSourceMembers depth closed rest
    .ok ((key, value) :: values)

end

/-- The attribute value of a text. -/
def ofText (text : String) : Except Fault AttributeValue :=
  (Document.ofText text).decode ofSource

end UpdateExpr.AttributeValue
