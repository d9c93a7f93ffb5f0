/-
Attribute values as JSON: an object with one member, whose key is the tag. Binary data is base64.
-/
import UpdateExpr.AttributeValue.Basic
import UpdateExpr.Base64
import UpdateExpr.Json.Basic

namespace UpdateExpr.AttributeValue

/-- The object with one member. -/
def tagged (tag : Tag) (contents : Json) : Json :=
  .obj [(tag.key, contents)]

/-- An array of strings. -/
def textsToJson (texts : List String) : Json :=
  .arr (texts.map .str)

mutual

/-- The JSON value of an attribute value. -/
def toJson : AttributeValue → Json
  | .string text => tagged .s (.str text)
  | .number numeral => tagged .n (.str numeral)
  | .binary data => tagged .b (.str (Base64.encode data))
  | .stringSet items => tagged .ss (textsToJson items)
  | .numberSet items => tagged .ns (textsToJson items)
  | .binarySet items => tagged .bs (textsToJson (items.map Base64.encode))
  | .bool flag => tagged .bool (.bool flag)
  | .null flag => tagged .null (.bool flag)
  | .list items => tagged .l (.arr (itemsToJson items))
  | .map members => tagged .m (.obj (membersToJson members))

/-- The JSON values of elements. -/
def itemsToJson : List AttributeValue → List Json
  | [] => []
  | v :: rest => v.toJson :: itemsToJson rest

/-- The JSON values of members. -/
def membersToJson : List (String × AttributeValue) → List (String × Json)
  | [] => []
  | (key, v) :: rest => (key, v.toJson) :: membersToJson rest

end

end UpdateExpr.AttributeValue
