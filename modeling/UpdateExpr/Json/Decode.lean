/-
Decoding of plain JSON contents, from values and from texts: strings, booleans, arrays and objects of
them. Texts are decoded in reading order and with a limit on the arrays and objects that may still be
opened.
-/
import UpdateExpr.DecodeError

namespace UpdateExpr

/-- How many arrays and objects a text may nest. -/
def nestingLimit : Nat := 127

/-! ## From values -/

namespace Json

/-- A string. -/
def asText : Json → Except DecodeError String
  | .str s => .ok s
  | j => j.mismatch .string

/-- A boolean. -/
def asFlag : Json → Except DecodeError Bool
  | .bool b => .ok b
  | j => j.mismatch .boolean

/-- Strings, the first of them that is none being the error. -/
def textsOfItems : List Json → Except DecodeError (List String)
  | [] => .ok []
  | j :: rest => do
    let s ← j.asText
    let texts ← textsOfItems rest
    .ok (s :: texts)

/-- An array of strings. -/
def asTexts : Json → Except DecodeError (List String)
  | .arr items => textsOfItems items
  | j => j.mismatch .sequence

/-- Keys with strings. -/
def textsOfMembers : List (String × Json) → Except DecodeError (List (String × String))
  | [] => .ok []
  | (key, j) :: rest => do
    let s ← j.asText
    let pairs ← textsOfMembers rest
    .ok ((key, s) :: pairs)

/-- An object of strings. -/
def asTextTable : Json → Except DecodeError (Table String)
  | .obj members => (textsOfMembers members).map Table.ofPairs
  | j => j.mismatch .map

end Json

/-! ## From texts -/

namespace Source

/-- A string. -/
def asText : Source → Except Fault String
  | .str (some s) => .ok s
  | v => v.mismatch .string

/-- A boolean. -/
def asFlag : Source → Except Fault Bool
  | .bool b => .ok b
  | v => v.mismatch .boolean

/-- The end of an array or object: nothing is missing if it was closed. -/
def close {α : Type} (closed : Bool) (result : α) : Except Fault α :=
  if closed then .ok result else .error .malformed

/-- Goes into an array or object, one level less remaining. -/
def enter {α : Type} (depth : Nat) (inside : Nat → Except Fault α) : Except Fault α :=
  match depth with
  | 0 => .error .malformed
  | depth + 1 => inside depth

/-- A key, which is read before anything behind it. -/
def asKey : Option String → Except Fault String
  | some key => .ok key
  | none => .error .malformed

/-- Strings up to the end of an array. -/
def textsOfItems (closed : Bool) : List Source → Except Fault (List String)
  | [] => close closed []
  | v :: rest => do
    let s ← v.asText
    let texts ← textsOfItems closed rest
    .ok (s :: texts)

/-- An array of strings. -/
def asTexts (depth : Nat) : Source → Except Fault (List String)
  | .arr items closed => enter depth fun _ => textsOfItems closed items
  | v => v.mismatch .sequence

/-- Keys with strings up to the end of an object. -/
def textsOfMembers (closed : Bool) :
    List (Option String × Source) → Except Fault (List (String × String))
  | [] => close closed []
  | (key, v) :: rest => do
    let key ← asKey key
    let s ← v.asText
    let pairs ← textsOfMembers closed rest
    .ok ((key, s) :: pairs)

/-- An object of strings. -/
def asTextTable (depth : Nat) : Source → Except Fault (Table String)
  | .obj members closed =>
    enter depth fun _ => (textsOfMembers closed members).map Table.ofPairs
  | v => v.mismatch .map

end Source

namespace Document

/-- Decodes a text: first its value, then what stands behind it. -/
def decode {α : Type} (d : Document) (read : (depth : Nat) → Source → Except Fault α) :
    Except Fault α := do
  let result ← read nestingLimit d.root
  Source.close d.ended result

end Document

end UpdateExpr
