/-
The compact text of a JSON value: no blanks, members in the order they have, and in strings only
quotes, backslashes and control characters escaped.
-/
import UpdateExpr.Json.Basic

namespace UpdateExpr.Json

/-! ## Strings -/

/-- A hexadecimal digit, in small letters. -/
def hexDigit (n : Nat) : Char :=
  Nat.digitChar n

/-- A character as it stands in a string. -/
def escape (c : Char) : List Char :=
  if c = '"' then ['\\', '"']
  else if c = '\\' then ['\\', '\\']
  else if c = '\x08' then ['\\', 'b']
  else if c = '\x0c' then ['\\', 'f']
  else if c = '\n' then ['\\', 'n']
  else if c = '\r' then ['\\', 'r']
  else if c = '\t' then ['\\', 't']
  else if c.toNat < 32 then ['\\', 'u', '0', '0', hexDigit (c.toNat / 16), hexDigit (c.toNat % 16)]
  else [c]

/-- A string in quotes. -/
def stringChars (s : String) : List Char :=
  '"' :: (s.toList.flatMap escape ++ ['"'])

/-! ## Values -/

mutual

/-- The characters of a value. -/
def chars : Json → List Char
  | .null => ['n', 'u', 'l', 'l']
  | .bool true => ['t', 'r', 'u', 'e']
  | .bool false => ['f', 'a', 'l', 's', 'e']
  | .num n => n.chars
  | .str s => stringChars s
  | .arr [] => ['[', ']']
  | .arr (j :: rest) => '[' :: (j.chars ++ moreItems rest)
  | .obj [] => ['\x7b', '\x7d']
  | .obj ((key, j) :: rest) => '\x7b' :: (stringChars key ++ ':' :: (j.chars ++ moreMembers rest))

/-- The items after the first one, and the end of the array. -/
def moreItems : List Json → List Char
  | [] => [']']
  | j :: rest => ',' :: (j.chars ++ moreItems rest)

/-- The members after the first one, and the end of the object. -/
def moreMembers : List (String × Json) → List Char
  | [] => ['\x7d']
  | (key, j) :: rest => ',' :: (stringChars key ++ ':' :: (j.chars ++ moreMembers rest))

end

/-- The compact text of a value. -/
def compact (j : Json) : String :=
  String.ofList j.chars

end UpdateExpr.Json
