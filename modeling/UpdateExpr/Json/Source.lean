/-
JSON texts as they are read from left to right. A text that breaks off still has a tree: what was
read before the break stands in it, and holes mark where nothing can be read. Whoever decodes the
tree in reading order therefore meets the faults of the text and of its contents in the order in
which they stand. Strings with lone surrogates and numbers beyond every float are holes of their own:
they can be skipped but not used.
-/
import UpdateExpr.Json.Basic

namespace UpdateExpr

/-- What stands at a value's place in a text. -/
inductive Source where
  | null
  | bool (b : Bool)
  /-- A number; none if it is too large. -/
  | num (n : Option Number)
  /-- A string; none if its escapes are no characters. -/
  | str (s : Option String)
  /-- Items in order, and whether the bracket was closed. -/
  | arr (items : List Source) (closed : Bool)
  /-- Members in order, and whether the brace was closed. -/
  | obj (members : List (Option String × Source)) (closed : Bool)
  /-- No value. -/
  | broken
deriving Inhabited

/-! ## Strings -/

namespace Json

/-- A part of a string: a character, or a UTF-16 unit given by its number. -/
inductive Piece where
  | char (c : Char)
  | unit (u : Nat)
deriving Repr, DecidableEq

/-- The number of a hexadecimal digit. -/
def hexValue? (c : Char) : Option Nat :=
  if '0' ≤ c ∧ c ≤ '9' then some (c.toNat - 48)
  else if 'a' ≤ c ∧ c ≤ 'f' then some (c.toNat - 87)
  else if 'A' ≤ c ∧ c ≤ 'F' then some (c.toNat - 55)
  else none

/-- The character of a one-letter escape. -/
def unescape? (c : Char) : Option Char :=
  if c = '"' then some '"'
  else if c = '\\' then some '\\'
  else if c = '/' then some '/'
  else if c = 'b' then some '\x08'
  else if c = 'f' then some '\x0c'
  else if c = 'n' then some '\n'
  else if c = 'r' then some '\r'
  else if c = 't' then some '\t'
  else none

/-- How far an escape in a string has been read. -/
inductive Pending where
  | nothing
  /-- A backslash. -/
  | escape
  /-- The hexadecimal digits of a unit, one more missing than `left`, and their number so far. -/
  | digits (left : Nat) (unit : Nat)

/-- Reads a string up to its closing quote. -/
def scanString : Pending → List Char → Option (List Piece × List Char)
  | _, [] => none
  | .nothing, c :: rest =>
    if c = '"' then some ([], rest)
    else if c = '\\' then scanString .escape rest
    else if c.toNat < 32 then none
    else (scanString .nothing rest).map fun (pieces, rest) => (.char c :: pieces, rest)
  | .escape, c :: rest =>
    if c = 'u' then scanString (.digits 3 0) rest
    else
      match unescape? c with
      | some c => (scanString .nothing rest).map fun (pieces, rest) => (.char c :: pieces, rest)
      | none => none
  | .digits left unit, c :: rest =>
    match hexValue? c, left with
    | none, _ => none
    | some d, left + 1 => scanString (.digits left (unit * 16 + d)) rest
    | some d, 0 =>
      (scanString .nothing rest).map fun (pieces, rest) => (.unit (unit * 16 + d) :: pieces, rest)

/-- The characters of some pieces, after the first unit of a surrogate pair if there is one. The two
units of a pair are one character, and a surrogate without its partner is none. -/
def assemble : (high : Option Nat) → List Piece → Option (List Char)
  | none, [] => some []
  | some _, [] => none
  | none, .char c :: rest => (assemble none rest).map (c :: ·)
  | some _, .char _ :: _ => none
  | none, .unit u :: rest =>
    if 0xD800 ≤ u ∧ u < 0xDC00 then assemble (some u) rest
    else if 0xDC00 ≤ u ∧ u < 0xE000 then none
    else (assemble none rest).map (Char.ofNat u :: ·)
  | some high, .unit low :: rest =>
    if 0xDC00 ≤ low ∧ low < 0xE000 then
      (assemble none rest).map
        (Char.ofNat (0x10000 + (high - 0xD800) * 0x400 + (low - 0xDC00)) :: ·)
    else none

/-- The text of some pieces. -/
def textOf? (pieces : List Piece) : Option String :=
  (assemble none pieces).map String.ofList

end Json

/-! ## Values -/

namespace Source

open Json

/-- Whether a character may stand between the parts of a text. -/
def isBlank (c : Char) : Bool :=
  c = ' ' ∨ c = '\n' ∨ c = '\t' ∨ c = '\r'

/-- A text without the blanks at its start. -/
def skipBlanks (cs : List Char) : List Char :=
  cs.dropWhile isBlank

/-- Reads the rest of a word that stands for a value. -/
def readWord (word : List Char) (value : Source) (cs : List Char) : Source × Option (List Char) :=
  if word.isPrefixOf cs then (value, some (cs.drop word.length)) else (.broken, none)

/-- Reads a string behind its opening quote. -/
def readString (cs : List Char) : Source × Option (List Char) :=
  match scanString .nothing cs with
  | some (pieces, rest) => (.str (textOf? pieces), some rest)
  | none => (.broken, none)

/-- Reads a number. -/
def readNumber (cs : List Char) : Source × Option (List Char) :=
  match Numeral.scan cs with
  | some (n, rest) => (.num n.value, some rest)
  | none => (.broken, none)

mutual

/-- Reads a value, and gives the text after it unless the text broke off. -/
def readValue : (fuel : Nat) → List Char → Source × Option (List Char)
  | 0, _ => (.broken, none)
  | fuel + 1, cs =>
    match skipBlanks cs with
    | [] => (.broken, none)
    | c :: rest =>
      if c = 'n' then readWord ['u', 'l', 'l'] .null rest
      else if c = 't' then readWord ['r', 'u', 'e'] (.bool true) rest
      else if c = 'f' then readWord ['a', 'l', 's', 'e'] (.bool false) rest
      else if c = '"' then readString rest
      else if c = '[' then
        match skipBlanks rest with
        | ']' :: rest => (.arr [] true, some rest)
        | rest =>
          let (items, rest) := readItems fuel rest
          (.arr items rest.isSome, rest)
      else if c = '\x7b' then
        match skipBlanks rest with
        | '\x7d' :: rest => (.obj [] true, some rest)
        | rest =>
          let (members, rest) := readMembers fuel rest
          (.obj members rest.isSome, rest)
      else readNumber (c :: rest)

/-- Reads the items of an array up to its closing bracket. -/
def readItems : (fuel : Nat) → List Char → List Source × Option (List Char)
  | 0, _ => ([], none)
  | fuel + 1, cs =>
    match readValue fuel cs with
    | (item, none) => ([item], none)
    | (item, some rest) =>
      match skipBlanks rest with
      | ',' :: rest =>
        let (items, rest) := readItems fuel rest
        (item :: items, rest)
      | ']' :: rest => ([item], some rest)
      | _ => ([item], none)

/-- Reads the members of an object up to its closing brace. A key whose colon is missing still
counts as read. -/
def readMembers : (fuel : Nat) → List Char → List (Option String × Source) × Option (List Char)
  | 0, _ => ([], none)
  | fuel + 1, cs =>
    match skipBlanks cs with
    | '"' :: rest =>
      match scanString .nothing rest with
      | none => ([], none)
      | some (pieces, rest) =>
        let key := textOf? pieces
        match skipBlanks rest with
        | ':' :: rest =>
          match readValue fuel rest with
          | (value, none) => ([(key, value)], none)
          | (value, some rest) =>
            match skipBlanks rest with
            | ',' :: rest =>
              let (members, rest) := readMembers fuel rest
              ((key, value) :: members, rest)
            | '\x7d' :: rest => ([(key, value)], some rest)
            | _ => ([(key, value)], none)
        | _ => ([(key, .broken)], none)
    | _ => ([], none)

end

/-- Whether the value was read to its end, so that it can be skipped. -/
def isComplete : Source → Bool
  | .broken => false
  | .arr _ closed => closed
  | .obj _ closed => closed
  | _ => true

mutual

/-- The value, if the text holds one without holes. Of two members with one key the later one wins. -/
def toJson? : Source → Option Json
  | .null => some .null
  | .bool b => some (.bool b)
  | .num n => n.map .num
  | .str s => s.map .str
  | .arr items closed => if closed then (itemsToJson? items).map .arr else none
  | .obj members closed =>
    if closed then (membersToJson? members).map fun pairs => .obj (Entries.ofPairs pairs) else none
  | .broken => none

/-- The values of all items. -/
def itemsToJson? : List Source → Option (List Json)
  | [] => some []
  | v :: rest => do
    let j ← v.toJson?
    let js ← itemsToJson? rest
    some (j :: js)

/-- The keys and values of all members. -/
def membersToJson? : List (Option String × Source) → Option (List (String × Json))
  | [] => some []
  | (key, v) :: rest => do
    let key ← key
    let j ← v.toJson?
    let js ← membersToJson? rest
    some ((key, j) :: js)

end

end Source

/-! ## Documents -/

/-- A text that was read as one value: the value, and whether nothing but blanks stands after it. -/
structure Document where
  root : Source
  ended : Bool

namespace Document

/-- Reads a text. Every character costs at most two steps. -/
def ofChars (cs : List Char) : Document :=
  match Source.readValue (2 * cs.length + 1) cs with
  | (root, some rest) => ⟨root, (Source.skipBlanks rest).isEmpty⟩
  | (root, none) => ⟨root, false⟩

/-- Reads a text. -/
def ofText (text : String) : Document :=
  ofChars text.toList

/-- The JSON value of a text, if it is well-formed. -/
def toJson? (d : Document) : Option Json :=
  if d.ended then d.root.toJson? else none

end Document

end UpdateExpr
