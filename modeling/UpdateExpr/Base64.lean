/-
Base64 with the standard alphabet, padding required and the unused bits of the last symbol zero.
The reader works in stages, the last group of four apart from the rest, and each stage has errors
of its own that name the byte and the place where the text stops being base64.
-/
import UpdateExpr.Text.Bytes

namespace UpdateExpr.Base64

open Text

/-! ## Alphabet -/

/-- The padding byte. -/
def pad : UInt8 := 61

/-- The symbol of a six-bit number. -/
def symbol (n : Nat) : UInt8 :=
  if n < 26 then .ofNat (65 + n)
  else if n < 52 then .ofNat (97 + (n - 26))
  else if n < 62 then .ofNat (48 + (n - 52))
  else if n = 62 then 43
  else 47

/-- The six-bit number of a symbol. -/
def index? (b : UInt8) : Option Nat :=
  if 65 ≤ b ∧ b ≤ 90 then some (b.toNat - 65)
  else if 97 ≤ b ∧ b ≤ 122 then some (b.toNat - 97 + 26)
  else if 48 ≤ b ∧ b ≤ 57 then some (b.toNat - 48 + 52)
  else if b = 43 then some 62
  else if b = 47 then some 63
  else none

/-- The six-bit number of a symbol; zero for other bytes. -/
def index (b : UInt8) : Nat :=
  (index? b).getD 0

/-- Whether a byte is in the alphabet. -/
def isSymbol (b : UInt8) : Bool :=
  (index? b).isSome

theorem index_symbol : ∀ n < 64, index? (symbol n) = some n := by decide

/-! ## Writing -/

/-- Three bytes become four symbols, the first bits first; one or two bytes at the end are filled up
with zero bits and padding. -/
def encodeBytes : Bytes → Bytes
  | [] => []
  | [a] => [symbol (a.toNat / 4), symbol (a.toNat % 4 * 16), pad, pad]
  | [a, b] =>
    [symbol (a.toNat / 4), symbol (a.toNat % 4 * 16 + b.toNat / 16), symbol (b.toNat % 16 * 4), pad]
  | a :: b :: c :: rest =>
    symbol (a.toNat / 4) :: symbol (a.toNat % 4 * 16 + b.toNat / 16) ::
      symbol (b.toNat % 16 * 4 + c.toNat / 64) :: symbol (c.toNat % 64) :: encodeBytes rest

/-- The base64 text of some bytes. -/
def encode (data : Bytes) : String :=
  String.ofList ((encodeBytes data).map Char.ofUInt8)

/-! ## Reading -/

/-- Why a text is not base64. -/
inductive Error where
  /-- A byte that may not stand at this place. -/
  | symbol (byte : UInt8) (offset : Nat)
  /-- Too few symbols in the last group. -/
  | length (symbols : Nat)
  /-- Padding does not fill up the last group. -/
  | padding
  /-- The last symbol has bits that no byte takes up. -/
  | lastSymbol (byte : UInt8) (offset : Nat)
deriving Repr, DecidableEq

/-- The text of an error. -/
def Error.message : Error → String
  | .symbol byte offset =>
    "Invalid symbol " ++ toString byte.toNat ++ ", offset " ++ toString offset ++ "."
  | .length symbols => "Invalid input length: " ++ toString symbols
  | .padding => "Invalid padding"
  | .lastSymbol byte offset =>
    "Invalid last symbol " ++ toString byte.toNat ++ ", offset " ++ toString offset ++ "."

/-- How many bytes stand before the last group, which is never empty unless the text is. -/
def bodyLength (n : Nat) : Nat :=
  if n % 4 = 0 then n - 4 else n - n % 4

/-- The first byte that is no symbol, as an error. -/
def checkBody (offset : Nat) : Bytes → Except Error Unit
  | [] => .ok ()
  | b :: rest => if isSymbol b then checkBody (offset + 1) rest else .error (.symbol b offset)

/-- The symbols of the last group and the number of padding bytes after them. `place` counts from
the start of the group, `start` is its offset, and `padAt` is where padding began. -/
def readGroup (start : Nat) :
    (place : Nat) → (padAt : Option Nat) → Bytes → Except Error (Bytes × Nat)
  | _, _, [] => .ok ([], 0)
  | place, padAt, b :: rest =>
    if b = pad then
      if place < 2 then .error (.symbol pad (start + place))
      else do
        let (symbols, pads) ← readGroup start (place + 1) (some (padAt.getD place)) rest
        .ok (symbols, pads + 1)
    else match padAt with
      | some first => .error (.symbol pad (start + first))
      | none =>
        if isSymbol b then do
          let (symbols, pads) ← readGroup start (place + 1) none rest
          .ok (b :: symbols, pads)
        else .error (.symbol b (start + place))

/-- The bits of the last symbol that no byte takes up. -/
def spareBits : Bytes → Nat
  | [_, b] => index b % 16
  | [_, _, c] => index c % 4
  | _ => 0

/-- The bytes that six-bit numbers stand for; a rest of less than a byte is dropped. -/
def regroup : List Nat → Bytes
  | a :: b :: c :: d :: rest =>
    .ofNat (a * 4 + b / 16) :: .ofNat (b % 16 * 16 + c / 4) :: .ofNat (c % 4 * 64 + d) :: regroup rest
  | [a, b, c] => [.ofNat (a * 4 + b / 16), .ofNat (b % 16 * 16 + c / 4)]
  | [a, b] => [.ofNat (a * 4 + b / 16)]
  | _ => []

/-- A lone last byte that could not stand in any base64 text is reported first. -/
def checkTail (text : Bytes) : Except Error Unit :=
  match text.getLast? with
  | some b =>
    if text.length % 4 = 1 ∧ ¬ isSymbol b ∧ b ≠ pad then .error (.symbol b (text.length - 1))
    else .ok ()
  | none => .ok ()

/-- Reads base64 from bytes: the body, then the last group with its padding, the number of its
symbols, the number of padding bytes and the spare bits. -/
def decodeBytes (text : Bytes) : Except Error Bytes := do
  let start := bodyLength text.length
  let body := text.take start
  checkTail text
  checkBody 0 body
  let (symbols, pads) ← readGroup start 0 none (text.drop start)
  if text ≠ [] ∧ symbols.length < 2 then .error (.length (start + symbols.length))
  else if (symbols.length + pads) % 4 ≠ 0 then .error .padding
  else if spareBits symbols ≠ 0 then
    .error (.lastSymbol (symbols.getLastD 0) (start + symbols.length - 1))
  else .ok (regroup ((body ++ symbols).map index))

/-- Reads base64 from a text. -/
def decode (text : String) : Except Error Bytes :=
  decodeBytes (utf8 text)

end UpdateExpr.Base64
