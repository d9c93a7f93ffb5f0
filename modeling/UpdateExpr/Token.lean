/-
Value tokens. Tokens count upwards as bijective base-26 numerals over `A`–`Z`:
`A, B, …, Z, AA, AB, …, ZZ, AAA, …`. `next` works on the bytes of any text and is the successor of
that numeration on texts of capital letters; an allocator hands the numerals out in order.
-/
import UpdateExpr.Text.Bytes

namespace UpdateExpr

namespace Token

open Text

/-! ## Successor -/

/-- One more, on bytes listed from the last to the first: `Z` turns back into `A` and carries, any
other byte grows by one, and a carry that survives the first byte becomes a new `A`. -/
def bump : Bytes → Bytes
  | [] => [65]
  | b :: rest => if b = 90 then 65 :: bump rest else (b + 1) :: rest

/-- The token after `token`. Every byte of the result is a character of its own. -/
def next (token : String) : String :=
  String.ofList ((bump (utf8 token).reverse).reverse.map Char.ofUInt8)

/-- The `count` tokens after `start`, in order. -/
def chain (start : String) : Nat → List String
  | 0 => []
  | count + 1 => next start :: chain (next start) count

@[simp] theorem chain_length (start : String) (count : Nat) : (chain start count).length = count := by
  induction count generalizing start with
  | zero => rfl
  | succ n ih => simp [chain, ih]

/-! ## Numerals -/

/-- The letter of a digit, counted from zero. -/
def letter (digit : Nat) : Char :=
  Char.ofNat (65 + digit)

/-- The bijective base-26 digits of `n`, last one first. Zero has none. -/
def digits : Nat → List Char
  | 0 => []
  | n + 1 => letter (n % 26) :: digits (n / 26)
termination_by n => n
decreasing_by omega

/-- The `n`-th token, counted from one. -/
def numeral (n : Nat) : String :=
  String.ofList (digits n).reverse

/-- The number that a text of capital letters stands for, with `A` = 1 up to `Z` = 26. -/
def value (token : String) : Nat :=
  token.toList.foldl (fun n c => 26 * n + (c.toNat - 64)) 0

/-! ## Keys -/

/-- A token as it is written in expressions and in the value table. -/
def key (token : String) : String :=
  ":" ++ token

/-- The key of the empty list that list appends fall back on. Its small letters keep it apart from
every numeral. -/
def emptyListKey : String :=
  ":zz_empty_list"

end Token

/-- Hands out tokens in order. It remembers the last one; the empty text stands for none. -/
structure Allocator where
  last : String := ""
deriving Repr, DecidableEq

namespace Allocator

/-- The next key, and the allocator after it. -/
def next (a : Allocator) : String × Allocator :=
  (Token.key (Token.next a.last), ⟨Token.next a.last⟩)

/-- The last token handed out, if there is one. -/
def last? (a : Allocator) : Option String :=
  if a.last = "" then none else some a.last

/-- The next `count` keys, and the allocator after them. -/
def take (a : Allocator) : Nat → List String × Allocator
  | 0 => ([], a)
  | count + 1 =>
    let (key, a) := a.next
    let (keys, a) := a.take count
    (key :: keys, a)

end Allocator

end UpdateExpr
