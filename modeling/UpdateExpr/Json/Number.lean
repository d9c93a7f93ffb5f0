/-
Numbers of JSON: integers that fit 64 bits, signed or unsigned, and floats for everything else. A
numeral is read in two steps, its grammar first and its value second, so that a number that is
skipped needs the grammar only. A float comes from a significand of at most 64 bits and one power
of ten; digits beyond the significand only move the point.
-/
import UpdateExpr.Decimal.Shortest

namespace UpdateExpr

/-- A number of JSON. -/
inductive Number where
  | int (value : Int)
  | float (value : Float)
deriving Repr

namespace Number

/-- Whether an integer is kept as one. -/
def fits (i : Int) : Bool :=
  -0x8000000000000000 ≤ i ∧ i < 0x10000000000000000

/-! ## Writing -/

/-- The decimal digits of a natural number. -/
def natChars (n : Nat) : List Char :=
  Nat.toDigits 10 n

/-- The decimal digits of an integer, with a sign if it is negative. -/
def intChars : Int → List Char
  | .ofNat n => natChars n
  | .negSucc n => '-' :: natChars (n + 1)

/-- The decimal digits of an integer after its sign, which is written for either sign. -/
def signedChars : Int → List Char
  | .ofNat n => '+' :: natChars n
  | .negSucc n => '-' :: natChars (n + 1)

/-- A decimal, written positionally with a point if the point falls between five places before the
first digit and sixteen after it, and with a signed exponent otherwise. -/
def decimalChars (d : Decimal) : List Char :=
  let digits := natChars d.coefficient
  let count : Int := digits.length
  let point := count + d.exponent
  if 0 ≤ d.exponent ∧ point ≤ 16 then digits ++ List.replicate d.exponent.toNat '0' ++ ['.', '0']
  else if 0 < point ∧ point ≤ 16 then digits.take point.toNat ++ '.' :: digits.drop point.toNat
  else if -5 < point ∧ point ≤ 0 then
    '0' :: '.' :: List.replicate (-point).toNat '0' ++ digits
  else
    let fraction := if count = 1 then [] else '.' :: digits.drop 1
    digits.take 1 ++ fraction ++ 'e' :: signedChars (point - 1)

/-- A finite float by its shortest decimal. -/
def floatChars (x : Float) : List Char :=
  let bits := x.toBits
  let sign := if bits.toNat < 0x8000000000000000 then [] else ['-']
  let magnitude := Binary.ofBits bits
  sign ++ if magnitude.mantissa = 0 then ['0', '.', '0'] else decimalChars (Decimal.shortest magnitude)

/-- The characters of a number. -/
def chars : Number → List Char
  | .int i => intChars i
  | .float x => floatChars x

end Number

/-! ## Reading -/

/-- A numeral by its grammar: sign, whole part, fraction, and exponent with its sign. -/
structure Numeral where
  negative : Bool
  whole : List Char
  fraction : List Char
  exponent : Option (Bool × List Char)
deriving Repr, DecidableEq

namespace Numeral

/-- The number that a digit stands for. -/
def digitValue (c : Char) : Nat :=
  c.toNat - 48

/-- The digits at the start of a text, of which there must be one, and the rest. -/
def scanDigits (cs : List Char) : Option (List Char × List Char) :=
  match cs.takeWhile Char.isDigit with
  | [] => none
  | d :: ds => some (d :: ds, cs.dropWhile Char.isDigit)

/-- The fraction after the whole part, if a point begins one. -/
def scanFraction : List Char → Option (List Char × List Char)
  | '.' :: cs => scanDigits cs
  | cs => some ([], cs)

/-- The exponent, if a letter begins one. -/
def scanExponent (cs : List Char) : Option (Option (Bool × List Char) × List Char) :=
  match cs with
  | c :: cs' =>
    if c = 'e' ∨ c = 'E' then
      let (negative, digits) := match cs' with
        | '-' :: r => (true, r)
        | '+' :: r => (false, r)
        | r => (false, r)
      (scanDigits digits).map fun (ds, rest) => (some (negative, ds), rest)
    else some (none, cs)
  | [] => some (none, [])

/-- The numeral at the start of a text and the rest after it. A whole part of more than one digit
does not begin with zero. -/
def scan (cs : List Char) : Option (Numeral × List Char) := do
  let (negative, cs) := match cs with
    | '-' :: r => (true, r)
    | r => (false, r)
  let (whole, cs) ← scanDigits cs
  if whole.head? = some '0' ∧ 1 < whole.length then none
  let (fraction, cs) ← scanFraction cs
  let (exponent, cs) ← scanExponent cs
  some (⟨negative, whole, fraction, exponent⟩, cs)

/-- Takes digits into a significand as long as it stays below `2^64`, and gives those left over. -/
def absorb (significand : Nat) : List Char → Nat × List Char
  | [] => (significand, [])
  | c :: rest =>
    let grown := 10 * significand + digitValue c
    if grown < 0x10000000000000000 then absorb grown rest else (significand, c :: rest)

/-- Divides by a power of ten; powers that no float holds are divided by in steps. -/
def scaleDown (x : Float) (power : Nat) : Float :=
  if power ≤ 308 then x / Float.ofScientific 1 false power
  else if x == 0 then x
  else scaleDown (x / Float.ofScientific 1 false 308) (power - 308)
termination_by power

/-- The float of a significand and a power of ten; none if it is beyond the largest float. -/
def scale (significand : Nat) (power : Int) : Option Float :=
  let x := (UInt64.ofNat significand).toFloat
  if power < 0 then some (scaleDown x (-power).toNat)
  else if power ≤ 308 then
    let y := x * Float.ofScientific 1 false power.toNat
    if y.isInf then none else some y
  else if significand = 0 then some x
  else none

/-- A float with the sign of the numeral. -/
def signed (n : Numeral) (x : Float) : Number :=
  .float (if n.negative then -x else x)

/-- The number of a numeral: an integer if it is written as one and fits, a float otherwise. None if
it is too large for a float. An exponent beyond 31 bits decides by its sign alone. -/
def value (n : Numeral) : Option Number :=
  let (whole, skipped) := absorb 0 n.whole
  let (significand, dropped) := absorb whole n.fraction
  let power : Int := skipped.length - (n.fraction.length - dropped.length : Nat)
  match n.exponent with
  | some (negative, digits) =>
    let e := Nat.ofDigitChars 10 digits 0
    if e < 0x80000000 then
      (scale significand (if negative then power - e else power + e)).map n.signed
    else if negative ∨ significand = 0 then some (n.signed 0)
    else none
  | none =>
    if n.fraction ≠ [] ∨ skipped ≠ [] then (scale significand power).map n.signed
    else if n.negative then
      if 0 < whole ∧ whole ≤ 0x8000000000000000 then some (.int (-(whole : Int)))
      else some (n.signed (UInt64.ofNat whole).toFloat)
    else some (.int whole)

end Numeral

end UpdateExpr
