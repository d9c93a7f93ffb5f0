/-
The shortest decimal of a binary floating-point magnitude `m · 2^q`: the fewest digits that lie in
the interval of reals rounding to it, and of those the nearest. All comparisons are exact, in
natural numbers.
-/
namespace UpdateExpr

/-- The number `coefficient · 10^exponent`. -/
structure Decimal where
  coefficient : Nat
  exponent : Int
deriving Repr, DecidableEq

/-- The number `mantissa · 2^exponent`. -/
structure Binary where
  mantissa : Nat
  exponent : Int
deriving Repr, DecidableEq

namespace Binary

/-- The magnitude of a finite double, from its bits. -/
def ofBits (bits : UInt64) : Binary :=
  let fraction : Nat := bits.toNat % 0x10000000000000
  let exponent : Nat := bits.toNat / 0x10000000000000 % 0x800
  if exponent = 0 then ⟨fraction, -1074⟩
  else ⟨0x10000000000000 + fraction, (exponent : Int) - 1075⟩

/-- Compares `a · 10^p` with `b · 2^q`. -/
def compareDecimal (a : Nat) (p : Int) (b : Nat) (q : Int) : Ordering :=
  compare (a * Nat.pow 10 p.toNat * Nat.pow 2 (-q).toNat)
    (b * Nat.pow 2 q.toNat * Nat.pow 10 (-p).toNat)

/-- Whether `a · 10^p` rounds to `x`. The interval reaches half-way to both neighbours, the lower of
which is nearer at a power of two, and has its ends if the mantissa is even. -/
def roundsTo (x : Binary) (a : Nat) (p : Int) : Bool :=
  let below := if x.mantissa = 0x10000000000000 ∧ x.exponent > -1074 then 1 else 2
  let low := compareDecimal a p (4 * x.mantissa - below) (x.exponent - 2)
  let high := compareDecimal a p (4 * x.mantissa + 2) (x.exponent - 2)
  if x.mantissa % 2 = 0 then low ≠ .lt ∧ high ≠ .gt else low = .gt ∧ high = .lt

/-- Numerator and denominator. -/
def ratio (x : Binary) : Nat × Nat :=
  (x.mantissa * Nat.pow 2 x.exponent.toNat, Nat.pow 2 (-x.exponent).toNat)

/-- The least number of decimal places, up to `limit`, that brings `num / den` to one or more. -/
def places (num den : Nat) : (limit : Nat) → Nat
  | 0 => 0
  | limit + 1 => if den ≤ num then 0 else places (num * 10) den limit + 1

/-- The `k` with `10^(k-1) ≤ x < 10^k`. -/
def magnitude (x : Binary) : Int :=
  let (num, den) := x.ratio
  if den ≤ num then (Nat.toDigits 10 (num / den)).length else 1 - (places num den 400 : Int)

/-- The greatest `c` with `c · 10^e ≤ x`. -/
def floorAt (x : Binary) (e : Int) : Nat :=
  let (num, den) := x.ratio
  num * Nat.pow 10 (-e).toNat / (den * Nat.pow 10 e.toNat)

/-- The decimal on the grid of `10^e` that rounds to `x` and is nearest to it, if one does; of two
equally near ones the even one. -/
def onGrid? (x : Binary) (e : Int) : Option Decimal :=
  let c := x.floorAt e
  match x.roundsTo c e, x.roundsTo (c + 1) e with
  | true, true =>
    match compareDecimal (2 * c + 1) e (2 * x.mantissa) x.exponent with
    | .gt => some ⟨c, e⟩
    | .lt => some ⟨c + 1, e⟩
    | .eq => some ⟨if c % 2 = 0 then c else c + 1, e⟩
  | true, false => some ⟨c, e⟩
  | false, true => some ⟨c + 1, e⟩
  | false, false => none

end Binary

namespace Decimal

/-- The same number without zeros at the end of its coefficient. -/
def trim (d : Decimal) : Decimal :=
  if h : d.coefficient ≠ 0 ∧ d.coefficient % 10 = 0 then
    trim ⟨d.coefficient / 10, d.exponent + 1⟩
  else d
termination_by d.coefficient
decreasing_by exact Nat.div_lt_self (Nat.pos_of_ne_zero h.1) (by decide)

/-- The shortest decimal of a positive magnitude. Seventeen digits are always enough. -/
def shortest (x : Binary) : Decimal :=
  let top := x.magnitude
  let grids := (List.range 17).map fun (d : Nat) => top - (d + 1 : Nat)
  ((grids.findSome? x.onGrid?).getD ⟨x.floorAt (top - 17), top - 17⟩).trim

end Decimal

end UpdateExpr
