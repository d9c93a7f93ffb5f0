/-
JSON values. The members of an object are kept in a list; a canonical value has them in strictly
increasing key order at every level and its integers within 64 bits, so that equal canonical values
are equal as terms. Reading a canonical object visits its members in key order.
-/
import UpdateExpr.Json.Number
import UpdateExpr.Table

namespace UpdateExpr

/-- A JSON value. -/
inductive Json where
  | null
  | bool (b : Bool)
  | num (n : Number)
  | str (s : String)
  | arr (items : List Json)
  | obj (members : List (String × Json))
deriving Inhabited, Repr

namespace Json

/-! ## Canonical values -/

mutual

/-- Members in strictly increasing key order and integers within 64 bits, at every level. -/
def Canonical : Json → Prop
  | .num (.int i) => Number.fits i = true
  | .arr items => CanonicalItems items
  | .obj members => Entries.Sorted members ∧ CanonicalMembers members
  | _ => True

/-- Every item is canonical. -/
def CanonicalItems : List Json → Prop
  | [] => True
  | j :: rest => j.Canonical ∧ CanonicalItems rest

/-- Every member has a canonical value. -/
def CanonicalMembers : List (String × Json) → Prop
  | [] => True
  | (_, j) :: rest => j.Canonical ∧ CanonicalMembers rest

end

/-! ## Access -/

/-- The member of an object under `key`. -/
def get? (j : Json) (key : String) : Option Json :=
  match j with
  | .obj members => members.lookup key
  | _ => none

end Json

end UpdateExpr
