/-
Attribute values as DynamoDB has them: ten types, each with a tag that names it on the wire. Numbers
are carried as text and nothing looks inside them. The members of a map are kept in increasing key
order, so equality of well-formed values is equality of terms.
-/
import UpdateExpr.Json.Number
import UpdateExpr.Table
import UpdateExpr.Text.Bytes
import UpdateExpr.Text.Quoted

namespace UpdateExpr

open Text

/-! ## Tags -/

/-- The type of an attribute value. -/
inductive Tag where
  | s | n | b | ss | ns | bs | bool | null | l | m
deriving Repr, DecidableEq

namespace Tag

/-- All tags. -/
def all : List Tag :=
  [.s, .n, .b, .ss, .ns, .bs, .bool, .null, .l, .m]

/-- The spelling of a tag. -/
def key : Tag → String
  | .s => "S"
  | .n => "N"
  | .b => "B"
  | .ss => "SS"
  | .ns => "NS"
  | .bs => "BS"
  | .bool => "BOOL"
  | .null => "NULL"
  | .l => "L"
  | .m => "M"

/-- The tag of a spelling. -/
def ofKey? (key : String) : Option Tag :=
  all.find? fun tag => tag.key = key

theorem key_injective {x y : Tag} (h : x.key = y.key) : x = y := by
  revert h; cases x <;> cases y <;> simp [key]

theorem ofKey?_key (tag : Tag) : ofKey? tag.key = some tag := by
  cases tag <;> decide

theorem key_of_ofKey? {key : String} {tag : Tag} (h : ofKey? key = some tag) : tag.key = key := by
  simpa using List.find?_some h

end Tag

/-! ## Values -/

/-- A typed value of an item. -/
inductive AttributeValue where
  | string (text : String)
  | number (numeral : String)
  | binary (data : Bytes)
  | stringSet (items : List String)
  | numberSet (items : List String)
  | binarySet (items : List Bytes)
  | bool (flag : Bool)
  | null (flag : Bool)
  | list (items : List AttributeValue)
  | map (members : List (String × AttributeValue))
deriving Inhabited, Repr

namespace AttributeValue

/-- The type of a value. -/
def tag : AttributeValue → Tag
  | .string _ => .s
  | .number _ => .n
  | .binary _ => .b
  | .stringSet _ => .ss
  | .numberSet _ => .ns
  | .binarySet _ => .bs
  | .bool _ => .bool
  | .null _ => .null
  | .list _ => .l
  | .map _ => .m

/-- The list without elements. -/
def emptyList : AttributeValue :=
  .list []

/-- An integer as a number. -/
def ofInt (i : Int) : AttributeValue :=
  .number (String.ofList (Number.intChars i))

/-- The map of some pairs; of two pairs with one key the later one wins. -/
def ofPairs (pairs : List (String × AttributeValue)) : AttributeValue :=
  .map (Entries.ofPairs pairs)

/-- The text of a number. -/
def numeral? : AttributeValue → Option String
  | .number numeral => some numeral
  | _ => none

/-- The elements of a list. -/
def items? : AttributeValue → Option (List AttributeValue)
  | .list items => some items
  | _ => none

mutual

/-- The members of every map inside increase strictly in key. -/
def WellFormed : AttributeValue → Prop
  | .list items => WellFormedItems items
  | .map members => Entries.Sorted members ∧ WellFormedMembers members
  | _ => True

/-- Every element is well-formed. -/
def WellFormedItems : List AttributeValue → Prop
  | [] => True
  | v :: rest => v.WellFormed ∧ WellFormedItems rest

/-- Every member has a well-formed value. -/
def WellFormedMembers : List (String × AttributeValue) → Prop
  | [] => True
  | (_, v) :: rest => v.WellFormed ∧ WellFormedMembers rest

end

/-! ## Equality -/

mutual

/-- Same tag and same contents. -/
def beq : AttributeValue → AttributeValue → Bool
  | .string a, .string b => a = b
  | .number a, .number b => a = b
  | .binary a, .binary b => a = b
  | .stringSet a, .stringSet b => a = b
  | .numberSet a, .numberSet b => a = b
  | .binarySet a, .binarySet b => a = b
  | .bool a, .bool b => a = b
  | .null a, .null b => a = b
  | .list a, .list b => beqItems a b
  | .map a, .map b => beqMembers a b
  | _, _ => false

/-- Equal elements in the same order. -/
def beqItems : List AttributeValue → List AttributeValue → Bool
  | [], [] => true
  | a :: as, b :: bs => a.beq b && beqItems as bs
  | _, _ => false

/-- Equal keys with equal values. -/
def beqMembers : List (String × AttributeValue) → List (String × AttributeValue) → Bool
  | [], [] => true
  | (k, a) :: as, (l, b) :: bs => decide (k = l) && (a.beq b && beqMembers as bs)
  | _, _ => false

end

mutual

theorem eq_of_beq : ∀ {a b : AttributeValue}, a.beq b = true → a = b
  | .string _, b, h => by cases b <;> simp_all [beq]
  | .number _, b, h => by cases b <;> simp_all [beq]
  | .binary _, b, h => by cases b <;> simp_all [beq]
  | .stringSet _, b, h => by cases b <;> simp_all [beq]
  | .numberSet _, b, h => by cases b <;> simp_all [beq]
  | .binarySet _, b, h => by cases b <;> simp_all [beq]
  | .bool _, b, h => by cases b <;> simp_all [beq]
  | .null _, b, h => by cases b <;> simp_all [beq]
  | .list items, b, h => by
    cases b <;> simp only [beq, Bool.false_eq_true] at h
    rw [eq_of_beqItems h]
  | .map members, b, h => by
    cases b <;> simp only [beq, Bool.false_eq_true] at h
    rw [eq_of_beqMembers h]

theorem eq_of_beqItems : ∀ {a b : List AttributeValue}, beqItems a b = true → a = b
  | [], [], _ => rfl
  | [], _ :: _, h => by simp [beqItems] at h
  | _ :: _, [], h => by simp [beqItems] at h
  | a :: as, b :: bs, h => by
    simp only [beqItems, Bool.and_eq_true] at h
    rw [eq_of_beq h.1, eq_of_beqItems h.2]

theorem eq_of_beqMembers : ∀ {a b : List (String × AttributeValue)}, beqMembers a b = true → a = b
  | [], [], _ => rfl
  | [], _ :: _, h => by simp [beqMembers] at h
  | _ :: _, [], h => by simp [beqMembers] at h
  | (k, a) :: as, (l, b) :: bs, h => by
    simp only [beqMembers, Bool.and_eq_true, decide_eq_true_eq] at h
    rw [h.1, eq_of_beq h.2.1, eq_of_beqMembers h.2.2]

end

mutual

theorem beq_self : ∀ a : AttributeValue, a.beq a = true
  | .string _ | .number _ | .binary _ | .stringSet _ | .numberSet _ | .binarySet _ | .bool _
  | .null _ => by simp [beq]
  | .list items => by simp only [beq]; exact beqItems_self items
  | .map members => by simp only [beq]; exact beqMembers_self members

theorem beqItems_self : ∀ items : List AttributeValue, beqItems items items = true
  | [] => by simp [beqItems]
  | a :: as => by simp only [beqItems, beq_self a, beqItems_self as, Bool.and_self]

theorem beqMembers_self : ∀ members : List (String × AttributeValue), beqMembers members members = true
  | [] => by simp [beqMembers]
  | (k, a) :: as => by simp [beqMembers, beq_self a, beqMembers_self as]

end

theorem beq_iff {a b : AttributeValue} : a.beq b = true ↔ a = b :=
  ⟨eq_of_beq, fun h => h ▸ beq_self a⟩

instance : DecidableEq AttributeValue := fun a b =>
  decidable_of_iff (a.beq b = true) beq_iff

/-! ## Display -/

/-- Some texts in quotes between brackets. -/
def quotedList (items : List String) : String :=
  "[" ++ ", ".intercalate (items.map quoted) ++ "]"

/-- What the short form of a value tells of its contents. -/
def summary : AttributeValue → String
  | .string text => text
  | .number numeral => numeral
  | .binary data => toString data.length ++ " bytes"
  | .stringSet items => quotedList items
  | .numberSet items => quotedList items
  | .binarySet items => toString items.length ++ " items"
  | .bool flag => if flag then "true" else "false"
  | .null flag => if flag then "true" else "false"
  | .list items => toString items.length ++ " items"
  | .map members => toString members.length ++ " keys"

/-- A value in short form: its tag, and its contents or how many there are. -/
def display (v : AttributeValue) : String :=
  "\x7b" ++ v.tag.key ++ ": " ++ v.summary ++ "\x7d"

end AttributeValue

end UpdateExpr
