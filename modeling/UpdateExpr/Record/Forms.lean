/-
The records that travel on the wire: the option bags of the five builder operations, the parameters
of a finished update, and the builder's configuration.
-/
import UpdateExpr.Record.Schema
import UpdateExpr.Text.Bytes

namespace UpdateExpr

open Record

/-! ## Operations -/

/-- What to set: a raw expression, a list append if an end is given, or an assignment. -/
structure SetRequest where
  path : Option String := none
  expression : Option String := none
  onlyIfAbsent : Bool := false
  names : Table String := .empty
  value : Option AttributeValue := none
  append : Option ListEnd := none
deriving DecidableEq

/-- A counter to increment. -/
structure IncrementRequest where
  path : String
  names : Table String := .empty
  base : AttributeValue := .number "0"
  amount : AttributeValue := .number "1"
deriving DecidableEq

/-- An attribute to remove. -/
structure RemoveRequest where
  path : String
  names : Table String := .empty
deriving DecidableEq

/-- A number to add, or a set whose members are merged in. -/
structure AddRequest where
  path : String
  names : Table String := .empty
  value : AttributeValue
deriving DecidableEq

/-- A set whose members are removed. -/
structure DeleteRequest where
  path : String
  names : Table String := .empty
  value : AttributeValue
deriving DecidableEq

instance : Record SetRequest where
  name := "SetInput"
  fields := [.optional "Name" .text, .optional "SetExpression" .text,
    .defaulted "IfNotExists" .flag false, .aliases "AttributeNames", .optional "Value" .value,
    .optional "ListAppend" .listEnd]
  toRow a := (a.path, a.expression, a.onlyIfAbsent, a.names, a.value, a.append, ())
  ofRow := fun (path, expression, onlyIfAbsent, names, value, append, ()) =>
    ⟨path, expression, onlyIfAbsent, names, value, append⟩
  ofRow_toRow _ := rfl
  toRow_ofRow _ := rfl
  distinct := by decide

instance : Record IncrementRequest where
  name := "SetIncrementInput"
  fields := [.required "Name" .text, .aliases "AttributeNames",
    .defaulted "BaseValueIfNotExist" .value (.number "0"),
    .defaulted "IncrementAmount" .value (.number "1")]
  toRow a := (a.path, a.names, a.base, a.amount, ())
  ofRow := fun (path, names, base, amount, ()) => ⟨path, names, base, amount⟩
  ofRow_toRow _ := rfl
  toRow_ofRow _ := rfl
  distinct := by decide

instance : Record RemoveRequest where
  name := "RemoveInput"
  fields := [.required "Name" .text, .aliases "AttributeNames"]
  toRow a := (a.path, a.names, ())
  ofRow := fun (path, names, ()) => ⟨path, names⟩
  ofRow_toRow _ := rfl
  toRow_ofRow _ := rfl
  distinct := by decide

instance : Record AddRequest where
  name := "AddInput"
  fields := [.required "Name" .text, .aliases "AttributeNames", .required "Value" .value]
  toRow a := (a.path, a.names, a.value, ())
  ofRow := fun (path, names, value, ()) => ⟨path, names, value⟩
  ofRow_toRow _ := rfl
  toRow_ofRow _ := rfl
  distinct := by decide

instance : Record DeleteRequest where
  name := "DeleteInput"
  fields := [.required "Name" .text, .aliases "AttributeNames", .required "Value" .value]
  toRow a := (a.path, a.names, a.value, ())
  ofRow := fun (path, names, value, ()) => ⟨path, names, value⟩
  ofRow_toRow _ := rfl
  toRow_ofRow _ := rfl
  distinct := by decide

/-! ## Parameters -/

/-- The parameters of an update: the statement and the two alias tables it refers to. Without a
statement there is nothing to update. -/
structure UpdateParams where
  expression : Option String := none
  names : Option (Table String) := none
  values : Option (Table AttributeValue) := none
deriving DecidableEq

/-- Whether there is nothing to update. -/
def UpdateParams.isEmpty (p : UpdateParams) : Bool :=
  p.expression.isNone

instance : Record UpdateParams where
  name := "UpdateExpressionParams"
  fields := [.optional "UpdateExpression" .text, .optional "ExpressionAttributeNames" .names,
    .optional "ExpressionAttributeValues" .values]
  toRow a := (a.expression, a.names, a.values, ())
  ofRow := fun (expression, names, values, ()) => ⟨expression, names, values⟩
  ofRow_toRow _ := rfl
  toRow_ofRow _ := rfl
  distinct := by decide

/-! ## Configuration -/

/-- What is fixed when a builder is made: whether declared name aliases must be mentioned. -/
structure Config where
  validateNames : Bool := false
deriving Repr, DecidableEq

instance : Record Config where
  name := "BuilderConfig"
  fields := [.defaulted "validateNames" .flag false]
  toRow a := (a.validateNames, ())
  ofRow := fun (validateNames, ()) => ⟨validateNames⟩
  ofRow_toRow _ := rfl
  toRow_ofRow _ := rfl
  distinct := by decide

namespace Config

/-- The spellings that switch validation on. -/
def affirmations : List String :=
  ["1", "true", "yes", "TRUE", "YES"]

/-- The configuration from the bytes of an environment variable, none if it is not set. Bytes that
are no text are no affirmation. -/
def ofEnvironment (setting : Option Text.Bytes) : Config :=
  ⟨setting.any fun bytes => affirmations.any fun s => Text.utf8 s = bytes⟩

end Config

end UpdateExpr
