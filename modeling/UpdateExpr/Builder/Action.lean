/-
What a set request asks for. A raw expression excludes a path and a value; without one both are
needed, and an end of a list makes the request a list append. Which error arises depends only on
which fields are there.
-/
import UpdateExpr.Record.Forms

namespace UpdateExpr

/-! ## Errors -/

/-- An operation as errors name it. -/
inductive OperationName where
  | set | increment | remove | add | delete
deriving Repr, DecidableEq

/-- The name of an operation. -/
def OperationName.text : OperationName → String
  | .set => "Set"
  | .increment => "SetIncrement"
  | .remove => "Remove"
  | .add => "Add"
  | .delete => "Delete"

/-- A field of a set request as errors name it. -/
inductive SetField where
  | path | value
deriving Repr, DecidableEq

/-- The name of a field. -/
def SetField.text : SetField → String
  | .path => "Name"
  | .value => "Value"

/-- Why an operation is refused. -/
inductive BuilderError where
  /-- A declared alias is not mentioned by the operation. -/
  | unmentioned (operation : OperationName) (key : String)
  /-- A field stands beside a raw expression. -/
  | conflict (field : SetField)
  /-- A field is needed and not there. -/
  | missing (operation : OperationName) (field : SetField)
deriving Repr, DecidableEq

/-- The text of an error. -/
def BuilderError.message : BuilderError → String
  | .unmentioned operation key =>
    "Validation error - " ++ operation.text ++
      " Name does not contain key found in AttributeNames '#" ++ key ++ "'"
  | .conflict field =>
    "You cannot provide both a " ++ field.text ++ " and a SetExpression. Use add_attribute_value " ++
      "to register values and reference their tokens in the expression"
  | .missing operation field => operation.text ++ " requires " ++ field.text

/-! ## Actions -/

/-- An action of a SET clause. -/
inductive SetAction where
  /-- A fragment taken as it is. -/
  | raw (fragment : String)
  /-- A value for a path, perhaps only if nothing is there yet. -/
  | assign (path : String) (value : AttributeValue) (onlyIfAbsent : Bool)
  /-- New elements at an end of the list at a path. -/
  | append (path : String) (elements : List AttributeValue) (listEnd : ListEnd)
deriving Repr, DecidableEq

namespace SetAction

/-- The text that must mention the declared name aliases. -/
def subject : SetAction → String
  | .raw fragment => fragment
  | .assign path _ _ => path
  | .append path _ _ => path

/-- The action that a request asks for. -/
def ofRequest (request : SetRequest) : Except BuilderError SetAction :=
  match request.expression with
  | some fragment =>
    if request.value.isSome then .error (.conflict .value)
    else if request.path.isSome then .error (.conflict .path)
    else .ok (.raw fragment)
  | none =>
    match request.path, request.value with
    | none, _ => .error (.missing .set .path)
    | some _, none => .error (.missing .set .value)
    | some path, some value =>
      match request.append with
      | some listEnd => .ok (.append path [value] listEnd)
      | none => .ok (.assign path value request.onlyIfAbsent)

end SetAction

end UpdateExpr
