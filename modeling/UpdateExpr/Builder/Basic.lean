/-
The builder of one DynamoDB update statement. It collects clauses by section, registers every value
under a token of its own, and merges name aliases; what it has collected makes the statement and its
parameters.
-/
import UpdateExpr.Builder.Action
import UpdateExpr.Builder.Clause

namespace UpdateExpr

/-- A builder: its configuration, the clauses so far, the two alias tables, the allocator of tokens,
and whether the empty list is registered. -/
structure Builder where
  config : Config := {}
  clauses : Clauses := {}
  names : Table String := .empty
  values : Table AttributeValue := .empty
  allocator : Allocator := {}
  hasEmptyList : Bool := false
deriving DecidableEq

namespace Builder

/-- A builder that has collected nothing. -/
def new (config : Config) : Builder := { config }

instance : Inhabited Builder := ⟨new {}⟩

/-! ## Parts -/

/-- Adds a clause to a section. -/
def push (b : Builder) (s : Section) (clause : String) : Builder :=
  { b with clauses := b.clauses.push s clause }

/-- Registers a value under the next key. -/
def register (b : Builder) (value : AttributeValue) : String × Builder :=
  let (key, allocator) := b.allocator.next
  (key, { b with allocator, values := b.values.insert key value })

/-- Registers the empty list, once. -/
def registerEmptyList (b : Builder) : Builder :=
  if b.hasEmptyList then b
  else { b with values := b.values.insert Token.emptyListKey .emptyList, hasEmptyList := true }

/-- Merges name aliases; later ones win. -/
def addNames (b : Builder) (pairs : List (String × String)) : Builder :=
  { b with names := b.names.insertAll pairs }

/-- The first alias, in key order, that the subject does not mention. -/
def unmentioned? (subject : String) (names : Table String) : Option String :=
  names.keys.find? fun key => !Text.mentions subject ("#" ++ key)

/-- The alias for which an operation is refused, if the builder validates names. -/
def refused? (b : Builder) (subject : String) (names : Table String) : Option String :=
  if b.config.validateNames then unmentioned? subject names else none

/-- Adds the SET clause of an action. -/
def pushAction (b : Builder) : SetAction → Builder
  | .raw fragment => b.push .set fragment
  | .assign path value onlyIfAbsent =>
    let (key, b) := b.register value
    b.push .set (Clause.assign path key onlyIfAbsent)
  | .append path elements listEnd =>
    let (key, b) := b.registerEmptyList.register (.list elements)
    b.push .set (Clause.append path key listEnd)

/-! ## Outcome -/

/-- Whether no clause was added. -/
def isEmpty (b : Builder) : Bool :=
  b.clauses.isEmpty

/-- The statement, if there is a clause. -/
def statement? (b : Builder) : Option String :=
  b.clauses.statement?

/-- The parameters of the update. Without a clause there are none, whatever is registered. -/
def params (b : Builder) : UpdateParams :=
  match b.statement? with
  | none => {}
  | some statement =>
    { expression := some statement, names := b.names.nonEmpty?, values := b.values.nonEmpty? }

end Builder

end UpdateExpr
