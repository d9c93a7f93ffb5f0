/-
The operations of a builder as data, and runs of them. An operation that is refused gives its error
and the run goes on; the builder it goes on with is the one the operation leaves behind.
-/
import UpdateExpr.Builder.Build
import UpdateExpr.Record.Decode

namespace UpdateExpr

/-- An operation of a builder. -/
inductive Operation where
  | set (request : SetRequest)
  | increment (request : IncrementRequest)
  | remove (request : RemoveRequest)
  | add (request : AddRequest)
  | delete (request : DeleteRequest)
  | act (action : SetAction)
  | assign (path : String) (value : AttributeValue)
  | assignIfAbsent (path : String) (value : AttributeValue)
  | append (path : String) (elements : List AttributeValue) (listEnd : ListEnd)
  | raw (fragment : String)
  | register (value : AttributeValue)
  | addNames (pairs : List (String × String))
deriving DecidableEq

namespace Operation

/-- Performs an operation. Only a registration has a result, the key of its value. -/
def perform : Operation → Build (Option String)
  | .set request => do Build.setPath request; return none
  | .increment request => do Build.increment request; return none
  | .remove request => do Build.remove request; return none
  | .add request => do Build.add request; return none
  | .delete request => do Build.delete request; return none
  | .act action => do modify (·.pushAction action); return none
  | .assign path value => do modify (·.pushAction (.assign path value false)); return none
  | .assignIfAbsent path value => do modify (·.pushAction (.assign path value true)); return none
  | .append path elements listEnd => do
    modify (·.pushAction (.append path elements listEnd)); return none
  | .raw fragment => do modify (·.pushAction (.raw fragment)); return none
  | .register value => do let key ← Build.register value; return some key
  | .addNames pairs => do modify (·.addNames pairs); return none

/-- What an operation gives: the key of a registered value, nothing, or an error. -/
abbrev Result := Except BuilderError (Option String)

/-- Performs an operation on a builder. -/
def run (op : Operation) (b : Builder) : Result × Builder :=
  op.perform.on b

/-- Performs operations one after the other. -/
def runAll : List Operation → Builder → List Result × Builder
  | [], b => ([], b)
  | op :: ops, b =>
    let (result, b) := op.run b
    let (results, b) := runAll ops b
    (result :: results, b)

/-! ## From JSON -/

/-- An operation that takes a record. -/
inductive Kind where
  | set | increment | remove | add | delete
deriving Repr, DecidableEq

/-- The operation on the record of a JSON value. -/
def ofJson (kind : Kind) (input : Json) : Except DecodeError Operation :=
  match kind with
  | .set => (Record.ofJson input).map .set
  | .increment => (Record.ofJson input).map .increment
  | .remove => (Record.ofJson input).map .remove
  | .add => (Record.ofJson input).map .add
  | .delete => (Record.ofJson input).map .delete

end Operation

end UpdateExpr
