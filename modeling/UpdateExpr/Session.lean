/-
Sessions: a builder that is driven step by step. Steps perform operations, whose inputs may fail to
decode, ask for what was built so far, and keep and take back copies of the builder. A failed step
leaves the session as it was.
-/
import UpdateExpr.Builder.Operation

namespace UpdateExpr

/-- A builder and the copies kept of it, the latest first. -/
structure Session where
  builder : Builder
  saved : List Builder := []

/-- A step of a session. -/
inductive Step where
  /-- An operation, or the error of decoding its input. -/
  | operate (operation : Except DecodeError Operation)
  | repeated (count : Nat) (step : Step)
  | params
  | statement
  | isEmpty
  | clauses (s : Section)
  | config
  | save
  | restore

/-- Why a step fails. -/
inductive Failure where
  | decode (cause : DecodeError)
  | refused (cause : BuilderError)
  | nothingSaved

/-- What a step answers. -/
inductive Reply where
  | done
  | key (key : String)
  | params (params : UpdateParams)
  | statement (statement : Option String)
  | flag (flag : Bool)
  | clauses (clauses : List String)
  | config (config : Config)
  | saved (count : Nat)
  /-- A step repeated not even once. -/
  | nothing
  | failed (cause : Failure)

namespace Session

/-- A session with a new builder. -/
def new (config : Config) : Session := { builder := .new config }

/-- Performs an operation on the builder of a session. -/
def operate (s : Session) (operation : Operation) : Reply × Session :=
  match operation.run s.builder with
  | (.ok none, builder) => (.done, { s with builder })
  | (.ok (some key), builder) => (.key key, { s with builder })
  | (.error cause, builder) => (.failed (.refused cause), { s with builder })

/-- Runs something so many times; the last reply counts. -/
def iterate (run : Session → Reply × Session) : Nat → Reply × Session → Reply × Session
  | 0, last => last
  | count + 1, (_, s) => iterate run count (run s)

end Session

namespace Step

/-- Runs a step. -/
def run : Step → Session → Reply × Session
  | .operate (.ok operation), s => s.operate operation
  | .operate (.error cause), s => (.failed (.decode cause), s)
  | .repeated count step, s => Session.iterate (fun s => step.run s) count (.nothing, s)
  | .params, s => (.params s.builder.params, s)
  | .statement, s => (.statement s.builder.statement?, s)
  | .isEmpty, s => (.flag s.builder.isEmpty, s)
  | .clauses part, s => (.clauses (s.builder.clauses.get part), s)
  | .config, s => (.config s.builder.config, s)
  | .save, s => (.saved (s.saved.length + 1), { s with saved := s.builder :: s.saved })
  | .restore, s =>
    match s.saved with
    | [] => (.failed .nothingSaved, s)
    | builder :: saved => (.saved saved.length, ⟨builder, saved⟩)

/-- Runs steps one after the other. -/
def runAll : List Step → Session → List Reply × Session
  | [], s => ([], s)
  | step :: steps, s =>
    let (reply, s) := step.run s
    let (replies, s) := runAll steps s
    (reply :: replies, s)

end Step

end UpdateExpr
