/-
One shape for all operations. Whether an operation is refused depends on its request and on the
configuration alone; a refused one leaves the builder as it was. One that is not refused contributes
name aliases, values and a clause, always in the same way: the aliases are merged, the empty list is
registered if the clause falls back on it, each value gets the next key, and the clause is written
with these keys.
-/
import Mathlib.Logic.Function.Iterate
import UpdateExpr.Builder.Operation

namespace UpdateExpr

/-! ## Clauses with open tokens -/

/-- The form of a clause. Its tokens are open: they are the keys of the values that come with it. -/
inductive ClauseForm where
  | raw (fragment : String)
  | assign (path : String) (onlyIfAbsent : Bool)
  | append (path : String) (listEnd : ListEnd)
  | increment (path : String)
  | remove (path : String)
  | valued (path : String)
deriving Repr, DecidableEq

namespace ClauseForm

/-- The clause, `key i` being the key of the `i`-th value that comes with it, counted from zero. -/
def text (key : Nat → String) : ClauseForm → String
  | .raw fragment => fragment
  | .assign path false => path ++ " = " ++ key 0
  | .assign path true => path ++ " = if_not_exists(" ++ path ++ ", " ++ key 0 ++ ")"
  | .append path .front =>
    path ++ " = list_append(" ++ key 0 ++ ", if_not_exists(" ++ path ++ ", " ++ Token.emptyListKey ++ "))"
  | .append path .back =>
    path ++ " = list_append(if_not_exists(" ++ path ++ ", " ++ Token.emptyListKey ++ "), " ++ key 0 ++ ")"
  | .increment path => path ++ " = if_not_exists(" ++ path ++ ", " ++ key 0 ++ ") + " ++ key 1
  | .remove path => path
  | .valued path => path ++ " " ++ key 0

end ClauseForm

/-! ## Contributions -/

/-- What an operation adds to a builder unless it is refused. -/
structure Contribution where
  names : List (String × String) := []
  values : List AttributeValue := []
  clause? : Option (Section × ClauseForm) := none
deriving DecidableEq

/-- Whether the clause appends to a list, so that it falls back on the empty one. -/
def Contribution.appends (c : Contribution) : Bool :=
  match c.clause? with
  | some (_, .append _ _) => true
  | _ => false

/-- What an action of a SET clause contributes. -/
def SetAction.contribution : SetAction → Contribution
  | .raw fragment => { clause? := some (.set, .raw fragment) }
  | .assign path value onlyIfAbsent =>
    { values := [value], clause? := some (.set, .assign path onlyIfAbsent) }
  | .append path elements listEnd =>
    { values := [.list elements], clause? := some (.set, .append path listEnd) }

namespace Operation

/-- What an operation contributes. A request that asks for no action contributes nothing. -/
def contribution : Operation → Contribution
  | .set request =>
    match SetAction.ofRequest request with
    | .ok action => { action.contribution with names := request.names.entries }
    | .error _ => {}
  | .increment request =>
    { names := request.names.entries, values := [request.base, request.amount],
      clause? := some (.set, .increment request.path) }
  | .remove request =>
    { names := request.names.entries, clause? := some (.remove, .remove request.path) }
  | .add request =>
    { names := request.names.entries, values := [request.value],
      clause? := some (.add, .valued request.path) }
  | .delete request =>
    { names := request.names.entries, values := [request.value],
      clause? := some (.delete, .valued request.path) }
  | .act action => action.contribution
  | .assign path value => (SetAction.assign path value false).contribution
  | .assignIfAbsent path value => (SetAction.assign path value true).contribution
  | .append path elements listEnd => (SetAction.append path elements listEnd).contribution
  | .raw fragment => (SetAction.raw fragment).contribution
  | .register value => { values := [value] }
  | .addNames pairs => { names := pairs }

theorem contribution_set_ok {request : SetRequest} {action : SetAction}
    (h : SetAction.ofRequest request = .ok action) :
    (Operation.set request).contribution = { action.contribution with names := request.names.entries } := by
  simp only [contribution, h]

theorem contribution_set_error {request : SetRequest} {cause : BuilderError}
    (h : SetAction.ofRequest request = .error cause) : (Operation.set request).contribution = {} := by
  simp only [contribution, h]

/-- Why the aliases of an operation are refused, if they are. -/
def unmentioned? (config : Config) (name : OperationName) (subject : String) (names : Table String) :
    Option BuilderError :=
  if config.validateNames then (Builder.unmentioned? subject names).map (.unmentioned name) else none

/-- Why an operation is refused, if it is. -/
def refusal? (config : Config) : Operation → Option BuilderError
  | .set request =>
    match SetAction.ofRequest request with
    | .ok action => unmentioned? config .set action.subject request.names
    | .error cause => some cause
  | .increment request => unmentioned? config .increment request.path request.names
  | .remove request => unmentioned? config .remove request.path request.names
  | .add request => unmentioned? config .add request.path request.names
  | .delete request => unmentioned? config .delete request.path request.names
  | _ => none

theorem exists_action_of_refusal?_eq_none {config : Config} {request : SetRequest}
    (h : (Operation.set request).refusal? config = none) : ∃ action, SetAction.ofRequest request = .ok action := by
  simp only [refusal?] at h
  cases asked : SetAction.ofRequest request with
  | ok action => exact ⟨action, rfl⟩
  | error cause =>
    rw [asked] at h
    cases h

/-- What an operation answers unless it is refused: the key of the value that it registers. -/
def answer (b : Builder) : Operation → Option String
  | .register _ => some b.allocator.next.1
  | _ => none

end Operation

namespace Builder

/-! ## The effect of a contribution -/

/-- The keys that come next, the very next one being number zero. -/
def upcoming (b : Builder) (i : Nat) : String :=
  Token.key (Token.next^[i + 1] b.allocator.last)

/-- Registers values one after the other. -/
def registerAll (b : Builder) (values : List AttributeValue) : Builder :=
  values.foldl (fun b value => (b.register value).2) b

/-- Adds a clause, if there is one, with the keys that `key` gives. -/
def pushClause (b : Builder) (key : Nat → String) : Option (Section × ClauseForm) → Builder
  | none => b
  | some (s, form) => b.push s (form.text key)

/-- Adds a contribution: its aliases, the empty list if need be, its values, and its clause with the
keys of these values. -/
def contribute (b : Builder) (c : Contribution) : Builder :=
  let named := b.addNames c.names
  let based := if c.appends then named.registerEmptyList else named
  (based.registerAll c.values).pushClause b.upcoming c.clause?

theorem registerEmptyList_frame (b : Builder) :
    b.registerEmptyList.config = b.config ∧ b.registerEmptyList.clauses = b.clauses ∧
      b.registerEmptyList.names = b.names := by
  unfold registerEmptyList
  split <;> exact ⟨rfl, rfl, rfl⟩

theorem registerAll_frame (b : Builder) (values : List AttributeValue) :
    (b.registerAll values).config = b.config ∧ (b.registerAll values).clauses = b.clauses ∧
      (b.registerAll values).names = b.names := by
  induction values generalizing b with
  | nil => exact ⟨rfl, rfl, rfl⟩
  | cons value rest ih => exact ih (b.register value).2

/-- Aliases are merged, and the values leave them, the configuration and the clauses alone. -/
theorem exists_pushClause (b : Builder) (c : Contribution) :
    ∃ d : Builder, d.config = b.config ∧ d.clauses = b.clauses ∧ d.names = b.names.insertAll c.names ∧
      b.contribute c = d.pushClause b.upcoming c.clause? := by
  obtain ⟨config, clauses, names⟩ := registerEmptyList_frame (b.addNames c.names)
  refine ⟨_, ?_, ?_, ?_, rfl⟩
  · rw [(registerAll_frame _ _).1]
    split
    · exact config
    · rfl
  · rw [(registerAll_frame _ _).2.1]
    split
    · exact clauses
    · rfl
  · rw [(registerAll_frame _ _).2.2]
    split
    · exact names
    · rfl

theorem clause_assign_text (path : String) (onlyIfAbsent : Bool) (key : Nat → String) :
    Clause.assign path (key 0) onlyIfAbsent = (ClauseForm.assign path onlyIfAbsent).text key := by
  have opening : " = if_not_exists(" = " = " ++ "if_not_exists(" := by decide
  unfold Clause.assign Clause.ifNotExists ClauseForm.text
  cases onlyIfAbsent with
  | false => rfl
  | true =>
    rw [opening]
    simp only [if_true, String.append_assoc]

theorem clause_append_text (path : String) (listEnd : ListEnd) (key : Nat → String) :
    Clause.append path (key 0) listEnd = (ClauseForm.append path listEnd).text key := by
  unfold Clause.append Clause.ifNotExists ClauseForm.text
  cases listEnd with
  | front =>
    have middle : ", if_not_exists(" = ", " ++ "if_not_exists(" := by decide
    have closing : "))" = ")" ++ ")" := by decide
    rw [middle, closing]
    simp only [String.append_assoc]
  | back =>
    have opening : " = list_append(if_not_exists(" = " = list_append(" ++ "if_not_exists(" := by decide
    have middle : "), " = ")" ++ ", " := by decide
    rw [opening, middle]
    simp only [String.append_assoc]

theorem clause_increment_text (path : String) (key : Nat → String) :
    Clause.increment path (key 0) (key 1) = (ClauseForm.increment path).text key := by
  have opening : " = if_not_exists(" = " = " ++ "if_not_exists(" := by decide
  have closing : ") + " = ")" ++ " + " := by decide
  unfold Clause.increment Clause.ifNotExists ClauseForm.text
  rw [opening, closing]
  simp only [String.append_assoc]

theorem addNames_nil (b : Builder) : b.addNames [] = b := by
  unfold addNames
  rw [Table.insertAll_nil]

theorem allocator_registerEmptyList (b : Builder) : b.registerEmptyList.allocator = b.allocator := by
  unfold registerEmptyList
  split <;> rfl

/-- An action contributes what it says, beside whatever aliases were merged before. -/
theorem pushAction_eq (b : Builder) (names : List (String × String)) (action : SetAction) :
    (b.addNames names).pushAction action = b.contribute { action.contribution with names } := by
  cases action with
  | raw fragment => rfl
  | assign path value onlyIfAbsent =>
    unfold pushAction contribute
    simp only [SetAction.contribution, pushClause]
    rw [← clause_assign_text]
    rfl
  | append path elements listEnd =>
    unfold pushAction contribute
    simp only [SetAction.contribution, pushClause, Contribution.appends, if_true]
    rw [← clause_append_text]
    -- the key is taken after the empty list is registered, which takes none
    unfold upcoming registerAll register Allocator.next
    simp only [allocator_registerEmptyList, List.foldl_cons, List.foldl_nil]
    rfl

end Builder

/-! ## Running an operation -/

namespace Build

/-- What follows the declaration of aliases runs with the aliases merged, or not at all. -/
theorem on_declareNames_bind {α : Type} (name : OperationName) (subject : String) (names : Table String)
    (next : Unit → Build α) (b : Builder) :
    (declareNames name subject names >>= next).on b =
      match Operation.unmentioned? b.config name subject names with
      | some cause => (.error cause, b)
      | none => (next ()).on (b.addNames names.entries) := by
  rw [on_bind, on_declareNames]
  unfold Builder.refused? Operation.unmentioned?
  by_cases h : b.config.validateNames = true
  · rw [if_pos h, if_pos h]
    cases Builder.unmentioned? subject names <;> rfl
  · rw [if_neg h, if_neg h]

theorem on_setPath (request : SetRequest) (b : Builder) :
    (setPath request).on b =
      match Operation.refusal? b.config (.set request) with
      | some cause => (.error cause, b)
      | none => (.ok (), b.contribute (Operation.contribution (.set request))) := by
  unfold setPath
  rw [on_bind, on_ofExcept]
  cases h : SetAction.ofRequest request with
  | error cause => simp only [Operation.refusal?, h]
  | ok action =>
    simp only [Operation.refusal?, Operation.contribution_set_ok h, h, on_declareNames_bind, on_modify,
      Builder.pushAction_eq]

theorem on_increment (request : IncrementRequest) (b : Builder) :
    (increment request).on b =
      match Operation.refusal? b.config (.increment request) with
      | some cause => (.error cause, b)
      | none => (.ok (), b.contribute (Operation.contribution (.increment request))) := by
  unfold increment Operation.refusal? Operation.contribution Builder.contribute
  rw [on_declareNames_bind]
  simp only [Builder.pushClause, ← Builder.clause_increment_text]
  rfl

theorem on_remove (request : RemoveRequest) (b : Builder) :
    (remove request).on b =
      match Operation.refusal? b.config (.remove request) with
      | some cause => (.error cause, b)
      | none => (.ok (), b.contribute (Operation.contribution (.remove request))) := by
  unfold remove
  rw [on_declareNames_bind]
  rfl

theorem on_pushValued (name : OperationName) (s : Section) (path : String) (names : Table String)
    (value : AttributeValue) (b : Builder) :
    (pushValued name s path names value).on b =
      match Operation.unmentioned? b.config name path names with
      | some cause => (.error cause, b)
      | none =>
        (.ok (), b.contribute
          { names := names.entries, values := [value], clause? := some (s, .valued path) }) := by
  unfold pushValued
  rw [on_declareNames_bind]
  rfl

theorem on_pushAction (action : SetAction) (b : Builder) :
    (modify (·.pushAction action) : Build Unit).on b = (.ok (), b.contribute action.contribution) := by
  rw [on_modify]
  have := b.pushAction_eq [] action
  rw [b.addNames_nil] at this
  rw [this]
  cases action <;> rfl

end Build

/-- An operation is refused and changes nothing, or it adds its contribution. -/
theorem Operation.run_eq (op : Operation) (b : Builder) :
    op.run b =
      match op.refusal? b.config with
      | some cause => (.error cause, b)
      | none => (.ok (op.answer b), b.contribute op.contribution) := by
  unfold run perform
  cases op with
  | set request =>
    simp only [bind_pure_comp, Build.on_map, Build.on_setPath]
    cases refusal? b.config (.set request) <;> rfl
  | increment request =>
    simp only [bind_pure_comp, Build.on_map, Build.on_increment]
    cases refusal? b.config (.increment request) <;> rfl
  | remove request =>
    simp only [bind_pure_comp, Build.on_map, Build.on_remove]
    cases refusal? b.config (.remove request) <;> rfl
  | add request =>
    simp only [bind_pure_comp, Build.on_map, Build.add, Build.on_pushValued, refusal?]
    cases unmentioned? b.config .add request.path request.names <;> rfl
  | delete request =>
    simp only [bind_pure_comp, Build.on_map, Build.delete, Build.on_pushValued, refusal?]
    cases unmentioned? b.config .delete request.path request.names <;> rfl
  | act action => simp only [bind_pure_comp, Build.on_map, Build.on_pushAction, refusal?, answer, contribution]
  | assign path value => simp only [bind_pure_comp, Build.on_map, Build.on_pushAction, refusal?, answer, contribution]
  | assignIfAbsent path value =>
    simp only [bind_pure_comp, Build.on_map, Build.on_pushAction, refusal?, answer, contribution]
  | append path elements listEnd =>
    simp only [bind_pure_comp, Build.on_map, Build.on_pushAction, refusal?, answer, contribution]
  | raw fragment => simp only [bind_pure_comp, Build.on_map, Build.on_pushAction, refusal?, answer, contribution]
  | register value => rfl
  | addNames pairs => rfl

end UpdateExpr
