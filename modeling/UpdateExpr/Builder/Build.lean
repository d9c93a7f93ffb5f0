/-
Operations that can be refused. An operation first looks at its request, then declares the aliases of
the request, and only then registers values and adds its clause, so one that is refused has changed
nothing yet.
-/
import UpdateExpr.Builder.Basic

namespace UpdateExpr

/-- A step of building: it may change the builder, and it may be refused. -/
abbrev Build := ExceptT BuilderError (StateM Builder)

namespace Build

/-- Runs a step: what it gives, and the builder it leaves behind. -/
def on {α : Type} (step : Build α) (b : Builder) : Except BuilderError α × Builder :=
  StateT.run (ExceptT.run step) b

/-! ## Running -/

section Running

variable {α β : Type} (b : Builder)

@[simp] theorem on_pure (a : α) : (pure a : Build α).on b = (.ok a, b) := rfl

@[simp] theorem on_throw (e : BuilderError) : (throw e : Build α).on b = (.error e, b) := rfl

@[simp] theorem on_get : (get : Build Builder).on b = (.ok b, b) := rfl

@[simp] theorem on_modify (f : Builder → Builder) : (modify f : Build Unit).on b = (.ok (), f b) := rfl

@[simp] theorem on_modifyGet (f : Builder → α × Builder) :
    (modifyGet f : Build α).on b = (.ok (f b).1, (f b).2) := rfl

@[simp] theorem on_ofExcept (result : Except BuilderError α) :
    (MonadExcept.ofExcept result : Build α).on b = (result, b) := by
  cases result <;> rfl

/-- A step that is refused ends what it stands in. -/
theorem on_bind (step : Build α) (next : α → Build β) :
    (step >>= next).on b =
      match step.on b with
      | (.ok a, b') => (next a).on b'
      | (.error e, b') => (.error e, b') := by
  unfold on
  simp only [ExceptT.run_bind, StateT.run_bind]
  rcases StateT.run (ExceptT.run step) b with ⟨_ | _, _⟩ <;> rfl

@[simp] theorem on_map (f : α → β) (step : Build α) :
    (f <$> step).on b =
      match step.on b with
      | (.ok a, b') => (.ok (f a), b')
      | (.error e, b') => (.error e, b') := by
  rw [← bind_pure_comp, on_bind]
  rfl

end Running

/-! ## Operations -/

/-- Merges the name aliases of an operation, all of them or, if one is refused, none. -/
def declareNames (operation : OperationName) (subject : String) (names : Table String) :
    Build Unit := do
  match (← get).refused? subject names with
  | some key => throw (.unmentioned operation key)
  | none => modify (·.addNames names.entries)

theorem on_declareNames (operation : OperationName) (subject : String) (names : Table String)
    (b : Builder) :
    (declareNames operation subject names).on b =
      match b.refused? subject names with
      | some key => (.error (.unmentioned operation key), b)
      | none => (.ok (), b.addNames names.entries) := by
  unfold declareNames
  simp only [on_bind, on_get]
  cases b.refused? subject names <;> rfl

/-- Registers a value under the next key. -/
def register (value : AttributeValue) : Build String :=
  modifyGet (·.register value)

/-- Adds the clause of a set request. -/
def setPath (request : SetRequest) : Build Unit := do
  let action ← MonadExcept.ofExcept (SetAction.ofRequest request)
  declareNames .set action.subject request.names
  modify (·.pushAction action)

/-- Adds the clause of an increment; the base is registered before the amount. -/
def increment (request : IncrementRequest) : Build Unit := do
  declareNames .increment request.path request.names
  let base ← register request.base
  let amount ← register request.amount
  modify (·.push .set (Clause.increment request.path base amount))

/-- Adds the path of a removal. -/
def remove (request : RemoveRequest) : Build Unit := do
  declareNames .remove request.path request.names
  modify (·.push .remove request.path)

/-- Adds a path with its value to a section. -/
def pushValued (operation : OperationName) (s : Section) (path : String) (names : Table String)
    (value : AttributeValue) : Build Unit := do
  declareNames operation path names
  let key ← register value
  modify (·.push s (Clause.valued path key))

/-- Adds the clause of an addition. -/
def add (request : AddRequest) : Build Unit :=
  pushValued .add .add request.path request.names request.value

/-- Adds the clause of a deletion of members. -/
def delete (request : DeleteRequest) : Build Unit :=
  pushValued .delete .delete request.path request.names request.value

end Build

end UpdateExpr
