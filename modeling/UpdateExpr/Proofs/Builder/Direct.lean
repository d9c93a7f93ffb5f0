/-
Requests and the direct way. A set request that is not refused does what merging its aliases and one
direct operation do: adding its raw expression, appending its value to a list, or assigning it, perhaps
only if nothing is there yet; the end of a list comes before that condition. Assignments and increments
in turn do what registering their values and adding a raw clause with the keys of these do. All this
holds on every builder, for the whole builder that is reached.
-/
import UpdateExpr.Proofs.Builder.Contribution

namespace UpdateExpr

/-! ## The operation behind a request -/

/-- The direct operation that a set request stands for, beside its aliases, if its fields make one. -/
def SetRequest.direct? (r : SetRequest) : Option Operation :=
  match r.expression, r.path, r.value with
  | some fragment, none, none => some (.raw fragment)
  | none, some path, some value =>
    match r.append with
    | some listEnd => some (.append path [value] listEnd)
    | none => some (if r.onlyIfAbsent then .assignIfAbsent path value else .assign path value)
  | _, _, _ => none

/-- The action that a request asks for is that of its direct operation. -/
theorem SetRequest.exists_direct {r : SetRequest} {action : SetAction} (h : SetAction.ofRequest r = .ok action) :
    ∃ direct, r.direct? = some direct ∧ ∀ b, direct.run b = (.ok none, b.pushAction action) := by
  obtain ⟨path, expression, onlyIfAbsent, names, value, append⟩ := r
  unfold SetAction.ofRequest at h
  cases expression with
  | some fragment =>
    cases value <;> cases path <;> cases h
    exact ⟨.raw fragment, rfl, fun b => rfl⟩
  | none =>
    -- without a path or a value nothing is asked for
    rcases path with _ | path <;> rcases value with _ | value
    iterate 3 cases h
    cases append with
    | some listEnd =>
      cases h
      exact ⟨.append path [value] listEnd, rfl, fun b => rfl⟩
    | none =>
      cases h
      cases onlyIfAbsent with
      | true => exact ⟨.assignIfAbsent path value, rfl, fun b => rfl⟩
      | false => exact ⟨.assign path value, rfl, fun b => rfl⟩

namespace Operation

theorem refusal?_eq_none_of_isOk {op : Operation} {b : Builder} (h : (op.run b).1.isOk = true) :
    op.refusal? b.config = none := by
  rw [run_eq] at h
  cases hr : op.refusal? b.config with
  | none => rfl
  | some cause =>
    rw [hr] at h
    cases h

/-- An operation that succeeds adds its contribution. -/
theorem run_of_isOk {op : Operation} {b : Builder} (h : (op.run b).1.isOk = true) :
    op.run b = (.ok (op.answer b), b.contribute op.contribution) := by
  rw [run_eq, refusal?_eq_none_of_isOk h]

end Operation

namespace Builder

/-- A set request that is not refused merges its aliases and pushes its action. -/
theorem run_set_of_isOk {b : Builder} {r : SetRequest} (h : ((Operation.set r).run b).1.isOk = true) :
    ∃ action, SetAction.ofRequest r = .ok action ∧
      (Operation.set r).run b = (.ok none, (b.addNames r.names.entries).pushAction action) := by
  obtain ⟨action, asked⟩ :=
    Operation.exists_action_of_refusal?_eq_none (Operation.refusal?_eq_none_of_isOk h)
  refine ⟨action, asked, ?_⟩
  rw [Operation.run_of_isOk h, Operation.contribution_set_ok asked, pushAction_eq]
  rfl

/-! ## Clauses from keys at hand -/

/-- An assignment is the raw clause with the key of its value. -/
theorem pushAction_assign (b : Builder) (path : String) (value : AttributeValue) (onlyIfAbsent : Bool) :
    b.pushAction (.assign path value onlyIfAbsent) =
      (b.register value).2.pushAction
        (.raw ((ClauseForm.assign path onlyIfAbsent).text fun _ => (b.register value).1)) := by
  rw [← clause_assign_text]
  rfl

/-- An increment is the raw clause with the keys of its base and its amount. -/
theorem contribute_increment (b : Builder) (r : IncrementRequest) :
    b.contribute (Operation.increment r).contribution =
      (((b.addNames r.names.entries).register r.base).2.register r.amount).2.pushAction
        (.raw ((ClauseForm.increment r.path).text b.upcoming)) := rfl

/-- On every builder: a set request that succeeds reaches what its aliases and its direct operation
reach. An assignment, conditional or not, reaches what a registration of its value and the raw clause
with the key that it gives reach; and an increment that succeeds what its aliases, registrations of the
base and then of the amount, and the raw clause with both keys reach. -/
theorem requests_are_direct (b : Builder) :
    (∀ r : SetRequest, ((Operation.set r).run b).1.isOk = true →
      ∃ direct, r.direct? = some direct ∧
        Operation.runAll [.addNames r.names.entries, direct] b =
          ([.ok none, .ok none], ((Operation.set r).run b).2)) ∧
    (∀ (path : String) (value : AttributeValue), ∃ key registered,
      (Operation.register value).run b = (.ok (some key), registered) ∧
        (Operation.assign path value).run b = (Operation.raw (path ++ " = " ++ key)).run registered ∧
        (Operation.assignIfAbsent path value).run b =
          (Operation.raw (path ++ " = if_not_exists(" ++ path ++ ", " ++ key ++ ")")).run registered) ∧
    ∀ r : IncrementRequest, ((Operation.increment r).run b).1.isOk = true →
      ∃ base amount registered,
        Operation.runAll [.addNames r.names.entries, .register r.base, .register r.amount] b =
          ([.ok none, .ok (some base), .ok (some amount)], registered) ∧
        (Operation.increment r).run b =
          (Operation.raw (r.path ++ " = if_not_exists(" ++ r.path ++ ", " ++ base ++ ") + " ++ amount)).run
            registered := by
  refine ⟨fun r h => ?_, fun path value => ?_, fun r h => ?_⟩
  · obtain ⟨action, asked, run⟩ := run_set_of_isOk h
    obtain ⟨direct, same, pushes⟩ := SetRequest.exists_direct asked
    refine ⟨direct, same, ?_⟩
    have named : (Operation.addNames r.names.entries).run b = (.ok none, b.addNames r.names.entries) := rfl
    simp only [Operation.runAll, named, pushes, run]
  · refine ⟨(b.register value).1, (b.register value).2, rfl, ?_, ?_⟩
    · exact congrArg (Prod.mk _) (pushAction_assign b path value false)
    · exact congrArg (Prod.mk _) (pushAction_assign b path value true)
  · refine ⟨b.upcoming 0, b.upcoming 1, _, rfl, ?_⟩
    rw [Operation.run_of_isOk h, contribute_increment]
    rfl

/-- A request with an end of a list and a condition is an append, on a validating builder that already
has a token and the empty list; and a counter whose base and amount are the defaults. -/
theorem requests_are_direct_append :
    let b := (Operation.runAll [.append "l" [] .back] (.new ⟨true⟩)).2
    let request : SetRequest :=
      { path := some "#t", names := .ofPairs [("t", "tags")], value := some (.string "x"), append := some .front,
        onlyIfAbsent := true }
    let counter : IncrementRequest := { path := "n" }
    ((Operation.set request).run b).1.isOk = true ∧
      Operation.runAll [.addNames [("t", "tags")], .append "#t" [.string "x"] .front] b =
        ([.ok none, .ok none], ((Operation.set request).run b).2) ∧
      ((Operation.increment counter).run b).1.isOk = true ∧
      ((Operation.increment counter).run b).2.clauses.set =
        ["l = list_append(if_not_exists(l, :zz_empty_list), :A)", "n = if_not_exists(n, :B) + :C"] := by
  intro b request counter
  obtain ⟨sets, -, increments⟩ := requests_are_direct b
  have accepted : ((Operation.set request).run b).1.isOk = true := by decide
  have counted : ((Operation.increment counter).run b).1.isOk = true := by decide
  obtain ⟨direct, same, reached⟩ := sets request accepted
  cases same
  obtain ⟨base, amount, registered, keys, raw⟩ := increments counter counted
  refine ⟨accepted, reached, counted, ?_⟩
  rw [raw]
  cases keys
  decide

end Builder

end UpdateExpr
