/-
Validation of aliases only filters. A builder that validates names refuses what a builder that does
not refuses, for the same cause, and beyond that only operations with an alias that they do not
mention. What it does not refuse has the same effect on both: nothing that an operation adds depends
on the configuration. So the operations that a validating builder accepts, performed without
validation, are all accepted, give the same results and lead to the same builder.
-/
import UpdateExpr.Proofs.Builder.Erasure

namespace UpdateExpr

namespace Builder

/-- The builder with validation of names on or off, and everything else as it is. -/
def validating (b : Builder) (on : Bool) : Builder :=
  { b with config := ⟨on⟩ }

/-! ## Effects do not depend on the configuration -/

section Effect

variable (b : Builder) (on : Bool)

theorem addNames_validating (pairs : List (String × String)) :
    (b.validating on).addNames pairs = (b.addNames pairs).validating on := rfl

theorem registerEmptyList_validating :
    (b.validating on).registerEmptyList = b.registerEmptyList.validating on := by
  have same : (b.validating on).hasEmptyList = b.hasEmptyList := rfl
  unfold registerEmptyList
  rw [same]
  split <;> rfl

theorem registerAll_validating (values : List AttributeValue) :
    (b.validating on).registerAll values = (b.registerAll values).validating on := by
  induction values generalizing b with
  | nil => rfl
  | cons value rest ih => exact ih (b.register value).2

theorem pushClause_validating (key : Nat → String) (clause? : Option (Section × ClauseForm)) :
    (b.validating on).pushClause key clause? = (b.pushClause key clause?).validating on := by
  cases clause? <;> rfl

theorem contribute_validating (c : Contribution) :
    (b.validating on).contribute c = (b.contribute c).validating on := by
  have keys : (b.validating on).upcoming = b.upcoming := rfl
  unfold contribute
  rw [addNames_validating, keys]
  simp only
  split
  · rw [registerEmptyList_validating, registerAll_validating, pushClause_validating]
  · rw [registerAll_validating, pushClause_validating]

theorem params_validating : (b.validating on).params = b.params := rfl

end Effect

end Builder

/-! ## Refusals with and without validation -/

namespace Operation

/-- Validation refuses nothing that is refused without it for another cause, and beyond that only
what has an alias that is not mentioned. -/
theorem refusal?_validated (op : Operation) :
    op.refusal? ⟨true⟩ = op.refusal? ⟨false⟩ ∨
      op.refusal? ⟨false⟩ = none ∧ ∃ name key, op.refusal? ⟨true⟩ = some (.unmentioned name key) := by
  have checked : ∀ name subject names, unmentioned? ⟨true⟩ name subject names = none ∨
      ∃ key, unmentioned? ⟨true⟩ name subject names = some (.unmentioned name key) := by
    intro name subject names
    unfold unmentioned?
    rw [if_pos rfl]
    rcases Builder.unmentioned? subject names with _ | key
    · exact .inl rfl
    · exact .inr ⟨key, rfl⟩
  -- an operation that declares aliases is refused for them, and without validation not at all
  have declaring : ∀ name subject names, op.refusal? ⟨true⟩ = unmentioned? ⟨true⟩ name subject names →
      op.refusal? ⟨false⟩ = none → op.refusal? ⟨true⟩ = op.refusal? ⟨false⟩ ∨
        op.refusal? ⟨false⟩ = none ∧ ∃ name key, op.refusal? ⟨true⟩ = some (.unmentioned name key) := by
    intro name subject names hon hoff
    rcases checked name subject names with h | ⟨key, h⟩
    · exact .inl (by rw [hon, h, hoff])
    · exact .inr ⟨hoff, name, key, hon.trans h⟩
  cases op with
  | set request =>
    rcases h : SetAction.ofRequest request with cause | action
    · exact .inl (by simp only [refusal?, h])
    · refine declaring .set action.subject request.names ?_ ?_ <;> simp only [refusal?, h]
      rfl
  | increment request => exact declaring _ _ _ rfl rfl
  | remove request => exact declaring _ _ _ rfl rfl
  | add request => exact declaring _ _ _ rfl rfl
  | delete request => exact declaring _ _ _ rfl rfl
  | _ => exact .inl rfl

theorem refusal?_unvalidated {op : Operation} (h : op.refusal? ⟨true⟩ = none) : op.refusal? ⟨false⟩ = none := by
  rcases op.refusal?_validated with same | ⟨none, -⟩
  · rw [← same, h]
  · exact none

theorem run_error_iff {op : Operation} {b : Builder} {cause : BuilderError} :
    (op.run b).1 = .error cause ↔ op.refusal? b.config = some cause := by
  rw [run_eq]
  cases op.refusal? b.config with
  | none =>
    constructor
    · intro h
      cases h
    · intro h
      cases h
  | some c =>
    rw [Except.error.injEq, Option.some.injEq]

/-- What a validating builder accepts does the same without validation. -/
theorem run_unvalidated {op : Operation} (b : Builder) (h : op.refusal? ⟨true⟩ = none) :
    op.run (b.validating false) =
      ((op.run (b.validating true)).1, (op.run (b.validating true)).2.validating false) := by
  have on : (b.validating true).config = ⟨true⟩ := rfl
  have off : (b.validating false).config = ⟨false⟩ := rfl
  rw [run_eq, run_eq, on, off, h, refusal?_unvalidated h]
  simp only [Builder.contribute_validating]
  rfl

/-- The accepted operations of a validating builder, performed without validation. -/
theorem runAll_accepted_unvalidated (ops : List Operation) (b : Builder) :
    runAll (accepted ops (b.validating true)) (b.validating false) =
      ((runAll ops (b.validating true)).1.filter (·.isOk), (runAll ops (b.validating true)).2.validating false) := by
  induction ops generalizing b with
  | nil => rfl
  | cons op ops ih =>
    have on : (b.validating true).config = ⟨true⟩ := rfl
    have run := op.run_eq (b.validating true)
    rw [on] at run
    cases h : op.refusal? ⟨true⟩ with
    | some cause =>
      -- left out here, and no trace of it there
      rw [h] at run
      simp only [accepted, runAll, run]
      exact ih b
    | none =>
      have free := run_unvalidated b h
      rw [h, Builder.contribute_validating] at run
      rw [run] at free
      simp only [accepted, runAll, run, free]
      have later := ih (b.contribute op.contribution)
      have again : ∀ c : Builder, (c.validating true).validating false = c.validating false := fun _ => rfl
      rw [again, later]
      rfl

end Operation

namespace Builder

/-- Validation is a filter. The operations that a run with validation accepts are all accepted by a run
without it, with the same results; the builder reached is the same but for the configuration, and so
are the parameters. One operation that is refused without validation is refused with it for the same
cause, and one that is refused with validation alone is refused for an alias that it does not mention. -/
theorem validation_filters :
    (∀ (ops : List Operation) (b : Builder),
      let checked := Operation.runAll ops (b.validating true)
      let free := Operation.runAll (Operation.accepted ops (b.validating true)) (b.validating false)
      (∀ result ∈ free.1, result.isOk = true) ∧ free.1 = checked.1.filter (·.isOk) ∧
        free.2 = checked.2.validating false ∧ free.2.params = checked.2.params) ∧
    (∀ (op : Operation) (b : Builder) (cause : BuilderError),
      (op.run (b.validating false)).1 = .error cause → (op.run (b.validating true)).1 = .error cause) ∧
    ∀ (op : Operation) (b : Builder) (cause : BuilderError),
      (op.run (b.validating true)).1 = .error cause → (op.run (b.validating false)).1.isOk = true →
        ∃ name key, cause = .unmentioned name key := by
  refine ⟨fun ops b => ?_, fun op b cause h => ?_, fun op b cause h accepted => ?_⟩
  · simp only [Operation.runAll_accepted_unvalidated, params_validating, and_true]
    intro result hr
    exact (List.mem_filter.1 hr).2
  · have off : op.refusal? ⟨false⟩ = some cause := Operation.run_error_iff.1 h
    refine Operation.run_error_iff.2 ?_
    show op.refusal? ⟨true⟩ = some cause
    rcases op.refusal?_validated with same | ⟨none, -⟩
    · rw [same, off]
    · rw [off] at none
      cases none
  · have on : op.refusal? ⟨true⟩ = some cause := Operation.run_error_iff.1 h
    rcases op.refusal?_validated with same | ⟨-, name, key, refused⟩
    · have off : (op.run (b.validating false)).1 = .error cause := Operation.run_error_iff.2 (same.symm.trans on)
      rw [off] at accepted
      cases accepted
    · rw [on, Option.some.injEq] at refused
      exact ⟨name, key, refused⟩

/-- A request without a value, which is refused either way although its alias is not mentioned, an
alias that only validation refuses, and a value that gets the first key in both runs. -/
theorem validation_filters_stale :
    let b := Builder.new {}
    let incomplete : Operation := .set { path := some "qty", names := .ofPairs [("p", "profile")] }
    let stale : Operation := .add { path := "hits", names := .ofPairs [("h", "hits")], value := .number "1" }
    let ops : List Operation := [incomplete, stale, .register (.bool true), .remove { path := "old" }]
    (incomplete.run (b.validating true)).1 = .error (.missing .set .value) ∧
      (stale.run (b.validating true)).1 = .error (.unmentioned .add "h") ∧
      (∃ name key, BuilderError.unmentioned .add "h" = .unmentioned name key) ∧
      (Operation.runAll (Operation.accepted ops (b.validating true)) (b.validating false)).1 =
        [.ok (some ":A"), .ok none] := by
  intro b incomplete stale ops
  obtain ⟨runs, kept, only⟩ := validation_filters
  have refused : (stale.run (b.validating true)).1 = .error (.unmentioned .add "h") := by decide
  refine ⟨kept incomplete b _ (by decide), refused, only stale b _ refused (by decide), ?_⟩
  rw [(runs ops b).2.1]
  decide

end Builder

end UpdateExpr
