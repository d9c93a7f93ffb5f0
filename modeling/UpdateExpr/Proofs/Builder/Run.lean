/-
Runs of operations. From the builder of a ledger a run reaches the builder of the ledger to which
the operations that were not refused have contributed, one after the other; in particular what a run
from a fresh builder reaches is determined by the list of these operations.
-/
import UpdateExpr.Proofs.Builder.Ledger

namespace UpdateExpr

namespace Operation

/-! ## Operations that are not refused -/

/-- The operations of a run that are not refused. -/
def accepted : List Operation → Builder → List Operation
  | [], _ => []
  | op :: ops, b =>
    match op.run b with
    | (.ok _, b) => op :: accepted ops b
    | (.error _, b) => accepted ops b

/-- What the operations of a run contribute. -/
def contributions (ops : List Operation) (b : Builder) : List Contribution :=
  (accepted ops b).map contribution

theorem accepted_sublist : ∀ (ops : List Operation) (b : Builder), (accepted ops b).Sublist ops
  | [], _ => List.Sublist.refl _
  | op :: ops, b => by
    unfold accepted
    split
    · exact (accepted_sublist ops _).cons_cons op
    · exact (accepted_sublist ops _).cons op

/-- Let refused operations leave a view of the builder alone, and the others act on it by themselves. Then
it shows what those of a run do that are not refused, one after the other. -/
theorem view_runAll {σ : Type} (view : Builder → σ) (act : σ → Operation → σ)
    (step : ∀ op b, view (run op b).2 = if (run op b).1.isOk then act (view b) op else view b)
    (ops : List Operation) (b : Builder) : view (runAll ops b).2 = (accepted ops b).foldl act (view b) := by
  induction ops generalizing b with
  | nil => rfl
  | cons op ops ih =>
    have first := step op b
    unfold runAll accepted
    rcases hr : op.run b with ⟨cause | answer, b'⟩
    · rw [hr] at first
      have unchanged : view b' = view b := first
      simp only [ih, unchanged]
    · rw [hr] at first
      have acted : view b' = act (view b) op := first
      simp only [ih, acted, List.foldl_cons]

end Operation

namespace Ledger

/-! ## Runs of ledgers -/

section Totals

variable (l : Ledger) (cs : List Contribution)

/-- What every contribution adds at the end of a list of the ledger is in this list, in order. -/
theorem list_addAll {β : Type} (list : Ledger → List β) (part : Contribution → List β)
    (h : ∀ l c, list (l.add c) = list l ++ part c) : list (l.addAll cs) = list l ++ cs.flatMap part := by
  induction cs generalizing l with
  | nil => exact (List.append_nil _).symm
  | cons c rest ih =>
    have run : l.addAll (c :: rest) = (l.add c).addAll rest := rfl
    rw [run, ih, h, List.flatMap_cons, List.append_assoc]

theorem values_addAll : (l.addAll cs).values = l.values ++ cs.flatMap (·.values) :=
  list_addAll l cs (·.values) (·.values) fun _ _ => rfl

theorem names_addAll : (l.addAll cs).names = l.names ++ cs.flatMap (·.names) :=
  list_addAll l cs (·.names) (·.names) fun _ _ => rfl

theorem appended_addAll : (l.addAll cs).appended = (l.appended || cs.any (·.appends)) := by
  induction cs generalizing l with
  | nil => exact (Bool.or_false _).symm
  | cons c rest ih =>
    have := ih (l.add c)
    unfold addAll at *
    rw [List.foldl_cons, this, List.any_cons, ← Bool.or_assoc]
    rfl

end Totals

/-- One operation on the builder of a ledger. -/
theorem run_builder (config : Config) (l : Ledger) (op : Operation) :
    op.run (l.builder config) =
      match op.refusal? config with
      | some cause => (.error cause, l.builder config)
      | none => (.ok (op.answer (l.builder config)), (l.add op.contribution).builder config) := by
  rw [Operation.run_eq, contribute_builder]
  rfl

/-- A run from the builder of a ledger. -/
theorem runAll_builder (config : Config) (l : Ledger) (ops : List Operation) :
    (Operation.runAll ops (l.builder config)).2 =
      (l.addAll (Operation.contributions ops (l.builder config))).builder config := by
  induction ops generalizing l with
  | nil => rfl
  | cons op ops ih =>
    unfold Operation.runAll Operation.contributions Operation.accepted
    rw [run_builder]
    cases op.refusal? config with
    | some cause => exact ih l
    | none => exact ih (l.add op.contribution)

/-- The configuration alone decides which operations of a run are refused. -/
theorem refusal?_of_mem_accepted {config : Config} {ops : List Operation} {op : Operation} (l : Ledger)
    (h : op ∈ Operation.accepted ops (l.builder config)) : op.refusal? config = none := by
  induction ops generalizing l with
  | nil => cases h
  | cons first ops ih =>
    unfold Operation.accepted at h
    rw [run_builder] at h
    cases hr : first.refusal? config with
    | some cause =>
      rw [hr] at h
      exact ih l h
    | none =>
      rw [hr] at h
      rcases List.mem_cons.1 h with rfl | h
      · exact hr
      · exact ih (l.add first.contribution) h

/-- A run from a fresh builder. -/
theorem runAll_new (config : Config) (ops : List Operation) :
    (Operation.runAll ops (.new config)).2 =
      (({} : Ledger).addAll (Operation.contributions ops (.new config))).builder config := by
  have := runAll_builder config {} ops
  rw [builder_empty] at this
  exact this

end Ledger

end UpdateExpr
