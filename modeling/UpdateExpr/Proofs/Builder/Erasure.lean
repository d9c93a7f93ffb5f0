/-
Refused operations leave no trace. One that is refused leaves the builder as it was, so a run without
its refused operations gives the same results for all the others and ends in the same builder. In a
session the same holds of every step that is rejected, because its input does not decode or because
its operation is refused: the session goes on as if the step had not been there.

Both are one fact about runs of steps that may fail: if a step that fails changes nothing, then
leaving out the steps that fail changes nothing but the list of results.
-/
import UpdateExpr.Proofs.Builder.Run
import UpdateExpr.Session

namespace UpdateExpr

/-! ## Runs of steps that may fail -/

namespace Erasure

variable {ι ρ σ : Type} (step : ι → σ → ρ × σ) (fails : ρ → Bool)

/-- Takes steps one after the other. -/
def run : List ι → σ → List ρ × σ
  | [], s => ([], s)
  | x :: xs, s => ((step x s).1 :: (run xs (step x s).2).1, (run xs (step x s).2).2)

/-- The steps of a run that do not fail. -/
def kept : List ι → σ → List ι
  | [], _ => []
  | x :: xs, s => if fails (step x s).1 then kept xs (step x s).2 else x :: kept xs (step x s).2

/-- Steps that fail can be left out if they change nothing. -/
theorem run_kept (h : ∀ x s, fails (step x s).1 = true → (step x s).2 = s) (xs : List ι) (s : σ) :
    run step (kept step fails xs s) s =
      ((run step xs s).1.filter fun r => !fails r, (run step xs s).2) := by
  induction xs generalizing s with
  | nil => rfl
  | cons x xs ih =>
    unfold kept
    by_cases hx : fails (step x s).1 = true
    · -- the step is left out, and what follows it starts from where it started
      have unchanged := h x s hx
      rw [if_pos hx, unchanged, ih s]
      simp only [run, unchanged, List.filter_cons, hx, Bool.not_true, Bool.false_eq_true, if_false]
    · rw [if_neg hx]
      rw [Bool.not_eq_true] at hx
      simp only [run, ih, List.filter_cons, hx, Bool.not_false, if_true]

end Erasure

/-! ## Operations -/

namespace Operation

/-- A refused operation leaves the whole builder as it was. -/
theorem run_of_refused {op : Operation} {b : Builder} {cause : BuilderError}
    (h : (op.run b).1 = .error cause) : op.run b = (.error cause, b) := by
  rw [run_eq] at h ⊢
  cases hr : op.refusal? b.config with
  | none =>
    rw [hr] at h
    cases h
  | some c =>
    rw [hr] at h
    cases h
    rfl

theorem runAll_eq_run (ops : List Operation) (b : Builder) : runAll ops b = Erasure.run run ops b := by
  induction ops generalizing b with
  | nil => rfl
  | cons op ops ih =>
    simp only [runAll, Erasure.run, ih]

theorem accepted_eq_kept (ops : List Operation) (b : Builder) :
    accepted ops b = Erasure.kept run (fun r => !r.isOk) ops b := by
  induction ops generalizing b with
  | nil => rfl
  | cons op ops ih =>
    unfold accepted Erasure.kept
    rcases op.run b with ⟨_ | _, b'⟩ <;> simp only [ih] <;> rfl

/-- The run of the accepted operations alone. -/
theorem runAll_accepted (ops : List Operation) (b : Builder) :
    runAll (accepted ops b) b = ((runAll ops b).1.filter (·.isOk), (runAll ops b).2) := by
  rw [accepted_eq_kept, runAll_eq_run, runAll_eq_run, Erasure.run_kept]
  · simp only [Bool.not_not]
  · intro op b h
    cases hr : (op.run b).1 with
    | ok a =>
      rw [hr] at h
      cases h
    | error cause => rw [run_of_refused hr]

end Operation

/-! ## Steps of a session -/

namespace Builder

theorem config_contribute (b : Builder) (c : Contribution) : (b.contribute c).config = b.config := by
  obtain ⟨d, config, -, -, whole⟩ := b.exists_pushClause c
  rw [whole]
  cases c.clause? <;> exact config

end Builder

/-- Whether a reply says that the input of a step did not decode or that its operation was refused. -/
def Reply.isRejection : Reply → Bool
  | .failed (.decode _) | .failed (.refused _) => true
  | _ => false

namespace Step

/-- Whether a step is rejected by builders with a configuration. -/
def rejected (config : Config) : Step → Bool
  | .operate (.ok op) => (op.refusal? config).isSome
  | .operate (.error _) => true
  | .repeated count step => count ≠ 0 && step.rejected config
  | _ => false

/-- The steps of a run that are not rejected. -/
def accepted : List Step → Session → List Step
  | [], _ => []
  | step :: steps, s =>
    let (reply, s) := step.run s
    if reply.isRejection then accepted steps s else step :: accepted steps s

end Step

namespace Session

theorem operate_eq (s : Session) (op : Operation) :
    s.operate op =
      match op.refusal? s.builder.config with
      | some cause => (.failed (.refused cause), s)
      | none =>
        (match op.answer s.builder with | some key => .key key | none => .done,
          { s with builder := s.builder.contribute op.contribution }) := by
  unfold operate
  rw [Operation.run_eq]
  cases op.refusal? s.builder.config with
  | some cause => rfl
  | none => cases op.answer s.builder <;> rfl

/-- Whatever the last run of a repeated step leaves behind is what is left behind. -/
theorem iterate_of_fixed {run : Session → Reply × Session} {s : Session} (h : (run s).2 = s) (count : Nat)
    (last : Reply) :
    iterate run count (last, s) = (if count = 0 then last else (run s).1, s) := by
  induction count generalizing last with
  | zero => rfl
  | succ count ih =>
    have step : run s = ((run s).1, s) := Prod.ext rfl h
    unfold iterate
    rw [step, ih]
    simp only [Nat.add_one_ne_zero, if_false, ite_self]

end Session

namespace Step

/-- A step that is not rejected is not rejected afterwards either: no step changes the configuration
under which the operation inside it was looked at. -/
theorem run_of_not_rejected : ∀ (step : Step) {s : Session}, step.rejected s.builder.config = false →
    (step.run s).1.isRejection = false ∧ step.rejected (step.run s).2.builder.config = false
  | .operate (.error _), _, h => nomatch h
  | .operate (.ok op), s, h => by
    have accepted : op.refusal? s.builder.config = none := Option.isSome_eq_false_iff.1 h |> Option.isNone_iff_eq_none.1
    unfold run rejected
    rw [Session.operate_eq, accepted]
    constructor
    · cases op.answer s.builder <;> rfl
    · rw [Builder.config_contribute, accepted]
      rfl
  | .repeated count step, s, h => by
    unfold run rejected
    cases count with
    | zero => exact ⟨rfl, rfl⟩
    | succ count =>
      have inner : step.rejected s.builder.config = false := by simpa [rejected] using h
      -- each round is one that is not rejected, and leaves a session in which the next is not
      have rounds : ∀ count last (s : Session), last.isRejection = false → step.rejected s.builder.config = false →
          (Session.iterate step.run count (last, s)).1.isRejection = false ∧
            step.rejected (Session.iterate step.run count (last, s)).2.builder.config = false := by
        intro count
        induction count with
        | zero => exact fun last s hl hs => ⟨hl, hs⟩
        | succ count ih =>
          intro last s _ hs
          obtain ⟨reply, left⟩ := run_of_not_rejected step hs
          exact ih (step.run s).1 (step.run s).2 reply left
      obtain ⟨reply, left⟩ := rounds (count + 1) .nothing s rfl inner
      exact ⟨reply, by rw [left, Bool.and_false]⟩
  | .params, _, _ | .statement, _, _ | .isEmpty, _, _ | .clauses _, _, _ | .config, _, _ | .save, _, _ =>
    ⟨rfl, rfl⟩
  | .restore, s, _ => by
    unfold run
    cases s.saved <;> exact ⟨rfl, rfl⟩

/-- A rejected step leaves the session as it was. -/
theorem run_of_rejected : ∀ (step : Step) {s : Session}, step.rejected s.builder.config = true →
    (step.run s).1.isRejection = true ∧ (step.run s).2 = s
  | .operate (.error _), _, _ => ⟨rfl, rfl⟩
  | .operate (.ok op), s, h => by
    obtain ⟨cause, refused⟩ := Option.isSome_iff_exists.1 h
    unfold run
    rw [Session.operate_eq, refused]
    exact ⟨rfl, rfl⟩
  | .repeated count step, s, h => by
    unfold rejected at h
    rw [Bool.and_eq_true] at h
    obtain ⟨reply, unchanged⟩ := run_of_rejected step h.2
    have some_round : count ≠ 0 := by simpa using h.1
    unfold run
    rw [Session.iterate_of_fixed unchanged, if_neg some_round]
    exact ⟨reply, rfl⟩
  | .params, _, h | .statement, _, h | .isEmpty, _, h | .clauses _, _, h | .config, _, h | .save, _, h
  | .restore, _, h => nomatch h

theorem run_of_isRejection {step : Step} {s : Session} (h : (step.run s).1.isRejection = true) :
    (step.run s).2 = s := by
  cases hr : step.rejected s.builder.config with
  | true => exact (step.run_of_rejected hr).2
  | false =>
    rw [(step.run_of_not_rejected hr).1] at h
    cases h

theorem runAll_eq_run (steps : List Step) (s : Session) : runAll steps s = Erasure.run run steps s := by
  induction steps generalizing s with
  | nil => rfl
  | cons step steps ih => simp only [runAll, Erasure.run, ih]

theorem accepted_eq_kept (steps : List Step) (s : Session) :
    accepted steps s = Erasure.kept run Reply.isRejection steps s := by
  induction steps generalizing s with
  | nil => rfl
  | cons step steps ih => simp only [accepted, Erasure.kept, ih]

end Step

namespace Builder

/-- An operation that is refused leaves the builder as it was, whichever builder it is. So a run of
the operations that are not refused, alone, gives the results that these have among the others, the
same builder and the same parameters; and so does a session without the steps whose input does not
decode or whose operation is refused, each of which leaves the session as it was. -/
theorem runAll_without_refused :
    (∀ (op : Operation) (b : Builder) (cause : BuilderError), (op.run b).1 = .error cause → (op.run b).2 = b) ∧
    (∀ (ops : List Operation) (b : Builder),
      let whole := Operation.runAll ops b
      let kept := Operation.runAll (Operation.accepted ops b) b
      kept.1 = whole.1.filter (·.isOk) ∧ kept.2 = whole.2 ∧ kept.2.params = whole.2.params) ∧
    (∀ (step : Step) (s : Session), (step.run s).1.isRejection = true → (step.run s).2 = s) ∧
    ∀ (steps : List Step) (s : Session),
      Step.runAll (Step.accepted steps s) s =
        ((Step.runAll steps s).1.filter fun reply => !reply.isRejection, (Step.runAll steps s).2) := by
  refine ⟨fun op b cause h => ?_, fun ops b => ?_, fun step s => Step.run_of_isRejection, fun steps s => ?_⟩
  · rw [Operation.run_of_refused h]
  · simp only [Operation.runAll_accepted, and_self]
  · rw [Step.accepted_eq_kept, Step.runAll_eq_run, Step.runAll_eq_run,
      Erasure.run_kept Step.run Reply.isRejection fun step s => Step.run_of_isRejection]

/-- A request without a value between two registrations, in a run and in a session whose second step
repeats an input that does not decode: the second value gets the second key. -/
theorem runAll_without_refused_missing :
    let request : Operation := .set { path := some "qty" }
    let ops : List Operation := [.register (.bool true), request, .register (.bool false)]
    let steps : List Step :=
      [.operate (.ok (.register (.bool true))), .repeated 2 (.operate (.error .notOneKey)), .operate (.ok request)]
    let run := Operation.runAll ops (.new {})
    (request.run run.2).1 = .error (.missing .set .value) ∧ (request.run run.2).2 = run.2 ∧
      (Operation.runAll (Operation.accepted ops (.new {})) (.new {})).1 = [.ok (some ":A"), .ok (some ":B")] ∧
      ((Step.repeated 2 (.operate (.error .notOneKey))).run (.new {})).1.isRejection = true ∧
      ((Step.repeated 2 (.operate (.error .notOneKey))).run (.new {})).2 = .new {} ∧
      (Step.runAll (Step.accepted steps (.new {})) (.new {})).1.length = 1 := by
  intro request ops steps run
  obtain ⟨unchanged, without, session, sessions⟩ := runAll_without_refused
  have refused : (request.run run.2).1 = .error (.missing .set .value) := by decide
  refine ⟨refused, unchanged _ _ _ refused, ?_, rfl, session _ _ rfl, ?_⟩
  · rw [(without ops (.new {})).1]
    decide
  · rw [sessions]
    rfl

end Builder

end UpdateExpr
