/-
The clauses of a run in closed form. The clauses of a section are those that the operations of the
run bring for it, in order, each written with the numerals that follow the number of values that came
before the operation, whichever section they were for. Clauses are only ever added, at the end and in
the section of the operation.
-/
import UpdateExpr.Proofs.Builder.Run

namespace UpdateExpr

open Token

namespace Contribution

/-- The clause that a contribution brings for a section, if it brings one, written with some keys. -/
def clauseIn (c : Contribution) (s : Section) (key : Nat → String) : List String :=
  match c.clause? with
  | some (t, form) => if t = s then [form.text key] else []
  | none => []

end Contribution

namespace Ledger

/-! ## Clauses of a ledger -/

/-- How many values come with some contributions. -/
def allocated (cs : List Contribution) : Nat :=
  (cs.flatMap (·.values)).length

/-- The clauses that some contributions bring for a section, `start` values being there before: the
keys of each contribution are the numerals after the values of those in front of it. -/
def clausesFrom (start : Nat) (cs : List Contribution) (s : Section) : List String :=
  (cs.mapIdx fun i c =>
    c.clauseIn s fun k => ":" ++ numeral (start + allocated (cs.take i) + k + 1)).flatten

theorem clausesFrom_cons (start : Nat) (c : Contribution) (rest : List Contribution) (s : Section) :
    clausesFrom start (c :: rest) s =
      (c.clauseIn s fun k => ":" ++ numeral (start + k + 1)) ++
        clausesFrom (start + c.values.length) rest s := by
  have shift : ∀ i, start + allocated ((c :: rest).take (i + 1)) =
      start + c.values.length + allocated (rest.take i) := by
    intro i
    unfold allocated
    rw [List.take_succ_cons, List.flatMap_cons, List.length_append, Nat.add_assoc]
  unfold clausesFrom
  rw [List.mapIdx_cons, List.flatten_cons]
  simp only [shift]
  rfl

theorem get_add (l : Ledger) (c : Contribution) (s : Section) :
    (l.add c).clauses.get s = l.clauses.get s ++ c.clauseIn s l.key := by
  unfold add Contribution.clauseIn
  cases c.clause? with
  | none => exact (List.append_nil _).symm
  | some clause => exact Clauses.get_push l.clauses clause.1 s _

/-- Every contribution is written behind those before it. -/
theorem get_addAll (l : Ledger) (cs : List Contribution) (s : Section) :
    (l.addAll cs).clauses.get s = l.clauses.get s ++ clausesFrom l.values.length cs s := by
  induction cs generalizing l with
  | nil => exact (List.append_nil _).symm
  | cons c rest ih =>
    have run : l.addAll (c :: rest) = (l.add c).addAll rest := rfl
    have values : (l.add c).values.length = l.values.length + c.values.length := List.length_append
    rw [run, ih, get_add, values, clausesFrom_cons, List.append_assoc]
    rfl

end Ledger

/-! ## Clauses of a builder -/

namespace Builder

theorem get_pushClause (b : Builder) (c : Contribution) (s : Section) (key : Nat → String) :
    (b.pushClause key c.clause?).clauses.get s = b.clauses.get s ++ c.clauseIn s key := by
  unfold Contribution.clauseIn
  cases c.clause? with
  | none => exact (List.append_nil _).symm
  | some clause => exact Clauses.get_push b.clauses clause.1 s _

theorem get_contribute (b : Builder) (c : Contribution) (s : Section) :
    (b.contribute c).clauses.get s = b.clauses.get s ++ c.clauseIn s b.upcoming := by
  obtain ⟨d, -, clauses, -, whole⟩ := b.exists_pushClause c
  rw [whole, get_pushClause, clauses]

/-- One operation adds at most its own clause, and that in its own section. -/
theorem get_run (b : Builder) (op : Operation) (s : Section) :
    (op.run b).2.clauses.get s =
      b.clauses.get s ++ if (op.run b).1.isOk then op.contribution.clauseIn s b.upcoming else [] := by
  rw [Operation.run_eq]
  cases op.refusal? b.config with
  | some cause => exact (List.append_nil _).symm
  | none => exact b.get_contribute op.contribution s

theorem get_prefix_runAll (b : Builder) (ops : List Operation) (s : Section) :
    b.clauses.get s <+: (Operation.runAll ops b).2.clauses.get s := by
  induction ops generalizing b with
  | nil => exact List.prefix_refl _
  | cons op ops ih =>
    have first : b.clauses.get s <+: (op.run b).2.clauses.get s := by
      rw [get_run]
      exact List.prefix_append _ _
    exact first.trans (ih (op.run b).2)

/-- In the state that any run reaches from a fresh builder, the clauses of a section are, in order,
those that the contributions of the run bring for it, with the keys of the numerals that follow the
number of values contributed before. Clauses that are there stay where they are whatever comes, and an
operation whose clause is for another section, or that has none, leaves the clauses of a section as
they are. -/
theorem clauses_runAll (config : Config) (ops : List Operation) :
    let b := (Operation.runAll ops (.new config)).2
    let done := Operation.contributions ops (.new config)
    let before (i : Nat) := ((done.take i).flatMap (·.values)).length
    (∀ s, b.clauses.get s =
      (done.mapIdx fun i c => c.clauseIn s fun k => ":" ++ numeral (before i + k + 1)).flatten) ∧
    (∀ s more, b.clauses.get s <+: (Operation.runAll more b).2.clauses.get s) ∧
    ∀ s (op : Operation), (∀ form, op.contribution.clause? ≠ some (s, form)) →
      (op.run b).2.clauses.get s = b.clauses.get s := by
  intro b done before
  refine ⟨fun s => ?_, fun s more => b.get_prefix_runAll more s, fun s op other => ?_⟩
  · show (Operation.runAll ops (.new config)).2.clauses.get s = _
    rw [Ledger.runAll_new]
    refine (Ledger.get_addAll {} done s).trans ?_
    -- nothing is there before a run from a fresh builder
    unfold Ledger.clausesFrom
    simp only [List.length_nil, Nat.zero_add]
    cases s <;> rfl
  · have none : op.contribution.clauseIn s b.upcoming = [] := by
      unfold Contribution.clauseIn
      cases h : op.contribution.clause? with
      | none => rfl
      | some clause =>
        obtain ⟨t, form⟩ := clause
        have : t ≠ s := by
          rintro rfl
          exact other form h
        simp only [if_neg this]
    rw [get_run, none, ite_self, List.append_nil]

/-- Tokens run through the sections: an increment takes the second and the third, a request without a
value none, and a removal leaves the SET clauses alone. -/
theorem clauses_runAll_interleaved :
    let ops : List Operation :=
      [.add { path := "n", value := .number "1" }, .increment { path := "hits" }, .set { path := some "x" },
        .append "tags" [.string "a"] .front, .register (.bool true), .assignIfAbsent "y" (.null true)]
    let b := (Operation.runAll ops (.new {})).2
    let done := Operation.contributions ops (.new {})
    let before (i : Nat) := ((done.take i).flatMap (·.values)).length
    let removal : Operation := .remove { path := "old" }
    (done.mapIdx fun i c => c.clauseIn .set fun k => ":" ++ numeral (before i + k + 1)).flatten =
      ["hits = if_not_exists(hits, :B) + :C", "tags = list_append(:D, if_not_exists(tags, :zz_empty_list))",
        "y = if_not_exists(y, :F)"] ∧
    (∀ form, removal.contribution.clause? ≠ some (.set, form)) ∧
    (removal.run b).2.clauses.get .set = b.clauses.get .set := by
  intro ops b done before removal
  obtain ⟨lists, -, frame⟩ := clauses_runAll {} ops
  have elsewhere : ∀ form, removal.contribution.clause? ≠ some (.set, form) := by
    intro form h
    cases h
  have reached : b.clauses.get .set =
      ["hits = if_not_exists(hits, :B) + :C", "tags = list_append(:D, if_not_exists(tags, :zz_empty_list))",
        "y = if_not_exists(y, :F)"] := by
    decide
  exact ⟨(lists .set).symm.trans reached, elsewhere, frame .set removal elsewhere⟩

end Builder

end UpdateExpr
