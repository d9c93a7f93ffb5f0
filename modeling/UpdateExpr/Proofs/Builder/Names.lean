/-
The alias table of a run. Every operation that is not refused writes the pairs that it declares, one
after the other, and a refused one writes none; so the table is that of all the pairs in a row, and an
alias stands for the name of its last pair. How the pairs are divided among operations leaves no trace,
and neither does the order of pairs with different aliases: not in the table, and not in the parameters
of runs that otherwise do the same.
-/
import Mathlib.Data.List.Induction
import UpdateExpr.Record.Encode
import UpdateExpr.Proofs.Builder.Erasure

namespace UpdateExpr

/-! ## The last pair of a key -/

namespace Table

variable {α : Type}

/-- Of the pairs with one key the last one counts. -/
theorem find?_ofPairs (pairs : List (String × α)) (key : String) :
    (ofPairs pairs).find? key = ((pairs.filter fun p => p.1 = key).getLast?).map (·.2) := by
  induction pairs using List.reverseRecOn with
  | nil => rfl
  | append_singleton pairs p ih =>
    rw [ofPairs_concat, find?_insert, List.filter_append, ih]
    by_cases h : key = p.1
    · rw [if_pos h, List.filter_cons_of_pos (by simpa using h.symm), List.filter_nil, List.getLast?_concat]
      rfl
    · rw [if_neg h, List.filter_cons_of_neg (by simpa using Ne.symm h), List.filter_nil, List.append_nil]

theorem find?_ofPairs_eq_some_iff {pairs : List (String × α)} {key : String} {value : α} :
    (ofPairs pairs).find? key = some value ↔
      ∃ before after, pairs = before ++ (key, value) :: after ∧ key ∉ after.map (·.1) := by
  -- the last one of some pairs is the first one of the pairs in reverse
  simp only [find?_ofPairs, Option.map_eq_some_iff, List.getLast?_filter, List.find?_eq_some_iff_append,
    decide_eq_true_eq, Bool.not_eq_true', decide_eq_false_iff_not]
  constructor
  · rintro ⟨_, ⟨rfl, after, before, split, last⟩, rfl⟩
    refine ⟨before.reverse, after.reverse, ?_, ?_⟩
    · rw [← List.reverse_reverse pairs, split, List.reverse_append, List.reverse_cons, List.append_assoc]
      rfl
    · rw [List.map_reverse, List.mem_reverse, List.mem_map]
      rintro ⟨p, hp, same⟩
      exact last p hp same
  · rintro ⟨before, after, rfl, last⟩
    refine ⟨(key, value), ⟨rfl, after.reverse, before.reverse, ?_, fun p hp same => last ?_⟩, rfl⟩
    · rw [List.reverse_append, List.reverse_cons, List.append_assoc]
      rfl
    · exact List.mem_map.2 ⟨p, List.mem_reverse.1 hp, same⟩

/-- Lists of pairs, one after the other, make the same table as their pairs in a row. -/
theorem foldl_insertAll {β : Type} (t : Table α) (pairs : β → List (String × α)) (l : List β) :
    l.foldl (fun t x => t.insertAll (pairs x)) t = t.insertAll (l.flatMap pairs) := by
  induction l generalizing t with
  | nil => rfl
  | cons x l ih => rw [List.foldl_cons, ih, List.flatMap_cons, insertAll_append]

/-- Tables depend on nothing but the order of the pairs with one key. -/
theorem ofPairs_eq_of_filter {pairs pairs' : List (String × α)}
    (h : ∀ key, pairs'.filter (fun p => p.1 = key) = pairs.filter fun p => p.1 = key) :
    ofPairs pairs' = ofPairs pairs :=
  ext_find? fun key => by rw [find?_ofPairs, find?_ofPairs, h]

end Table

/-! ## Declarations -/

namespace Operation

/-- The pairs of alias and name that an operation declares, in order. -/
def declared : Operation → List (String × String)
  | .set request => request.names.entries
  | .increment request => request.names.entries
  | .remove request => request.names.entries
  | .add request => request.names.entries
  | .delete request => request.names.entries
  | .addNames pairs => pairs
  | _ => []

/-- The pairs that the operations of a run declare, without those that are refused. -/
def declaredBy (ops : List Operation) (b : Builder) : List (String × String) :=
  (accepted ops b).flatMap declared

theorem names_contribution {op : Operation} {config : Config} (h : op.refusal? config = none) :
    op.contribution.names = op.declared := by
  cases op with
  | set request =>
    obtain ⟨action, asked⟩ := exists_action_of_refusal?_eq_none h
    rw [contribution_set_ok asked]
    rfl
  | act action => cases action <;> rfl
  | _ => rfl

end Operation

namespace Builder

/-! ## Steps and runs -/

theorem names_contribute (b : Builder) (c : Contribution) : (b.contribute c).names = b.names.insertAll c.names := by
  obtain ⟨d, -, -, names, whole⟩ := b.exists_pushClause c
  rw [whole]
  cases c.clause? <;> exact names

/-- One operation writes what it declares, or nothing. -/
theorem names_run (op : Operation) (b : Builder) :
    (op.run b).2.names = if (op.run b).1.isOk then b.names.insertAll op.declared else b.names := by
  rw [Operation.run_eq]
  cases h : op.refusal? b.config with
  | some cause => rfl
  | none =>
    rw [← Operation.names_contribution h]
    exact b.names_contribute op.contribution

theorem names_runAll_from (ops : List Operation) (b : Builder) :
    (Operation.runAll ops b).2.names = b.names.insertAll (Operation.declaredBy ops b) := by
  rw [Operation.view_runAll (·.names) (fun names op => names.insertAll op.declared) names_run]
  exact b.names.foldl_insertAll Operation.declared _

end Builder

/-! ## Effects beside the aliases -/

namespace Contribution

/-- A contribution without its aliases. -/
def effect (c : Contribution) : Contribution :=
  { c with names := [] }

end Contribution

/-- What the operations of a run do beside declaring aliases, without those that do nothing else. -/
def Operation.effects (ops : List Operation) (b : Builder) : List Contribution :=
  ((contributions ops b).map Contribution.effect).filter (· ≠ {})

namespace Ledger

/-- A ledger without its aliases. -/
def nameless (l : Ledger) : Ledger :=
  { l with names := [] }

theorem nameless_add (l : Ledger) (c : Contribution) : (l.add c).nameless = l.nameless.add c.effect := rfl

theorem add_empty (l : Ledger) : l.add {} = l := by
  unfold add
  rw [List.append_nil, List.append_nil]
  exact congrArg _ (Bool.or_false _)

/-- Beside the aliases a ledger shows the effects. -/
theorem nameless_addAll (l : Ledger) (cs : List Contribution) :
    (l.addAll cs).nameless = l.nameless.addAll ((cs.map Contribution.effect).filter (· ≠ {})) := by
  induction cs generalizing l with
  | nil => rfl
  | cons c rest ih =>
    have run : l.addAll (c :: rest) = (l.add c).addAll rest := rfl
    rw [run, ih, nameless_add, List.map_cons]
    by_cases h : c.effect = {}
    · rw [h, add_empty, List.filter_cons_of_neg]
      simp
    · rw [List.filter_cons_of_pos (by simpa using h)]
      rfl

/-- Ledgers that agree beside the aliases show builders that do. -/
theorem builder_eq_of_nameless {config config' : Config} {l l' : Ledger} (h : l'.nameless = l.nameless)
    (names : (l'.builder config').names = (l.builder config).names) :
    l'.builder config' = { l.builder config with config := config' } := by
  have clauses : l'.nameless.clauses = l.nameless.clauses := congrArg Ledger.clauses h
  have values : l'.nameless.values = l.nameless.values := congrArg Ledger.values h
  have appended : l'.nameless.appended = l.nameless.appended := congrArg Ledger.appended h
  exact builder_eq clauses names values appended

end Ledger

namespace Builder

/-- After any run from a fresh builder the alias table is that of the pairs that the operations declare
which are not refused, in a row: an alias is there if it occurs among them, and stands for the name of
its last pair, and a refused operation leaves the table alone. Runs for which the pairs of each alias
come in the same order have the same table, however the pairs are divided among the operations and
whatever the order of different aliases is; and if they do the same beside declaring aliases, they
reach the same builder, and their parameters have the same text. -/
theorem names_runAll (config : Config) (ops : List Operation) :
    let b := (Operation.runAll ops (.new config)).2
    let pairs := Operation.declaredBy ops (.new config)
    b.names = .ofPairs pairs ∧
    (∀ key name, b.names.find? key = some name ↔
      ∃ before after, pairs = before ++ (key, name) :: after ∧ key ∉ after.map (·.1)) ∧
    (∀ key, (b.names.find? key).isSome = true ↔ key ∈ pairs.map (·.1)) ∧
    (∀ (op : Operation) (cause : BuilderError), (op.run b).1 = .error cause → (op.run b).2.names = b.names) ∧
    ∀ config' ops',
      let b' := (Operation.runAll ops' (.new config')).2
      let pairs' := Operation.declaredBy ops' (.new config')
      (∀ key, pairs'.filter (fun p => p.1 = key) = pairs.filter fun p => p.1 = key) →
        b'.names = b.names ∧
        (Operation.effects ops' (.new config') = Operation.effects ops (.new config) →
          b' = { b with config := config' } ∧ Record.wire b'.params = Record.wire b.params) := by
  intro b pairs
  have table : b.names = .ofPairs pairs := names_runAll_from ops (.new config)
  refine ⟨table, fun key name => ?_, fun key => ?_, fun op cause refused => ?_, ?_⟩
  · rw [table]
    exact Table.find?_ofPairs_eq_some_iff
  · rw [table]
    exact (Table.isSome_find?_insertAll _ pairs key).trans (or_iff_left Bool.false_ne_true)
  · rw [Operation.run_of_refused refused]
  · intro config' ops' b' pairs' same
    have table' : b'.names = .ofPairs pairs' := names_runAll_from ops' (.new config')
    have names : b'.names = b.names := by
      rw [table, table']
      exact Table.ofPairs_eq_of_filter same
    refine ⟨names, fun effects => ?_⟩
    have reached : b' = { b with config := config' } := by
      unfold b b' at *
      rw [Ledger.runAll_new, Ledger.runAll_new] at *
      refine Ledger.builder_eq_of_nameless ?_ names
      rw [Ledger.nameless_addAll, Ledger.nameless_addAll]
      exact congrArg _ effects
    refine ⟨reached, ?_⟩
    rw [reached]
    rfl

/-- An alias that a removal declares again, among the aliases of a refused request; and the same aliases
one by one and in another order. -/
theorem names_runAll_redeclared :
    let removal : Operation := .remove { path := "#a", names := .ofPairs [("a", "z")] }
    let refused : Operation := .set { path := some "q", names := .ofPairs [("c", "w")] }
    let ops : List Operation := [.addNames [("a", "x"), ("b", "y")], refused, removal]
    let ops' : List Operation := [.addNames [("b", "y")], .addNames [("a", "x")], removal]
    let b := (Operation.runAll ops (.new {})).2
    let b' := (Operation.runAll ops' (.new ⟨true⟩)).2
    let pairs := Operation.declaredBy ops (.new {})
    let pairs' := Operation.declaredBy ops' (.new ⟨true⟩)
    b.names.find? "a" = some "z" ∧ (b.names.find? "c").isSome = false ∧
      (refused.run b).1 = .error (.missing .set .value) ∧ (refused.run b).2.names = b.names ∧
      (∀ key, pairs'.filter (fun p => p.1 = key) = pairs.filter fun p => p.1 = key) ∧
      Operation.effects ops' (.new ⟨true⟩) = Operation.effects ops (.new {}) ∧
      b' = { b with config := ⟨true⟩ } ∧ Record.wire b'.params = Record.wire b.params := by
  intro removal refused ops ops' b b' pairs pairs'
  obtain ⟨-, last, present, frame, others⟩ := names_runAll {} ops
  have declared : pairs = [("a", "x"), ("b", "y"), ("a", "z")] := by decide
  have declared' : pairs' = [("b", "y"), ("a", "x"), ("a", "z")] := by decide
  have same : ∀ key, pairs'.filter (fun p => p.1 = key) = pairs.filter fun p => p.1 = key := by
    intro key
    rw [declared, declared']
    by_cases a : "a" = key
    · subst a
      rfl
    · simp [List.filter_cons, a]
  have cause : (refused.run b).1 = .error (.missing .set .value) := by decide
  have effects : Operation.effects ops' (.new ⟨true⟩) = Operation.effects ops (.new {}) := by decide
  obtain ⟨-, reached⟩ := others ⟨true⟩ ops' same
  refine ⟨(last "a" "z").2 ⟨[("a", "x"), ("b", "y")], [], declared, List.not_mem_nil⟩, ?_, cause,
    frame refused _ cause, same, effects, reached effects⟩
  rw [Bool.eq_false_iff, ne_eq, present, show Operation.declaredBy ops (.new {}) = _ from declared]
  decide

end Builder

end UpdateExpr
