/-
What a finished builder gives. Whether there is anything to update is told in several places: by the
clauses, by the statement, by the parameters and by their text, which is that of an empty object. All
of them agree, on every builder; and after a run they say whether an operation that adds a clause was
not refused, whatever aliases and values are registered. If there is something to update, the parameters
have the statement and the tables that are not empty, so no table in them is.
-/
import Mathlib.Tactic.TFAE
import UpdateExpr.Proofs.Builder.ClauseLists
import UpdateExpr.Proofs.Record.RoundTrip
import UpdateExpr.Proofs.Statement.Splitting

namespace UpdateExpr

open Record

/-! ## Parameters without members -/

/-- Only an empty object has the shortest text. -/
theorem Json.compact_obj_eq_iff {members : List (String × Json)} :
    (Json.obj members).compact = "\x7b\x7d" ↔ members = [] := by
  have braces : ("\x7b\x7d" : String) = String.ofList ['\x7b', '\x7d'] := rfl
  unfold compact
  rw [braces, String.ofList_inj]
  cases members with
  | nil => exact iff_of_true rfl rfl
  | cons member rest =>
    refine iff_of_false (fun h => ?_) (List.cons_ne_nil _ _)
    -- a member starts with a quote
    have quote : '"' = '\x7d' := (List.cons.inj (List.cons.inj h).2).1
    exact absurd quote (by decide)

namespace UpdateParams

variable {p : UpdateParams}

theorem members_eq_nil_iff : members p = [] ↔ p = {} := by
  constructor
  · intro h
    obtain ⟨expression, names, values⟩ := p
    cases expression with
    | some text => cases h
    | none =>
      cases names with
      | some t => cases h
      | none =>
        cases values with
        | some t => cases h
        | none => rfl
  · rintro rfl
    rfl

theorem wire_eq_iff : wire p = "\x7b\x7d" ↔ p = {} := by
  unfold wire
  rw [Json.compact_obj_eq_iff, members_eq_nil_iff]

theorem toJson_eq_iff : toJson p = .obj [] ↔ p = {} := by
  unfold toJson
  rw [Json.obj.injEq, ← members_eq_nil_iff]
  refine ⟨fun h => ?_, fun h => ?_⟩
  · have perm := members_perm p
    rw [h] at perm
    exact perm.eq_nil
  · rw [h]
    rfl

end UpdateParams

/-! ## Tables that are not empty -/

namespace Table

variable {α : Type} {t : Table α}

theorem isEmpty_iff : t.isEmpty = true ↔ t = empty :=
  ⟨eq_empty_of_isEmpty, fun h => h ▸ rfl⟩

theorem nonEmpty?_eq [DecidableEq α] (t : Table α) : t.nonEmpty? = if t = empty then none else some t := by
  unfold nonEmpty?
  by_cases h : t = empty
  · rw [if_pos h, if_pos (isEmpty_iff.2 h)]
  · rw [if_neg h, if_neg (mt isEmpty_iff.1 h)]

theorem nonEmpty?_ne_some_empty (t : Table α) : t.nonEmpty? ≠ some empty := by
  unfold nonEmpty?
  split
  · exact nofun
  · rename_i h
    exact fun same => h (isEmpty_iff.2 (Option.some.inj same))

end Table

/-! ## Statements section by section -/

namespace Clauses

/-- The keywords of the sections that have clauses, in the order of a statement, with these clauses. -/
def written (c : Clauses) : List (String × List String) :=
  [("SET", c.set), ("REMOVE", c.remove), ("ADD", c.add), ("DELETE", c.delete)].filter fun p => !p.2.isEmpty

theorem written_eq (c : Clauses) : c.written = c.present.map fun s => (s.keyword, c.get s) := by
  have listed : c.written = (Section.all.map fun s => (s.keyword, c.get s)).filter fun p => !p.2.isEmpty := rfl
  rw [listed, List.filter_map]
  rfl

theorem statement?_eq_written {c : Clauses} (h : c.statement? ≠ none) :
    c.statement? = some (" ".intercalate (c.written.map fun p => p.1 ++ " " ++ ", ".intercalate p.2)) := by
  rw [statement?_eq] at h ⊢
  split at h
  · exact absurd rfl h
  · rename_i some_present
    rw [if_neg some_present, written_eq, List.map_map]
    rfl

end Clauses

/-! ## Builders without clauses -/

namespace Builder

variable {b : Builder}

theorem isEmpty_iff : b.isEmpty = true ↔ ∀ s, b.clauses.get s = [] := by
  unfold isEmpty Clauses.isEmpty
  simp only [List.all_eq_true, List.isEmpty_iff, Section.mem_all, true_imp_iff]

theorem statement?_eq_none_iff : b.statement? = none ↔ b.isEmpty = true :=
  Clauses.statement?_eq_none_iff.trans isEmpty_iff.symm

theorem params_of_statement? {text : String} (h : b.statement? = some text) :
    b.params = { expression := some text, names := b.names.nonEmpty?, values := b.values.nonEmpty? } := by
  unfold params
  rw [h]

theorem params_of_isEmpty (h : b.isEmpty = true) : b.params = {} := by
  unfold params
  rw [statement?_eq_none_iff.2 h]

theorem expression_params (b : Builder) : b.params.expression = b.statement? := by
  unfold params
  cases h : b.statement? <;> rfl

theorem tables_params_ne_some_empty (b : Builder) : b.params.names ≠ some .empty ∧ b.params.values ≠ some .empty := by
  unfold params
  cases b.statement? with
  | none => exact ⟨nofun, nofun⟩
  | some text => exact ⟨b.names.nonEmpty?_ne_some_empty, b.values.nonEmpty?_ne_some_empty⟩

/-- Everything that tells whether there is something to update tells the same. -/
theorem isEmpty_tfae (b : Builder) :
    [b.isEmpty = true, b.statement? = none, b.params.isEmpty = true, b.params = {}, wire b.params = "\x7b\x7d",
      toJson b.params = .obj []].TFAE := by
  tfae_have 1 ↔ 2 := statement?_eq_none_iff.symm
  tfae_have 2 ↔ 3 := by
    unfold UpdateParams.isEmpty
    rw [expression_params, Option.isNone_iff_eq_none]
  tfae_have 1 → 4 := params_of_isEmpty
  tfae_have 4 → 3 := fun h => by rw [h]; rfl
  tfae_have 4 ↔ 5 := UpdateParams.wire_eq_iff.symm
  tfae_have 4 ↔ 6 := UpdateParams.toJson_eq_iff.symm
  tfae_finish

end Builder

/-! ## Steps and runs -/

/-- Whether an operation adds a clause unless it is refused. -/
def Operation.addsClause : Operation → Bool
  | .register _ | .addNames _ => false
  | _ => true

theorem Operation.isNone_clause? {op : Operation} {config : Config} (h : op.refusal? config = none) :
    op.contribution.clause?.isNone = !op.addsClause := by
  cases op with
  | set request =>
    obtain ⟨action, asked⟩ := exists_action_of_refusal?_eq_none h
    rw [contribution_set_ok asked]
    cases action <;> rfl
  | act action => cases action <;> rfl
  | _ => rfl

theorem Operation.foldl_addsClause (ops : List Operation) (empty : Bool) :
    ops.foldl (fun empty op => empty && !op.addsClause) empty = (empty && ops.all (!·.addsClause)) := by
  induction ops generalizing empty with
  | nil => exact (Bool.and_true empty).symm
  | cons op ops ih => rw [List.foldl_cons, List.all_cons, ih, Bool.and_assoc]

namespace Builder

theorem isEmpty_contribute (b : Builder) (c : Contribution) :
    (b.contribute c).isEmpty = (b.isEmpty && c.clause?.isNone) := by
  have own : c.clause?.isNone = true ↔ ∀ s, c.clauseIn s b.upcoming = [] := by
    unfold Contribution.clauseIn
    rcases c.clause? with _ | ⟨t, form⟩
    · exact iff_of_true rfl fun _ => rfl
    · refine iff_of_false Bool.false_ne_true fun h => ?_
      simpa using h t
  rw [Bool.eq_iff_iff, Bool.and_eq_true, own]
  simp only [isEmpty_iff, get_contribute, List.append_eq_nil_iff, forall_and]

/-- A builder stays without clauses as long as operations are refused or add none. -/
theorem isEmpty_run (op : Operation) (b : Builder) :
    (op.run b).2.isEmpty = if (op.run b).1.isOk then b.isEmpty && !op.addsClause else b.isEmpty := by
  rw [Operation.run_eq]
  cases h : op.refusal? b.config with
  | some cause => rfl
  | none =>
    rw [← Operation.isNone_clause? h]
    exact b.isEmpty_contribute op.contribution

theorem isEmpty_runAll (ops : List Operation) (b : Builder) :
    (Operation.runAll ops b).2.isEmpty = (b.isEmpty && (Operation.accepted ops b).all (!·.addsClause)) := by
  rw [Operation.view_runAll isEmpty (fun empty op => empty && !op.addsClause) isEmpty_run,
    Operation.foldl_addsClause]

/-- After any run from a fresh builder it is the same to say that every operation which was not refused
adds no clause, that the builder is empty, that there is no statement, that the parameters say so, that
they have the defaults, and that their text and their JSON value are those of an empty object. If some
operation added a clause, the statement has the sections with clauses in their order, and the
parameters have this statement and those alias tables that are not empty. So they never have a table
that is. -/
theorem params_runAll (config : Config) (ops : List Operation) :
    let done := Operation.accepted ops (.new config)
    let b := (Operation.runAll ops (.new config)).2
    [∀ op ∈ done, op.addsClause = false, b.isEmpty = true, b.statement? = none, b.params.isEmpty = true,
      b.params = {}, wire b.params = "\x7b\x7d", toJson b.params = .obj []].TFAE ∧
    ((∃ op ∈ done, op.addsClause = true) →
      ∃ text, text = " ".intercalate (b.clauses.written.map fun p => p.1 ++ " " ++ ", ".intercalate p.2) ∧
        b.statement? = some text ∧
        b.params = { expression := some text, names := if b.names = .empty then none else some b.names,
                     values := if b.values = .empty then none else some b.values }) ∧
    b.params.names ≠ some .empty ∧ b.params.values ≠ some .empty := by
  intro done b
  have fresh : (Builder.new config).isEmpty = true := rfl
  have told : (∀ op ∈ done, op.addsClause = false) ↔ b.isEmpty = true := by
    rw [show b.isEmpty = _ from isEmpty_runAll ops (.new config), fresh, Bool.true_and, List.all_eq_true]
    simp only [Bool.not_eq_true', done]
  refine ⟨List.tfae_cons_cons.2 ⟨told, b.isEmpty_tfae⟩, fun ⟨op, hop, adds⟩ => ⟨_, rfl, ?_⟩,
    b.tables_params_ne_some_empty⟩
  have some_clause : b.statement? ≠ none := by
    intro none
    have nothing := told.2 (statement?_eq_none_iff.1 none) op hop
    exact absurd adds (Bool.eq_false_iff.1 nothing)
  have statement := Clauses.statement?_eq_written some_clause
  refine ⟨statement, ?_⟩
  rw [params_of_statement? statement, Table.nonEmpty?_eq, Table.nonEmpty?_eq]

/-- An alias and a value beside a refused request are no update; and a removal comes before a deletion
of members that was asked for first. -/
theorem params_runAll_idle :
    let idle : List Operation := [.addNames [("p", "profile")], .register (.bool true), .set {}]
    let busy : List Operation := [.delete { path := "tags", value := .bool true }, .remove { path := "old" }]
    let b := (Operation.runAll idle (.new {})).2
    let b' := (Operation.runAll busy (.new {})).2
    (∀ op ∈ Operation.accepted idle (.new {}), op.addsClause = false) ∧
      b.names ≠ .empty ∧ b.values ≠ .empty ∧ wire b.params = "\x7b\x7d" ∧
      (∃ op ∈ Operation.accepted busy (.new {}), op.addsClause = true) ∧
      b'.params = { expression := some "REMOVE old DELETE tags :A", values := some b'.values } := by
  intro idle busy b b'
  have none : ∀ op ∈ Operation.accepted idle (.new {}), op.addsClause = false := by decide
  have some_clause : ∃ op ∈ Operation.accepted busy (.new {}), op.addsClause = true := by decide
  obtain ⟨told, -, -⟩ := params_runAll {} idle
  obtain ⟨-, given, -⟩ := params_runAll {} busy
  obtain ⟨text, written, -, params⟩ := given some_clause
  refine ⟨none, by decide, by decide, (told.out 0 5).1 none, some_clause, ?_⟩
  subst written
  exact params.trans (by decide)

end Builder

end UpdateExpr
