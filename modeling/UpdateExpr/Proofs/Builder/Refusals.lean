/-
Refusals in full. A set request is refused for the fields that it has or lacks, and which refusal that is
depends on nothing but which of expression, value and path are there. A complete request, and every
request of the other operations, is refused exactly if the builder validates names and the subject does
not mention some alias; the alias that is named is the first of them in the order of bytes. So the
outcome depends on the request and on the configuration, and on nothing that the builder has collected.
-/
import UpdateExpr.Proofs.Builder.Validation
import UpdateExpr.Proofs.Table.Lookup
import UpdateExpr.Proofs.Text.Order

namespace UpdateExpr

/-! ## Names in errors -/

theorem OperationName.text_inj {x y : OperationName} : x.text = y.text ↔ x = y := by
  cases x <;> cases y <;> decide

theorem SetField.text_inj {x y : SetField} : x.text = y.text ↔ x = y := by
  cases x <;> cases y <;> decide

/-! ## Aliases that are not mentioned -/

/-- A key of a table that a subject does not mention behind a number sign. -/
def Unmentioned (subject : String) (names : Table String) (key : String) : Prop :=
  (names.find? key).isSome ∧ ¬ ("#" ++ key).toList <:+: subject.toList

/-- The first key in the order of bytes that a subject does not mention. -/
def FirstUnmentioned (subject : String) (names : Table String) (key : String) : Prop :=
  Unmentioned subject names key ∧ ∀ other, Unmentioned subject names other → Text.utf8 key ≤ Text.utf8 other

namespace Table

variable {α : Type} {t : Table α}

theorem mem_keys_iff {key : String} : key ∈ t.keys ↔ (t.find? key).isSome := by
  unfold keys
  rw [List.mem_map, Option.isSome_iff_exists]
  constructor
  · rintro ⟨⟨_, value⟩, h, rfl⟩
    exact ⟨value, mem_entries_iff.1 h⟩
  · rintro ⟨value, h⟩
    exact ⟨_, mem_entries_iff.2 h, rfl⟩

theorem sorted_keys : t.keys.Pairwise (· < ·) :=
  Entries.sorted_iff_keys.1 t.sorted

end Table

/-- The first of increasing texts that passes a test is the least one that does. -/
theorem find?_eq_some_iff_of_increasing {keys : List String} (h : keys.Pairwise (· < ·)) {test : String → Bool}
    {key : String} :
    keys.find? test = some key ↔
      (key ∈ keys ∧ test key = true) ∧ ∀ other ∈ keys, test other = true → key ≤ other := by
  induction keys with
  | nil => simp
  | cons first rest ih =>
    obtain ⟨before, increasing⟩ := List.pairwise_cons.1 h
    cases passed : test first with
    | true =>
      rw [List.find?_cons_of_pos passed, Option.some.injEq]
      constructor
      · rintro rfl
        refine ⟨⟨List.mem_cons_self .., passed⟩, fun other ho _ => ?_⟩
        rcases List.mem_cons.1 ho with rfl | ho
        · exact String.le_refl _
        · exact String.not_lt.1 fun lt => String.lt_irrefl _ (String.lt_trans lt (before other ho))
      · rintro ⟨⟨hk, -⟩, least⟩
        rcases List.mem_cons.1 hk with rfl | hk
        · rfl
        · exact absurd (before key hk) (String.not_lt.2 (least first (List.mem_cons_self ..) passed))
    | false =>
      -- the first one is neither found nor a bound
      have others : ∀ other, other ∈ first :: rest ∧ test other = true ↔ other ∈ rest ∧ test other = true := by
        intro other
        rw [List.mem_cons, or_and_right, or_iff_right]
        rintro ⟨rfl, ht⟩
        exact Bool.false_ne_true (passed.symm.trans ht)
      rw [List.find?_cons_of_neg (by rw [passed]; exact Bool.false_ne_true), ih increasing, others]
      simp only [← and_imp, others]

namespace Builder

variable {subject : String} {names : Table String} {key : String}

theorem unmentioned_iff : Unmentioned subject names key ↔
    key ∈ names.keys ∧ (!Text.mentions subject ("#" ++ key)) = true := by
  unfold Unmentioned Text.mentions
  rw [Table.mem_keys_iff, Bool.not_eq_true', ← Bool.not_eq_true, Text.occurs_iff]

theorem unmentioned?_eq_some_iff : unmentioned? subject names = some key ↔ FirstUnmentioned subject names key := by
  unfold unmentioned? FirstUnmentioned
  rw [find?_eq_some_iff_of_increasing Table.sorted_keys]
  simp only [unmentioned_iff, Text.utf8_le_iff, and_imp]

theorem unmentioned?_eq_none_iff : unmentioned? subject names = none ↔ ∀ key, ¬ Unmentioned subject names key := by
  unfold unmentioned?
  rw [List.find?_eq_none]
  simp only [unmentioned_iff, not_and]

end Builder

/-! ## Which fields a set request has -/

/-- A set request has a raw expression and nothing beside it, or no expression but a path and a value.
The expression or else the path is what must mention the aliases. -/
def SetRequest.Complete (r : SetRequest) (subject : String) : Prop :=
  r.expression = some subject ∧ r.value = none ∧ r.path = none ∨
    r.expression = none ∧ r.path = some subject ∧ r.value.isSome = true

namespace SetAction

variable {r : SetRequest}

theorem ofRequest_eq_conflict_iff {field : SetField} :
    ofRequest r = .error (.conflict field) ↔
      field = .value ∧ r.expression.isSome = true ∧ r.value.isSome = true ∨
        field = .path ∧ r.expression.isSome = true ∧ r.path.isSome = true ∧ r.value = none := by
  obtain ⟨path, expression, onlyIfAbsent, names, value, append⟩ := r
  unfold ofRequest
  cases expression <;> cases value <;> cases path <;> cases append <;> simp [eq_comm]

theorem ofRequest_eq_missing_iff {name : OperationName} {field : SetField} :
    ofRequest r = .error (.missing name field) ↔
      name = .set ∧ (field = .path ∧ r.expression = none ∧ r.path = none ∨
        field = .value ∧ r.expression = none ∧ r.path.isSome = true ∧ r.value = none) := by
  obtain ⟨path, expression, onlyIfAbsent, names, value, append⟩ := r
  unfold ofRequest
  cases expression <;> cases value <;> cases path <;> cases append <;> simp [eq_comm]

theorem ofRequest_ne_unmentioned {name : OperationName} {key : String} :
    ofRequest r ≠ .error (.unmentioned name key) := by
  obtain ⟨path, expression, onlyIfAbsent, names, value, append⟩ := r
  unfold ofRequest
  cases expression <;> cases value <;> cases path <;> cases append <;> simp

theorem exists_ofRequest_iff {subject : String} :
    (∃ action, ofRequest r = .ok action ∧ action.subject = subject) ↔ r.Complete subject := by
  obtain ⟨path, expression, onlyIfAbsent, names, value, append⟩ := r
  unfold ofRequest SetRequest.Complete
  cases expression <;> cases value <;> cases path <;> cases append <;> simp [SetAction.subject]

end SetAction

/-! ## Refusals -/

namespace Operation

section Aliases

variable {config : Config} {name : OperationName} {subject : String} {names : Table String}

theorem unmentioned?_eq_some_iff {cause : BuilderError} :
    unmentioned? config name subject names = some cause ↔
      config.validateNames = true ∧ ∃ key, cause = .unmentioned name key ∧ FirstUnmentioned subject names key := by
  unfold unmentioned?
  split
  · rename_i on
    rw [Option.map_eq_some_iff, and_iff_right on]
    refine exists_congr fun key => ?_
    rw [Builder.unmentioned?_eq_some_iff, and_comm, eq_comm]
  · rename_i off
    simp only [off, false_and, reduceCtorEq]

theorem unmentioned?_eq_none_iff :
    unmentioned? config name subject names = none ↔
      (config.validateNames = true → ∀ key, ¬ Unmentioned subject names key) := by
  unfold unmentioned?
  split
  · rename_i on
    rw [Option.map_eq_none_iff, Builder.unmentioned?_eq_none_iff, imp_iff_right on]
  · rename_i off
    exact iff_of_true rfl fun on => absurd on off

end Aliases

theorem refusal?_set_eq_some_iff {config : Config} {r : SetRequest} {cause : BuilderError} :
    (Operation.set r).refusal? config = some cause ↔
      SetAction.ofRequest r = .error cause ∨
        ∃ subject, r.Complete subject ∧ unmentioned? config .set subject r.names = some cause := by
  simp only [← SetAction.exists_ofRequest_iff, refusal?]
  cases SetAction.ofRequest r <;> simp

theorem refusal?_set_eq_none_iff {config : Config} {r : SetRequest} :
    (Operation.set r).refusal? config = none ↔
      ∃ subject, r.Complete subject ∧ unmentioned? config .set subject r.names = none := by
  simp only [← SetAction.exists_ofRequest_iff, refusal?]
  cases SetAction.ofRequest r <;> simp

theorem run_ok_iff {op : Operation} {b : Builder} {answer : Option String} :
    (op.run b).1 = .ok answer ↔ op.refusal? b.config = none ∧ op.answer b = answer := by
  rw [run_eq]
  cases op.refusal? b.config <;> simp

/-- An operation that is refused exactly for an alias that its subject does not mention, if the builder
validates names, and that names itself and the first such alias. -/
structure ChecksAliases (b : Builder) (op : Operation) (word subject : String) (names : Table String) : Prop where
  refused_iff : ∀ cause, (op.run b).1 = .error cause ↔
    b.config.validateNames = true ∧ ∃ name key, cause = .unmentioned name key ∧ name.text = word ∧
      FirstUnmentioned subject names key
  accepted_iff : (op.run b).1 = .ok none ↔
    (b.config.validateNames = true → ∀ key, ¬ Unmentioned subject names key)

theorem checksAliases {b : Builder} {op : Operation} (name : OperationName) {subject : String}
    {names : Table String} (refusal : op.refusal? b.config = unmentioned? b.config name subject names)
    (answer : op.answer b = none) : ChecksAliases b op name.text subject names where
  refused_iff cause := by
    rw [run_error_iff, refusal, unmentioned?_eq_some_iff]
    refine and_congr_right fun _ => ⟨?_, ?_⟩
    · rintro ⟨key, rfl, first⟩
      exact ⟨name, key, rfl, rfl, first⟩
    · rintro ⟨same, key, rfl, text, first⟩
      obtain rfl := OperationName.text_inj.1 text
      exact ⟨key, rfl, first⟩
  accepted_iff := by
    rw [run_ok_iff, refusal, unmentioned?_eq_none_iff, and_iff_left answer]

theorem answer_eq_none {op : Operation} (h : ∀ value, op ≠ .register value) (b : Builder) : op.answer b = none := by
  cases op with
  | register value => exact absurd rfl (h value)
  | _ => rfl

end Operation

namespace Builder

/-- On every builder, whatever it has collected, a set request is refused with a conflict of "Value" or
of "Name" or with one of them missing exactly for the fields that it has and lacks; if it is complete,
exactly for an alias that is not mentioned while names are validated, the first in the order of bytes
being named; and else it succeeds. The other four requests are refused for such an alias only. The
results of two builders with one configuration are the same. -/
theorem refusals_exact (b : Builder) :
    (∀ r : SetRequest,
      (∀ field, ((Operation.set r).run b).1 = .error (.conflict field) ↔
        field.text = "Value" ∧ r.expression.isSome = true ∧ r.value.isSome = true ∨
          field.text = "Name" ∧ r.expression.isSome = true ∧ r.path.isSome = true ∧ r.value = none) ∧
      (∀ name field, ((Operation.set r).run b).1 = .error (.missing name field) ↔
        name.text = "Set" ∧ (field.text = "Name" ∧ r.expression = none ∧ r.path = none ∨
          field.text = "Value" ∧ r.expression = none ∧ r.path.isSome = true ∧ r.value = none)) ∧
      (∀ name key, ((Operation.set r).run b).1 = .error (.unmentioned name key) ↔
        name.text = "Set" ∧ b.config.validateNames = true ∧
          ∃ subject, r.Complete subject ∧ FirstUnmentioned subject r.names key) ∧
      (((Operation.set r).run b).1 = .ok none ↔
        ∃ subject, r.Complete subject ∧
          (b.config.validateNames = true → ∀ key, ¬ Unmentioned subject r.names key))) ∧
    (∀ r : IncrementRequest, Operation.ChecksAliases b (.increment r) "SetIncrement" r.path r.names) ∧
    (∀ r : RemoveRequest, Operation.ChecksAliases b (.remove r) "Remove" r.path r.names) ∧
    (∀ r : AddRequest, Operation.ChecksAliases b (.add r) "Add" r.path r.names) ∧
    (∀ r : DeleteRequest, Operation.ChecksAliases b (.delete r) "Delete" r.path r.names) ∧
    ∀ (b' : Builder) (op : Operation), b'.config = b.config → (∀ value, op ≠ .register value) →
      (op.run b').1 = (op.run b).1 := by
  have value {field : SetField} : field.text = "Value" ↔ field = .value := SetField.text_inj (y := .value)
  have path {field : SetField} : field.text = "Name" ↔ field = .path := SetField.text_inj (y := .path)
  have set {name : OperationName} : name.text = "Set" ↔ name = .set := OperationName.text_inj (y := .set)
  refine ⟨fun r => ⟨fun field => ?_, fun name field => ?_, fun name key => ?_, ?_⟩,
    fun r => Operation.checksAliases .increment rfl rfl, fun r => Operation.checksAliases .remove rfl rfl,
    fun r => Operation.checksAliases .add rfl rfl, fun r => Operation.checksAliases .delete rfl rfl,
    fun b' op same h => ?_⟩
  · rw [Operation.run_error_iff, Operation.refusal?_set_eq_some_iff, value, path,
      SetAction.ofRequest_eq_conflict_iff, or_iff_left]
    simp [Operation.unmentioned?_eq_some_iff]
  · rw [Operation.run_error_iff, Operation.refusal?_set_eq_some_iff, value, path, set,
      SetAction.ofRequest_eq_missing_iff, or_iff_left]
    simp [Operation.unmentioned?_eq_some_iff]
  · rw [Operation.run_error_iff, Operation.refusal?_set_eq_some_iff, set,
      or_iff_right SetAction.ofRequest_ne_unmentioned]
    simp only [Operation.unmentioned?_eq_some_iff, BuilderError.unmentioned.injEq]
    constructor
    · rintro ⟨subject, complete, on, _, ⟨rfl, rfl⟩, first⟩
      exact ⟨rfl, on, subject, complete, first⟩
    · rintro ⟨rfl, on, subject, complete, first⟩
      exact ⟨subject, complete, on, key, ⟨rfl, rfl⟩, first⟩
  · have answer : (Operation.set r).answer b = none := rfl
    rw [Operation.run_ok_iff, and_iff_left answer, Operation.refusal?_set_eq_none_iff]
    simp only [Operation.unmentioned?_eq_none_iff]
  · rw [Operation.run_eq, Operation.run_eq, same]
    cases op.refusal? b.config with
    | some cause => rfl
    | none => simp only [Operation.answer_eq_none h]

/-- A request with all three fields conflicts for its value; of two aliases that a removal does not
mention the upper case one comes first; and a fresh builder refuses the removal as well. -/
theorem refusals_exact_removal :
    let b := (Operation.runAll [.register (.bool true), .remove { path := "old" }] (.new ⟨true⟩)).2
    let both : SetRequest := { path := some "p", expression := some "p = :A", value := some (.bool false) }
    let removal : RemoveRequest := { path := "#ab.x", names := .ofPairs [("b", "x"), ("a", "y"), ("B", "z")] }
    ((Operation.set both).run b).1 = .error (.conflict .value) ∧
      ((Operation.remove removal).run b).1 = .error (.unmentioned .remove "B") ∧
      FirstUnmentioned "#ab.x" removal.names "B" ∧ ¬ Unmentioned "#ab.x" removal.names "a" ∧
      Builder.config (.new ⟨true⟩) = b.config ∧ (∀ value, Operation.remove removal ≠ .register value) ∧
      ((Operation.remove removal).run (.new ⟨true⟩)).1 = ((Operation.remove removal).run b).1 := by
  intro b both removal
  obtain ⟨sets, -, removals, -, -, results⟩ := refusals_exact b
  have refused : ((Operation.remove removal).run b).1 = .error (.unmentioned .remove "B") := by decide
  have other : ∀ value, Operation.remove removal ≠ .register value := nofun
  obtain ⟨-, _, _, heq, -, first⟩ := ((removals removal).refused_iff _).1 refused
  cases heq
  refine ⟨((sets both).1 .value).2 (.inl ⟨rfl, rfl, rfl⟩), refused, first, ?_, rfl, other, results _ _ rfl other⟩
  rintro ⟨-, absent⟩
  exact absent ⟨[], "b.x".toList, rfl⟩

end Builder

end UpdateExpr
