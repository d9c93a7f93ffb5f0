/-
Referential integrity of statements. In a run without raw fragments, with no colon in a path, the
value tokens of the statement are the keys with which the clauses were written. So every token is in
the value table, and every key of the table that was not handed out to a caller is in the statement:
once, or, if it is the key of the empty list, once for each append to a list.

Both halves come from one count. A key that a contribution takes from the allocator goes into its
clause once, or, if there is no clause, to the caller; so over a whole run the occurrences of a key
in the clauses and among the keys handed out add up to its occurrences among the allocated keys,
which is at most one.
-/
import UpdateExpr.Proofs.Builder.Values
import UpdateExpr.Proofs.Statement.Tokens

namespace UpdateExpr

open Token Statement

/-! ## Keys in clauses and keys handed out -/

/-- A contribution whose clause, if there is one, is no raw fragment, has no colon in its path and
has a place for each of its values. -/
def Contribution.Plain (c : Contribution) : Prop :=
  ∀ s form, c.clause? = some (s, form) →
    form.slots = c.values.length ∧ ∃ path, form.path? = some path ∧ ':' ∉ path.toList

namespace Ledger

/-- The keys of a contribution's values. -/
def keysOf (l : Ledger) (c : Contribution) : List String :=
  (List.range c.values.length).map l.key

/-- The keys that some contributions, one after the other, hand out to the caller: those of values
that come without a clause. -/
def handedOut : Ledger → List Contribution → List String
  | _, [] => []
  | l, c :: rest => (if c.clause?.isNone then l.keysOf c else []) ++ handedOut (l.add c) rest

theorem isToken_key (l : Ledger) (i : Nat) : IsToken (l.key i) :=
  UpdateExpr.isToken_key _

theorem key_ne_emptyListKey (l : Ledger) (i : Nat) : l.key i ≠ emptyListKey :=
  key_numeral_ne_emptyListKey _

theorem key_add (l : Ledger) (c : Contribution) : (l.add c).key = fun i => l.key (c.values.length + i) := by
  funext i
  unfold key add
  rw [List.length_append, Nat.add_assoc l.values.length]

/-- One contribution puts each of its keys into its clause or hands it out. -/
theorem count_add (l : Ledger) {c : Contribution} (hc : c.Plain) {k : String} (hk : k ≠ emptyListKey) :
    (l.add c).clauses.tokens.count k + (if c.clause?.isNone then l.keysOf c else []).count k =
      l.clauses.tokens.count k + (l.keysOf c).count k := by
  unfold add
  cases h : c.clause? with
  | none => rfl
  | some clause =>
    obtain ⟨s, form⟩ := clause
    obtain ⟨hs, path, hp, hcolon⟩ := hc s form h
    simp only [Option.isNone_some, Bool.false_eq_true, if_false, List.count_nil, Nat.add_zero]
    rw [Clauses.count_tokens_push, ClauseForm.valueTokens_text l.isToken_key hp hcolon, form.count_keys hk, hs]
    rfl

theorem count_emptyListKey_add (l : Ledger) {c : Contribution} (hc : c.Plain) :
    (l.add c).clauses.tokens.count emptyListKey =
      l.clauses.tokens.count emptyListKey + if c.appends then 1 else 0 := by
  unfold add Contribution.appends
  cases h : c.clause? with
  | none => rfl
  | some clause =>
    obtain ⟨s, form⟩ := clause
    obtain ⟨-, path, hp, hcolon⟩ := hc s form h
    simp only
    rw [Clauses.count_tokens_push, ClauseForm.valueTokens_text l.isToken_key hp hcolon]
    have h0 := l.key_ne_emptyListKey 0
    have h1 := l.key_ne_emptyListKey 1
    cases form with
    | append p listEnd => cases listEnd <;> simp [ClauseForm.keys, h0]
    | _ => simp [ClauseForm.keys, h0, h1]

/-- Over a whole run every allocated key is in a clause or was handed out. -/
theorem count_addAll {cs : List Contribution} (hcs : ∀ c ∈ cs, c.Plain) {k : String} (hk : k ≠ emptyListKey)
    (l : Ledger) :
    (l.addAll cs).clauses.tokens.count k + (l.handedOut cs).count k =
      l.clauses.tokens.count k + ((List.range (cs.flatMap (·.values)).length).map l.key).count k := by
  induction cs generalizing l with
  | nil => rfl
  | cons c rest ih =>
    obtain ⟨hc, hrest⟩ := List.forall_mem_cons.1 hcs
    -- what is counted is a sum over the run, so each step may move the ledger it starts from
    have step := l.count_add hc hk
    have later := ih hrest (l.add c)
    have split : (List.range ((c :: rest).flatMap (·.values)).length).map l.key =
        l.keysOf c ++ (List.range (rest.flatMap (·.values)).length).map (l.add c).key := by
      rw [List.flatMap_cons, List.length_append, List.range_add, List.map_append, List.map_map]
      simp only [keysOf, Function.comp_def, key_add]
    have run : l.addAll (c :: rest) = (l.add c).addAll rest := rfl
    rw [split, run, handedOut, List.count_append, List.count_append]
    omega

theorem count_emptyListKey_addAll {cs : List Contribution} (hcs : ∀ c ∈ cs, c.Plain) (l : Ledger) :
    (l.addAll cs).clauses.tokens.count emptyListKey =
      l.clauses.tokens.count emptyListKey + cs.countP (·.appends) := by
  induction cs generalizing l with
  | nil => rfl
  | cons c rest ih =>
    obtain ⟨hc, hrest⟩ := List.forall_mem_cons.1 hcs
    have run : l.addAll (c :: rest) = (l.add c).addAll rest := rfl
    rw [run, ih hrest, l.count_emptyListKey_add hc, List.countP_cons]
    omega

theorem mem_keysOf_register (l : Ledger) (config : Config) (value : AttributeValue) (k : String) :
    (Operation.register value).answer (l.builder config) = some k ↔ k ∈ l.keysOf { values := [value] } := by
  unfold Operation.answer builder keysOf key
  simp only [Allocator.next_numeral]
  rw [Option.some.injEq]
  constructor
  · rintro rfl
    exact List.mem_map.2 ⟨0, List.mem_range.2 Nat.one_pos, rfl⟩
  · intro h
    obtain ⟨i, hi, rfl⟩ := List.mem_map.1 h
    have : i = 0 := by simpa using hi
    rw [this]

/-- Only a registration answers with a key, and it is the one operation whose values have no clause. -/
theorem answer_builder (l : Ledger) (config : Config) (op : Operation) (k : String) :
    op.answer (l.builder config) = some k ↔
      k ∈ if op.contribution.clause?.isNone then l.keysOf op.contribution else [] := by
  have none_of_clause : ∀ c : Contribution, c.clause?.isNone = false →
      ((none : Option String) = some k ↔ k ∈ if c.clause?.isNone then l.keysOf c else []) := by
    intro c hc
    rw [hc]
    simp
  have action : ∀ a : SetAction, a.contribution.clause?.isNone = false := by
    intro a
    cases a <;> rfl
  cases op with
  | set request =>
    cases h : SetAction.ofRequest request with
    | error cause =>
      rw [Operation.contribution_set_error h]
      simp [Operation.answer, keysOf]
    | ok a =>
      rw [Operation.contribution_set_ok h]
      exact none_of_clause _ (action a)
  -- a registration has no clause, so its key would be in no statement: it goes to the caller
  | register value => exact l.mem_keysOf_register config value k
  | addNames pairs => simp [Operation.answer, Operation.contribution, keysOf]
  | act a => exact none_of_clause _ (action a)
  | assign path value => exact none_of_clause _ rfl
  | assignIfAbsent path value => exact none_of_clause _ rfl
  | append path elements listEnd => exact none_of_clause _ rfl
  | raw fragment => exact none_of_clause _ rfl
  | increment request => exact none_of_clause _ rfl
  | remove request => exact none_of_clause _ rfl
  | add request => exact none_of_clause _ rfl
  | delete request => exact none_of_clause _ rfl

/-- The keys among the results of a run are those handed out. -/
theorem mem_results_iff (config : Config) (l : Ledger) (ops : List Operation) (k : String) :
    Except.ok (some k) ∈ (Operation.runAll ops (l.builder config)).1 ↔
      k ∈ l.handedOut (Operation.contributions ops (l.builder config)) := by
  induction ops generalizing l with
  | nil =>
    constructor
    · intro h
      cases h
    · intro h
      cases h
  | cons op ops ih =>
    have answer := l.answer_builder config op k
    unfold Operation.runAll Operation.contributions Operation.accepted
    rw [run_builder]
    cases op.refusal? config with
    -- a refused operation answers with an error, which is no key, and leaves the ledger as it is
    | some cause =>
      have later := ih l
      unfold Operation.contributions at later
      simp only [List.mem_cons, reduceCtorEq, false_or]
      exact later
    | none =>
      have later := ih (l.add op.contribution)
      unfold Operation.contributions at later
      simp only [List.mem_cons, Except.ok.injEq, List.map_cons, handedOut, List.mem_append]
      rw [later, ← answer, eq_comm]

end Ledger

/-! ## Runs without raw fragments -/

/-- The path of an action that is no raw fragment. -/
def SetAction.path? : SetAction → Option String
  | .raw _ => none
  | .assign path _ _ | .append path _ _ => some path

/-- The clause of an action is on the path of the action and has a place for each of its values. -/
theorem SetAction.clause_contribution {action : SetAction} {s : Section} {form : ClauseForm}
    (h : action.contribution.clause? = some (s, form)) :
    form.path? = action.path? ∧ form.slots = action.contribution.values.length := by
  cases action <;> cases h <;> exact ⟨rfl, rfl⟩

/-- Without a raw expression, a request asks for an action on its path. -/
theorem SetAction.path?_of_ofRequest {request : SetRequest} {action : SetAction}
    (h : SetAction.ofRequest request = .ok action) (hr : request.expression = none) :
    ∃ path, action.path? = some path ∧ request.path = some path := by
  unfold ofRequest at h
  rw [hr] at h
  cases hp : request.path with
  | none =>
    rw [hp] at h
    cases h
  | some path =>
    cases hv : request.value with
    | none =>
      rw [hp, hv] at h
      cases h
    | some value =>
      rw [hp, hv] at h
      cases ha : request.append with
      | none =>
        rw [ha] at h
        cases h
        exact ⟨path, rfl, rfl⟩
      | some listEnd =>
        rw [ha] at h
        cases h
        exact ⟨path, rfl, rfl⟩

namespace Operation

/-- Whether an operation brings a raw fragment. -/
def isRaw : Operation → Bool
  | .set request => request.expression.isSome
  | .act (.raw _) | .raw _ => true
  | _ => false

/-- The path that an operation names. -/
def path? : Operation → Option String
  | .set request => request.path
  | .increment request => some request.path
  | .remove request => some request.path
  | .add request => some request.path
  | .delete request => some request.path
  | .act action => action.path?
  | .assign path _ | .assignIfAbsent path _ | .append path _ _ => some path
  | .raw _ | .register _ | .addNames _ => none

/-- A clause has a place for each of the values that come with it. -/
theorem slots_contribution {op : Operation} {s : Section} {form : ClauseForm}
    (h : op.contribution.clause? = some (s, form)) : form.slots = op.contribution.values.length := by
  cases op with
  | set request =>
    rcases ha : SetAction.ofRequest request with cause | action
    · rw [contribution_set_error ha] at h
      cases h
    · rw [contribution_set_ok ha] at h ⊢
      exact (SetAction.clause_contribution h).2
  | act action => exact (SetAction.clause_contribution h).2
  | register value => cases h
  | addNames pairs => cases h
  | _ =>
    cases h
    rfl

/-- The clause of an operation without a raw fragment is on the path that the operation names. -/
theorem path?_contribution {op : Operation} (hr : op.isRaw = false) {s : Section} {form : ClauseForm}
    (h : op.contribution.clause? = some (s, form)) : ∃ path, form.path? = some path ∧ op.path? = some path := by
  cases op with
  | set request =>
    have expression : request.expression = none := Option.isNone_iff_eq_none.1 (Option.isSome_eq_false_iff.1 hr)
    rcases ha : SetAction.ofRequest request with cause | action
    · rw [contribution_set_error ha] at h
      cases h
    · obtain ⟨path, hp, hpath⟩ := SetAction.path?_of_ofRequest ha expression
      rw [contribution_set_ok ha] at h
      exact ⟨path, (SetAction.clause_contribution h).1.trans hp, hpath⟩
  | act action =>
    cases action with
    | raw fragment => cases hr
    | assign path value onlyIfAbsent =>
      cases h
      exact ⟨path, rfl, rfl⟩
    | append path elements listEnd =>
      cases h
      exact ⟨path, rfl, rfl⟩
  | raw fragment => cases hr
  | register value => cases h
  | addNames pairs => cases h
  | _ =>
    cases h
    exact ⟨_, rfl, rfl⟩

theorem plain_contribution {op : Operation} (hr : op.isRaw = false)
    (hp : ∀ path, op.path? = some path → ':' ∉ path.toList) : op.contribution.Plain := by
  intro s form h
  obtain ⟨path, hform, hpath⟩ := path?_contribution hr h
  exact ⟨slots_contribution h, path, hform, hp path hpath⟩

end Operation

/-! ## Referential integrity -/

namespace Ledger

/-- The keys of the table. -/
theorem isSome_find?_builder (config : Config) (l : Ledger) (k : String) :
    ((l.builder config).values.find? k).isSome ↔
      (∃ i, i < l.values.length ∧ k = Token.key (numeral (i + 1))) ∨ l.appended = true ∧ k = emptyListKey := by
  rw [Option.isSome_iff_exists]
  constructor
  · rintro ⟨value, h⟩
    rcases mem_entries_builder.1 (Table.mem_entries_iff.2 h) with ⟨i, hi, hk⟩ | ⟨ha, hk, -⟩
    · exact .inl ⟨i, (List.getElem?_eq_some_iff.1 hi).1, hk⟩
    · exact .inr ⟨ha, hk⟩
  · rintro (⟨i, hi, hk⟩ | ⟨ha, hk⟩)
    · exact ⟨_, Table.mem_entries_iff.1 (mem_entries_builder.2 (.inl ⟨i, List.getElem?_eq_getElem hi, hk⟩))⟩
    · exact ⟨_, Table.mem_entries_iff.1 (mem_entries_builder.2 (.inr ⟨ha, hk, rfl⟩))⟩

/-- The keys of the empty ledger are those of the numerals from 1 on. -/
theorem key_empty (i : Nat) : ({} : Ledger).key i = Token.key (numeral (i + 1)) := by
  unfold key
  rw [List.length_nil, Nat.zero_add]

/-- Each of the first `n` keys is allocated once. -/
theorem count_allocated (n : Nat) (k : String) :
    ((List.range n).map ({} : Ledger).key).count k =
      if ∃ i, i < n ∧ k = Token.key (numeral (i + 1)) then 1 else 0 := by
  have nodup : ((List.range n).map ({} : Ledger).key).Nodup := by
    refine List.Nodup.map (fun i j hij => ?_) List.nodup_range
    rw [key_empty, key_empty, key_numeral_inj] at hij
    omega
  have mem : k ∈ (List.range n).map ({} : Ledger).key ↔ ∃ i, i < n ∧ k = Token.key (numeral (i + 1)) := by
    rw [List.mem_map]
    constructor
    · rintro ⟨i, hi, rfl⟩
      exact ⟨i, List.mem_range.1 hi, key_empty i⟩
    · rintro ⟨i, hi, rfl⟩
      exact ⟨i, List.mem_range.2 hi, key_empty i⟩
  rw [nodup.count, if_congr mem rfl rfl]

theorem appended_iff_countP (cs : List Contribution) :
    (({} : Ledger).addAll cs).appended = true ↔ 0 < cs.countP (·.appends) := by
  rw [appended_addAll, List.countP_pos_iff]
  exact List.any_eq_true

section Reached

variable {cs : List Contribution} (hcs : ∀ c ∈ cs, c.Plain) (config : Config)
include hcs

/-- In a ledger reached from the empty one, an allocated key is in the clauses or was handed out. -/
theorem count_tokens {k : String} (hk : k ≠ emptyListKey) :
    (({} : Ledger).addAll cs).clauses.tokens.count k + (({} : Ledger).handedOut cs).count k =
      if ∃ i, i < (({} : Ledger).addAll cs).values.length ∧ k = Token.key (numeral (i + 1)) then 1 else 0 := by
  rw [count_addAll hcs hk, count_allocated, values_addAll]
  exact Nat.zero_add _

theorem count_tokens_emptyListKey :
    (({} : Ledger).addAll cs).clauses.tokens.count emptyListKey = cs.countP (·.appends) := by
  rw [count_emptyListKey_addAll hcs]
  exact Nat.zero_add _

/-- No reference dangles. -/
theorem isSome_find?_of_mem_tokens {k : String} (h : k ∈ (({} : Ledger).addAll cs).clauses.tokens) :
    (((({} : Ledger).addAll cs).builder config).values.find? k).isSome := by
  have pos := List.count_pos_iff.2 h
  rw [isSome_find?_builder]
  by_cases hk : k = emptyListKey
  · rw [hk, count_tokens_emptyListKey hcs] at pos
    exact .inr ⟨(appended_iff_countP cs).2 pos, hk⟩
  · have := count_tokens hcs hk
    by_cases allocated : ∃ i, i < (({} : Ledger).addAll cs).values.length ∧ k = Token.key (numeral (i + 1))
    · exact .inl allocated
    · rw [if_neg allocated] at this
      omega

/-- No value is unused but those whose keys were handed out. -/
theorem count_tokens_of_find? {k : String}
    (h : (((({} : Ledger).addAll cs).builder config).values.find? k).isSome) (hout : k ∉ ({} : Ledger).handedOut cs) :
    k ∈ (({} : Ledger).addAll cs).clauses.tokens ∧
      (({} : Ledger).addAll cs).clauses.tokens.count k =
        if k = emptyListKey then cs.countP (·.appends) else 1 := by
  rw [isSome_find?_builder] at h
  rw [← List.count_pos_iff]
  by_cases hk : k = emptyListKey
  · have appended : (({} : Ledger).addAll cs).appended = true := by
      rcases h with ⟨i, -, hi⟩ | ⟨ha, -⟩
      · exact absurd (hi.symm.trans hk) (key_numeral_ne_emptyListKey _)
      · exact ha
    rw [if_pos hk, hk, count_tokens_emptyListKey hcs]
    exact ⟨(appended_iff_countP cs).1 appended, rfl⟩
  · have allocated := h.resolve_right fun e => hk e.2
    have := count_tokens hcs hk
    rw [if_pos allocated, List.count_eq_zero.2 hout] at this
    rw [if_neg hk]
    omega

end Reached

end Ledger

namespace Builder

/-- In every run without raw fragments whose paths are free of colons, refused operations included:
a token of the statement is a key of the value table, and a key of the table that no registration
handed out is a token of the statement, once, or, if it is the key of the empty list, as often as a
list was appended to. -/
theorem statement_references (config : Config) {ops : List Operation} (hr : ∀ op ∈ ops, op.isRaw = false)
    (hp : ∀ op ∈ ops, ∀ path, op.path? = some path → ':' ∉ path.toList) :
    let run := Operation.runAll ops (.new config)
    let tokens := (run.2.statement?.map valueTokens).getD []
    let appends := (Operation.contributions ops (.new config)).countP (·.appends)
    (∀ token ∈ tokens, (run.2.values.find? token).isSome) ∧
    ∀ key, (run.2.values.find? key).isSome → .ok (some key) ∉ run.1 →
      key ∈ tokens ∧ tokens.count key = if key = ":zz_empty_list" then appends else 1 := by
  intro run tokens appends
  let cs := Operation.contributions ops (.new config)
  have plain : ∀ c ∈ cs, c.Plain := by
    intro c hc
    obtain ⟨op, hop, rfl⟩ := List.mem_map.1 hc
    have member := (Operation.accepted_sublist ops _).subset hop
    exact Operation.plain_contribution (hr op member) (hp op member)
  have reached : run.2 = (({} : Ledger).addAll cs).builder config := Ledger.runAll_new config ops
  have read : tokens = (({} : Ledger).addAll cs).clauses.tokens := by
    show (run.2.statement?.map valueTokens).getD [] = _
    rw [reached]
    exact Clauses.tokens_statement? _
  have handed : ∀ key, .ok (some key) ∈ run.1 ↔ key ∈ ({} : Ledger).handedOut cs := by
    intro key
    have := Ledger.mem_results_iff config {} ops key
    rw [Ledger.builder_empty] at this
    exact this
  rw [reached, read]
  constructor
  · intro token ht
    exact Ledger.isSome_find?_of_mem_tokens plain config ht
  · intro key found hout
    exact Ledger.count_tokens_of_find? plain config found (mt (handed key).2 hout)

/-- A refused request, two appends, an increment and a value for a caller. -/
theorem statement_references_mixed :
    let ops : List Operation :=
      [.register (.bool true), .append "#t" [.string "x"] .back, .set { path := some "qty" },
        .increment { path := "n" }, .remove { path := "old" }, .append "#t" [] .front]
    let run := Operation.runAll ops (.new {})
    let tokens := (run.2.statement?.map valueTokens).getD []
    (∀ op ∈ ops, op.isRaw = false) ∧ (∀ op ∈ ops, ∀ path, op.path? = some path → ':' ∉ path.toList) ∧
      (run.2.values.find? ":D").isSome ∧ .ok (some ":D") ∉ run.1 ∧
      tokens.count ":D" = 1 ∧ tokens.count ":zz_empty_list" = 2 := by
  intro ops run tokens
  have raw : ∀ op ∈ ops, op.isRaw = false := by decide
  have paths : ∀ op ∈ ops, ∀ path, op.path? = some path → ':' ∉ path.toList := by decide
  obtain ⟨-, once⟩ := statement_references {} raw paths
  refine ⟨raw, paths, by decide, by decide, (once ":D" (by decide) (by decide)).2, ?_⟩
  exact (once ":zz_empty_list" (by decide) (by decide)).2

end Builder

end UpdateExpr
