/-
Builders as ledgers. A ledger lists the registered values and the merged aliases in the order in
which they came; a builder is what its ledger shows: the `n`-th value stands under the key of the
numeral of `n`, the allocator is at the last of them, and the empty list has an entry if a list was
appended to. Running operations on the builder of a ledger gives the builder of the ledger with the
contributions of the operations that were not refused, so whatever holds of ledgers holds of every
builder that a run reaches.
-/
import UpdateExpr.Proofs.Builder.Contribution
import UpdateExpr.Proofs.Table.Lookup
import UpdateExpr.Proofs.Token.Allocation

namespace UpdateExpr

/-- What a builder has collected, values and aliases in the order in which they came. -/
structure Ledger where
  clauses : Clauses := {}
  names : List (String × String) := []
  values : List AttributeValue := []
  appended : Bool := false

namespace Ledger

/-! ## The builder of a ledger -/

/-- Values under the keys of the numerals 1, 2, 3, … -/
def numbered (values : List AttributeValue) : List (String × AttributeValue) :=
  values.mapIdx fun i value => (Token.key (Token.numeral (i + 1)), value)

/-- The entry of the empty list, if it is there. -/
def sentinel (appended : Bool) : List (String × AttributeValue) :=
  if appended then [(Token.emptyListKey, .emptyList)] else []

/-- The builder that a ledger describes. -/
def builder (config : Config) (l : Ledger) : Builder where
  config
  clauses := l.clauses
  names := .ofPairs l.names
  values := .ofPairs (numbered l.values ++ sentinel l.appended)
  allocator := ⟨Token.numeral l.values.length⟩
  hasEmptyList := l.appended

/-- The key of the `i`-th value that comes after those of a ledger, counted from zero. -/
def key (l : Ledger) (i : Nat) : String :=
  Token.key (Token.numeral (l.values.length + i + 1))

/-- A ledger with one contribution more. -/
def add (l : Ledger) (c : Contribution) : Ledger where
  clauses :=
    match c.clause? with
    | none => l.clauses
    | some (s, form) => l.clauses.push s (form.text l.key)
  names := l.names ++ c.names
  values := l.values ++ c.values
  appended := l.appended || c.appends

/-- A ledger with some contributions more, one after the other. -/
def addAll (l : Ledger) (contributions : List Contribution) : Ledger :=
  contributions.foldl add l

theorem builder_empty (config : Config) : ({} : Ledger).builder config = .new config := by
  unfold builder Builder.new
  rw [show Token.numeral ([] : List AttributeValue).length = "" from Token.numeral_zero]
  rfl

/-- Ledgers that agree in what a builder shows of them show one builder, but for the configuration. -/
theorem builder_eq {config config' : Config} {l l' : Ledger}
    (clauses : (l'.builder config').clauses = (l.builder config).clauses)
    (names : (l'.builder config').names = (l.builder config).names) (values : l'.values = l.values)
    (appended : l'.appended = l.appended) : l'.builder config' = { l.builder config with config := config' } := by
  unfold builder at *
  rw [values, appended]
  simp only at clauses names
  simp only [clauses, names]

theorem numbered_concat (values : List AttributeValue) (value : AttributeValue) :
    numbered (values ++ [value]) =
      numbered values ++ [(Token.key (Token.numeral (values.length + 1)), value)] := by
  unfold numbered
  rw [List.mapIdx_concat]

theorem mem_numbered {values : List AttributeValue} {key : String} {value : AttributeValue} :
    (key, value) ∈ numbered values ↔
      ∃ i, values[i]? = some value ∧ key = Token.key (Token.numeral (i + 1)) := by
  unfold numbered
  rw [List.mem_iff_getElem?]
  constructor
  · rintro ⟨i, h⟩
    rw [List.getElem?_mapIdx] at h
    obtain ⟨v, hv, h⟩ := Option.map_eq_some_iff.1 h
    cases h
    exact ⟨i, hv, rfl⟩
  · rintro ⟨i, hv, rfl⟩
    exact ⟨i, by rw [List.getElem?_mapIdx, hv]; rfl⟩

/-- The keys of the entries, in the order in which they came, are the keys of the numerals. -/
theorem keys_numbered (values : List AttributeValue) :
    (numbered values).map (·.1) = (List.range values.length).map fun i => Token.key (Token.numeral (i + 1)) := by
  unfold numbered
  apply List.ext_getElem?
  intro i
  rw [List.getElem?_map, List.getElem?_mapIdx, List.getElem?_map]
  by_cases h : i < values.length
  · rw [List.getElem?_eq_getElem h, List.getElem?_range h]
    rfl
  · rw [List.getElem?_eq_none (by omega), List.getElem?_eq_none (by rw [List.length_range]; omega)]
    rfl

/-- No two entries have one key: numerals are injective, and the key of the empty list is none. -/
theorem nodup_keys (values : List AttributeValue) (appended : Bool) :
    ((numbered values ++ sentinel appended).map (·.1)).Nodup := by
  rw [List.map_append, keys_numbered, List.nodup_append]
  refine ⟨?_, ?_, ?_⟩
  · refine List.Nodup.map (fun i j hij => ?_) List.nodup_range
    have := Token.key_numeral_inj.1 hij
    omega
  · cases appended
    · exact List.nodup_nil
    · exact List.nodup_singleton _
  · rintro k hk l hl rfl
    obtain ⟨i, -, rfl⟩ := List.mem_map.1 hk
    cases appended with
    | false => cases hl
    | true => exact Token.key_numeral_ne_emptyListKey _ (List.mem_singleton.1 hl)

/-! ## One step -/

section Step

variable (config : Config) (l : Ledger)

theorem addNames_builder (pairs : List (String × String)) :
    (l.builder config).addNames pairs = ({ l with names := l.names ++ pairs } : Ledger).builder config := by
  unfold builder Builder.addNames
  simp only [Table.ofPairs_append l.names]

/-- The empty list is registered once, behind all the values so far. -/
theorem registerEmptyList_builder :
    (l.builder config).registerEmptyList = ({ l with appended := true } : Ledger).builder config := by
  unfold Builder.registerEmptyList
  split
  · rename_i h
    have : l.appended = true := h
    rw [← this]
  · rename_i h
    have : l.appended = false := Bool.eq_false_iff.2 h
    unfold builder sentinel
    rw [this]
    simp only [Bool.false_eq_true, if_false, if_true, List.append_nil]
    rw [Table.ofPairs_concat]

/-- A value is written behind the values and before the empty list; as the keys differ, the table is
the same as if it were written last. -/
theorem register_builder (value : AttributeValue) :
    ((l.builder config).register value).2 =
      ({ l with values := l.values ++ [value] } : Ledger).builder config := by
  unfold Builder.register builder
  rw [Allocator.next_numeral, numbered_concat, List.length_append, List.length_singleton]
  simp only [Builder.mk.injEq, true_and, and_true]
  unfold sentinel
  cases l.appended with
  | false =>
    simp only [Bool.false_eq_true, if_false, List.append_nil]
    rw [Table.ofPairs_concat]
  | true =>
    simp only [if_true]
    rw [Table.ofPairs_concat, Table.ofPairs_concat, Table.ofPairs_concat]
    exact Table.insert_comm _ (Token.key_numeral_ne_emptyListKey _).symm _ _

theorem registerAll_builder (values : List AttributeValue) :
    (l.builder config).registerAll values =
      ({ l with values := l.values ++ values } : Ledger).builder config := by
  induction values generalizing l with
  | nil =>
    rw [List.append_nil]
    rfl
  | cons value rest ih =>
    have := ih { l with values := l.values ++ [value] }
    unfold Builder.registerAll at *
    rw [List.foldl_cons, register_builder, this, List.append_assoc]
    rfl

theorem upcoming_builder : (l.builder config).upcoming = l.key := by
  funext i
  unfold Builder.upcoming key
  congr 1
  -- one more successor is one more numeral
  induction i with
  | zero => exact Token.next_numeral _
  | succ i ih =>
    rw [Function.iterate_succ_apply', ih, Token.next_numeral]
    rfl

theorem contribute_builder (c : Contribution) :
    (l.builder config).contribute c = (l.add c).builder config := by
  unfold Builder.contribute
  rw [addNames_builder, upcoming_builder]
  -- the empty list comes before the values here and behind them in the builder of the ledger
  have based : (if c.appends = true
        then (({ l with names := l.names ++ c.names } : Ledger).builder config).registerEmptyList
        else ({ l with names := l.names ++ c.names } : Ledger).builder config) =
      ({ l with names := l.names ++ c.names, appended := l.appended || c.appends } : Ledger).builder config := by
    cases c.appends with
    | true =>
      rw [if_pos rfl, registerEmptyList_builder, Bool.or_true]
    | false =>
      rw [if_neg Bool.false_ne_true, Bool.or_false]
  simp only [based, registerAll_builder]
  unfold add
  cases c.clause? with
  | none => rfl
  | some clause => rfl

end Step

end Ledger

end UpdateExpr
