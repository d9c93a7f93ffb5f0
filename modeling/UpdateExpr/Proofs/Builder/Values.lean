/-
The value table of a run. It binds the key of the numeral of `i` to the `i`-th value that the
operations of the run registered, and the key of the empty list to the empty list if one of them
appended to a list; nothing else is in it, and what is in it stays there whatever comes later.
-/
import UpdateExpr.Proofs.Builder.Run

namespace UpdateExpr

open Token

namespace Ledger

theorem entries_perm (config : Config) (l : Ledger) :
    (l.builder config).values.entries.Perm (numbered l.values ++ sentinel l.appended) :=
  Table.entries_ofPairs_perm (nodup_keys l.values l.appended)

theorem mem_sentinel {appended : Bool} {key : String} {value : AttributeValue} :
    (key, value) ∈ sentinel appended ↔ appended = true ∧ key = emptyListKey ∧ value = .emptyList := by
  unfold sentinel
  cases appended with
  | false =>
    constructor
    · intro h
      cases h
    · rintro ⟨h, -⟩
      cases h
  | true =>
    rw [if_pos rfl, List.mem_singleton, Prod.mk.injEq]
    constructor
    · rintro h
      exact ⟨rfl, h⟩
    · rintro ⟨-, h⟩
      exact h

/-- The entries of the builder of a ledger. -/
theorem mem_entries_builder {config : Config} {l : Ledger} {key : String} {value : AttributeValue} :
    (key, value) ∈ (l.builder config).values.entries ↔
      (∃ i, l.values[i]? = some value ∧ key = Token.key (numeral (i + 1))) ∨
        l.appended = true ∧ key = emptyListKey ∧ value = .emptyList := by
  rw [(entries_perm config l).mem_iff, List.mem_append, mem_numbered, mem_sentinel]

theorem length_entries_builder (config : Config) (l : Ledger) :
    (l.builder config).values.entries.length = l.values.length + if l.appended then 1 else 0 := by
  rw [(entries_perm config l).length_eq, List.length_append]
  unfold numbered sentinel
  rw [List.length_mapIdx]
  cases l.appended <;> rfl

/-- The key of the empty list is there exactly if a list was appended to: no numeral takes its place. -/
theorem isSome_find?_emptyListKey (config : Config) (l : Ledger) :
    ((l.builder config).values.find? emptyListKey).isSome = l.appended := by
  rw [Bool.eq_iff_iff, Option.isSome_iff_exists]
  constructor
  · rintro ⟨value, h⟩
    rcases mem_entries_builder.1 (Table.mem_entries_iff.2 h) with ⟨i, -, hi⟩ | ⟨h, -⟩
    · exact absurd hi.symm (key_numeral_ne_emptyListKey _)
    · exact h
  · intro h
    exact ⟨_, Table.mem_entries_iff.1 (mem_entries_builder.2 (.inr ⟨h, rfl, rfl⟩))⟩

/-- More contributions leave the entries where they are. -/
theorem entries_subset_addAll (config : Config) (l : Ledger) (cs : List Contribution) :
    (l.builder config).values.entries ⊆ ((l.addAll cs).builder config).values.entries := by
  rintro ⟨key, value⟩ h
  rw [mem_entries_builder] at h ⊢
  rw [values_addAll, appended_addAll]
  rcases h with ⟨i, hi, hk⟩ | ⟨ha, hk⟩
  · have hlt : i < l.values.length := (List.getElem?_eq_some_iff.1 hi).1
    exact .inl ⟨i, by rw [List.getElem?_append_left hlt, hi], hk⟩
  · exact .inr ⟨by rw [ha, Bool.true_or], hk⟩

end Ledger

namespace Builder

/-- In the state that any run reaches from a fresh builder, the value table binds the key of the
`i`-th numeral to the `i`-th registered value, and beside these it binds the key of the empty list
exactly if a list was appended to, which the flag of the builder tells. No numeral has the key of the
empty list, and no later operation removes or changes an entry. -/
theorem values_runAll (config : Config) (ops : List Operation) :
    let b := (Operation.runAll ops (.new config)).2
    let done := Operation.contributions ops (.new config)
    let values := done.flatMap (·.values)
    let appended := done.any (·.appends)
    (∀ key value, b.values.find? key = some value ↔
      (∃ i, values[i]? = some value ∧ key = ":" ++ numeral (i + 1)) ∨
        appended = true ∧ key = ":zz_empty_list" ∧ value = .list []) ∧
    b.values.entries.length = values.length + (if appended then 1 else 0) ∧
    b.hasEmptyList = appended ∧ (b.values.find? ":zz_empty_list").isSome = b.hasEmptyList ∧
    (∀ n, ":" ++ numeral n ≠ ":zz_empty_list") ∧
    ∀ more, b.values.entries ⊆ (Operation.runAll more b).2.values.entries := by
  intro b done values appended
  -- the table is read off the ledger of the run, in which no key has a say
  let l : Ledger := ({} : Ledger).addAll done
  have hb : b = l.builder config := Ledger.runAll_new config ops
  have hv : l.values = values := Ledger.values_addAll {} done
  have ha : l.appended = appended := Ledger.appended_addAll {} done
  rw [hb, ← hv, ← ha]
  refine ⟨fun key value => ?_, l.length_entries_builder config, rfl, l.isSome_find?_emptyListKey config,
    key_numeral_ne_emptyListKey, fun more => ?_⟩
  · rw [← Table.mem_entries_iff]
    exact Ledger.mem_entries_builder
  · rw [Ledger.runAll_builder]
    exact l.entries_subset_addAll config _

end Builder

end UpdateExpr
