/-
The order of operations across sections matters only for the names of the keys. Let the operations of
a run come in another order that keeps the order within each section. Section by section the same
contributions come in the same order, so section by section the keys of one run can be renamed, place
by place, to the keys of the other. The renaming takes the value table of the one run to that of the
other, and the clauses of every section too; and the tables of aliases are the same, as long as no
alias is declared in two ways. Removals take no keys, so where only they are moved nothing is renamed.
-/
import Mathlib.Data.Set.Function
import UpdateExpr.Proofs.Builder.Erasure
import UpdateExpr.Proofs.Builder.Placement

namespace UpdateExpr

open Token

/-! ## Renaming keys -/

namespace Token

/-- Renames some keys to others, place by place. Every other key stays as it is. -/
def relabel : List String → List String → String → String
  | old :: olds, new :: news, key => if key = old then new else relabel olds news key
  | _, _, key => key

theorem relabel_of_not_mem {olds : List String} {key : String} (h : key ∉ olds) (news : List String) :
    relabel olds news key = key := by
  induction olds generalizing news with
  | nil => rfl
  | cons old olds ih =>
    cases news with
    | nil => rfl
    | cons new news =>
      rw [List.mem_cons, not_or] at h
      rw [relabel, if_neg h.1, ih h.2]

theorem relabel_self (keys : List String) : relabel keys keys = id := by
  funext key
  induction keys with
  | nil => rfl
  | cons k keys ih =>
    rw [relabel]
    split
    · rename_i h
      exact h.symm
    · exact ih

theorem map_relabel {olds news : List String} (hn : olds.Nodup) (hl : olds.length = news.length) :
    olds.map (relabel olds news) = news := by
  induction olds generalizing news with
  | nil => exact (List.eq_nil_of_length_eq_zero hl.symm).symm
  | cons old olds ih =>
    cases news with
    | nil => cases hl
    | cons new news =>
      obtain ⟨fresh, hn⟩ := List.nodup_cons.1 hn
      have others : olds.map (relabel (old :: olds) (new :: news)) = olds.map (relabel olds news) := by
        refine List.map_congr_left fun key hk => ?_
        have : key ≠ old := fun e => fresh (e ▸ hk)
        rw [relabel, if_neg this]
      rw [List.map_cons, others, ih hn (Nat.succ.inj hl), relabel, if_pos rfl]

end Token

/-- Pairs whose keys are renamed place by place. -/
theorem map_prod_eq {α : Type} {p : String → String} {olds news : List (String × α)}
    (hk : (olds.map (·.1)).map p = news.map (·.1)) (hv : olds.map (·.2) = news.map (·.2)) :
    olds.map (Prod.map p id) = news := by
  induction olds generalizing news with
  | nil => exact (List.map_eq_nil_iff.1 hv.symm).symm
  | cons old olds ih =>
    cases news with
    | nil => cases hv
    | cons new news =>
      rw [List.map_cons, List.map_cons, List.map_cons, List.cons.injEq] at hk
      rw [List.map_cons, List.map_cons, List.cons.injEq] at hv
      rw [List.map_cons, ih hk.2 hv.2]
      exact congrArg (· :: news) (Prod.ext hk.1 hv.1)

namespace Table

variable {α : Type} {t t' : Table α} {p : String → String}

/-- A table whose entries are those of another one with the keys renamed: the renaming is a bijection
between the keys, and the values are the same. -/
theorem bijOn_keys (h : t'.entries.Perm (t.entries.map (Prod.map p id))) :
    Set.BijOn p {key | key ∈ t.keys} {key | key ∈ t'.keys} ∧
      ∀ key value, t.find? key = some value → t'.find? (p key) = some value := by
  have keys : t'.keys.Perm (t.keys.map p) := by
    have := h.map (·.1)
    rw [List.map_map] at this
    unfold Table.keys
    rw [List.map_map]
    exact this
  have nodup : (t.keys.map p).Nodup := keys.nodup_iff.1 t'.sorted.nodup_keys
  refine ⟨⟨fun key hk => ?_, fun key hk other ho => ?_, fun key hk => ?_⟩, fun key value hf => ?_⟩
  · exact keys.mem_iff.2 (List.mem_map.2 ⟨key, hk, rfl⟩)
  · exact List.inj_on_of_nodup_map nodup hk ho
  · obtain ⟨old, ho, rfl⟩ := List.mem_map.1 (keys.mem_iff.1 hk)
    exact ⟨old, ho, rfl⟩
  · rw [← mem_entries_iff] at hf ⊢
    exact h.mem_iff.2 (List.mem_map.2 ⟨_, hf, rfl⟩)

end Table

/-! ## Contributions in another order -/

theorem Ledger.appended_addAll_perm {cs cs' : List Contribution} (h : cs'.Perm cs) :
    (({} : Ledger).addAll cs').appended = (({} : Ledger).addAll cs).appended := by
  rw [appended_addAll, appended_addAll, h.any_eq]

namespace Placed

/-- Renames the keys of a run to those of another run, place by place in every section. -/
def rename (cs cs' : List Contribution) : String → String :=
  relabel (keysBySection cs) (keysBySection cs')

theorem rename_emptyListKey (cs cs' : List Contribution) : rename cs cs' emptyListKey = emptyListKey :=
  relabel_of_not_mem emptyListKey_not_mem_keysBySection _

section Reordered

variable {cs cs' : List Contribution} (hf : ∀ c ∈ cs, c.Fits) (ho : Section.Reordered Contribution.section? cs cs')
include hf ho

theorem map_keysBySection : (keysBySection cs).map (rename cs cs') = keysBySection cs' := by
  refine map_relabel (nodup_keysBySection hf) ?_
  have values : ((bySection cs).flatMap entries).map (·.2) = ((bySection cs').flatMap entries).map (·.2) := by
    rw [map_snd_bySection, map_snd_bySection, ho.grouped_eq]
  have := congrArg List.length values
  rw [List.length_map, List.length_map] at this
  rw [← map_fst_bySection, ← map_fst_bySection, List.length_map, List.length_map, this]

theorem entries_renamed :
    ((bySection cs).flatMap entries).map (Prod.map (rename cs cs') id) = (bySection cs').flatMap entries := by
  refine map_prod_eq ?_ ?_
  · rw [map_fst_bySection, map_fst_bySection, map_keysBySection hf ho]
  · rw [map_snd_bySection, map_snd_bySection, ho.grouped_eq]

theorem clauses_renamed (s : Section) :
    (placed 0 cs').flatMap (·.clauseIn s id) = (placed 0 cs).flatMap (·.clauseIn s (rename cs cs')) := by
  rw [← flatMap_clauseIn_bySection, ← flatMap_clauseIn_bySection cs]
  refine (flatMap_clauseIn_renamed (fun x hx => hf _ (contribution_mem_of_mem_bySection hx)) ?_
    (map_keysBySection hf ho) s).symm
  rw [map_contribution_bySection, map_contribution_bySection, ho.grouped_eq]

/-- The value table of the one run is that of the other with the keys renamed. -/
theorem values_renamed (config config' : Config) :
    ((({} : Ledger).addAll cs').builder config').values.entries.Perm
      (((({} : Ledger).addAll cs).builder config).values.entries.map (Prod.map (rename cs cs') id)) := by
  have hf' : ∀ c ∈ cs', c.Fits := fun c hc => hf c (ho.perm.subset hc)
  have values : ∀ cs : List Contribution, (({} : Ledger).addAll cs).values = cs.flatMap (·.values) :=
    Ledger.values_addAll {}
  have sentinel : ∀ a, (Ledger.sentinel a).map (Prod.map (rename cs cs') id) = Ledger.sentinel a := by
    intro a
    cases a with
    | false => rfl
    | true => exact congrArg (fun key => [(key, AttributeValue.emptyList)]) (rename_emptyListKey cs cs')
  have first := Ledger.entries_perm config (({} : Ledger).addAll cs)
  have second := Ledger.entries_perm config' (({} : Ledger).addAll cs')
  rw [values] at first second
  rw [Ledger.appended_addAll_perm ho.perm] at second
  refine second.trans (List.Perm.trans ?_ (first.map _).symm)
  rw [List.map_append, sentinel]
  refine List.Perm.append_right _ ?_
  refine (entries_bySection_perm hf').symm.trans ?_
  rw [← entries_renamed hf ho]
  exact (entries_bySection_perm hf).map _

omit ho in
/-- Where only removals are moved, nothing is renamed. -/
theorem rename_of_removals (hf' : ∀ c ∈ cs', c.Fits)
    (rest : (cs'.filter fun c => c.section? ≠ some .remove) = cs.filter fun c => c.section? ≠ some .remove) :
    rename cs cs' = id ∧ cs'.flatMap (·.values) = cs.flatMap (·.values) := by
  have valueless : ∀ {cs : List Contribution}, (∀ c ∈ cs, c.Fits) →
      ∀ c ∈ cs, decide (c.section? ≠ some .remove) = false → c.values = [] := by
    intro cs hf c hc h
    exact (hf c hc).removal (Classical.not_not.1 (of_decide_eq_false h))
  constructor
  · unfold rename
    rw [← keysBySection_filter (valueless hf), ← keysBySection_filter (valueless hf'), rest]
    exact relabel_self _
  · rw [← flatMap_filter_of_nil (valueless hf), ← flatMap_filter_of_nil (valueless hf'), rest]

end Reordered

end Placed

/-! ## Runs in another order -/

/-- A run in which nothing is refused accepts all of its operations. -/
theorem Operation.accepted_of_isOk {ops : List Operation} {b : Builder}
    (h : ∀ result ∈ (runAll ops b).1, result.isOk = true) : accepted ops b = ops := by
  induction ops generalizing b with
  | nil => rfl
  | cons op ops ih =>
    unfold runAll at h
    obtain ⟨first, others⟩ := List.forall_mem_cons.1 h
    unfold accepted
    rcases hr : op.run b with ⟨_ | _, b'⟩
    · rw [hr] at first
      cases first
    · rw [hr] at others
      exact congrArg (op :: ·) (ih others)

namespace Ledger

/-- A run in which nothing is refused reaches the ledger of all of its contributions. -/
theorem runAll_new_of_isOk {config : Config} {ops : List Operation}
    (h : ∀ result ∈ (Operation.runAll ops (.new config)).1, result.isOk = true) :
    (Operation.runAll ops (.new config)).2 =
      (({} : Ledger).addAll (ops.map Operation.contribution)).builder config := by
  rw [runAll_new, Operation.contributions, Operation.accepted_of_isOk h]

theorem get_addAll_placed (cs : List Contribution) (s : Section) :
    (({} : Ledger).addAll cs).clauses.get s = (placed 0 cs).flatMap (·.clauseIn s id) := by
  rw [get_addAll, Clauses.get_empty, List.nil_append]
  exact clausesFrom_eq_placed 0 cs s

/-- Aliases that are nowhere declared in two ways are merged to the same table in any order. -/
theorem names_builder_eq {cs cs' : List Contribution} (hp : cs'.Perm cs)
    (agree : ∀ c ∈ cs, ∀ d ∈ cs, ∀ p ∈ c.names, ∀ q ∈ d.names, p.1 = q.1 → p.2 = q.2) (config config' : Config) :
    ((({} : Ledger).addAll cs').builder config').names = ((({} : Ledger).addAll cs).builder config).names := by
  unfold builder
  rw [names_addAll, names_addAll]
  refine Table.ofPairs_eq_of_perm (hp.flatMap_right _) fun p hp q hq => ?_
  obtain ⟨c, hc, hp⟩ := List.mem_flatMap.1 hp
  obtain ⟨d, hd, hq⟩ := List.mem_flatMap.1 hq
  exact agree c hc d hd p hp q hq

end Ledger

namespace Builder

/-- Take two runs of which nothing is refused, where the operations of the second are those of the first
in an order that keeps the order within each section; no value is registered by itself, and no alias
is declared in two ways. Then the tables of aliases are the same, and there is a bijection between the
keys of the value tables that fixes the key of the empty list, takes every key to one with the same
value, and takes the clauses of every section, written with the keys of the first run, to those of the
second. If the operations that are no removals keep their order, the bijection is the identity, and
the builders differ in nothing but their configurations. -/
theorem runAll_reordered (config config' : Config) {ops ops' : List Operation}
    (hok : ∀ result ∈ (Operation.runAll ops (.new config)).1, result.isOk = true)
    (hok' : ∀ result ∈ (Operation.runAll ops' (.new config')).1, result.isOk = true)
    (hr : ∀ op ∈ ops, ∀ value, op ≠ .register value) (ho : Section.Reordered Operation.section? ops ops')
    (agree : ∀ op ∈ ops, ∀ op' ∈ ops, ∀ p ∈ op.contribution.names, ∀ q ∈ op'.contribution.names,
      p.1 = q.1 → p.2 = q.2) :
    let b := (Operation.runAll ops (.new config)).2
    let b' := (Operation.runAll ops' (.new config')).2
    let done := placed 0 (ops.map Operation.contribution)
    b'.names = b.names ∧ ∃ p : String → String,
      Set.BijOn p {key | key ∈ b.values.keys} {key | key ∈ b'.values.keys} ∧
      p ":zz_empty_list" = ":zz_empty_list" ∧
      (∀ key value, b.values.find? key = some value → b'.values.find? (p key) = some value) ∧
      (∀ s, b.clauses.get s = done.flatMap (·.clauseIn s id) ∧ b'.clauses.get s = done.flatMap (·.clauseIn s p)) ∧
      ((ops'.filter fun op => op.section? ≠ some .remove) = (ops.filter fun op => op.section? ≠ some .remove) →
        p = id ∧ b' = { b with config := config' }) := by
  intro b b' done
  let cs := ops.map Operation.contribution
  let cs' := ops'.map Operation.contribution
  have reached : b = (({} : Ledger).addAll cs).builder config := Ledger.runAll_new_of_isOk hok
  have reached' : b' = (({} : Ledger).addAll cs').builder config' := Ledger.runAll_new_of_isOk hok'
  have hf : ∀ c ∈ cs, c.Fits := by
    intro c hc
    obtain ⟨op, hop, rfl⟩ := List.mem_map.1 hc
    exact Operation.fits_contribution (hr op hop)
  have order : Section.Reordered Contribution.section? cs cs' := Section.Reordered.map ho
  have names : b'.names = b.names := by
    rw [reached, reached']
    refine Ledger.names_builder_eq order.perm (fun c hc d hd => ?_) config config'
    obtain ⟨op, hop, rfl⟩ := List.mem_map.1 hc
    obtain ⟨op', hop', rfl⟩ := List.mem_map.1 hd
    exact agree op hop op' hop'
  have clauses : ∀ s, b.clauses.get s = done.flatMap (·.clauseIn s id) := by
    intro s
    rw [reached]
    exact Ledger.get_addAll_placed cs s
  have clauses' : ∀ s, b'.clauses.get s = done.flatMap (·.clauseIn s (Placed.rename cs cs')) := by
    intro s
    rw [reached']
    exact (Ledger.get_addAll_placed cs' s).trans (Placed.clauses_renamed hf order s)
  have entries : b'.values.entries.Perm (b.values.entries.map (Prod.map (Placed.rename cs cs') id)) := by
    rw [reached, reached']
    exact Placed.values_renamed hf order config config'
  obtain ⟨bijective, found⟩ := Table.bijOn_keys entries
  refine ⟨names, Placed.rename cs cs', bijective, Placed.rename_emptyListKey cs cs', found,
    fun s => ⟨clauses s, clauses' s⟩, fun rest => ?_⟩
  have rest_contributed : (cs'.filter fun c => c.section? ≠ some .remove) =
      cs.filter fun c => c.section? ≠ some .remove := by
    rw [List.filter_map, List.filter_map]
    exact congrArg _ rest
  obtain ⟨identity, values⟩ := Placed.rename_of_removals hf (fun c hc => hf c (order.perm.subset hc)) rest_contributed
  refine ⟨identity, ?_⟩
  have same : b'.clauses = b.clauses := by
    refine Clauses.ext_get fun s => ?_
    rw [clauses, clauses', identity]
  rw [reached, reached'] at same names ⊢
  refine Ledger.builder_eq same names ?_ (Ledger.appended_addAll_perm order.perm)
  rw [Ledger.values_addAll, Ledger.values_addAll, values]

/-- The keys of an increment and of an append move behind that of an addition, with an alias declared
twice; and a removal is moved to the end. -/
theorem runAll_reordered_interleaved :
    let increment : Operation := .increment { path := "#p.n", names := .ofPairs [("p", "profile")] }
    let append : Operation := .append "tags" [.string "a"] .back
    let add : Operation := .add { path := "#p.n", names := .ofPairs [("p", "profile")], value := .number "1" }
    let remove : Operation := .remove { path := "old" }
    let ops : List Operation := [remove, increment, append, add]
    let b := (Operation.runAll ops (.new {})).2
    let moved := (Operation.runAll [add, increment, remove, append] (.new {})).2
    let done := placed 0 (ops.map Operation.contribution)
    (∃ p : String → String, Set.BijOn p {key | key ∈ b.values.keys} {key | key ∈ moved.values.keys} ∧
      ∀ s, moved.clauses.get s = done.flatMap (·.clauseIn s p)) ∧
    (Operation.runAll [increment, append, add, remove] (.new {})).2 = b := by
  intro increment append add remove ops b moved done
  have accepted : ∀ result ∈ (Operation.runAll ops (.new {})).1, result.isOk = true := by decide
  have single : ∀ op ∈ ops, ∀ value, op ≠ .register value := by
    intro op hop value h
    subst h
    simp [ops, increment, append, add, remove] at hop
  have agree : ∀ op ∈ ops, ∀ op' ∈ ops, ∀ p ∈ op.contribution.names, ∀ q ∈ op'.contribution.names,
      p.1 = q.1 → p.2 = q.2 := by decide
  have across : Section.Reordered Operation.section? ops [add, increment, remove, append] :=
    ⟨by decide, by intro s; cases s <;> rfl⟩
  have last : Section.Reordered Operation.section? ops [increment, append, add, remove] :=
    ⟨by decide, by intro s; cases s <;> rfl⟩
  obtain ⟨-, p, bijective, -, -, clauses, -⟩ := runAll_reordered {} {} accepted (by decide) single across agree
  obtain ⟨-, _, -, -, -, -, equal⟩ := runAll_reordered {} {} accepted (by decide) single last agree
  exact ⟨⟨p, bijective, fun s => (clauses s).2⟩, (equal rfl).2⟩

end Builder

end UpdateExpr
