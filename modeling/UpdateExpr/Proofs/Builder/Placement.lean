/-
Contributions in their places. The place of a contribution in a run is the number of values that came
before it, for its keys are those of the numerals behind this number. A contribution in its place
knows the entries that it registers and the clause that it writes; so the values and the clauses of a
run can be read off its contributions in any order, in particular section by section.
-/
import UpdateExpr.Proofs.Builder.ClauseLists
import UpdateExpr.Proofs.Statement.References

namespace UpdateExpr

open Token

/-! ## Sections -/

/-- The section for which a contribution brings a clause. -/
def Contribution.section? (c : Contribution) : Option Section :=
  c.clause?.map (·.1)

/-- The section for which an operation brings a clause. -/
def Operation.section? (op : Operation) : Option Section :=
  op.contribution.section?

theorem flatMap_filter_of_nil {α β : Type} {q : α → Bool} {f : α → List β} {l : List α}
    (h : ∀ a ∈ l, q a = false → f a = []) : (l.filter q).flatMap f = l.flatMap f := by
  induction l with
  | nil => rfl
  | cons a l ih =>
    obtain ⟨first, others⟩ := List.forall_mem_cons.1 h
    rw [List.flatMap_cons, ← ih others]
    cases ha : q a with
    | true => rw [List.filter_cons_of_pos ha, List.flatMap_cons]
    | false => rw [List.filter_cons_of_neg (by simp [ha]), first ha, List.nil_append]

namespace Section

section Grouped

variable {α β : Type} (section? : α → Option Section)

/-- The elements of a list that have a section, section by section. -/
def grouped (l : List α) : List α :=
  all.flatMap fun s => l.filter fun a => section? a = some s

/-- Another order of a list that keeps the order within each section. -/
structure Reordered (l l' : List α) : Prop where
  perm : l'.Perm l
  order : ∀ s, (l'.filter fun a => section? a = some s) = l.filter fun a => section? a = some s

theorem Reordered.grouped_eq {section? : α → Option Section} {l l' : List α} (h : Reordered section? l l') :
    grouped section? l' = grouped section? l :=
  List.flatMap_congr fun s _ => h.order s

theorem Reordered.map {section? : α → Option Section} {l l' : List β} {f : β → α}
    (h : Reordered (section? ∘ f) l l') : Reordered section? (l.map f) (l'.map f) where
  perm := h.perm.map f
  order s := by
    rw [List.filter_map, List.filter_map]
    exact congrArg _ (h.order s)

theorem map_grouped (f : β → α) (l : List β) :
    (grouped (section? ∘ f) l).map f = grouped section? (l.map f) := by
  unfold grouped
  rw [List.map_flatMap]
  simp only [List.filter_map]
  rfl

theorem grouped_filter (q : α → Bool) (l : List α) :
    grouped section? (l.filter q) = (grouped section? l).filter q := by
  unfold grouped
  rw [List.filter_flatMap]
  refine List.flatMap_congr fun s _ => ?_
  rw [List.filter_filter, List.filter_filter]
  simp only [Bool.and_comm]

theorem count_filter_eq [DecidableEq α] (q : α → Bool) (a : α) (l : List α) :
    (l.filter q).count a = if q a then l.count a else 0 := by
  split
  · rename_i h
    exact List.count_filter h
  · rename_i h
    exact List.count_eq_zero.2 fun hm => h (List.mem_filter.1 hm).2

/-- Every element that has a section is in the group of this section and in no other. -/
theorem grouped_perm [DecidableEq α] (l : List α) :
    (grouped section? l).Perm (l.filter fun a => (section? a).isSome) := by
  refine List.perm_iff_count.2 fun a => ?_
  rcases h : section? a with _ | _ | _ | _ | _ <;> simp [grouped, all, count_filter_eq, h]

/-- What only the elements of one section have is found in their group. -/
theorem flatMap_grouped {section? : α → Option Section} {f : α → List β} {s : Section}
    (h : ∀ a, section? a ≠ some s → f a = []) (l : List α) : (grouped section? l).flatMap f = l.flatMap f := by
  have own : (l.filter fun a => section? a = some s).flatMap f = l.flatMap f :=
    flatMap_filter_of_nil fun a _ ha => h a (of_decide_eq_false ha)
  have other : ∀ t, t ≠ s → (l.filter fun a => section? a = some t).flatMap f = [] := by
    intro t ht
    refine List.flatMap_eq_nil_iff.2 fun a ha => h a fun hs => ht ?_
    have := of_decide_eq_true (List.mem_filter.1 ha).2
    exact Option.some.inj (this.symm.trans hs)
  unfold grouped all
  rw [List.flatMap_assoc]
  cases s <;> simp [own, other]

end Grouped

end Section

/-! ## Places -/

/-- A contribution and the number of values that came before it. -/
structure Placed where
  contribution : Contribution
  before : Nat
deriving DecidableEq

namespace Placed

/-- The key of the `i`-th value of a contribution in its place. -/
def key (x : Placed) (i : Nat) : String :=
  Token.key (numeral (x.before + i + 1))

/-- The keys of the values. -/
def keys (x : Placed) : List String :=
  (List.range x.contribution.values.length).map x.key

/-- The entries of the values. -/
def entries (x : Placed) : List (String × AttributeValue) :=
  x.contribution.values.mapIdx fun i value => (x.key i, value)

/-- The clause for a section, if there is one, with every key of a value renamed. -/
def clauseIn (x : Placed) (s : Section) (rename : String → String) : List String :=
  x.contribution.clauseIn s fun i => rename (x.key i)

theorem map_fst_entries (x : Placed) : x.entries.map (·.1) = x.keys := by
  unfold entries keys
  apply List.ext_getElem
  · simp
  · simp

theorem map_snd_entries (x : Placed) : x.entries.map (·.2) = x.contribution.values := by
  unfold entries
  apply List.ext_getElem
  · simp
  · simp

end Placed

/-- Contributions, one after the other, in their places, `start` values being there before. -/
def placed : (start : Nat) → List Contribution → List Placed
  | _, [] => []
  | start, c :: rest => ⟨c, start⟩ :: placed (start + c.values.length) rest

theorem map_contribution_placed (start : Nat) (cs : List Contribution) :
    (placed start cs).map (·.contribution) = cs := by
  induction cs generalizing start with
  | nil => rfl
  | cons c rest ih => exact congrArg (c :: ·) (ih _)

/-- Contributions without values take no place. -/
theorem placed_filter {q : Contribution → Bool} {cs : List Contribution}
    (h : ∀ c ∈ cs, q c = false → c.values = []) (start : Nat) :
    placed start (cs.filter q) = (placed start cs).filter fun x => q x.contribution := by
  induction cs generalizing start with
  | nil => rfl
  | cons c rest ih =>
    obtain ⟨first, others⟩ := List.forall_mem_cons.1 h
    cases hc : q c with
    | true => simp only [placed, List.filter_cons, hc, if_true, ih others]
    | false =>
      simp only [placed, List.filter_cons, hc, Bool.false_eq_true, if_false, first hc, List.length_nil, Nat.add_zero,
        ih others]

theorem entries_placed (start : Nat) (cs : List Contribution) :
    (placed start cs).flatMap Placed.entries =
      (cs.flatMap (·.values)).mapIdx fun i value => (Token.key (numeral (start + i + 1)), value) := by
  induction cs generalizing start with
  | nil => rfl
  | cons c rest ih =>
    rw [placed, List.flatMap_cons, List.flatMap_cons, List.mapIdx_append, ih]
    simp only [Placed.entries, Placed.key, Nat.add_assoc, Nat.add_comm, Nat.add_left_comm]

theorem clausesFrom_eq_placed (start : Nat) (cs : List Contribution) (s : Section) :
    Ledger.clausesFrom start cs s = (placed start cs).flatMap (·.clauseIn s id) := by
  induction cs generalizing start with
  | nil => rfl
  | cons c rest ih =>
    rw [Ledger.clausesFrom_cons, placed, List.flatMap_cons, ih]
    rfl

/-! ## Contributions section by section -/

/-- A contribution whose clause has a place for each of its values, and whose values come with a clause
that is no removal. -/
structure Contribution.Fits (c : Contribution) : Prop where
  slots : ∀ s form, c.clause? = some (s, form) → form.slots = c.values.length
  valueless : c.section? = none → c.values = []
  removal : c.section? = some .remove → c.values = []

theorem SetAction.section?_contribution (action : SetAction) : action.contribution.section? = some .set := by
  cases action <;> rfl

/-- Only registered values have no clause. -/
theorem Operation.fits_contribution {op : Operation} (h : ∀ value, op ≠ .register value) : op.contribution.Fits := by
  have other : ∀ {c : Contribution} {s : Option Section}, c.section? = some .set → s ≠ some .set →
      c.section? = s → c.values = [] := fun hset hs h => absurd (h.symm.trans hset) hs
  refine ⟨fun _ _ hc => slots_contribution hc, fun hs => ?_, fun hs => ?_⟩
  all_goals
    cases op with
    | set request =>
      rcases ha : SetAction.ofRequest request with cause | a
      · rw [contribution_set_error ha]
      · rw [contribution_set_ok ha] at hs ⊢
        exact other a.section?_contribution (by decide) hs
    | act a => exact other a.section?_contribution (by decide) hs
    | register value => exact absurd rfl (h value)
    | addNames pairs => rfl
    | remove request => rfl
    | _ => cases hs

/-- A clause depends on the keys of its own values only. -/
theorem ClauseForm.text_congr {form : ClauseForm} {key key' : Nat → String} (h : ∀ i < form.slots, key i = key' i) :
    form.text key = form.text key' := by
  cases form with
  | raw fragment => rfl
  | remove path => rfl
  | valued path => simp only [text, h 0 Nat.one_pos]
  | assign path onlyIfAbsent => cases onlyIfAbsent <;> simp only [text, h 0 Nat.one_pos]
  | append path listEnd => cases listEnd <;> simp only [text, h 0 Nat.one_pos]
  | increment path => simp only [text, h 0 Nat.two_pos, h 1 Nat.one_lt_two]

namespace Placed

/-- The contributions of a run in their places, section by section. -/
def bySection (cs : List Contribution) : List Placed :=
  Section.grouped (Contribution.section? ∘ contribution) (placed 0 cs)

/-- The keys of the values of a run, section by section. -/
def keysBySection (cs : List Contribution) : List String :=
  (bySection cs).flatMap keys

theorem map_contribution_bySection (cs : List Contribution) :
    (bySection cs).map contribution = Section.grouped Contribution.section? cs := by
  unfold bySection
  rw [Section.map_grouped]
  exact congrArg _ (map_contribution_placed 0 cs)

theorem map_fst_bySection (cs : List Contribution) :
    ((bySection cs).flatMap entries).map (·.1) = keysBySection cs := by
  rw [List.map_flatMap]
  simp only [map_fst_entries]
  rfl

theorem map_snd_bySection (cs : List Contribution) :
    ((bySection cs).flatMap entries).map (·.2) = (Section.grouped Contribution.section? cs).flatMap (·.values) := by
  rw [List.map_flatMap, ← map_contribution_bySection, List.flatMap_map]
  simp only [map_snd_entries]

/-- Section by section the same clauses are found. -/
theorem flatMap_clauseIn_bySection (cs : List Contribution) (s : Section) (rename : String → String) :
    (bySection cs).flatMap (·.clauseIn s rename) = (placed 0 cs).flatMap (·.clauseIn s rename) := by
  refine Section.flatMap_grouped (fun x (hx : _ ≠ some s) => ?_) (placed 0 cs)
  unfold clauseIn Contribution.clauseIn
  cases hc : x.contribution.clause? with
  | none => rfl
  | some clause =>
    refine if_neg fun hs => hx ?_
    rw [Function.comp_apply, Contribution.section?, hc, ← hs]
    rfl

theorem contribution_mem_of_mem_placed {start : Nat} {cs : List Contribution} {x : Placed} (h : x ∈ placed start cs) :
    x.contribution ∈ cs := by
  rw [← map_contribution_placed start cs]
  exact List.mem_map.2 ⟨x, h, rfl⟩

theorem contribution_mem_of_mem_bySection {cs : List Contribution} {x : Placed} (h : x ∈ bySection cs) :
    x.contribution ∈ cs := by
  obtain ⟨s, -, hx⟩ := List.mem_flatMap.1 h
  exact contribution_mem_of_mem_placed (List.mem_filter.1 hx).1

/-- If values come with clauses only, all of them are found section by section. -/
theorem entries_bySection_perm {cs : List Contribution} (h : ∀ c ∈ cs, c.Fits) :
    ((bySection cs).flatMap entries).Perm (Ledger.numbered (cs.flatMap (·.values))) := by
  have all : ((placed 0 cs).filter fun x => (x.contribution.section?).isSome).flatMap entries =
      (placed 0 cs).flatMap entries := by
    refine flatMap_filter_of_nil fun x hx none => ?_
    have fits := h _ (contribution_mem_of_mem_placed hx)
    unfold entries
    rw [fits.valueless (Option.isNone_iff_eq_none.1 (Option.isSome_eq_false_iff.1 none))]
    rfl
  have numbered : (placed 0 cs).flatMap entries = Ledger.numbered (cs.flatMap (·.values)) := by
    rw [entries_placed]
    simp only [Nat.zero_add]
    rfl
  rw [← numbered, ← all]
  exact (Section.grouped_perm _ _).flatMap_right entries

theorem nodup_keysBySection {cs : List Contribution} (h : ∀ c ∈ cs, c.Fits) : (keysBySection cs).Nodup := by
  have nodup := Ledger.nodup_keys (cs.flatMap (·.values)) false
  rw [Ledger.sentinel, if_neg Bool.false_ne_true, List.append_nil] at nodup
  rw [← map_fst_bySection]
  exact (((entries_bySection_perm h).map _).nodup_iff).2 nodup

theorem emptyListKey_not_mem_keysBySection {cs : List Contribution} : emptyListKey ∉ keysBySection cs := by
  intro hk
  obtain ⟨x, -, hk⟩ := List.mem_flatMap.1 hk
  obtain ⟨i, -, hi⟩ := List.mem_map.1 hk
  exact key_numeral_ne_emptyListKey _ hi

/-- If the keys of the values are renamed, place by place, so are the clauses. -/
theorem flatMap_clauseIn_renamed {xs ys : List Placed} {p : String → String} (hf : ∀ x ∈ xs, x.contribution.Fits)
    (hc : xs.map contribution = ys.map contribution) (hk : (xs.flatMap keys).map p = ys.flatMap keys) (s : Section) :
    xs.flatMap (·.clauseIn s p) = ys.flatMap (·.clauseIn s id) := by
  induction xs generalizing ys with
  | nil =>
    rw [List.map_eq_nil_iff.1 hc.symm]
    rfl
  | cons x xs ih =>
    obtain ⟨fits, hf⟩ := List.forall_mem_cons.1 hf
    cases ys with
    | nil => cases hc
    | cons y ys =>
      rw [List.map_cons, List.map_cons, List.cons.injEq] at hc
      rw [List.flatMap_cons, List.flatMap_cons, List.map_append] at hk
      have length : (x.keys.map p).length = y.keys.length := by
        unfold keys
        simp only [List.length_map, List.length_range, hc.1]
      obtain ⟨first, others⟩ := List.append_inj hk length
      unfold keys at first
      rw [List.map_map, ← hc.1, List.map_inj_left] at first
      rw [List.flatMap_cons, List.flatMap_cons, ih hf hc.2 others]
      refine congrArg (· ++ _) ?_
      unfold clauseIn Contribution.clauseIn
      rw [← hc.1]
      cases hclause : x.contribution.clause? with
      | none => rfl
      | some clause =>
        obtain ⟨t, form⟩ := clause
        -- the keys that the clause mentions are those that are renamed
        have same : form.text (fun i => p (x.key i)) = form.text (fun i => id (y.key i)) := by
          refine ClauseForm.text_congr fun i hi => ?_
          rw [fits.slots t form hclause] at hi
          exact first i (List.mem_range.2 hi)
        simp only [same]

/-- Contributions without values take no keys. -/
theorem keysBySection_filter {q : Contribution → Bool} {cs : List Contribution}
    (h : ∀ c ∈ cs, q c = false → c.values = []) : keysBySection (cs.filter q) = keysBySection cs := by
  unfold keysBySection
  have filtered : bySection (cs.filter q) = (bySection cs).filter fun x => q x.contribution := by
    unfold bySection
    rw [placed_filter h, Section.grouped_filter]
  rw [filtered]
  refine flatMap_filter_of_nil fun x hx hq => ?_
  unfold keys
  rw [h _ (contribution_mem_of_mem_bySection hx) hq]
  rfl

end Placed

end UpdateExpr
