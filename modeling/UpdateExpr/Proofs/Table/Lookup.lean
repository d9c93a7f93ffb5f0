/-
Tables through lookup. Writing under a key changes what is found under that key and nothing else,
and a table is determined by what is found in it. So writes under different keys commute, and a
table made of pairs with different keys holds exactly these pairs.
-/
import UpdateExpr.Table

namespace UpdateExpr

variable {α : Type}

namespace Entries

/-! ## Lookup -/

theorem lookup_cons (key k : String) (v : α) (rest : Entries α) :
    List.lookup key ((k, v) :: rest) = if key = k then some v else List.lookup key rest := by
  rw [List.lookup_cons]
  by_cases h : key = k
  · rw [if_pos h, beq_iff_eq.2 h]
  · rw [if_neg h, beq_eq_false_iff_ne.2 h]

theorem lookup_insert (key other : String) (value : α) (entries : Entries α) :
    List.lookup other (insert key value entries) =
      if other = key then some value else List.lookup other entries := by
  induction entries with
  | nil =>
    unfold insert
    rw [lookup_cons]
  | cons q rest ih =>
    obtain ⟨k, v⟩ := q
    unfold insert
    split
    · rw [lookup_cons]
    · split
      · rename_i heq
        subst heq
        rw [lookup_cons, lookup_cons]
        split <;> rfl
      · rename_i hne
        rw [lookup_cons, lookup_cons, ih]
        by_cases h : other = k
        · rw [if_pos h, if_neg fun e => hne (e.symm.trans h), if_pos h]
        · rw [if_neg h, if_neg h]

theorem mem_of_lookup {key : String} {value : α} {entries : Entries α}
    (h : List.lookup key entries = some value) : (key, value) ∈ entries := by
  obtain ⟨before, after, rfl, -⟩ := List.lookup_eq_some_iff.1 h
  exact List.mem_append_right _ (List.mem_cons_self ..)

theorem lookup_of_mem {key : String} {value : α} {entries : Entries α} (hn : (entries.map (·.1)).Nodup)
    (h : (key, value) ∈ entries) : List.lookup key entries = some value := by
  induction entries with
  | nil => cases h
  | cons q rest ih =>
    obtain ⟨k, v⟩ := q
    rw [List.map_cons, List.nodup_cons] at hn
    rw [lookup_cons]
    rcases List.mem_cons.1 h with heq | hr
    · cases heq
      rw [if_pos rfl]
    · have : key ≠ k := by
        rintro rfl
        exact hn.1 (List.mem_map.2 ⟨_, hr, rfl⟩)
      rw [if_neg this, ih hn.2 hr]

theorem mem_insertAll {pairs : List (String × α)} {entries : Entries α} {p : String × α}
    (h : p ∈ insertAll entries pairs) : p ∈ pairs ∨ p ∈ entries := by
  induction pairs generalizing entries with
  | nil => exact .inr h
  | cons q rest ih =>
    rcases ih h with hr | hi
    · exact .inl (List.mem_cons_of_mem _ hr)
    · rcases mem_insert hi with rfl | he
      · exact .inl (List.mem_cons_self ..)
      · exact .inr he

/-! ## Sorted entries -/

/-- Only the keys matter for the order. -/
theorem sorted_iff_keys {entries : Entries α} : entries.Sorted ↔ (entries.map (·.1)).Pairwise (· < ·) := by
  rw [List.pairwise_map]
  rfl

theorem Sorted.nodup_keys {entries : Entries α} (h : entries.Sorted) : (entries.map (·.1)).Nodup := by
  refine List.Pairwise.imp ?_ (sorted_iff_keys.1 h)
  rintro a b hlt rfl
  exact String.lt_irrefl _ hlt

theorem Sorted.nodup {entries : Entries α} (h : entries.Sorted) : entries.Nodup := by
  refine List.Pairwise.imp ?_ h
  rintro a b hlt rfl
  exact String.lt_irrefl _ hlt

theorem Sorted.mem_iff_lookup {entries : Entries α} (h : entries.Sorted) {key : String} {value : α} :
    (key, value) ∈ entries ↔ List.lookup key entries = some value :=
  ⟨lookup_of_mem h.nodup_keys, mem_of_lookup⟩

/-- There is only one way to sort some entries. -/
theorem Sorted.eq_of_perm {x y : Entries α} (hx : x.Sorted) (hy : y.Sorted) (h : x.Perm y) : x = y :=
  List.Perm.eq_of_pairwise (fun _ _ _ _ hab hba => absurd (String.lt_trans hab hba) (String.lt_irrefl _)) hx hy h

theorem Sorted.eq_of_lookup {x y : Entries α} (hx : x.Sorted) (hy : y.Sorted)
    (h : ∀ key, List.lookup key x = List.lookup key y) : x = y := by
  refine hx.eq_of_perm hy ((List.perm_ext_iff_of_nodup hx.nodup hy.nodup).2 fun (key, value) => ?_)
  rw [hx.mem_iff_lookup, hy.mem_iff_lookup, h]

/-! ## Pairs with different keys -/

theorem insert_perm {key : String} {value : α} {entries : Entries α} (h : key ∉ entries.map (·.1)) :
    (insert key value entries).Perm ((key, value) :: entries) := by
  induction entries with
  | nil => exact List.Perm.refl _
  | cons q rest ih =>
    obtain ⟨k, v⟩ := q
    rw [List.map_cons, List.mem_cons, not_or] at h
    unfold insert
    split
    · exact List.Perm.refl _
    · rw [if_neg h.1]
      exact ((ih h.2).cons _).trans (List.Perm.swap ..)

theorem insertAll_perm {pairs : List (String × α)} {entries : Entries α}
    (h : ((entries ++ pairs).map (·.1)).Nodup) : (insertAll entries pairs).Perm (entries ++ pairs) := by
  induction pairs generalizing entries with
  | nil =>
    rw [List.append_nil]
    exact List.Perm.refl _
  | cons p rest ih =>
    have middle : (entries ++ p :: rest).Perm (p :: entries ++ rest) := List.perm_middle
    have nodup := ((middle.map (·.1)).nodup_iff).1 h
    have fresh : p.1 ∉ entries.map (·.1) := by
      rw [List.cons_append, List.map_cons, List.nodup_cons, List.map_append, List.mem_append, not_or] at nodup
      exact nodup.1.1
    have step : (insert p.1 p.2 entries ++ rest).Perm (p :: entries ++ rest) :=
      (insert_perm fresh).append_right rest
    exact ((ih (((step.map (·.1)).nodup_iff).2 nodup)).trans step).trans middle.symm

/-- Pairs with different keys are all there, and nothing else is. -/
theorem ofPairs_perm {pairs : List (String × α)} (h : (pairs.map (·.1)).Nodup) :
    (ofPairs pairs).Perm pairs :=
  insertAll_perm h

/-- Of pairs with different keys the same is found before and after they are sorted. -/
theorem lookup_ofPairs {pairs : List (String × α)} (h : (pairs.map (·.1)).Nodup) (key : String) :
    List.lookup key (ofPairs pairs) = List.lookup key pairs := by
  refine Option.ext fun value => ?_
  rw [← (sorted_ofPairs pairs).mem_iff_lookup, (ofPairs_perm h).mem_iff]
  exact ⟨lookup_of_mem h, mem_of_lookup⟩

/-- Sorted pairs are their own entries. -/
theorem ofPairs_of_sorted {pairs : List (String × α)} (h : Sorted pairs) : ofPairs pairs = pairs :=
  (sorted_ofPairs pairs).eq_of_perm h (ofPairs_perm h.nodup_keys)

end Entries

namespace Table

/-! ## Tables -/

theorem mem_entries_iff {t : Table α} {key : String} {value : α} :
    (key, value) ∈ t.entries ↔ t.find? key = some value :=
  t.sorted.mem_iff_lookup

theorem find?_insert (t : Table α) (key other : String) (value : α) :
    (t.insert key value).find? other = if other = key then some value else t.find? other :=
  Entries.lookup_insert key other value t.entries

theorem ext_find? {s t : Table α} (h : ∀ key, s.find? key = t.find? key) : s = t :=
  ext (s.sorted.eq_of_lookup t.sorted h)

theorem insert_comm (t : Table α) {k l : String} (h : k ≠ l) (v w : α) :
    (t.insert k v).insert l w = (t.insert l w).insert k v := by
  apply ext_find?
  intro key
  simp only [find?_insert]
  split
  · rename_i hl
    rw [if_neg fun hk => h (hk.symm.trans hl)]
  · rfl

theorem ofPairs_append (p q : List (String × α)) : ofPairs (p ++ q) = (ofPairs p).insertAll q :=
  insertAll_append empty p q

theorem ofPairs_concat (pairs : List (String × α)) (key : String) (value : α) :
    ofPairs (pairs ++ [(key, value)]) = (ofPairs pairs).insert key value :=
  ofPairs_append pairs _

/-- A table of pairs holds nothing but these. -/
theorem mem_of_find?_ofPairs {pairs : List (String × α)} {key : String} {value : α}
    (h : (ofPairs pairs).find? key = some value) : (key, value) ∈ pairs := by
  rcases Entries.mem_insertAll (Entries.mem_of_lookup h) with hp | he
  · exact hp
  · cases he

theorem isSome_find?_insertAll (t : Table α) (pairs : List (String × α)) (key : String) :
    ((t.insertAll pairs).find? key).isSome ↔ key ∈ pairs.map (·.1) ∨ (t.find? key).isSome := by
  induction pairs generalizing t with
  | nil => simp only [insertAll_nil, List.map_nil, List.not_mem_nil, false_or]
  | cons p rest ih =>
    have run : t.insertAll (p :: rest) = (t.insert p.1 p.2).insertAll rest := rfl
    rw [run, ih, find?_insert, List.map_cons, List.mem_cons]
    by_cases h : key = p.1
    · simp only [h, if_true, Option.isSome_some, or_true, true_or]
    · simp only [h, if_false, false_or]

/-- Pairs that have one value for each key are all found. -/
theorem find?_ofPairs_iff {pairs : List (String × α)} (h : ∀ p ∈ pairs, ∀ q ∈ pairs, p.1 = q.1 → p.2 = q.2)
    {key : String} {value : α} : (ofPairs pairs).find? key = some value ↔ (key, value) ∈ pairs := by
  refine ⟨mem_of_find?_ofPairs, fun hp => ?_⟩
  have present : ((ofPairs pairs).find? key).isSome :=
    (isSome_find?_insertAll _ pairs key).2 (.inl (List.mem_map.2 ⟨_, hp, rfl⟩))
  obtain ⟨found, hf⟩ := Option.isSome_iff_exists.1 present
  have same : value = found := h _ hp _ (mem_of_find?_ofPairs hf) rfl
  rw [hf, same]

/-- In whatever order pairs come that have one value for each key, they make the same table. -/
theorem ofPairs_eq_of_perm {pairs pairs' : List (String × α)} (hp : pairs'.Perm pairs)
    (h : ∀ p ∈ pairs, ∀ q ∈ pairs, p.1 = q.1 → p.2 = q.2) : ofPairs pairs' = ofPairs pairs := by
  have h' : ∀ p ∈ pairs', ∀ q ∈ pairs', p.1 = q.1 → p.2 = q.2 := fun p hp' q hq =>
    h p (hp.subset hp') q (hp.subset hq)
  refine ext_find? fun key => Option.ext fun value => ?_
  rw [find?_ofPairs_iff h, find?_ofPairs_iff h', hp.mem_iff]

theorem ofPairs_entries (t : Table α) : ofPairs t.entries = t :=
  ext (Entries.ofPairs_of_sorted t.sorted)

theorem entries_ofPairs_perm {pairs : List (String × α)} (h : (pairs.map (·.1)).Nodup) :
    (ofPairs pairs).entries.Perm pairs :=
  Entries.ofPairs_perm h

end Table

end UpdateExpr
