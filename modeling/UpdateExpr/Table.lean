/-
Tables with text keys, kept as lists in strictly increasing key order. Of two entries with one key
the later one wins, so a table is determined by the last value written for each key and by nothing
else: order of insertion leaves no trace.
-/
namespace UpdateExpr

/-! ## Entries -/

/-- Keyed entries, one after the other. -/
abbrev Entries (α : Type) := List (String × α)

namespace Entries

variable {α β : Type}

/-- The keys increase strictly. -/
def Sorted (entries : Entries α) : Prop :=
  entries.Pairwise fun a b => a.1 < b.1

/-- Writes `value` under `key` at its place in the order. -/
def insert (key : String) (value : α) : Entries α → Entries α
  | [] => [(key, value)]
  | (k, v) :: rest =>
    if key < k then (key, value) :: (k, v) :: rest
    else if key = k then (key, value) :: rest
    else (k, v) :: insert key value rest

/-- Writes the pairs one after the other. -/
def insertAll (entries : Entries α) (pairs : List (String × α)) : Entries α :=
  pairs.foldl (fun entries p => insert p.1 p.2 entries) entries

/-- The pairs in key order, the last one of each key only. -/
def ofPairs (pairs : List (String × α)) : Entries α :=
  insertAll [] pairs

theorem mem_insert {key : String} {value : α} {entries : Entries α} {p : String × α}
    (h : p ∈ insert key value entries) : p = (key, value) ∨ p ∈ entries := by
  induction entries with
  | nil => simpa [insert] using h
  | cons q rest ih =>
    obtain ⟨k, v⟩ := q
    simp only [insert] at h
    split at h
    · simpa using h
    · split at h
      · rcases List.mem_cons.1 h with h | h
        · exact .inl h
        · exact .inr (List.mem_cons_of_mem _ h)
      · rcases List.mem_cons.1 h with h | h
        · exact .inr (by simp [h])
        · exact (ih h).imp id (List.mem_cons_of_mem _)

theorem sorted_insert {key : String} {value : α} {entries : Entries α} (h : entries.Sorted) :
    (insert key value entries).Sorted := by
  induction entries with
  | nil => simp [insert, Sorted]
  | cons q rest ih =>
    obtain ⟨k, v⟩ := q
    obtain ⟨hk, hr⟩ := List.pairwise_cons.1 h
    simp only [insert]
    split
    · rename_i hlt
      refine List.pairwise_cons.2 ⟨fun p hp => ?_, h⟩
      rcases List.mem_cons.1 hp with rfl | hp
      · exact hlt
      · exact String.lt_trans hlt (hk p hp)
    · split
      · rename_i _ heq
        subst heq
        exact List.pairwise_cons.2 ⟨hk, hr⟩
      · rename_i hnlt hne
        refine List.pairwise_cons.2 ⟨fun p hp => ?_, ih hr⟩
        rcases mem_insert hp with rfl | hp
        · exact String.not_le.1 fun hle => hne (String.le_antisymm hle (String.not_lt.1 hnlt))
        · exact hk p hp

theorem sorted_insertAll {entries : Entries α} (pairs : List (String × α)) (h : entries.Sorted) :
    (insertAll entries pairs).Sorted := by
  induction pairs generalizing entries with
  | nil => exact h
  | cons p rest ih => exact ih (sorted_insert h)

theorem sorted_ofPairs (pairs : List (String × α)) : (ofPairs pairs).Sorted :=
  sorted_insertAll pairs List.Pairwise.nil

theorem insertAll_append (entries : Entries α) (p q : List (String × α)) :
    insertAll entries (p ++ q) = insertAll (insertAll entries p) q :=
  List.foldl_append

end Entries

/-! ## Tables -/

/-- Entries in strictly increasing key order. -/
structure Table (α : Type) where
  entries : Entries α
  sorted : entries.Sorted

namespace Table

variable {α : Type}

@[ext] theorem ext {s t : Table α} (h : s.entries = t.entries) : s = t := by
  cases s; cases t; cases h; rfl

/-- The table without entries. -/
def empty : Table α := ⟨[], List.Pairwise.nil⟩

instance : Inhabited (Table α) := ⟨empty⟩

instance [DecidableEq α] : DecidableEq (Table α) := fun s t =>
  decidable_of_iff (s.entries = t.entries) ⟨Table.ext, fun h => h ▸ rfl⟩

/-- Writes `value` under `key`, over what was there. -/
def insert (t : Table α) (key : String) (value : α) : Table α :=
  ⟨Entries.insert key value t.entries, Entries.sorted_insert t.sorted⟩

/-- Writes the pairs one after the other. -/
def insertAll (t : Table α) (pairs : List (String × α)) : Table α :=
  ⟨Entries.insertAll t.entries pairs, Entries.sorted_insertAll pairs t.sorted⟩

/-- The table of the pairs; of two pairs with one key the later one wins. -/
def ofPairs (pairs : List (String × α)) : Table α :=
  empty.insertAll pairs

/-- The value under `key`. -/
def find? (t : Table α) (key : String) : Option α :=
  t.entries.lookup key

/-- The keys in increasing order. -/
def keys (t : Table α) : List String :=
  t.entries.map (·.1)

/-- Whether there is no entry. -/
def isEmpty (t : Table α) : Bool :=
  t.entries.isEmpty

/-- The table, unless it is empty. -/
def nonEmpty? (t : Table α) : Option (Table α) :=
  if t.isEmpty then none else some t

@[simp] theorem entries_empty : (empty : Table α).entries = [] := rfl

@[simp] theorem entries_insert (t : Table α) (key : String) (value : α) :
    (t.insert key value).entries = Entries.insert key value t.entries := rfl

@[simp] theorem entries_insertAll (t : Table α) (pairs : List (String × α)) :
    (t.insertAll pairs).entries = Entries.insertAll t.entries pairs := rfl

theorem eq_empty_of_isEmpty {t : Table α} (h : t.isEmpty = true) : t = empty :=
  ext (List.isEmpty_iff.1 h)

@[simp] theorem insertAll_nil (t : Table α) : t.insertAll [] = t := rfl

theorem insertAll_append (t : Table α) (p q : List (String × α)) :
    t.insertAll (p ++ q) = (t.insertAll p).insertAll q :=
  ext (Entries.insertAll_append _ p q)

end Table

end UpdateExpr
