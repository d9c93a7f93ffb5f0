/-
What an allocator hands out: from the numeral of `n` on, the keys of the numerals of `n + 1`,
`n + 2`, … in order. Keys are as different as their tokens, and none is the key of the empty list.
-/
import Mathlib.Data.List.Nodup
import UpdateExpr.Proofs.Token.Numeral

namespace UpdateExpr

open Token

/-! ## Keys -/

namespace Token

theorem toList_key (token : String) : (key token).toList = ':' :: token.toList := by
  unfold key
  rw [String.toList_append]
  rfl

theorem key_injective {s t : String} (h : key s = key t) : s = t := by
  have := congrArg String.toList h
  rw [toList_key, toList_key, List.cons.injEq] at this
  exact String.toList_inj.1 this.2

/-- The key of the empty list has small letters, and a numeral has none. -/
theorem key_numeral_ne_emptyListKey (n : Nat) : key (numeral n) ≠ emptyListKey := by
  intro h
  have letters := congrArg String.toList h
  rw [toList_key, show emptyListKey.toList = ':' :: "zz_empty_list".toList by decide, List.cons.injEq] at letters
  have := capital_numeral n 'z' (by rw [letters.2]; decide)
  exact absurd this.2 (by decide)

theorem key_numeral_inj {m n : Nat} : key (numeral m) = key (numeral n) ↔ m = n :=
  ⟨fun h => numeral_injective (key_injective h), fun h => h ▸ rfl⟩

end Token

/-! ## Allocators -/

namespace Allocator

theorem next_numeral (n : Nat) :
    Allocator.next ⟨numeral n⟩ = (key (numeral (n + 1)), ⟨numeral (n + 1)⟩) := by
  unfold Allocator.next
  rw [Token.next_numeral]

theorem take_numeral (n count : Nat) :
    Allocator.take ⟨numeral n⟩ count =
      ((List.range count).map fun i => key (numeral (n + i + 1)), ⟨numeral (n + count)⟩) := by
  induction count generalizing n with
  | zero => rfl
  | succ count ih =>
    unfold Allocator.take
    simp only [next_numeral, ih]
    rw [List.range_succ_eq_map, List.map_cons, List.map_map]
    have shift : ∀ i, n + 1 + i + 1 = n + (i + 1) + 1 := by omega
    simp only [shift, Function.comp_def, show n + 1 + count = n + (count + 1) by omega, Nat.add_zero]

/-- The keys of a fresh allocator. -/
theorem take_fresh (count : Nat) :
    (Allocator.take {} count).1 = (List.range count).map fun i => key (numeral (i + 1)) := by
  have := take_numeral 0 count
  rw [numeral_zero] at this
  rw [this]
  simp only [Nat.zero_add]

theorem take_fresh_getElem? (count i : Nat) :
    (Allocator.take {} count).1[i]? = if i < count then some (key (numeral (i + 1))) else none := by
  rw [take_fresh, List.getElem?_map]
  split
  · rename_i h
    rw [List.getElem?_range h]
    rfl
  · rename_i h
    rw [List.getElem?_eq_none (by rw [List.length_range]; omega)]
    rfl

/-- The keys of a fresh allocator are the numerals of 1, 2, 3, … behind a colon, because the
successor of a capital token is capital and stands for one more. So they all differ, they increase
by length and then alphabetically, and a capital token is handed out by the call that has its value
as number and by no other. -/
theorem take_fresh_numeration :
    (∀ count, (Allocator.take {} count).1 = (List.range count).map fun i => ":" ++ numeral (i + 1)) ∧
    (∀ n, Capital (numeral n) ∧ value (numeral n) = n) ∧ numeral 0 = "" ∧
    (∀ token, Capital token → Capital (Token.next token) ∧ value (Token.next token) = value token + 1) ∧
    (∀ count, (Allocator.take {} count).1.Nodup) ∧
    (∀ count, (Allocator.take {} count).1.Pairwise fun k l => List.Shortlex (· < ·) k.toList l.toList) ∧
    (∀ token, Capital token → token ≠ "" → 0 < value token ∧
      ∀ count i, (Allocator.take {} count).1[i]? = some (":" ++ token) ↔ i < count ∧ i + 1 = value token) := by
  refine ⟨take_fresh, fun n => ⟨capital_numeral n, value_numeral n⟩, numeral_zero,
    fun token h => ⟨h.next, value_next h⟩, fun count => ?_, fun count => ?_,
    fun token h hne => ⟨?_, fun count i => ?_⟩⟩
  · rw [take_fresh]
    refine List.Nodup.map (fun i j hij => ?_) List.nodup_range
    have := key_numeral_inj.1 hij
    omega
  · rw [take_fresh, List.pairwise_map]
    refine List.pairwise_lt_range.imp fun {i j} hij => ?_
    rw [toList_key, toList_key]
    exact (shortlex_numeral (by omega)).cons
  · -- only the empty text has the value zero
    rcases Nat.eq_zero_or_pos (value token) with h0 | hpos
    · refine absurd ?_ hne
      exact value_injective h (fun c hc => by cases hc) h0
    · exact hpos
  · rw [take_fresh_getElem?]
    constructor
    · intro hi
      split at hi
      · rename_i hlt
        have := key_injective (Option.some.inj hi)
        exact ⟨hlt, by rw [← this, value_numeral]⟩
      · cases hi
    · rintro ⟨hlt, hv⟩
      rw [if_pos hlt, hv, numeral_value h]
      rfl

/-- The successor of `AZ` carries once, and `BA` is the key of call 53. -/
theorem take_fresh_numeration_az :
    Capital "AZ" ∧ value (Token.next "AZ") = value "AZ" + 1 ∧ Capital "BA" ∧ "BA" ≠ "" ∧
      (Allocator.take {} 60).1[52]? = some ":BA" := by
  have az : Capital "AZ" := by decide
  have ba : Capital "BA" := by decide
  refine ⟨az, (take_fresh_numeration.2.2.2.1 "AZ" az).2, ba, by decide, ?_⟩
  exact ((take_fresh_numeration.2.2.2.2.2.2 "BA" ba (by decide)).2 60 52).2 ⟨by decide, by decide⟩

end Allocator

end UpdateExpr
