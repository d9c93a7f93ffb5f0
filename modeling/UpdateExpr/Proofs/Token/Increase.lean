/-
The successor of any text, capital or not. It works on the bytes of the text, none of which is the
last one there is, so no byte falls back to zero when it grows; every byte of the result becomes a
character of its own. With shorter texts first and texts of one length in the order of their bytes,
the successor comes after the text: a `Z` that turns back into `A` stands behind a byte that has
grown, or the text has become longer; and if some byte is no ASCII character, then the result takes
more bytes than the text when it is written again. So successors taken one after the other never
come back to a text they have passed, and neither do the keys of an allocator.
-/
import UpdateExpr.Proofs.Token.Allocation

namespace UpdateExpr

open Text

namespace Token

/-! ## Growing without end -/

/-- `bump` on numbers, of which none is the last. -/
def grow : List Nat → List Nat
  | [] => [65]
  | n :: rest => if n = 90 then 65 :: grow rest else (n + 1) :: rest

/-- Bytes grow like numbers as long as none is the last byte there is. -/
theorem map_toNat_bump : ∀ {bytes : Bytes}, (∀ b ∈ bytes, b.toNat < 255) →
    (bump bytes).map UInt8.toNat = grow (bytes.map UInt8.toNat)
  | [], _ => rfl
  | b :: rest, h => by
    obtain ⟨hb, hr⟩ := List.forall_mem_cons.1 h
    unfold bump
    rw [List.map_cons, grow]
    by_cases hz : b = 90
    · subst hz
      rw [if_pos rfl, if_pos (show UInt8.toNat 90 = 90 from rfl), List.map_cons, map_toNat_bump hr]
      rfl
    · rw [if_neg hz, if_neg (toNat_ne_of_ne hz), List.map_cons, toNat_add_one hb]

/-- No byte of a text is the last one there is. -/
theorem toNat_lt_of_mem_reverse_utf8 (s : String) : ∀ b ∈ (utf8 s).reverse, b.toNat < 255 := by
  intro b hb
  have := toNat_le_of_mem_utf8 (List.mem_reverse.1 hb)
  omega

/-! ## The successor comes later -/

/-- Shorter texts first, and texts of one length in the order of their bytes. -/
def Before (s t : String) : Prop :=
  List.Shortlex (· < ·) (utf8 s) (utf8 t)

theorem Before.trans {s t u : String} (h : Before s t) (h' : Before t u) : Before s u :=
  shortlex_trans h h'

theorem Before.ne {s t : String} (h : Before s t) : s ≠ t := by
  rintro rfl
  rcases List.shortlex_def.1 h with longer | ⟨-, later⟩
  · exact Nat.lt_irrefl _ longer
  · exact List.lt_irrefl _ later

theorem next_eq_ofBytes (s : String) : next s = ofBytes (bump (utf8 s).reverse).reverse := rfl

/-- Bytes that become characters are written again as they are, or they take more bytes. -/
theorem utf8_ofBytes_or (bytes : Bytes) :
    utf8 (ofBytes bytes) = bytes ∨ bytes.length < (utf8 (ofBytes bytes)).length := by
  by_cases ascii : ∀ b ∈ bytes, b < 128
  · exact .inl (utf8_ofBytes ascii)
  · obtain ⟨b, hb, high⟩ : ∃ b ∈ bytes, ¬ b < 128 := by
      simpa only [not_forall, exists_prop] using ascii
    have some_high : 0 < bytes.countP (128 ≤ ·) :=
      List.countP_pos_iff.2 ⟨b, hb, decide_eq_true (UInt8.not_lt.1 high)⟩
    right
    rw [length_utf8_ofBytes]
    omega

theorem before_next (s : String) : Before s (next s) := by
  have grown := shortlex_bump (toNat_lt_of_mem_reverse_utf8 s)
  rw [List.reverse_reverse] at grown
  unfold Before
  rw [next_eq_ofBytes]
  rcases utf8_ofBytes_or (bump (utf8 s).reverse).reverse with same | longer
  · rw [same]
    exact grown
  · -- the bytes of the result are not fewer than those of the text, and they become more
    refine List.Shortlex.of_length_lt (Nat.lt_of_le_of_lt ?_ longer)
    rcases List.shortlex_def.1 grown with more | ⟨equal, -⟩
    · exact Nat.le_of_lt more
    · exact Nat.le_of_eq equal

theorem toNat_next (s : String) :
    (next s).toList.map Char.toNat = (grow ((utf8 s).reverse.map UInt8.toNat)).reverse := by
  rw [next_eq_ofBytes, toList_ofBytes, List.map_map, ← map_toNat_bump (toNat_lt_of_mem_reverse_utf8 s),
    List.map_reverse]
  refine congrArg List.reverse (List.map_congr_left fun b _ => ?_)
  exact toNat_ofUInt8 b

/-! ## Chains -/

theorem pairwise_before_chain (start : String) (count : Nat) :
    (start :: chain start count).Pairwise Before := by
  induction count generalizing start with
  | zero => exact List.pairwise_singleton ..
  | succ count ih =>
    refine List.pairwise_cons.2 ⟨fun t ht => ?_, ih (next start)⟩
    rcases List.mem_cons.1 ht with rfl | later
    · exact before_next start
    · exact (before_next start).trans ((List.pairwise_cons.1 (ih (next start))).1 t later)

theorem keys_take (start : String) (count : Nat) :
    (Allocator.take ⟨start⟩ count).1 = (chain start count).map key := by
  induction count generalizing start with
  | zero => rfl
  | succ count ih =>
    rw [chain, List.map_cons, ← ih]
    rfl

/-- The successor of a text has as its characters the bytes of the text, grown as numbers that have no
end: none overflows, for none is above F4. It takes more bytes than it has characters exactly by the
number of those that are no ASCII. In any case it comes after the text, so whatever text a chain starts
from, each of its texts comes after those in front of it and none occurs twice; and the keys that an
allocator hands out, whatever token was its last one, are all different. -/
theorem chain_increases :
    (∀ s : String, (utf8 s).all (·.toNat ≤ 0xF4) = true ∧
      (next s).toList.map Char.toNat = (grow ((utf8 s).reverse.map UInt8.toNat)).reverse ∧
      (utf8 (next s)).length = (next s).length + (next s).toList.countP (128 ≤ ·.toNat)) ∧
    (∀ s : String, (utf8 s).length < (utf8 (next s)).length ∨
      (utf8 s).length = (utf8 (next s)).length ∧ utf8 s < utf8 (next s)) ∧
    ∀ (start : String) (count : Nat),
      (start :: chain start count).Pairwise Before ∧ (start :: chain start count).Nodup ∧
        (Allocator.take ⟨start⟩ count).1.Nodup := by
  refine ⟨fun s => ⟨?_, toNat_next s, ?_⟩, fun s => List.shortlex_def.1 (before_next s), fun start count => ?_⟩
  · exact List.all_eq_true.2 fun b hb => decide_eq_true (toNat_le_of_mem_utf8 hb)
  · rw [next_eq_ofBytes, length_utf8_ofBytes, ← String.length_toList, toList_ofBytes, List.length_map,
      List.countP_map]
    refine congrArg _ (List.countP_congr fun b _ => ?_)
    simp only [Function.comp_apply, toNat_ofUInt8, decide_eq_true_eq]
    exact UInt8.le_iff_toNat_le
  · have increasing := pairwise_before_chain start count
    have distinct : (start :: chain start count).Nodup := increasing.imp Before.ne
    refine ⟨increasing, distinct, ?_⟩
    rw [keys_take]
    exact (List.nodup_cons.1 distinct).2.map fun _ _ => key_injective

/-- The two bytes of `é` become two characters, the second one grown, and these take four bytes. -/
example : next "é" = "Ãª" ∧ utf8 "é" = [0xC3, 0xA9] ∧ utf8 "Ãª" = [0xC3, 0x83, 0xC2, 0xAA] := by decide

end Token

end UpdateExpr
