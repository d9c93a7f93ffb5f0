/-
The order of texts is the order of their bytes. The bytes of a character come before those of a larger
one, whatever stands behind either of them: the first byte grows with the number of bytes, and the
bytes of characters with equally many of them are digits of a number, the highest first. So comparing
texts character by character comes to the same as comparing their bytes.
-/
import Mathlib.Tactic.SplitIfs
import UpdateExpr.Text.Bytes

namespace UpdateExpr.Text

theorem cons_ofNat_lt {a b : Nat} (ha : a < 256) (hb : b < 256) {s t : Bytes} :
    UInt8.ofNat a :: s < UInt8.ofNat b :: t ↔ a < b ∨ a = b ∧ s < t := by
  rw [List.cons_lt_cons_iff, UInt8.lt_iff_toNat_lt, ← UInt8.toNat_inj, UInt8.toNat_ofNat', UInt8.toNat_ofNat',
    Nat.mod_eq_of_lt ha, Nat.mod_eq_of_lt hb]

/-- A smaller character has smaller bytes. -/
theorem utf8EncodeChar_append_lt {c d : Char} (h : c < d) (s t : Bytes) :
    String.utf8EncodeChar c ++ s < String.utf8EncodeChar d ++ t := by
  have smaller : c.val.toNat < d.val.toNat := h
  have bound : d.val.toNat < 1114112 := by
    rcases d.valid with low | ⟨-, high⟩
    · exact Nat.lt_trans low (by decide)
    · exact high
  unfold String.utf8EncodeChar
  generalize c.val.toNat = m at *
  generalize d.val.toNat = n at *
  -- the digits to base 64 are those of one number shifted, so that they can be compared
  have digits : ∀ v : Nat, v / 4096 = v / 64 / 64 ∧ v / 262144 = v / 64 / 64 / 64 := by omega
  simp only [digits]
  split_ifs
  all_goals first
    | omega
    | simp (disch := omega) only [List.cons_append, List.nil_append, cons_ofNat_lt]
      omega

theorem flatMap_utf8EncodeChar_lt {cs ds : List Char} (h : List.Lex (· < ·) cs ds) :
    cs.flatMap String.utf8EncodeChar < ds.flatMap String.utf8EncodeChar := by
  induction h with
  | @nil d ds =>
    rw [List.flatMap_nil, List.flatMap_cons]
    obtain ⟨b, rest, hb⟩ := List.exists_cons_of_ne_nil (String.utf8EncodeChar_ne_nil (c := d))
    rw [hb]
    exact List.nil_lt_cons b _
  | rel h =>
    rw [List.flatMap_cons, List.flatMap_cons]
    exact utf8EncodeChar_append_lt h _ _
  | cons h ih =>
    rw [List.flatMap_cons, List.flatMap_cons]
    exact List.append_left_lt ih

/-- Texts compare as their bytes do. -/
theorem utf8_lt_iff {s t : String} : utf8 s < utf8 t ↔ s < t := by
  have mono : ∀ {s t : String}, s < t → utf8 s < utf8 t := fun h => flatMap_utf8EncodeChar_lt h
  refine ⟨fun h => String.not_le.1 fun hle => ?_, mono⟩
  by_cases gt : t < s
  · exact List.lt_asymm h (mono gt)
  · obtain rfl := String.le_antisymm hle (String.not_lt.1 gt)
    exact List.lt_irrefl _ h

theorem utf8_le_iff {s t : String} : utf8 s ≤ utf8 t ↔ s ≤ t := by
  rw [← List.not_lt, ← String.not_lt, utf8_lt_iff]

end UpdateExpr.Text
