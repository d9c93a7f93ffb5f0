/-
The bytes of texts: a text is determined by its bytes, and a text whose characters are bytes below
128 is those bytes. So what is written byte by byte from an ASCII alphabet is read back unchanged. Of
other bytes each takes two when it is written as a character, and none of any text is above F4.
-/
import Mathlib.Tactic.SplitIfs
import UpdateExpr.Text.Bytes

namespace UpdateExpr.Text

/-! ## Bytes determine a text -/

theorem utf8_injective {s t : String} (h : utf8 s = utf8 t) : s = t := by
  have bytes : ∀ u : String, u.toByteArray = (utf8 u).toByteArray := by
    intro u
    rw [← String.utf8Encode_toList]
    rfl
  rw [← String.toByteArray_inj, bytes s, bytes t, h]

/-- Code points end at 10FFFF, so no byte of a text is above F4. -/
theorem toNat_le_of_mem_utf8 {s : String} {b : UInt8} (h : b ∈ utf8 s) : b.toNat ≤ 0xF4 := by
  obtain ⟨c, -, hb⟩ := List.mem_flatMap.1 h
  have bound : c.val.toNat < 0x110000 := by
    rcases c.valid with low | ⟨-, high⟩
    · exact Nat.lt_trans low (by decide)
    · exact high
  unfold String.utf8EncodeChar at hb
  generalize c.val.toNat = v at *
  simp only at hb
  split_ifs at hb
  all_goals
    simp only [List.mem_cons, List.not_mem_nil, or_false] at hb
    rcases hb with rfl | rfl | rfl | rfl
  all_goals
    rw [UInt8.toNat_ofNat']
    omega

/-! ## Texts of bytes -/

/-- The text that has one character for each byte. -/
def ofBytes (bytes : Bytes) : String :=
  String.ofList (bytes.map Char.ofUInt8)

@[simp] theorem toList_ofBytes (bytes : Bytes) : (ofBytes bytes).toList = bytes.map Char.ofUInt8 :=
  String.toList_ofList

@[simp] theorem toNat_ofUInt8 (b : UInt8) : (Char.ofUInt8 b).toNat = b.toNat :=
  UInt8.toNat_toUInt32 b

theorem utf8EncodeChar_ofUInt8 {b : UInt8} (h : b < 128) :
    String.utf8EncodeChar (Char.ofUInt8 b) = [b] := by
  have size : (Char.ofUInt8 b).utf8Size = 1 := by
    rw [Char.utf8Size_eq_one_iff, UInt32.le_iff_toNat_le]
    show b.toUInt32.toNat ≤ 127
    rw [UInt8.toNat_toUInt32]
    have := UInt8.lt_iff_toNat_lt.1 h
    simp only [UInt8.reduceToNat] at this
    omega
  rw [String.utf8EncodeChar_eq_singleton size]
  show [b.toUInt32.toUInt8] = [b]
  simp

theorem utf8_ofBytes {bytes : Bytes} (h : ∀ b ∈ bytes, b < 128) : utf8 (ofBytes bytes) = bytes := by
  unfold utf8
  rw [toList_ofBytes]
  induction bytes with
  | nil => rfl
  | cons b rest ih =>
    rw [List.map_cons, List.flatMap_cons, utf8EncodeChar_ofUInt8 (h b (List.mem_cons_self ..)),
      ih fun c hc => h c (List.mem_cons_of_mem _ hc)]
    rfl

/-- A text with ASCII bytes has one character for each of them. -/
theorem eq_ofBytes {s : String} {bytes : Bytes} (h : ∀ b ∈ bytes, b < 128) (hs : utf8 s = bytes) :
    s = ofBytes bytes :=
  utf8_injective (hs.trans (utf8_ofBytes h).symm)

/-! ## Bytes that are written again -/

/-- A byte that is written as a character takes one byte below 128, and else two. -/
theorem length_utf8EncodeChar_ofUInt8 (b : UInt8) :
    (String.utf8EncodeChar (Char.ofUInt8 b)).length = if b < 128 then 1 else 2 := by
  split
  · rename_i h
    rw [utf8EncodeChar_ofUInt8 h]
    rfl
  · rename_i h
    have high : 128 ≤ b.toNat := UInt8.le_iff_toNat_le.1 (UInt8.not_lt.1 h)
    have low := b.toNat_lt
    unfold String.utf8EncodeChar
    rw [show (Char.ofUInt8 b).val.toNat = b.toNat from toNat_ofUInt8 b]
    simp only
    rw [if_neg (by omega), if_pos (by omega)]
    rfl

theorem length_utf8_ofBytes (bytes : Bytes) :
    (utf8 (ofBytes bytes)).length = bytes.length + bytes.countP (128 ≤ ·) := by
  unfold utf8
  rw [toList_ofBytes]
  induction bytes with
  | nil => rfl
  | cons b rest ih =>
    rw [List.map_cons, List.flatMap_cons, List.length_append, length_utf8EncodeChar_ofUInt8, ih, List.length_cons,
      List.countP_cons]
    simp only [decide_eq_true_eq, ← UInt8.not_lt, ite_not]
    split <;> omega

end UpdateExpr.Text
