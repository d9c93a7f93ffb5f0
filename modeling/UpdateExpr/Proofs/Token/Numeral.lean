/-
The numeration of tokens. On texts of capital letters `next` is the successor of the bijective
base-26 numerals: the value of what it gives is one more. A capital text is the numeral of its
value, so the tokens after the empty one are the numerals of 1, 2, 3, … in order, they increase by
length and then alphabetically, and every capital text has its turn exactly once.

The argument is about the bytes of a token from the last to the first, the order in which `bump`
walks them: there the last digit comes first and a carry goes on into the rest.
-/
import Mathlib.Data.List.Shortlex
import UpdateExpr.Proofs.Text.Utf8
import UpdateExpr.Token

namespace UpdateExpr.Token

open Text

/-! ## Digits -/

/-- Bytes of capital letters only. -/
def CapitalBytes (digits : Bytes) : Prop :=
  ∀ b ∈ digits, 65 ≤ b.toNat ∧ b.toNat ≤ 90

/-- The number of some digits, listed from the last to the first. -/
def weight : Bytes → Nat
  | [] => 0
  | b :: rest => (b.toNat - 64) + 26 * weight rest

/-- The text of some digits, listed from the last to the first. -/
def spell (digits : Bytes) : String :=
  ofBytes digits.reverse

theorem CapitalBytes.cons_iff {b : UInt8} {rest : Bytes} :
    CapitalBytes (b :: rest) ↔ (65 ≤ b.toNat ∧ b.toNat ≤ 90) ∧ CapitalBytes rest := by
  unfold CapitalBytes
  rw [List.forall_mem_cons]

theorem CapitalBytes.ascii {digits : Bytes} (h : CapitalBytes digits) :
    ∀ b ∈ digits.reverse, b < 128 := by
  intro b hb
  have := (h b (List.mem_reverse.1 hb)).2
  rw [UInt8.lt_iff_toNat_lt]
  simp only [UInt8.reduceToNat]
  omega

/-- No digit is zero, so different digits have different numbers. -/
theorem weight_injective : ∀ {x y : Bytes}, CapitalBytes x → CapitalBytes y → weight x = weight y → x = y
  | [], [], _, _, _ => rfl
  | [], b :: y, _, hy, h => by
    have := (CapitalBytes.cons_iff.1 hy).1
    simp only [weight] at h
    omega
  | a :: x, [], hx, _, h => by
    have := (CapitalBytes.cons_iff.1 hx).1
    simp only [weight] at h
    omega
  | a :: x, b :: y, hx, hy, h => by
    obtain ⟨ha, hx⟩ := CapitalBytes.cons_iff.1 hx
    obtain ⟨hb, hy⟩ := CapitalBytes.cons_iff.1 hy
    simp only [weight] at h
    -- digits run from 1 to 26, so the first one is fixed by the remainder by 26
    have head : a.toNat = b.toNat := by omega
    have tail : weight x = weight y := by omega
    rw [UInt8.toNat_inj.1 head, weight_injective hx hy tail]

/-! ## The successor on digits -/

/-- A byte that is no `Z` grows by one. -/
theorem toNat_add_one {b : UInt8} (h : b.toNat < 255) : (b + 1).toNat = b.toNat + 1 := by
  rw [UInt8.toNat_add]
  simp only [UInt8.reduceToNat]
  omega

theorem toNat_ne_of_ne {b : UInt8} (h : ¬ b = 90) : b.toNat ≠ 90 := fun e =>
  h (UInt8.toNat_inj.1 (e.trans (by decide)))

theorem CapitalBytes.bump : ∀ {digits : Bytes}, CapitalBytes digits → CapitalBytes (Token.bump digits)
  | [], _ => by
    intro b hb
    rw [List.mem_singleton.1 hb]
    decide
  | b :: rest, h => by
    obtain ⟨hb, hr⟩ := CapitalBytes.cons_iff.1 h
    unfold Token.bump
    split
    · exact CapitalBytes.cons_iff.2 ⟨by decide, CapitalBytes.bump hr⟩
    · rename_i hz
      have := toNat_ne_of_ne hz
      refine CapitalBytes.cons_iff.2 ⟨?_, hr⟩
      rw [toNat_add_one (by omega)]
      omega

/-- A carry takes 26 from the digit `Z` to leave `A` and adds one to the rest. -/
theorem weight_bump : ∀ {digits : Bytes}, CapitalBytes digits →
    weight (Token.bump digits) = weight digits + 1
  | [], _ => by decide
  | b :: rest, h => by
    obtain ⟨hb, hr⟩ := CapitalBytes.cons_iff.1 h
    unfold Token.bump
    split
    · rename_i hz
      subst hz
      simp only [weight, weight_bump hr, UInt8.reduceToNat]
      omega
    · rename_i hz
      have := toNat_ne_of_ne hz
      simp only [weight]
      rw [toNat_add_one (by omega)]
      omega

theorem lex_append {α : Type} [LT α] {x y : List α} (h : x < y) (hl : x.length = y.length) (s t : List α) :
    x ++ s < y ++ t := by
  induction h with
  | nil => simp at hl
  | rel h => exact List.Lex.rel h
  | cons _ ih => exact List.Lex.cons (ih (by simpa using hl))

/-- Whatever the bytes, as long as none is the last one there is, they become longer or grow in
alphabetical order: a `Z` that falls back to `A` stands behind a byte that has grown. -/
theorem shortlex_bump : ∀ {digits : Bytes}, (∀ b ∈ digits, b.toNat < 255) →
    List.Shortlex (· < ·) digits.reverse (bump digits).reverse
  | [], _ => List.Shortlex.of_length_lt (by decide)
  | b :: rest, h => by
    obtain ⟨hb, hr⟩ := List.forall_mem_cons.1 h
    unfold bump
    split
    · rw [List.reverse_cons, List.reverse_cons]
      rcases List.shortlex_def.1 (shortlex_bump hr) with hl | ⟨hl, hlt⟩
      · exact List.Shortlex.of_length_lt (by simpa using hl)
      · exact List.Shortlex.of_lex (by simpa using hl) (lex_append hlt hl _ _)
    · rw [List.reverse_cons, List.reverse_cons]
      refine List.Shortlex.append_left (List.shortlex_singleton_iff b (b + 1) |>.2 ?_) _
      rw [UInt8.lt_iff_toNat_lt, toNat_add_one hb]
      omega

/-! ## Capital texts -/

/-- A text of capital letters only. The empty text is one. -/
def Capital (token : String) : Prop :=
  ∀ c ∈ token.toList, 'A' ≤ c ∧ c ≤ 'Z'

instance (token : String) : Decidable (Capital token) :=
  List.decidableBAll (fun c => 'A' ≤ c ∧ c ≤ 'Z') token.toList

theorem next_spell {digits : Bytes} (h : CapitalBytes digits) : next (spell digits) = spell (bump digits) := by
  unfold next spell
  rw [utf8_ofBytes h.ascii, List.reverse_reverse]
  rfl

theorem value_spell (digits : Bytes) : value (spell digits) = weight digits := by
  unfold value spell
  rw [toList_ofBytes, List.foldl_map, List.foldl_reverse]
  induction digits with
  | nil => rfl
  | cons b rest ih =>
    rw [List.foldr_cons, ih, toNat_ofUInt8, weight]
    omega

theorem char_le_iff {c d : Char} : c ≤ d ↔ c.toNat ≤ d.toNat :=
  UInt32.le_iff_toNat_le

theorem capital_spell {digits : Bytes} (h : CapitalBytes digits) : Capital (spell digits) := by
  intro c hc
  unfold spell at hc
  rw [toList_ofBytes] at hc
  obtain ⟨b, hb, rfl⟩ := List.mem_map.1 hc
  rw [char_le_iff, char_le_iff, toNat_ofUInt8]
  exact h b (List.mem_reverse.1 hb)

/-- Every capital text is spelled by its bytes. -/
theorem Capital.exists_spell {token : String} (h : Capital token) :
    ∃ digits, CapitalBytes digits ∧ token = spell digits := by
  have letters : ∀ c ∈ token.toList, 65 ≤ c.toNat ∧ c.toNat ≤ 90 := by
    intro c hc
    have := h c hc
    rw [char_le_iff, char_le_iff] at this
    exact this
  have byte : ∀ c ∈ token.toList, c.toUInt8.toNat = c.toNat := by
    intro c hc
    have := letters c hc
    show c.val.toUInt8.toNat = c.val.toNat
    rw [UInt32.toNat_toUInt8]
    show c.toNat % 2 ^ 8 = c.toNat
    omega
  refine ⟨(token.toList.map Char.toUInt8).reverse, ?_, ?_⟩
  · intro b hb
    obtain ⟨c, hc, rfl⟩ := List.mem_map.1 (List.mem_reverse.1 hb)
    rw [byte c hc]
    exact letters c hc
  · unfold spell ofBytes
    rw [List.reverse_reverse, List.map_map]
    have same : token.toList.map (Char.ofUInt8 ∘ Char.toUInt8) = token.toList := by
      refine (List.map_congr_left fun c hc => ?_).trans (List.map_id _)
      apply Char.toNat_inj.1
      show (Char.ofUInt8 c.toUInt8).toNat = c.toNat
      rw [toNat_ofUInt8, byte c hc]
    rw [same, String.ofList_toList]

theorem Capital.next {token : String} (h : Capital token) : Capital (Token.next token) := by
  obtain ⟨digits, hd, rfl⟩ := h.exists_spell
  rw [next_spell hd]
  exact capital_spell hd.bump

theorem value_next {token : String} (h : Capital token) : value (next token) = value token + 1 := by
  obtain ⟨digits, hd, rfl⟩ := h.exists_spell
  rw [next_spell hd, value_spell, value_spell, weight_bump hd]

theorem value_injective {s t : String} (hs : Capital s) (ht : Capital t) (h : value s = value t) : s = t := by
  obtain ⟨x, hx, rfl⟩ := hs.exists_spell
  obtain ⟨y, hy, rfl⟩ := ht.exists_spell
  rw [value_spell, value_spell] at h
  rw [weight_injective hx hy h]

/-! ## Numerals -/

theorem toNat_letter : ∀ digit < 26, (letter digit).toNat = 65 + digit := by decide

theorem capital_numeral (n : Nat) : Capital (numeral n) := by
  unfold Capital numeral
  rw [String.toList_ofList]
  intro c hc
  rw [List.mem_reverse] at hc
  induction n using digits.induct with
  | case1 =>
    rw [digits] at hc
    cases hc
  | case2 n ih =>
    rw [digits] at hc
    rcases List.mem_cons.1 hc with rfl | hc
    · rw [char_le_iff, char_le_iff, toNat_letter _ (Nat.mod_lt _ (by decide))]
      show 65 ≤ _ ∧ _ ≤ 90
      omega
    · exact ih hc

theorem value_numeral (n : Nat) : value (numeral n) = n := by
  unfold value numeral
  rw [String.toList_ofList, List.foldl_reverse]
  induction n using digits.induct with
  | case1 =>
    rw [digits]
    rfl
  | case2 n ih =>
    rw [digits, List.foldr_cons, ih, toNat_letter _ (Nat.mod_lt _ (by decide))]
    omega

theorem numeral_zero : numeral 0 = "" := by
  unfold numeral
  rw [digits]
  rfl

theorem numeral_injective {m n : Nat} (h : numeral m = numeral n) : m = n := by
  rw [← value_numeral m, h, value_numeral]

/-- A capital text is the numeral of its value. -/
theorem numeral_value {token : String} (h : Capital token) : numeral (value token) = token :=
  value_injective (capital_numeral _) h (value_numeral _)

theorem next_numeral (n : Nat) : next (numeral n) = numeral (n + 1) := by
  refine value_injective (capital_numeral n).next (capital_numeral _) ?_
  rw [value_next (capital_numeral n), value_numeral, value_numeral]

/-! ## Order -/

theorem shortlex_trans {α : Type} [LT α] [Trans (α := α) (· < ·) (· < ·) (· < ·)] {x y z : List α}
    (h : List.Shortlex (· < ·) x y) (h' : List.Shortlex (· < ·) y z) : List.Shortlex (· < ·) x z := by
  rw [List.shortlex_def] at *
  rcases h with h | ⟨hl, h⟩ <;> rcases h' with h' | ⟨hl', h'⟩
  · exact .inl (h.trans h')
  · exact .inl (hl' ▸ h)
  · exact .inl (hl ▸ h')
  · exact .inr ⟨hl.trans hl', List.lt_trans h h'⟩

theorem shortlex_next {token : String} (h : Capital token) :
    List.Shortlex (· < ·) token.toList (next token).toList := by
  obtain ⟨digits, hd, rfl⟩ := h.exists_spell
  rw [next_spell hd]
  unfold spell
  rw [toList_ofBytes, toList_ofBytes, List.shortlex_def, List.length_map, List.length_map]
  have rises : ∀ a b : UInt8, a < b → Char.ofUInt8 a < Char.ofUInt8 b := by
    intro a b hab
    show a.toUInt32 < b.toUInt32
    rw [UInt32.lt_iff_toNat_lt, UInt8.toNat_toUInt32, UInt8.toNat_toUInt32]
    exact UInt8.lt_iff_toNat_lt.1 hab
  -- digits are in the order of their bytes, and no letter is the last byte there is
  refine (List.shortlex_def.1 (shortlex_bump fun b hb => ?_)).imp id fun ⟨hl, hlt⟩ => ⟨hl, List.map_lt rises hlt⟩
  have := (hd b hb).2
  omega

theorem shortlex_numeral {m n : Nat} (h : m < n) :
    List.Shortlex (· < ·) (numeral m).toList (numeral n).toList := by
  induction n with
  | zero => omega
  | succ n ih =>
    have step := shortlex_next (capital_numeral n)
    rw [next_numeral] at step
    rcases Nat.lt_succ_iff_lt_or_eq.1 h with h | rfl
    · exact shortlex_trans (ih h) step
    · exact step

end UpdateExpr.Token
