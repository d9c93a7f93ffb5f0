/-
Which texts are base64, told without the stages of the reader: whole groups of four, made of symbols of
the alphabet and at most two padding bytes at the end, in which the bits that no byte takes up are zero.
The bytes that such a text is read as have the bits of its symbols, in the same order.
-/
import Mathlib.Algebra.Group.Nat.Defs
import UpdateExpr.Proofs.Base64.RoundTrip

namespace UpdateExpr.Base64

open Text

/-! ## The alphabet -/

/-- The symbols in the order of the numbers that they stand for. -/
def alphabet : Bytes :=
  utf8 "ABCDEFGHIJKLMNOPQRSTUVWXYZabcdefghijklmnopqrstuvwxyz0123456789+/"

/-- The number that a symbol stands for. -/
def place (b : UInt8) : Nat :=
  alphabet.idxOf b

theorem alphabet_eq : alphabet = (List.range 64).map symbol := by decide +kernel

theorem isSymbol_iff (b : UInt8) : isSymbol b = true ↔ b ∈ alphabet := by
  rw [alphabet_eq, List.mem_map]
  constructor
  · intro h
    exact ⟨index b, List.mem_range.2 (index_lt b), symbol_index h⟩
  · rintro ⟨n, hn, rfl⟩
    exact isSymbol_symbol (List.mem_range.1 hn)

theorem place_symbol {n : Nat} (h : n < 64) : place (symbol n) = n := by
  have all : ∀ n < 64, ((List.range 64).map symbol).idxOf (symbol n) = n := by decide +kernel
  unfold place
  rw [alphabet_eq, all n h]

theorem index_eq_place {b : UInt8} (h : b ∈ alphabet) : index b = place b := by
  have known := symbol_index ((isSymbol_iff b).2 h)
  rw [← known, place_symbol (index_lt b), index_symbol_of_lt (index_lt b)]

/-! ## Bits -/

/-- The lowest `width` bits of a number, the highest of them first. -/
def bits : (width n : Nat) → List Bool
  | 0, _ => []
  | width + 1, n => decide (n / 2 ^ width % 2 = 1) :: bits width n

@[simp] theorem length_bits (width n : Nat) : (bits width n).length = width := by
  induction width with
  | zero => rfl
  | succ width ih => rw [bits, List.length_cons, ih]

theorem bits_zero (width : Nat) : bits width 0 = List.replicate width false := by
  induction width with
  | zero => rfl
  | succ width ih =>
    rw [bits, ih, Nat.zero_div]
    rfl

/-- What stands above the lowest bits has no part in them. -/
theorem bits_low (width a b : Nat) : bits width (a * 2 ^ width + b) = bits width b := by
  induction width generalizing a with
  | zero => rfl
  | succ width ih =>
    have split : a * 2 ^ (width + 1) = a * 2 * 2 ^ width := by
      rw [Nat.pow_succ]
      ac_rfl
    have head : (a * 2 * 2 ^ width + b) / 2 ^ width % 2 = b / 2 ^ width % 2 := by
      rw [Nat.add_comm, Nat.add_mul_div_right _ _ (Nat.two_pow_pos width), Nat.add_mul_mod_self_right]
    rw [bits, bits, split, head, ih]

/-- Bits of one number and bits of another behind them. -/
theorem bits_append (high low : Nat) {a b : Nat} (h : b < 2 ^ low) :
    bits (high + low) (a * 2 ^ low + b) = bits high a ++ bits low b := by
  induction high with
  | zero => rw [Nat.zero_add, bits_low, bits, List.nil_append]
  | succ high ih =>
    have quotient : (a * 2 ^ low + b) / 2 ^ (high + low) = a / 2 ^ high := by
      rw [Nat.add_comm high, Nat.pow_add, ← Nat.div_div_eq_div_mul, Nat.add_comm,
        Nat.add_mul_div_right _ _ (Nat.two_pow_pos low), Nat.div_eq_of_lt h, Nat.zero_add]
    rw [Nat.succ_add, bits, bits, quotient, ih, List.cons_append]

theorem bits_split (high low n : Nat) : bits (high + low) n = bits high (n / 2 ^ low) ++ bits low (n % 2 ^ low) := by
  rw [← bits_append high low (Nat.mod_lt n (Nat.two_pow_pos low)), Nat.mul_comm, Nat.div_add_mod]

/-- Bits determine the number below them. -/
theorem mod_eq_of_bits {width m n : Nat} (h : bits width m = bits width n) : m % 2 ^ width = n % 2 ^ width := by
  induction width with
  | zero => rw [Nat.pow_zero, Nat.mod_one, Nat.mod_one]
  | succ width ih =>
    rw [bits, bits, List.cons.injEq, decide_eq_decide] at h
    have head : m / 2 ^ width % 2 = n / 2 ^ width % 2 := by omega
    rw [Nat.mod_pow_succ, Nat.mod_pow_succ, ih h.2, head]

/-- The bits of several numbers, `width` of each. -/
def bitString (width : Nat) (numbers : List Nat) : List Bool :=
  numbers.flatMap (bits width)

theorem bitString_cons (width n : Nat) (numbers : List Nat) :
    bitString width (n :: numbers) = bits width n ++ bitString width numbers :=
  List.flatMap_cons

theorem length_bitString (width : Nat) (numbers : List Nat) :
    (bitString width numbers).length = width * numbers.length := by
  induction numbers with
  | nil => rfl
  | cons n numbers ih =>
    rw [bitString_cons, List.length_append, length_bits, ih, List.length_cons, Nat.mul_succ, Nat.add_comm]

/-- Bytes are determined by their bits. -/
theorem bitString_injective {x y : Bytes} (h : bitString 8 (x.map UInt8.toNat) = bitString 8 (y.map UInt8.toNat)) :
    x = y := by
  induction x generalizing y with
  | nil =>
    have length := congrArg List.length h
    rw [length_bitString, length_bitString, List.length_map, List.length_map, List.length_nil] at length
    exact (List.length_eq_zero_iff.1 (by omega)).symm
  | cons a x ih =>
    cases y with
    | nil => cases h
    | cons b y =>
      rw [List.map_cons, List.map_cons, bitString_cons, bitString_cons] at h
      obtain ⟨first, rest⟩ := List.append_inj h (by rw [length_bits, length_bits])
      have same := mod_eq_of_bits first
      rw [Nat.mod_eq_of_lt a.toNat_lt, Nat.mod_eq_of_lt b.toNat_lt] at same
      rw [UInt8.toNat_inj.1 same, ih rest]

/-! ## Bytes of symbols -/

theorem bits_first (a : Nat) {b : Nat} (hb : b < 64) : bits 8 (a * 4 + b / 16) = bits 6 a ++ bits 2 (b / 16) :=
  bits_append 6 2 (by omega)

theorem bits_second (b : Nat) {c : Nat} (hc : c < 64) :
    bits 8 (b % 16 * 16 + c / 4) = bits 4 (b % 16) ++ bits 4 (c / 4) :=
  bits_append 4 4 (by omega)

theorem bits_third (c : Nat) {d : Nat} (hd : d < 64) : bits 8 (c % 4 * 64 + d) = bits 2 (c % 4) ++ bits 6 d :=
  bits_append 2 6 hd

/-- Four six-bit numbers and their three bytes have the same bits. -/
theorem bitString_quad {a b c d : Nat} (ha : a < 64) (hb : b < 64) (hc : c < 64) (hd : d < 64) (rest : List Nat) :
    bitString 8 ((regroup (a :: b :: c :: d :: rest)).map UInt8.toNat) =
      bits 6 a ++ (bits 6 b ++ (bits 6 c ++ (bits 6 d ++ bitString 8 ((regroup rest).map UInt8.toNat)))) := by
  rw [regroup, List.map_cons, List.map_cons, List.map_cons, bitString_cons, bitString_cons, bitString_cons,
    toNat_ofNat (by omega), toNat_ofNat (by omega), toNat_ofNat (by omega), bits_first a hb, bits_second b hc,
    bits_third c hd, bits_split 2 4 b, bits_split 4 2 c]
  simp only [List.append_assoc, Nat.reducePow]

theorem bitString_body : ∀ {body : List Nat} (rest : List Nat), body.length % 4 = 0 → (∀ n ∈ body, n < 64) →
    bitString 8 ((regroup (body ++ rest)).map UInt8.toNat) =
      bitString 6 body ++ bitString 8 ((regroup rest).map UInt8.toNat)
  | [], _, _, _ => rfl
  | [_], _, hl, _ | [_, _], _, hl, _ | [_, _, _], _, hl, _ => by cases hl
  | a :: b :: c :: d :: body, rest, hl, hs => by
    simp only [List.forall_mem_cons] at hs
    obtain ⟨ha, hb, hc, hd, hbody⟩ := hs
    have whole : body.length % 4 = 0 := by
      simp only [List.length_cons] at hl
      omega
    simp only [List.cons_append]
    rw [bitString_quad ha hb hc hd, bitString_body rest whole hbody]
    simp only [bitString_cons, List.append_assoc]

/-- In the last group the bits that no byte takes up come last, and they are zero. -/
theorem bitString_last {last : List Nat} {pads : Nat} (hs : ∀ n ∈ last, n < 64) (two : 2 ≤ last.length)
    (full : last.length + pads = 4) (spare : ∀ n ∈ last.getLast?, n % 2 ^ (2 * pads) = 0) :
    bitString 8 ((regroup last).map UInt8.toNat) ++ List.replicate (2 * pads) false = bitString 6 last := by
  rcases group_cases two full with ⟨a, b, rfl, rfl⟩ | ⟨a, b, c, rfl, rfl⟩ | ⟨a, b, c, d, rfl, rfl⟩
  · simp only [List.forall_mem_cons] at hs
    obtain ⟨ha, hb, -⟩ := hs
    have low : b % 2 ^ 4 = 0 := spare b rfl
    rw [regroup, List.map_cons, bitString_cons, toNat_ofNat (by omega), bits_first a hb, bitString_cons,
      bitString_cons, bits_split 2 4 b, low, bits_zero]
    simp only [List.append_assoc, Nat.reducePow]
    rfl
  · simp only [List.forall_mem_cons] at hs
    obtain ⟨ha, hb, hc, -⟩ := hs
    have low : c % 2 ^ 2 = 0 := spare c rfl
    rw [regroup, List.map_cons, List.map_cons, bitString_cons, bitString_cons, toNat_ofNat (by omega),
      toNat_ofNat (by omega), bits_first a hb, bits_second b hc, bitString_cons, bitString_cons, bitString_cons,
      bits_split 2 4 b, bits_split 4 2 c, low, bits_zero]
    simp only [List.append_assoc, Nat.reducePow]
    rfl
  · simp only [List.forall_mem_cons] at hs
    obtain ⟨ha, hb, hc, hd, -⟩ := hs
    rw [bitString_quad ha hb hc hd, List.append_assoc]
    rfl

/-! ## The grammar -/

/-- A text is some symbols with padding behind them. -/
structure Canonical (text symbols : Bytes) (pads : Nat) : Prop where
  eq : text = symbols ++ List.replicate pads pad
  whole : text.length % 4 = 0
  mem_alphabet : ∀ b ∈ symbols, b ∈ alphabet
  pads_le : pads ≤ 2
  /-- For each padding byte two bits of the last symbol are spare. -/
  spare : ∀ b ∈ symbols.getLast?, place b % 2 ^ (2 * pads) = 0

/-- The bits of the bytes are those of the symbols without the spare ones. -/
def Regroups (symbols : Bytes) (pads : Nat) (data : Bytes) : Prop :=
  bitString 8 (data.map UInt8.toNat) ++ List.replicate (2 * pads) false = bitString 6 (symbols.map place)

theorem spareBits_eq_zero_iff {last : Bytes} {pads : Nat} (two : 2 ≤ last.length) (full : last.length + pads = 4) :
    spareBits last = 0 ↔ ∀ b ∈ last.getLast?, index b % 2 ^ (2 * pads) = 0 := by
  rcases group_cases two full with ⟨a, b, rfl, rfl⟩ | ⟨a, b, c, rfl, rfl⟩ | ⟨a, b, c, d, rfl, rfl⟩
  · constructor
    · intro h e he
      cases he
      exact h
    · intro h
      exact h b rfl
  · constructor
    · intro h e he
      cases he
      exact h
    · intro h
      exact h c rfl
  · constructor
    · intro _ e _
      exact Nat.mod_one _
    · intro _
      rfl

variable {text body last symbols data : Bytes} {pads : Nat}

theorem Form.mem_alphabet (h : Form text body last pads) : ∀ b ∈ body ++ last, b ∈ alphabet := by
  intro b hb
  rw [← isSymbol_iff]
  rcases List.mem_append.1 hb with hb | hb
  · exact h.isSymbol_body b hb
  · exact h.isSymbol_last b hb

theorem Form.canonical (h : Form text body last pads) : Canonical text (body ++ last) pads := by
  have two := h.two_le
  have full := h.full
  have ne : last ≠ [] := List.length_pos_iff.1 (by omega)
  refine ⟨by rw [h.eq, List.append_assoc], ?_, h.mem_alphabet, by omega, ?_⟩
  · have whole := h.whole
    rw [h.eq, List.length_append, List.length_append, List.length_replicate]
    omega
  · intro b hb
    rw [← index_eq_place (h.mem_alphabet b (List.mem_of_getLast? hb))]
    rw [List.getLast?_append_of_ne_nil _ ne] at hb
    exact (spareBits_eq_zero_iff two full).1 h.spare b hb

theorem Form.regroups (h : Form text body last pads) :
    Regroups (body ++ last) pads (regroup ((body ++ last).map index)) := by
  have small : ∀ symbols : Bytes, ∀ n ∈ symbols.map index, n < 64 := by
    intro symbols n hn
    obtain ⟨b, -, rfl⟩ := List.mem_map.1 hn
    exact index_lt b
  have numbers : (body ++ last).map place = (body ++ last).map index :=
    List.map_congr_left fun b hb => (index_eq_place (h.mem_alphabet b hb)).symm
  have spare : ∀ n ∈ (last.map index).getLast?, n % 2 ^ (2 * pads) = 0 := by
    intro n hn
    rw [List.getLast?_map] at hn
    obtain ⟨b, hb, rfl⟩ := Option.map_eq_some_iff.1 hn
    exact (spareBits_eq_zero_iff h.two_le h.full).1 h.spare b hb
  unfold Regroups
  rw [numbers, List.map_append, bitString_body _ (by rw [List.length_map, h.whole]) (small body), List.append_assoc,
    bitString_last (small last) (by rw [List.length_map]; exact h.two_le) (by rw [List.length_map]; exact h.full) spare]
  exact (List.flatMap_append ..).symm

theorem Canonical.exists_form (h : Canonical text symbols pads) (ne : text ≠ []) :
    ∃ body last, symbols = body ++ last ∧ Form text body last pads := by
  have pos := List.length_pos_iff.2 ne
  have whole := h.whole
  have le := h.pads_le
  have length : text.length = symbols.length + pads := by
    rw [h.eq, List.length_append, List.length_replicate]
  -- the text ends with a whole group, of which the padding takes two at most
  obtain ⟨n, hn⟩ : ∃ n, n = text.length - 4 := ⟨_, rfl⟩
  have full : (symbols.drop n).length + pads = 4 := by
    rw [List.length_drop]
    omega
  have two : 2 ≤ (symbols.drop n).length := by omega
  have parts : symbols.take n ++ symbols.drop n = symbols := List.take_append_drop n symbols
  refine ⟨_, _, parts.symm, ?_, ?_, ?_, ?_, two, full, ?_⟩
  · rw [← List.append_assoc, parts, h.eq]
  · rw [List.length_take]
    omega
  · exact fun b hb => (isSymbol_iff b).2 (h.mem_alphabet b (List.mem_of_mem_take hb))
  · exact fun b hb => (isSymbol_iff b).2 (h.mem_alphabet b (List.mem_of_mem_drop hb))
  · rw [spareBits_eq_zero_iff two full]
    intro b hb
    rw [index_eq_place (h.mem_alphabet b (List.mem_of_mem_drop (List.mem_of_getLast? hb)))]
    refine h.spare b ?_
    rw [← parts, List.getLast?_append_of_ne_nil _ (List.length_pos_iff.1 (by omega))]
    exact hb

/-! ## Reading -/

theorem Canonical.eq_nil (h : Canonical [] symbols pads) : symbols = [] ∧ pads = 0 := by
  obtain ⟨hs, hp⟩ := List.append_eq_nil_iff.1 h.eq.symm
  exact ⟨hs, (List.replicate_eq_nil_iff pad).1 hp⟩

theorem canonical_nil : Canonical [] [] 0 :=
  ⟨rfl, rfl, fun _ h => (nomatch h), Nat.zero_le 2, fun _ h => (nomatch h)⟩

theorem Canonical.exists_regroups (h : Canonical text symbols pads) : ∃ data, Regroups symbols pads data := by
  by_cases ht : text = []
  · subst ht
    obtain ⟨rfl, rfl⟩ := h.eq_nil
    exact ⟨[], rfl⟩
  · obtain ⟨body, last, rfl, form⟩ := h.exists_form ht
    exact ⟨_, form.regroups⟩

/-- Three bytes for each group of four, less one for each padding byte. -/
theorem Canonical.length_data (h : Canonical text symbols pads) (same : Regroups symbols pads data) :
    data.length = 3 * text.length / 4 - pads := by
  have whole := h.whole
  have bits := congrArg List.length same
  rw [List.length_append, length_bitString, length_bitString, List.length_map, List.length_map,
    List.length_replicate] at bits
  have length : text.length = symbols.length + pads := by
    rw [h.eq, List.length_append, List.length_replicate]
  omega

/-- A text is read as some bytes exactly if it keeps to the grammar and they have the bits of its symbols. -/
theorem decodeBytes_eq_ok_iff_canonical :
    decodeBytes text = .ok data ↔ ∃ symbols pads, Canonical text symbols pads ∧ Regroups symbols pads data := by
  by_cases ht : text = []
  · subst ht
    have empty : decodeBytes [] = .ok [] := rfl
    rw [empty, Except.ok.injEq]
    constructor
    · rintro rfl
      exact ⟨[], 0, canonical_nil, rfl⟩
    · rintro ⟨symbols, pads, h, same⟩
      obtain ⟨rfl, rfl⟩ := h.eq_nil
      exact (List.length_eq_zero_iff.1 (h.length_data same)).symm
  · rw [decodeBytes_eq_ok_iff_form ht]
    constructor
    · rintro ⟨body, last, pads, form, rfl⟩
      exact ⟨body ++ last, pads, form.canonical, form.regroups⟩
    · rintro ⟨symbols, pads, h, same⟩
      obtain ⟨body, last, rfl, form⟩ := h.exists_form ht
      exact ⟨body, last, pads, form, bitString_injective (List.append_cancel_right (form.regroups.trans same.symm))⟩

/-! ## Texts -/

/-- A text keeps to the grammar. -/
def IsCanonical (text : String) : Prop :=
  ∃ symbols pads, Canonical (utf8 text) symbols pads

/-- A text keeps to the grammar, and some bytes have the bits of its symbols. -/
def StandsFor (text : String) (data : Bytes) : Prop :=
  ∃ symbols pads, Canonical (utf8 text) symbols pads ∧ Regroups symbols pads data

theorem decode_eq_ok_iff_standsFor {text : String} : decode text = .ok data ↔ StandsFor text data :=
  decodeBytes_eq_ok_iff_canonical

theorem exists_standsFor_iff {text : String} : (∃ data, StandsFor text data) ↔ IsCanonical text := by
  constructor
  · rintro ⟨data, symbols, pads, h, -⟩
    exact ⟨symbols, pads, h⟩
  · rintro ⟨symbols, pads, h⟩
    obtain ⟨data, same⟩ := h.exists_regroups
    exact ⟨data, symbols, pads, h, same⟩

/-- Every text that does not keep to the grammar is refused. -/
theorem exists_decode_eq_error_iff {text : String} : (∃ cause, decode text = .error cause) ↔ ¬ IsCanonical text := by
  simp only [← exists_standsFor_iff, ← decode_eq_ok_iff_standsFor]
  cases decode text with
  | error cause => exact ⟨fun _ ⟨_, h⟩ => (nomatch h), fun _ => ⟨cause, rfl⟩⟩
  | ok data => exact ⟨fun ⟨_, h⟩ => (nomatch h), fun h => absurd ⟨data, rfl⟩ h⟩

end UpdateExpr.Base64
