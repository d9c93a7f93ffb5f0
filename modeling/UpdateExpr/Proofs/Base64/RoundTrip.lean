/-
Base64 is read exactly as it is written: a text is read as some bytes if and only if it is what these
bytes are written as. Between the two stands the form of a text that is not empty: whole groups of
four symbols, then a last group of two to four symbols, filled up to four with padding, in which the
bits that no byte takes up are zero.
-/
import Mathlib.Data.List.Basic
import UpdateExpr.Base64
import UpdateExpr.Proofs.Results
import UpdateExpr.Proofs.Text.Utf8

namespace UpdateExpr.Base64

open Text

/-! ## Symbols -/

theorem forall_byte {p : UInt8 → Prop} (h : ∀ n < 256, p (.ofNat n)) (b : UInt8) : p b := by
  have := h b.toNat b.toNat_lt
  rw [UInt8.ofNat_toNat] at this
  exact this

theorem toNat_ofNat {n : Nat} (h : n < 256) : (UInt8.ofNat n).toNat = n :=
  UInt8.toNat_ofNat_of_lt' h

theorem symbol_index {b : UInt8} (h : isSymbol b = true) : symbol (index b) = b := by
  have all : ∀ n < 256, isSymbol (.ofNat n) = true → symbol (index (.ofNat n)) = .ofNat n := by decide +kernel
  exact forall_byte (p := fun b => isSymbol b = true → symbol (index b) = b) all b h

theorem index_lt (b : UInt8) : index b < 64 := by
  have all : ∀ n < 256, index (.ofNat n) < 64 := by decide +kernel
  exact forall_byte (p := fun b => index b < 64) all b

theorem index_symbol_of_lt {n : Nat} (h : n < 64) : index (symbol n) = n := by
  unfold index
  rw [index_symbol n h]
  rfl

theorem isSymbol_symbol {n : Nat} (h : n < 64) : isSymbol (symbol n) = true := by
  unfold isSymbol
  rw [index_symbol n h]
  rfl

theorem symbol_lt {n : Nat} (h : n < 64) : symbol n < 128 := by
  have all : ∀ n < 64, symbol n < 128 := by decide
  exact all n h

theorem not_isSymbol_pad : isSymbol pad = false := by decide

/-! ## Groups of four -/

/-- Four symbols are what their three bytes are written as. -/
theorem encodeBytes_quad {a b c d : UInt8} (ha : isSymbol a = true) (hb : isSymbol b = true)
    (hc : isSymbol c = true) (hd : isSymbol d = true) (rest : List Nat) :
    encodeBytes (regroup (index a :: index b :: index c :: index d :: rest)) =
      a :: b :: c :: d :: encodeBytes (regroup rest) := by
  have a64 := index_lt a
  have b64 := index_lt b
  have c64 := index_lt c
  have d64 := index_lt d
  rw [regroup, encodeBytes, toNat_ofNat (by omega), toNat_ofNat (by omega), toNat_ofNat (by omega)]
  rw [show (index a * 4 + index b / 16) / 4 = index a by omega,
    show (index a * 4 + index b / 16) % 4 * 16 + (index b % 16 * 16 + index c / 4) / 16 = index b by omega,
    show (index b % 16 * 16 + index c / 4) % 16 * 4 + (index c % 4 * 64 + index d) / 64 = index c by omega,
    show (index c % 4 * 64 + index d) % 64 = index d by omega,
    symbol_index ha, symbol_index hb, symbol_index hc, symbol_index hd]

theorem encodeBytes_body : ∀ {body : Bytes} (rest : List Nat), body.length % 4 = 0 →
    (∀ b ∈ body, isSymbol b = true) →
    encodeBytes (regroup (body.map index ++ rest)) = body ++ encodeBytes (regroup rest)
  | [], _, _, _ => rfl
  | [_], _, hl, _ | [_, _], _, hl, _ | [_, _, _], _, hl, _ => by cases hl
  | a :: b :: c :: d :: body, rest, hl, hs => by
    simp only [List.forall_mem_cons] at hs
    obtain ⟨ha, hb, hc, hd, hbody⟩ := hs
    -- the recursion takes a group of four at a time, as the length is a multiple of four
    have whole : body.length % 4 = 0 := by
      simp only [List.length_cons] at hl
      omega
    simp only [List.map_cons, List.cons_append]
    rw [encodeBytes_quad ha hb hc hd, encodeBytes_body rest whole hbody]

/-- A last group has two to four symbols, and padding fills it up. -/
theorem group_cases {α : Type} {symbols : List α} {pads : Nat} (two : 2 ≤ symbols.length)
    (full : symbols.length + pads = 4) :
    (∃ a b, symbols = [a, b] ∧ pads = 2) ∨ (∃ a b c, symbols = [a, b, c] ∧ pads = 1) ∨
      ∃ a b c d, symbols = [a, b, c, d] ∧ pads = 0 := by
  match symbols with
  | [] | [_] =>
    simp only [List.length_cons, List.length_nil] at two
    omega
  | [a, b] =>
    simp only [List.length_cons, List.length_nil] at full
    exact .inl ⟨a, b, rfl, by omega⟩
  | [a, b, c] =>
    simp only [List.length_cons, List.length_nil] at full
    exact .inr (.inl ⟨a, b, c, rfl, by omega⟩)
  | [a, b, c, d] =>
    simp only [List.length_cons, List.length_nil] at full
    exact .inr (.inr ⟨a, b, c, d, rfl, by omega⟩)
  | _ :: _ :: _ :: _ :: _ :: _ =>
    simp only [List.length_cons] at full
    omega

theorem encodeBytes_last {symbols : Bytes} {pads : Nat} (hs : ∀ b ∈ symbols, isSymbol b = true)
    (two : 2 ≤ symbols.length) (full : symbols.length + pads = 4) (spare : spareBits symbols = 0) :
    encodeBytes (regroup (symbols.map index)) = symbols ++ List.replicate pads pad := by
  rcases group_cases two full with ⟨a, b, rfl, rfl⟩ | ⟨a, b, c, rfl, rfl⟩ | ⟨a, b, c, d, rfl, rfl⟩
  · simp only [List.forall_mem_cons] at hs
    obtain ⟨ha, hb, -⟩ := hs
    have a64 := index_lt a
    have b64 := index_lt b
    have low : index b % 16 = 0 := spare
    simp only [List.map_cons, List.map_nil]
    rw [regroup, encodeBytes, toNat_ofNat (by omega), show (index a * 4 + index b / 16) / 4 = index a by omega,
      show (index a * 4 + index b / 16) % 4 * 16 = index b by omega, symbol_index ha, symbol_index hb]
    rfl
  · simp only [List.forall_mem_cons] at hs
    obtain ⟨ha, hb, hc, -⟩ := hs
    have a64 := index_lt a
    have b64 := index_lt b
    have c64 := index_lt c
    have low : index c % 4 = 0 := spare
    simp only [List.map_cons, List.map_nil]
    rw [regroup, encodeBytes, toNat_ofNat (by omega), toNat_ofNat (by omega),
      show (index a * 4 + index b / 16) / 4 = index a by omega,
      show (index a * 4 + index b / 16) % 4 * 16 + (index b % 16 * 16 + index c / 4) / 16 = index b by omega,
      show (index b % 16 * 16 + index c / 4) % 16 * 4 = index c by omega, symbol_index ha, symbol_index hb,
      symbol_index hc]
    rfl
  · simp only [List.forall_mem_cons] at hs
    obtain ⟨ha, hb, hc, hd, -⟩ := hs
    simp only [List.map_cons, List.map_nil]
    rw [encodeBytes_quad ha hb hc hd]
    rfl

/-- Three bytes are what their four symbols are read as. -/
theorem regroup_quad (a b c : UInt8) (rest : List Nat) :
    regroup (index (symbol (a.toNat / 4)) :: index (symbol (a.toNat % 4 * 16 + b.toNat / 16)) ::
      index (symbol (b.toNat % 16 * 4 + c.toNat / 64)) :: index (symbol (c.toNat % 64)) :: rest) =
      a :: b :: c :: regroup rest := by
  have ha := a.toNat_lt
  have hb := b.toNat_lt
  have hc := c.toNat_lt
  rw [index_symbol_of_lt (by omega), index_symbol_of_lt (by omega), index_symbol_of_lt (by omega),
    index_symbol_of_lt (by omega), regroup,
    show a.toNat / 4 * 4 + (a.toNat % 4 * 16 + b.toNat / 16) / 16 = a.toNat by omega,
    show (a.toNat % 4 * 16 + b.toNat / 16) % 16 * 16 + (b.toNat % 16 * 4 + c.toNat / 64) / 4 = b.toNat by omega,
    show (b.toNat % 16 * 4 + c.toNat / 64) % 4 * 64 + c.toNat % 64 = c.toNat by omega,
    UInt8.ofNat_toNat, UInt8.ofNat_toNat, UInt8.ofNat_toNat]

theorem isSymbol_quad (a b c : UInt8) : ∀ s ∈ encodeBytes [a, b, c], isSymbol s = true := by
  have ha := a.toNat_lt
  have hb := b.toNat_lt
  have hc := c.toNat_lt
  simp only [encodeBytes, List.forall_mem_cons]
  exact ⟨isSymbol_symbol (by omega), isSymbol_symbol (by omega), isSymbol_symbol (by omega),
    isSymbol_symbol (by omega), by simp⟩

/-! ## The form of a text -/

/-- A text made of whole groups of symbols and a last group of symbols and padding. -/
structure Form (text body symbols : Bytes) (pads : Nat) : Prop where
  eq : text = body ++ (symbols ++ List.replicate pads pad)
  whole : body.length % 4 = 0
  isSymbol_body : ∀ b ∈ body, isSymbol b = true
  isSymbol_last : ∀ b ∈ symbols, isSymbol b = true
  two_le : 2 ≤ symbols.length
  full : symbols.length + pads = 4
  spare : spareBits symbols = 0

theorem Form.encodeBytes_eq {text body symbols : Bytes} {pads : Nat} (h : Form text body symbols pads) :
    encodeBytes (regroup ((body ++ symbols).map index)) = text := by
  rw [List.map_append, encodeBytes_body _ h.whole h.isSymbol_body,
    encodeBytes_last h.isSymbol_last h.two_le h.full h.spare, h.eq]

theorem form_one (a : UInt8) :
    Form (encodeBytes [a]) [] [symbol (a.toNat / 4), symbol (a.toNat % 4 * 16)] 2 ∧
      regroup ([symbol (a.toNat / 4), symbol (a.toNat % 4 * 16)].map index) = [a] := by
  have ha := a.toNat_lt
  refine ⟨⟨rfl, rfl, by simp, ?_, by simp, rfl, ?_⟩, ?_⟩
  · simp only [List.forall_mem_cons]
    exact ⟨isSymbol_symbol (by omega), isSymbol_symbol (by omega), by simp⟩
  · show index (symbol (a.toNat % 4 * 16)) % 16 = 0
    rw [index_symbol_of_lt (by omega)]
    omega
  · simp only [List.map_cons, List.map_nil]
    rw [index_symbol_of_lt (by omega), index_symbol_of_lt (by omega), regroup,
      show a.toNat / 4 * 4 + a.toNat % 4 * 16 / 16 = a.toNat by omega, UInt8.ofNat_toNat]

theorem form_two (a b : UInt8) :
    Form (encodeBytes [a, b]) []
        [symbol (a.toNat / 4), symbol (a.toNat % 4 * 16 + b.toNat / 16), symbol (b.toNat % 16 * 4)] 1 ∧
      regroup ([symbol (a.toNat / 4), symbol (a.toNat % 4 * 16 + b.toNat / 16),
        symbol (b.toNat % 16 * 4)].map index) = [a, b] := by
  have ha := a.toNat_lt
  have hb := b.toNat_lt
  refine ⟨⟨rfl, rfl, by simp, ?_, by simp, rfl, ?_⟩, ?_⟩
  · simp only [List.forall_mem_cons]
    exact ⟨isSymbol_symbol (by omega), isSymbol_symbol (by omega), isSymbol_symbol (by omega), by simp⟩
  · show index (symbol (b.toNat % 16 * 4)) % 4 = 0
    rw [index_symbol_of_lt (by omega)]
    omega
  · simp only [List.map_cons, List.map_nil]
    rw [index_symbol_of_lt (by omega), index_symbol_of_lt (by omega), index_symbol_of_lt (by omega), regroup,
      show a.toNat / 4 * 4 + (a.toNat % 4 * 16 + b.toNat / 16) / 16 = a.toNat by omega,
      show (a.toNat % 4 * 16 + b.toNat / 16) % 16 * 16 + b.toNat % 16 * 4 / 4 = b.toNat by omega,
      UInt8.ofNat_toNat, UInt8.ofNat_toNat]

theorem form_three (a b c : UInt8) :
    Form (encodeBytes [a, b, c]) [] (encodeBytes [a, b, c]) 0 ∧
      regroup ((encodeBytes [a, b, c]).map index) = [a, b, c] :=
  ⟨⟨rfl, rfl, by simp, isSymbol_quad a b c, by simp [encodeBytes], rfl, rfl⟩, regroup_quad a b c []⟩

/-- Three bytes more in front are a whole group more in front. -/
theorem Form.quad {text body symbols : Bytes} {pads : Nat} (h : Form text body symbols pads) (a b c : UInt8) :
    Form (encodeBytes [a, b, c] ++ text) (encodeBytes [a, b, c] ++ body) symbols pads := by
  refine ⟨?_, ?_, ?_, h.isSymbol_last, h.two_le, h.full, h.spare⟩
  · rw [h.eq, List.append_assoc]
  · have := h.whole
    simp only [encodeBytes, List.length_append, List.length_cons, List.length_nil]
    omega
  · intro s hs
    rcases List.mem_append.1 hs with hs | hs
    · exact isSymbol_quad a b c s hs
    · exact h.isSymbol_body s hs

/-- What some bytes are written as has the form, and its symbols stand for these bytes. -/
theorem exists_form : ∀ {data : Bytes}, data ≠ [] →
    ∃ body symbols pads, Form (encodeBytes data) body symbols pads ∧ regroup ((body ++ symbols).map index) = data
  | [], h => absurd rfl h
  | [a], _ => ⟨[], _, 2, form_one a⟩
  | [a, b], _ => ⟨[], _, 1, form_two a b⟩
  | [a, b, c], _ => ⟨[], _, 0, form_three a b c⟩
  -- three bytes with more behind them are no last group, whatever is behind them
  | a :: b :: c :: d :: rest, _ => by
    obtain ⟨body, symbols, pads, form, read⟩ := exists_form (List.cons_ne_nil d rest)
    refine ⟨encodeBytes [a, b, c] ++ body, symbols, pads, form.quad a b c, ?_⟩
    rw [List.append_assoc, List.map_append]
    simp only [encodeBytes, List.map_cons, List.map_nil, List.cons_append, List.nil_append]
    rw [regroup_quad, read]

/-! ## Reading the parts -/

theorem checkBody_eq_ok_iff {offset : Nat} {body : Bytes} :
    checkBody offset body = .ok () ↔ ∀ b ∈ body, isSymbol b = true := by
  induction body generalizing offset with
  | nil =>
    constructor
    · intro _ b hb
      cases hb
    · intro _
      rfl
  | cons b rest ih =>
    unfold checkBody
    rw [List.forall_mem_cons]
    by_cases h : isSymbol b = true
    · rw [if_pos h, ih]
      exact (and_iff_right h).symm
    · rw [if_neg h]
      constructor
      · intro hb
        cases hb
      · rintro ⟨hb, -⟩
        exact absurd hb h

/-- A last byte can stand alone only if the length says so. -/
theorem checkTail_of_length {text : Bytes} (h : text.length % 4 ≠ 1) : checkTail text = .ok () := by
  unfold checkTail
  cases text.getLast? with
  | none => rfl
  | some b =>
    simp only
    rw [if_neg fun bad => h bad.1]

/-- After padding nothing but padding is read. -/
theorem readGroup_padding {start place first pads : Nat} {group symbols : Bytes} (hp : 2 ≤ place) :
    readGroup start place (some first) group = .ok (symbols, pads) ↔
      symbols = [] ∧ group = List.replicate pads pad := by
  induction group generalizing place first symbols pads with
  | nil =>
    unfold readGroup
    rw [Except.ok.injEq, Prod.mk.injEq]
    constructor
    · rintro ⟨rfl, rfl⟩
      exact ⟨rfl, rfl⟩
    · rintro ⟨rfl, h⟩
      exact ⟨rfl, (List.replicate_eq_nil_iff pad).1 h.symm |>.symm⟩
  | cons b rest ih =>
    unfold readGroup
    by_cases hb : b = pad
    · rw [if_pos hb, if_neg (by omega), bind_eq_ok, hb]
      constructor
      · rintro ⟨⟨s, n⟩, hr, hf⟩
        cases hf
        obtain ⟨hs, hg⟩ := (ih (by omega)).1 hr
        exact ⟨hs, by rw [hg]; rfl⟩
      · rintro ⟨rfl, hg⟩
        cases pads with
        | zero => cases hg
        | succ n => exact ⟨([], n), (ih (by omega)).2 ⟨rfl, (List.cons.inj hg).2⟩, rfl⟩
    · rw [if_neg hb]
      constructor
      · intro h
        cases h
      · rintro ⟨-, hg⟩
        cases pads with
        | zero => cases hg
        | succ n => exact absurd (List.cons.inj hg).1 hb

theorem eq_nil_of_pad_cons {rest symbols : Bytes} {pads : Nat} (hs : ∀ b ∈ symbols, isSymbol b = true)
    (h : pad :: rest = symbols ++ List.replicate pads pad) :
    symbols = [] ∧ ∃ n, pads = n + 1 ∧ rest = List.replicate n pad := by
  cases symbols with
  | nil =>
    cases pads with
    | zero => cases h
    | succ n => exact ⟨rfl, n, rfl, (List.cons.inj h).2⟩
  | cons s symbols =>
    have := hs s (List.mem_cons_self ..)
    rw [← (List.cons.inj h).1, not_isSymbol_pad] at this
    cases this

theorem eq_cons_of_cons {b : UInt8} {rest symbols : Bytes} {pads : Nat} (hb : b ≠ pad)
    (h : b :: rest = symbols ++ List.replicate pads pad) :
    ∃ tail, symbols = b :: tail ∧ rest = tail ++ List.replicate pads pad := by
  cases symbols with
  | nil =>
    cases pads with
    | zero => cases h
    | succ n => exact absurd (List.cons.inj h).1 hb
  | cons s symbols =>
    obtain ⟨rfl, hrest⟩ := List.cons.inj h
    exact ⟨symbols, rfl, hrest⟩

/-- The last group is read as its symbols and its padding, of which there is none at the first two
places. -/
theorem readGroup_eq_ok_iff {start place pads : Nat} {group symbols : Bytes} :
    readGroup start place none group = .ok (symbols, pads) ↔
      (∀ b ∈ symbols, isSymbol b = true) ∧ group = symbols ++ List.replicate pads pad ∧
        (pads = 0 ∨ 2 ≤ place + symbols.length) := by
  induction group generalizing place symbols with
  | nil =>
    unfold readGroup
    rw [Except.ok.injEq, Prod.mk.injEq]
    constructor
    · rintro ⟨rfl, rfl⟩
      exact ⟨by simp, rfl, .inl rfl⟩
    · rintro ⟨-, h, -⟩
      obtain ⟨hs, hp⟩ := List.append_eq_nil_iff.1 h.symm
      exact ⟨hs.symm, ((List.replicate_eq_nil_iff pad).1 hp).symm⟩
  | cons b rest ih =>
    unfold readGroup
    by_cases hb : b = pad
    · rw [if_pos hb, hb]
      by_cases hp : place < 2
      · -- padding that comes too early: the symbols so far would be fewer than two
        rw [if_pos hp]
        constructor
        · intro h
          cases h
        · rintro ⟨hs, hg, hplace⟩
          obtain ⟨rfl, n, rfl, -⟩ := eq_nil_of_pad_cons hs hg
          rw [List.length_nil] at hplace
          omega
      · rw [if_neg hp, bind_eq_ok]
        constructor
        · rintro ⟨⟨s, n⟩, hr, hf⟩
          cases hf
          obtain ⟨rfl, hg⟩ := (readGroup_padding (by omega)).1 hr
          refine ⟨by simp, by rw [hg]; rfl, .inr ?_⟩
          rw [List.length_nil]
          omega
        · rintro ⟨hs, hg, -⟩
          obtain ⟨rfl, n, rfl, hrest⟩ := eq_nil_of_pad_cons hs hg
          exact ⟨([], n), (readGroup_padding (by omega)).2 ⟨rfl, hrest⟩, rfl⟩
    · rw [if_neg hb]
      simp only
      by_cases hsym : isSymbol b = true
      · rw [if_pos hsym, bind_eq_ok]
        constructor
        · rintro ⟨⟨s, n⟩, hr, hf⟩
          cases hf
          obtain ⟨hs, hg, hplace⟩ := ih.1 hr
          refine ⟨List.forall_mem_cons.2 ⟨hsym, hs⟩, by rw [hg]; rfl, ?_⟩
          show n = 0 ∨ 2 ≤ place + (s.length + 1)
          omega
        · rintro ⟨hs, hg, hplace⟩
          obtain ⟨tail, rfl, hrest⟩ := eq_cons_of_cons hb hg
          rw [List.length_cons] at hplace
          refine ⟨(tail, pads), ih.2 ⟨(List.forall_mem_cons.1 hs).2, hrest, ?_⟩, rfl⟩
          omega
      · rw [if_neg hsym]
        constructor
        · intro h
          cases h
        · rintro ⟨hs, hg, -⟩
          obtain ⟨tail, rfl, -⟩ := eq_cons_of_cons hb hg
          exact absurd (hs b (List.mem_cons_self ..)) hsym

/-! ## Reading a text -/

theorem bodyLength_of_whole {n : Nat} (h : n % 4 = 0) : bodyLength (n + 4) = n := by
  unfold bodyLength
  rw [if_pos (by omega)]
  omega

theorem length_group (text : Bytes) (h : text ≠ []) :
    (text.take (bodyLength text.length)).length % 4 = 0 ∧
      0 < (text.drop (bodyLength text.length)).length ∧ (text.drop (bodyLength text.length)).length ≤ 4 := by
  have pos := List.length_pos_iff.2 h
  rw [List.length_take, List.length_drop]
  unfold bodyLength
  split <;> omega

/-- A text that is not empty is read exactly if it has the form. -/
theorem decodeBytes_eq_ok_iff_form {text data : Bytes} (h : text ≠ []) :
    decodeBytes text = .ok data ↔
      ∃ body symbols pads, Form text body symbols pads ∧ regroup ((body ++ symbols).map index) = data := by
  unfold decodeBytes
  simp only [bind_eq_ok]
  constructor
  · rintro ⟨_, -, _, hbody, ⟨symbols, pads⟩, hgroup, hdata⟩
    obtain ⟨whole, pos, le⟩ := length_group text h
    obtain ⟨hs, hg, -⟩ := readGroup_eq_ok_iff.1 hgroup
    have length := congrArg List.length hg
    rw [List.length_append, List.length_replicate] at length
    simp only at hdata
    split at hdata
    · cases hdata
    · rename_i hlen
      split at hdata
      · cases hdata
      · rename_i hpad
        split at hdata
        · cases hdata
        · rename_i hspare
          refine ⟨_, symbols, pads, ⟨?_, whole, checkBody_eq_ok_iff.1 hbody, hs, ?_, by omega, by omega⟩,
            Except.ok.inj hdata⟩
          · rw [← hg, List.take_append_drop]
          · -- the last group has a byte, so a text that is not refused for its length has two symbols
            by_contra short
            exact hlen ⟨h, by omega⟩
  · rintro ⟨body, symbols, pads, form, rfl⟩
    have whole := form.whole
    have two := form.two_le
    have length : text.length = body.length + 4 := by
      rw [form.eq, List.length_append, List.length_append, List.length_replicate, form.full]
    have start : bodyLength text.length = body.length := by
      rw [length, bodyLength_of_whole whole]
    have taken : text.take body.length = body := by
      rw [form.eq, List.take_left']
      rfl
    have dropped : text.drop body.length = symbols ++ List.replicate pads pad := by
      rw [form.eq, List.drop_left']
      rfl
    rw [start, taken, dropped]
    refine ⟨(), checkTail_of_length (by omega), (), checkBody_eq_ok_iff.2 form.isSymbol_body, (symbols, pads),
      readGroup_eq_ok_iff.2 ⟨form.isSymbol_last, rfl, by omega⟩, ?_⟩
    have full := form.full
    simp only
    rw [if_neg (by omega), if_neg (by omega), if_neg (not_not.2 form.spare)]

/-- A text is read as some bytes exactly if it is what they are written as. -/
theorem decodeBytes_eq_ok_iff {text data : Bytes} : decodeBytes text = .ok data ↔ text = encodeBytes data := by
  by_cases ht : text = []
  · subst ht
    have empty : decodeBytes [] = .ok [] := rfl
    rw [empty, Except.ok.injEq]
    constructor
    · rintro rfl
      rfl
    · intro h
      cases data with
      | nil => rfl
      | cons a rest =>
        obtain ⟨body, symbols, pads, form, -⟩ := exists_form (List.cons_ne_nil a rest)
        have length := congrArg List.length form.eq
        rw [← h, List.length_append, List.length_append, List.length_nil] at length
        have := form.two_le
        omega
  · rw [decodeBytes_eq_ok_iff_form ht]
    constructor
    · rintro ⟨body, symbols, pads, form, rfl⟩
      exact form.encodeBytes_eq.symm
    · rintro rfl
      refine exists_form ?_
      rintro rfl
      exact ht rfl

/-! ## Texts -/

theorem encodeBytes_lt {data : Bytes} : ∀ b ∈ encodeBytes data, b < 128 := by
  have small : ∀ b, isSymbol b = true → b < 128 := by
    intro b hb
    rw [← symbol_index hb]
    exact symbol_lt (index_lt b)
  by_cases hd : data = []
  · subst hd
    intro b hb
    cases hb
  · obtain ⟨body, symbols, pads, form, -⟩ := exists_form hd
    intro b hb
    rw [form.eq, List.mem_append, List.mem_append] at hb
    rcases hb with hb | hb | hb
    · exact small b (form.isSymbol_body b hb)
    · exact small b (form.isSymbol_last b hb)
    · rw [List.eq_of_mem_replicate hb]
      decide

/-- Of all texts exactly the one that some bytes are written as is read as these bytes. -/
theorem decode_eq_ok_iff {text : String} {data : Bytes} : decode text = .ok data ↔ text = encode data := by
  have written : encode data = ofBytes (encodeBytes data) := rfl
  unfold decode
  rw [decodeBytes_eq_ok_iff, written]
  constructor
  · intro h
    exact eq_ofBytes encodeBytes_lt h
  · rintro rfl
    exact utf8_ofBytes encodeBytes_lt

end UpdateExpr.Base64
