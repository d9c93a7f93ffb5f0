/-
Strings and integers in texts. What a string is escaped as is read back as the string, whatever its
characters are: short escapes, control characters written by their number, and everything else as it
is. The digits of an integer of at most 64 bits are read back as the integer, provided that what
follows cannot be part of a number.
-/
import UpdateExpr.Json.Printer
import UpdateExpr.Json.Source

namespace UpdateExpr

namespace Json

/-! ## Strings -/

theorem hexValue?_hexDigit : ∀ n < 16, hexValue? (hexDigit n) = some n := by decide

/-- A short escape stands for the character it is read as. -/
theorem scanString_short {c letter : Char} (h : unescape? letter = some c) (hu : letter ≠ 'u') (rest : List Char) :
    scanString .nothing ('\\' :: letter :: rest) =
      (scanString .nothing rest).map fun (pieces, rest) => (.char c :: pieces, rest) := by
  rw [scanString, if_neg (by decide), if_pos rfl, scanString, if_neg hu, h]

/-- Four digits stand for the unit they are the number of. -/
theorem scanString_control {n : Nat} (h : n < 256) (rest : List Char) :
    scanString .nothing ('\\' :: 'u' :: '0' :: '0' :: hexDigit (n / 16) :: hexDigit (n % 16) :: rest) =
      (scanString .nothing rest).map fun (pieces, rest) => (.unit n :: pieces, rest) := by
  have zero : hexValue? '0' = some 0 := by decide
  have high := hexValue?_hexDigit (n / 16) (by omega)
  have low := hexValue?_hexDigit (n % 16) (by omega)
  have number : ((0 * 16 + 0) * 16 + n / 16) * 16 + n % 16 = n := by omega
  rw [scanString, if_neg (by decide), if_pos rfl, scanString, if_pos rfl]
  simp only [scanString, zero, high, low, Nat.zero_mul, Nat.zero_add] at number ⊢
  rw [number]

theorem scanString_plain {c : Char} (hq : c ≠ '"') (hb : c ≠ '\\') (hc : ¬ c.toNat < 32) (rest : List Char) :
    scanString .nothing (c :: rest) =
      (scanString .nothing rest).map fun (pieces, rest) => (.char c :: pieces, rest) := by
  rw [scanString, if_neg hq, if_neg hb, if_neg hc]

/-- However a character is escaped, it is read as one piece, and this piece is the character. -/
theorem exists_piece (c : Char) :
    ∃ piece : Piece,
      (∀ pieces, assemble none (piece :: pieces) = (assemble none pieces).map (c :: ·)) ∧
      ∀ rest, scanString .nothing (escape c ++ rest) =
        (scanString .nothing rest).map fun (pieces, rest) => (piece :: pieces, rest) := by
  have short : ∀ letter, unescape? letter = some c → letter ≠ 'u' → escape c = ['\\', letter] →
      ∃ piece : Piece,
        (∀ pieces, assemble none (piece :: pieces) = (assemble none pieces).map (c :: ·)) ∧
        ∀ rest, scanString .nothing (escape c ++ rest) =
          (scanString .nothing rest).map fun (pieces, rest) => (piece :: pieces, rest) := by
    intro letter hl hu he
    refine ⟨.char c, fun _ => rfl, fun rest => ?_⟩
    rw [he]
    exact scanString_short hl hu rest
  by_cases quote : c = '"'
  · exact short '"' (by rw [quote]; rfl) (by decide) (by rw [quote]; rfl)
  by_cases backslash : c = '\\'
  · exact short '\\' (by rw [backslash]; rfl) (by decide) (by rw [backslash]; rfl)
  by_cases backspace : c = '\x08'
  · exact short 'b' (by rw [backspace]; rfl) (by decide) (by rw [backspace]; rfl)
  by_cases feed : c = '\x0c'
  · exact short 'f' (by rw [feed]; rfl) (by decide) (by rw [feed]; rfl)
  by_cases newline : c = '\n'
  · exact short 'n' (by rw [newline]; rfl) (by decide) (by rw [newline]; rfl)
  by_cases carriage : c = '\r'
  · exact short 'r' (by rw [carriage]; rfl) (by decide) (by rw [carriage]; rfl)
  by_cases tab : c = '\t'
  · exact short 't' (by rw [tab]; rfl) (by decide) (by rw [tab]; rfl)
  unfold escape
  simp only [quote, backslash, backspace, feed, newline, carriage, tab, if_false]
  by_cases control : c.toNat < 32
  · -- a control character is a unit of its own, far below the surrogates
    refine ⟨.unit c.toNat, fun pieces => ?_, fun rest => ?_⟩
    · rw [assemble, if_neg (by omega), if_neg (by omega), Char.ofNat_toNat]
    · rw [if_pos control]
      exact scanString_control (by omega) rest
  · refine ⟨.char c, fun _ => rfl, fun rest => ?_⟩
    rw [if_neg control]
    exact scanString_plain quote backslash control rest

theorem scanString_escape (cs rest : List Char) :
    ∃ pieces, assemble none pieces = some cs ∧
      scanString .nothing (cs.flatMap escape ++ '"' :: rest) = some (pieces, rest) := by
  induction cs with
  | nil => exact ⟨[], rfl, rfl⟩
  | cons c cs ih =>
    obtain ⟨pieces, whole, scanned⟩ := ih
    obtain ⟨piece, one, scan⟩ := exists_piece c
    refine ⟨piece :: pieces, ?_, ?_⟩
    · rw [one, whole]
      rfl
    · rw [List.flatMap_cons, List.append_assoc, scan, scanned]
      rfl

/-- A key or a string, behind its opening quote. -/
theorem scanString_string (s : String) (rest : List Char) :
    ∃ pieces, textOf? pieces = some s ∧
      scanString .nothing (s.toList.flatMap escape ++ '"' :: rest) = some (pieces, rest) := by
  obtain ⟨pieces, whole, scanned⟩ := scanString_escape s.toList rest
  refine ⟨pieces, ?_, scanned⟩
  unfold textOf?
  rw [whole, Option.map_some, String.ofList_toList]

end Json

/-! ## Integers -/

/-- A text that goes on with the end of a value, or not at all. -/
def Json.Stops (rest : List Char) : Prop :=
  ∀ c ∈ rest.head?, c = ',' ∨ c = ']' ∨ c = '\x7d'

namespace Numeral

open Json Number

theorem isDigit_natChars {n : Nat} {c : Char} (h : c ∈ natChars n) : c.isDigit = true :=
  Nat.isDigit_of_mem_toDigits (by decide) (by decide) h

theorem natChars_ne_nil (n : Nat) : natChars n ≠ [] :=
  Nat.toDigits_ne_nil

/-- Only zero begins with a zero. -/
theorem head?_natChars (n : Nat) (h : 0 < n) : (natChars n).head? ≠ some '0' := by
  unfold natChars
  induction n using Nat.strongRecOn with
  | _ n ih =>
    rw [Nat.toDigits_eq_if (by decide)]
    split
    · rw [List.head?_cons, Ne, Option.some.injEq, Nat.digitChar_eq_zero]
      omega
    · have := ih (n / 10) (by omega) (by omega)
      rw [List.head?_append, Option.or_of_isSome (List.isSome_head?.2 Nat.toDigits_ne_nil)]
      exact this

/-- No leading zero, unless it is the only digit. -/
theorem natChars_leading (n : Nat) : ¬ ((natChars n).head? = some '0' ∧ 1 < (natChars n).length) := by
  rintro ⟨zero, long⟩
  rcases Nat.eq_zero_or_pos n with rfl | pos
  · exact absurd long (by decide)
  · exact head?_natChars n pos zero

theorem scanDigits_natChars (n : Nat) {rest : List Char} (hr : Stops rest) :
    scanDigits (natChars n ++ rest) = some (natChars n, rest) := by
  have stop : rest.takeWhile Char.isDigit = [] ∧ rest.dropWhile Char.isDigit = rest := by
    cases rest with
    | nil => exact ⟨rfl, rfl⟩
    | cons c rest =>
      have : c.isDigit = false := by
        rcases hr c rfl with rfl | rfl | rfl <;> decide
      simp [this]
  unfold scanDigits
  rw [List.takeWhile_append_of_pos fun c => isDigit_natChars, List.dropWhile_append_of_pos fun c => isDigit_natChars,
    stop.1, stop.2, List.append_nil]
  cases h : natChars n with
  | nil => exact absurd h (natChars_ne_nil n)
  | cons d ds => rfl

/-- What follows a number begins neither a fraction nor an exponent. -/
theorem scan_stops {rest : List Char} (hr : Stops rest) :
    scanFraction rest = some ([], rest) ∧ scanExponent rest = some (none, rest) := by
  cases rest with
  | nil => exact ⟨rfl, rfl⟩
  | cons c rest => rcases hr c rfl with rfl | rfl | rfl <;> exact ⟨rfl, rfl⟩

/-- Digits are read to their end, behind a sign or without one. -/
theorem scan_natChars {negative : Bool} {n : Nat} {cs rest : List Char} (hr : Stops rest)
    (hs : cs = '-' :: (natChars n ++ rest) ∧ negative = true ∨ cs = natChars n ++ rest ∧ negative = false) :
    scan cs = some (⟨negative, natChars n, [], none⟩, rest) := by
  obtain ⟨fraction, exponent⟩ := scan_stops hr
  unfold scan
  split
  rename_i sign
  obtain ⟨rfl, rfl⟩ : _ = negative ∧ _ = natChars n ++ rest := by
    refine Prod.mk.inj (sign.symm.trans ?_)
    rcases hs with ⟨rfl, rfl⟩ | ⟨rfl, rfl⟩
    · rfl
    · -- a digit is no sign
      split
      · rename_i r h
        cases hd : natChars n with
        | nil => exact absurd hd (natChars_ne_nil n)
        | cons d ds =>
          have digit : d.isDigit = true := isDigit_natChars (n := n) (by rw [hd]; exact List.mem_cons_self ..)
          rw [hd, List.cons_append, List.cons.injEq] at h
          rw [h.1] at digit
          exact absurd digit (by decide)
      · rfl
  simp only [scanDigits_natChars n hr, Option.bind_eq_bind, Option.bind_some, if_neg (natChars_leading n), fraction,
    exponent]

theorem scan_intChars (i : Int) {rest : List Char} (hr : Stops rest) :
    scan (intChars i ++ rest) = some (⟨decide (i < 0), natChars i.natAbs, [], none⟩, rest) := by
  cases i with
  | ofNat n => exact scan_natChars hr (.inr ⟨rfl, decide_eq_false (Int.not_lt.2 (Int.natCast_nonneg n))⟩)
  | negSucc n => exact scan_natChars hr (.inl ⟨rfl, decide_eq_true (Int.negSucc_lt_zero n)⟩)

theorem le_ofDigitChars (ds : List Char) (s : Nat) : s ≤ Nat.ofDigitChars 10 ds s := by
  rw [Nat.ofDigitChars_eq_ofDigitChars_zero]
  have := Nat.le_mul_of_pos_left s (Nat.pow_pos (n := ds.length) (show 0 < 10 by decide))
  omega

/-- Digits whose number is below `2^64` are all taken into the significand. -/
theorem absorb_of_lt {ds : List Char} {s : Nat} (h : Nat.ofDigitChars 10 ds s < 0x10000000000000000) :
    absorb s ds = (Nat.ofDigitChars 10 ds s, []) := by
  induction ds generalizing s with
  | nil => rw [absorb, Nat.ofDigitChars_nil]
  | cons d ds ih =>
    rw [Nat.ofDigitChars_cons] at h ⊢
    have grown := le_ofDigitChars ds (10 * s + (d.toNat - '0'.toNat))
    rw [absorb]
    exact (if_pos (by unfold digitValue; exact Nat.lt_of_le_of_lt grown h)).trans (ih h)

theorem absorb_natChars {n : Nat} (h : n < 0x10000000000000000) : absorb 0 (natChars n) = (n, []) := by
  have number : Nat.ofDigitChars 10 (natChars n) 0 = n := Nat.ofDigitChars_ten_toDigits
  rw [absorb_of_lt (by rw [number]; exact h), number]

theorem value_intChars {i : Int} (h : fits i = true) :
    (⟨decide (i < 0), natChars i.natAbs, [], none⟩ : Numeral).value = some (.int i) := by
  obtain ⟨low, high⟩ : -0x8000000000000000 ≤ i ∧ i < 0x10000000000000000 := by
    unfold fits at h
    exact of_decide_eq_true h
  unfold value
  simp only [absorb_natChars (n := i.natAbs) (by omega), absorb, ne_eq, not_true_eq_false, or_self, if_false]
  by_cases negative : i < 0
  · rw [if_pos (decide_eq_true negative), if_pos (by omega)]
    congr 2
    omega
  · rw [if_neg (by rw [decide_eq_true_iff]; exact negative)]
    congr 2
    omega

end Numeral

end UpdateExpr
