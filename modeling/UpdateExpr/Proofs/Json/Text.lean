/-
Compact texts. The text of a value whose numbers are integers of at most 64 bits is read as the tree
of the value, at any depth, and nothing of what stands behind it is consumed.
-/
import UpdateExpr.Proofs.Json.Scalars

namespace UpdateExpr

namespace Json

/-! ## Trees of values -/

mutual

/-- What is read where a value stands: the value itself, without holes. -/
def toSource : Json → Source
  | .null => .null
  | .bool b => .bool b
  | .num n => .num (some n)
  | .str s => .str (some s)
  | .arr items => .arr (itemsToSource items) true
  | .obj members => .obj (membersToSource members) true

/-- The trees of items. -/
def itemsToSource : List Json → List Source
  | [] => []
  | j :: rest => j.toSource :: itemsToSource rest

/-- The trees of members. -/
def membersToSource : List (String × Json) → List (Option String × Source)
  | [] => []
  | (key, j) :: rest => (some key, j.toSource) :: membersToSource rest

end

mutual

/-- How many arrays and objects are nested. -/
def depth : Json → Nat
  | .arr items => itemsDepth items + 1
  | .obj members => membersDepth members + 1
  | _ => 0

/-- The depth of the deepest item. -/
def itemsDepth : List Json → Nat
  | [] => 0
  | j :: rest => max j.depth (itemsDepth rest)

/-- The depth of the deepest member. -/
def membersDepth : List (String × Json) → Nat
  | [] => 0
  | (_, j) :: rest => max j.depth (membersDepth rest)

end

mutual

/-- Every number is an integer of at most 64 bits. -/
def Integral : Json → Prop
  | .num (.int i) => Number.fits i = true
  | .num (.float _) => False
  | .arr items => IntegralItems items
  | .obj members => IntegralMembers members
  | _ => True

/-- Every item is integral. -/
def IntegralItems : List Json → Prop
  | [] => True
  | j :: rest => j.Integral ∧ IntegralItems rest

/-- Every member has an integral value. -/
def IntegralMembers : List (String × Json) → Prop
  | [] => True
  | (_, j) :: rest => j.Integral ∧ IntegralMembers rest

end

end Json

namespace Source

open Json

/-! ## Beginnings -/

theorem skipBlanks_cons {c : Char} (h : isBlank c = false) (cs : List Char) : skipBlanks (c :: cs) = c :: cs := by
  unfold skipBlanks
  rw [List.dropWhile_cons_of_neg (by rw [h]; exact Bool.false_ne_true)]

/-- An integer begins with a sign or a digit, and so with nothing that begins another value. -/
theorem exists_intChars (i : Int) :
    ∃ c cs, Number.intChars i = c :: cs ∧
      isBlank c = false ∧ c ≠ ']' ∧ c ∉ ['n', 't', 'f', '"', '[', '\x7b'] := by
  have digit : ∀ c : Char, c.isDigit = true →
      isBlank c = false ∧ c ≠ ']' ∧ c ∉ ['n', 't', 'f', '"', '[', '\x7b'] := by
    intro c hc
    have other : ∀ d : Char, d.isDigit = false → c ≠ d := by
      rintro d hd rfl
      rw [hc] at hd
      cases hd
    refine ⟨?_, other _ (by decide), ?_⟩
    · unfold isBlank
      rw [decide_eq_false_iff_not]
      rintro (rfl | rfl | rfl | rfl) <;> revert hc <;> decide
    · simp only [List.mem_cons, List.not_mem_nil, or_false, not_or]
      exact ⟨other _ (by decide), other _ (by decide), other _ (by decide), other _ (by decide), other _ (by decide),
        other _ (by decide)⟩
  cases i with
  | ofNat n =>
    cases h : Number.natChars n with
    | nil => exact absurd h (Numeral.natChars_ne_nil n)
    | cons c cs =>
      have member : c ∈ Number.natChars n := by
        rw [h]
        exact List.mem_cons_self ..
      exact ⟨c, cs, h, digit c (Numeral.isDigit_natChars member)⟩
  | negSucc n => exact ⟨'-', Number.natChars (n + 1), rfl, by decide⟩

/-- No value begins with a blank or with the end of an array. -/
theorem exists_chars {j : Json} (h : j.Integral) : ∃ c cs, j.chars = c :: cs ∧ isBlank c = false ∧ c ≠ ']' := by
  cases j with
  | null => exact ⟨_, _, rfl, by decide⟩
  | bool b => cases b <;> exact ⟨_, _, rfl, by decide⟩
  | num n =>
    cases n with
    | int i =>
      obtain ⟨c, cs, hc, blank, close, -⟩ := exists_intChars i
      exact ⟨c, cs, hc, blank, close⟩
    | float x => exact h.elim
  | str s => exact ⟨_, _, rfl, by decide⟩
  | arr items => cases items <;> exact ⟨_, _, rfl, by decide⟩
  | obj members => cases members <;> exact ⟨_, _, rfl, by decide⟩

theorem stops_moreItems (js : List Json) (rest : List Char) : Stops (moreItems js ++ rest) := by
  rintro c hc
  cases js <;> cases hc
  · exact .inr (.inl rfl)
  · exact .inl rfl

theorem stops_moreMembers (js : List (String × Json)) (rest : List Char) : Stops (moreMembers js ++ rest) := by
  rintro c hc
  cases js with
  | nil =>
    cases hc
    exact .inr (.inr rfl)
  | cons p js =>
    cases hc
    exact .inl rfl

/-! ## Values -/

theorem readString_stringChars (s : String) (rest : List Char) :
    readString (s.toList.flatMap escape ++ '"' :: rest) = (.str (some s), some rest) := by
  obtain ⟨pieces, text, scanned⟩ := scanString_string s rest
  unfold readString
  rw [scanned]
  simp only [text]

theorem readNumber_intChars {i : Int} (h : Number.fits i = true) {rest : List Char} (hr : Stops rest) :
    readNumber (Number.intChars i ++ rest) = (.num (some (.int i)), some rest) := by
  unfold readNumber
  rw [Numeral.scan_intChars i hr]
  simp only [Numeral.value_intChars h]

theorem readValue_array {fuel : Nat} {c : Char} {cs rest : List Char} {items : List Source}
    (blank : isBlank c = false) (close : c ≠ ']') (h : readItems fuel (c :: cs) = (items, some rest)) :
    readValue (fuel + 1) ('[' :: c :: cs) = (.arr items true, some rest) := by
  rw [readValue, skipBlanks_cons (by decide)]
  simp only [Char.reduceEq, if_false, if_true, skipBlanks_cons blank]
  split
  · rename_i heq
    exact absurd (List.cons.inj heq).1 close
  · rw [h]
    rfl

theorem readValue_object {fuel : Nat} {cs rest : List Char} {members : List (Option String × Source)}
    (h : readMembers fuel ('"' :: cs) = (members, some rest)) :
    readValue (fuel + 1) ('\x7b' :: '"' :: cs) = (.obj members true, some rest) := by
  rw [readValue, skipBlanks_cons (by decide)]
  simp only [Char.reduceEq, if_false, if_true, skipBlanks_cons (by decide : isBlank '"' = false)]
  split
  · rename_i heq
    cases heq
  · rw [h]
    rfl

/-- A key and its value, with the closing brace behind them. -/
theorem readMembers_last {fuel : Nat} {cs rest : List Char} {value : Source} (key : String)
    (h : readValue fuel cs = (value, some ('\x7d' :: rest))) :
    readMembers (fuel + 1) (stringChars key ++ ':' :: cs) = ([(some key, value)], some rest) := by
  obtain ⟨pieces, text, scanned⟩ := scanString_string key (':' :: cs)
  rw [stringChars, List.cons_append, List.append_assoc, List.singleton_append, readMembers,
    skipBlanks_cons (by decide)]
  simp only [scanned, skipBlanks_cons (by decide : isBlank ':' = false), h,
    skipBlanks_cons (by decide : isBlank '\x7d' = false), text]

/-- A key and its value, with a comma and more members behind them. -/
theorem readMembers_more {fuel : Nat} {cs more rest : List Char} {value : Source}
    {members : List (Option String × Source)} (key : String) (h : readValue fuel cs = (value, some (',' :: more)))
    (hm : readMembers fuel more = (members, some rest)) :
    readMembers (fuel + 1) (stringChars key ++ ':' :: cs) = ((some key, value) :: members, some rest) := by
  obtain ⟨pieces, text, scanned⟩ := scanString_string key (':' :: cs)
  rw [stringChars, List.cons_append, List.append_assoc, List.singleton_append, readMembers,
    skipBlanks_cons (by decide)]
  simp only [scanned, skipBlanks_cons (by decide : isBlank ':' = false), h,
    skipBlanks_cons (by decide : isBlank ',' = false), text, hm]

/-! ## Trees

Every character costs at most two steps. The items and members of a list are read from behind the
comma that would stand in front of them if there were others before. -/

theorem length_chars_pos {j : Json} (h : j.Integral) : 0 < j.chars.length := by
  obtain ⟨c, cs, hc, -⟩ := exists_chars h
  rw [hc]
  exact Nat.succ_pos _

mutual

theorem readValue_chars : ∀ {j : Json}, j.Integral → ∀ (fuel : Nat) (rest : List Char),
    2 * j.chars.length ≤ fuel → Stops rest → readValue fuel (j.chars ++ rest) = (j.toSource, some rest)
  | j, h, 0, rest, hf, _ => by
    have := length_chars_pos h
    omega
  | .null, _, fuel + 1, rest, _, _ => rfl
  | .bool true, _, fuel + 1, rest, _, _ => rfl
  | .bool false, _, fuel + 1, rest, _, _ => rfl
  | .num (.int i), h, fuel + 1, rest, _, hr => by
    obtain ⟨c, cs, hc, blank, -, other⟩ := exists_intChars i
    have number := readNumber_intChars h hr
    simp only [List.mem_cons, List.not_mem_nil, or_false, not_or] at other
    rw [hc, List.cons_append] at number
    rw [chars, Number.chars, hc, List.cons_append, readValue, skipBlanks_cons blank]
    simp only [other, if_false]
    exact number
  | .str s, _, fuel + 1, rest, _, _ => by
    rw [chars, stringChars, List.cons_append, List.append_assoc, List.singleton_append, readValue,
      skipBlanks_cons (by decide)]
    exact readString_stringChars s rest
  | .arr [], _, fuel + 1, rest, _, _ => rfl
  | .arr (j :: js), h, fuel + 1, rest, hf, _ => by
    obtain ⟨c, cs, hc, blank, close⟩ := exists_chars h.1
    have items := readItems_chars (j :: js) h fuel rest rfl (by
      rw [chars, List.length_cons] at hf
      omega)
    rw [hc] at items
    rw [chars, hc]
    exact readValue_array blank close items
  | .obj [], _, fuel + 1, rest, _, _ => rfl
  | .obj ((key, j) :: js), h, fuel + 1, rest, hf, _ => by
    have members := readMembers_chars ((key, j) :: js) h fuel rest rfl (by
      rw [chars, List.length_cons] at hf
      omega)
    exact readValue_object members

theorem readItems_chars : ∀ (js : List Json), IntegralItems js → ∀ (fuel : Nat) {text : List Char} (rest : List Char),
    moreItems js = ',' :: text → 2 * text.length ≤ fuel →
    readItems fuel (text ++ rest) = (itemsToSource js, some rest)
  | j :: js, h, 0, text, rest, ht, hf => by
    have := length_chars_pos h.1
    obtain rfl := (List.cons.inj ht).2
    rw [List.length_append] at hf
    omega
  | [j], h, fuel + 1, text, rest, ht, hf => by
    obtain rfl := (List.cons.inj ht).2
    rw [List.length_append, moreItems, List.length_singleton] at hf
    rw [readItems, List.append_assoc, readValue_chars h.1 fuel _ (by omega) (stops_moreItems [] rest)]
    rfl
  | j :: j' :: js, h, fuel + 1, text, rest, ht, hf => by
    obtain rfl := (List.cons.inj ht).2
    rw [List.length_append, moreItems, List.length_cons] at hf
    have items := readItems_chars (j' :: js) h.2 fuel rest rfl (by omega)
    have value := readValue_chars h.1 fuel _ (by omega) (stops_moreItems (j' :: js) rest)
    rw [readItems, List.append_assoc, value, moreItems, List.cons_append]
    simp only [skipBlanks_cons (by decide : isBlank ',' = false), items]
    rfl

theorem readMembers_chars : ∀ (js : List (String × Json)), IntegralMembers js →
    ∀ (fuel : Nat) {text : List Char} (rest : List Char), moreMembers js = ',' :: text → 2 * text.length ≤ fuel →
    readMembers fuel (text ++ rest) = (membersToSource js, some rest)
  | (key, j) :: js, h, 0, text, rest, ht, hf => by
    obtain rfl := (List.cons.inj ht).2
    rw [List.length_append, stringChars, List.length_cons] at hf
    omega
  | [(key, j)], h, fuel + 1, text, rest, ht, hf => by
    obtain rfl := (List.cons.inj ht).2
    rw [List.length_append, List.length_cons, List.length_append, moreMembers, List.length_singleton] at hf
    rw [List.append_assoc, List.cons_append, List.append_assoc]
    exact readMembers_last key (readValue_chars h.1 fuel _ (by omega) (stops_moreMembers [] rest))
  | (key, j) :: (key', j') :: js, h, fuel + 1, text, rest, ht, hf => by
    obtain rfl := (List.cons.inj ht).2
    rw [List.length_append, List.length_cons, List.length_append, moreMembers, List.length_cons] at hf
    have members := readMembers_chars ((key', j') :: js) h.2 fuel rest rfl (by omega)
    rw [List.append_assoc, List.cons_append, List.append_assoc]
    have value := readValue_chars h.1 fuel _ (by omega) (stops_moreMembers ((key', j') :: js) rest)
    exact readMembers_more key value members

end

end Source

/-! ## Documents -/

/-- The compact text of a value is read as the value's tree, and nothing is left over. -/
theorem Document.ofText_compact {j : Json} (h : j.Integral) : ofText j.compact = ⟨j.toSource, true⟩ := by
  have read : Source.readValue (2 * j.chars.length + 1) (j.chars ++ []) = (j.toSource, some []) :=
    Source.readValue_chars h _ _ (by omega) (fun c hc => nomatch hc)
  rw [List.append_nil] at read
  unfold ofText ofChars Json.compact
  rw [String.toList_ofList, read]
  rfl

end UpdateExpr
