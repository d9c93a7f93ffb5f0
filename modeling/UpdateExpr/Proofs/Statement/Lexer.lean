/-
The value tokens of a text: a colon with all the letters, digits and underscores behind it. Lexing
goes through concatenation wherever no word runs across the seam, so through the commas, spaces and
brackets of clauses and statements: the tokens of a statement are those of its clauses, and the
tokens of a clause are the keys it was written with.
-/
import Mathlib.Data.List.TakeWhile
import UpdateExpr.Proofs.Builder.Contribution

namespace UpdateExpr

namespace Statement

/-! ## Lexing -/

/-- A character of a word. -/
def isWord (c : Char) : Bool :=
  c.isAlphanum || c == '_'

/-- The value tokens of some characters. -/
def lex : List Char → List String
  | [] => []
  | c :: rest =>
    -- the word holds no colon, so to go on behind the colon is to go on behind the word
    if c = ':' then String.ofList (':' :: rest.takeWhile isWord) :: lex rest else lex rest

/-- The value tokens of a text. -/
def valueTokens (text : String) : List String :=
  lex text.toList

/-- A text that does not go on with a word. -/
def Boundary (text : String) : Prop :=
  text.toList.takeWhile isWord = []

/-- A text that is one value token. -/
def IsToken (text : String) : Prop :=
  ∃ word : List Char, text.toList = ':' :: word ∧ ∀ c ∈ word, isWord c = true

theorem lex_cons (c : Char) (rest : List Char) :
    lex (c :: rest) =
      if c = ':' then String.ofList (':' :: rest.takeWhile isWord) :: lex rest else lex rest := rfl

theorem takeWhile_append_of_boundary {p : Char → Bool} {s t : List Char} (h : t.takeWhile p = []) :
    (s ++ t).takeWhile p = s.takeWhile p := by
  rw [List.takeWhile_append]
  split
  · rename_i hs
    rw [h, List.append_nil]
    exact ((List.takeWhile_prefix p).eq_of_length hs).symm
  · rfl

theorem lex_append {s t : List Char} (h : t.takeWhile isWord = []) : lex (s ++ t) = lex s ++ lex t := by
  induction s with
  | nil => rfl
  | cons c rest ih =>
    rw [List.cons_append, lex_cons, lex_cons, takeWhile_append_of_boundary h, ih]
    split <;> rfl

theorem lex_of_no_colon {s : List Char} (h : ':' ∉ s) : lex s = [] := by
  induction s with
  | nil => rfl
  | cons c rest ih =>
    rw [List.mem_cons, not_or] at h
    rw [lex_cons, if_neg fun hc => h.1 hc.symm, ih h.2]

theorem lex_append_of_no_colon {s t : List Char} (h : ':' ∉ s) : lex (s ++ t) = lex t := by
  induction s with
  | nil => rfl
  | cons c rest ih =>
    rw [List.mem_cons, not_or] at h
    rw [List.cons_append, lex_cons, if_neg fun hc => h.1 hc.symm, ih h.2]

/-! ## Lexing of texts -/

theorem valueTokens_append {s t : String} (h : Boundary t) :
    valueTokens (s ++ t) = valueTokens s ++ valueTokens t := by
  unfold valueTokens
  rw [String.toList_append]
  exact lex_append h

/-- Nothing in front without a colon counts, whatever follows. -/
theorem valueTokens_skip {s t : String} (h : ':' ∉ s.toList) : valueTokens (s ++ t) = valueTokens t := by
  unfold valueTokens
  rw [String.toList_append]
  exact lex_append_of_no_colon h

theorem valueTokens_of_no_colon {s : String} (h : ':' ∉ s.toList) : valueTokens s = [] :=
  lex_of_no_colon h

theorem valueTokens_token {s : String} (h : IsToken s) : valueTokens s = [s] := by
  obtain ⟨word, hs, hw⟩ := h
  have no_colon : ':' ∉ word := fun hc => absurd (hw _ hc) (by decide)
  unfold valueTokens
  rw [hs, lex_cons, if_pos rfl, lex_of_no_colon no_colon, List.takeWhile_eq_self_iff.2 hw, ← hs, String.ofList_toList]

/-- A token in front of a boundary is not run on. -/
theorem valueTokens_cons {s t : String} (hs : IsToken s) (ht : Boundary t) :
    valueTokens (s ++ t) = s :: valueTokens t := by
  rw [valueTokens_append ht, valueTokens_token hs]
  rfl

theorem Boundary.append {s t : String} (h : Boundary s) (hne : s ≠ "") : Boundary (s ++ t) := by
  unfold Boundary at *
  rw [String.toList_append]
  cases hs : s.toList with
  | nil => exact absurd (String.toList_inj.1 (hs.trans rfl)) hne
  | cons c rest =>
    rw [hs, List.takeWhile_cons] at h
    rw [List.cons_append, List.takeWhile_cons]
    cases hc : isWord c with
    | true =>
      rw [hc] at h
      cases h
    | false => rfl

/-- Tokens of texts joined with a separator that neither goes on with a word nor holds a colon. -/
theorem valueTokens_intercalate {separator : String} (hb : Boundary separator) (hne : separator ≠ "")
    (hc : ':' ∉ separator.toList) (parts : List String) :
    valueTokens (separator.intercalate parts) = parts.flatMap valueTokens := by
  induction parts with
  | nil => rfl
  | cons part rest ih =>
    cases rest with
    | nil =>
      rw [String.intercalate_singleton, List.flatMap_cons, List.flatMap_nil, List.append_nil]
    | cons next rest =>
      rw [String.intercalate_cons_cons, String.append_assoc, valueTokens_append (hb.append hne),
        valueTokens_skip hc, ih]
      rfl

end Statement

end UpdateExpr
