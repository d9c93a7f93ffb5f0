/-
The tokens of clauses and statements. A clause on a path without a colon mentions the keys it was
written with and no other token, and the tokens of a statement are those of its clauses, section by
section. Only this module knows how clauses and statements are worded.
-/
import Mathlib.Data.List.Basic
import UpdateExpr.Proofs.Statement.Lexer
import UpdateExpr.Proofs.Token.Allocation

namespace UpdateExpr

open Token Statement

/-! ## Keys are tokens -/

theorem isWord_of_capital {c : Char} (h : 'A' ≤ c ∧ c ≤ 'Z') : isWord c = true := by
  have upper : c.isUpper = true := decide_eq_true ⟨h.1, h.2⟩
  unfold isWord Char.isAlphanum Char.isAlpha
  rw [upper]
  rfl

theorem isToken_key (n : Nat) : IsToken (key (numeral n)) :=
  ⟨_, toList_key _, fun c hc => isWord_of_capital (capital_numeral n c hc)⟩

theorem isToken_emptyListKey : IsToken emptyListKey :=
  ⟨"zz_empty_list".toList, by decide, List.all_eq_true.1 (by decide)⟩

/-! ## Tokens of a clause -/

namespace ClauseForm

/-- The path of a clause that is no raw fragment. -/
def path? : ClauseForm → Option String
  | .raw _ => none
  | .assign path _ | .append path _ | .increment path | .remove path | .valued path => some path

/-- The keys that a clause mentions, from left to right. -/
def keys (key : Nat → String) : ClauseForm → List String
  | .raw _ | .remove _ => []
  | .assign _ _ | .valued _ => [key 0]
  | .append _ .front => [key 0, emptyListKey]
  | .append _ .back => [emptyListKey, key 0]
  | .increment _ => [key 0, key 1]

/-- How many values come with a clause. -/
def slots : ClauseForm → Nat
  | .raw _ | .remove _ => 0
  | .assign _ _ | .valued _ | .append _ _ => 1
  | .increment _ => 2

/-- A clause mentions the keys it was written with and nothing else that looks like one. -/
theorem valueTokens_text {key : Nat → String} (hk : ∀ i, IsToken (key i)) {form : ClauseForm} {path : String}
    (hp : form.path? = some path) (hc : ':' ∉ path.toList) : valueTokens (form.text key) = form.keys key := by
  have bracket : Boundary ")" := by unfold Boundary; decide
  cases form with
  | raw fragment => cases hp
  | assign p onlyIfAbsent =>
    cases hp
    cases onlyIfAbsent with
    | false =>
      simp only [text, keys, String.append_assoc]
      rw [valueTokens_skip hc, valueTokens_skip (by decide), valueTokens_token (hk 0)]
    | true =>
      simp only [text, keys, String.append_assoc]
      rw [valueTokens_skip hc, valueTokens_skip (by decide), valueTokens_skip hc, valueTokens_skip (by decide),
        valueTokens_cons (hk 0) bracket, valueTokens_of_no_colon (by decide)]
  | append p listEnd =>
    cases hp
    cases listEnd with
    | front =>
      have fallback : Boundary ", if_not_exists(" := by unfold Boundary; decide
      have brackets : Boundary "))" := by unfold Boundary; decide
      simp only [text, keys, String.append_assoc]
      rw [valueTokens_skip hc, valueTokens_skip (by decide), valueTokens_cons (hk 0) (fallback.append (by decide)),
        valueTokens_skip (by decide), valueTokens_skip hc, valueTokens_skip (by decide),
        valueTokens_cons isToken_emptyListKey brackets, valueTokens_of_no_colon (by decide)]
    | back =>
      have closing : Boundary "), " := by unfold Boundary; decide
      simp only [text, keys, String.append_assoc]
      rw [valueTokens_skip hc, valueTokens_skip (by decide), valueTokens_skip hc, valueTokens_skip (by decide),
        valueTokens_cons isToken_emptyListKey (closing.append (by decide)), valueTokens_skip (by decide),
        valueTokens_cons (hk 0) bracket, valueTokens_of_no_colon (by decide)]
  | increment p =>
    cases hp
    have plus : Boundary ") + " := by unfold Boundary; decide
    simp only [text, keys, String.append_assoc]
    rw [valueTokens_skip hc, valueTokens_skip (by decide), valueTokens_skip hc, valueTokens_skip (by decide),
      valueTokens_cons (hk 0) (plus.append (by decide)), valueTokens_skip (by decide), valueTokens_token (hk 1)]
  | remove p =>
    cases hp
    exact valueTokens_of_no_colon hc
  | valued p =>
    cases hp
    simp only [text, keys, String.append_assoc]
    rw [valueTokens_skip hc, valueTokens_skip (by decide), valueTokens_token (hk 0)]

/-- A clause mentions the key of each of its values once. -/
theorem count_keys {key : Nat → String} (form : ClauseForm) {k : String} (hk : k ≠ emptyListKey) :
    (form.keys key).count k = ((List.range form.slots).map key).count k := by
  cases form with
  | append p listEnd =>
    cases listEnd with
    | front => simp [keys, slots, List.count_cons, List.range_succ, hk.symm]
    | back => simp [keys, slots, List.count_cons, List.range_succ, hk.symm]
  | _ => rfl

end ClauseForm

/-! ## Tokens of a statement -/

namespace Clauses

/-- The value tokens of all clauses, section by section. -/
def tokens (c : Clauses) : List String :=
  Section.all.flatMap fun s => (c.get s).flatMap valueTokens

theorem tokens_section? (c : Clauses) (s : Section) :
    (c.section? s).toList.flatMap valueTokens = (c.get s).flatMap valueTokens := by
  have comma : Boundary ", " := by unfold Boundary; decide
  have keyword : ':' ∉ s.keyword.toList := by cases s <;> decide
  unfold section?
  cases c.get s with
  | nil => rfl
  | cons clause rest =>
    rw [Option.toList_some, List.flatMap_singleton, String.append_assoc, valueTokens_skip keyword,
      valueTokens_skip (by decide), valueTokens_intercalate comma (by decide) (by decide)]

/-- Keywords and separators add no token and cut none off. -/
theorem tokens_statement? (c : Clauses) : (c.statement?.map valueTokens).getD [] = c.tokens := by
  have space : Boundary " " := by unfold Boundary; decide
  -- a section without clauses is left out, and has no tokens
  have sections : (Section.all.filterMap c.section?).flatMap valueTokens = c.tokens := by
    unfold tokens
    rw [List.filterMap_eq_flatMap_toList, List.flatMap_assoc]
    simp only [tokens_section?]
  unfold statement?
  rw [← sections]
  cases Section.all.filterMap c.section? with
  | nil => rfl
  | cons first rest =>
    rw [Option.map_some, Option.getD_some, valueTokens_intercalate space (by decide) (by decide)]

theorem count_tokens_push (c : Clauses) (s : Section) (clause k : String) :
    (c.push s clause).tokens.count k = c.tokens.count k + (valueTokens clause).count k := by
  unfold tokens Section.all push get
  cases s <;> simp [List.count_append] <;> omega

end Clauses

end UpdateExpr
