/-
Taking statements apart. A statement is cut into words at its spaces, into sections at the words that
are keywords, and each section into clauses at the commas outside of brackets. If no word of a clause
is a keyword and no comma in it stands outside of brackets, this undoes the writing of the statement:
the clauses that were written are found again, in their sections and in their order.
-/
import Mathlib.Data.List.Basic
import UpdateExpr.Builder.Clause

namespace UpdateExpr

namespace Statement

/-! ## Words and sections -/

/-- The words of a text, which are what stands between its spaces. -/
def words (text : String) : List String :=
  (text.toList.splitOn ' ').map String.ofList

/-- The words behind each keyword, up to the next keyword. -/
def sections : List String → List (Section × List String)
  | [] => []
  | word :: rest =>
    match Section.ofKeyword? word with
    -- there is no keyword among these words, so to go on behind the first is to go on behind the last
    | some s => (s, rest.takeWhile fun w => (Section.ofKeyword? w).isNone) :: sections rest
    | none => sections rest

/-- Words that open no section. -/
def Keyless (ws : List String) : Prop :=
  ∀ w ∈ ws, Section.ofKeyword? w = none

theorem words_append (s t : String) : words (s ++ " " ++ t) = words s ++ words t := by
  unfold words List.splitOn
  rw [String.append_assoc, String.toList_append, String.toList_append, ← List.map_append]
  exact congrArg _ (List.splitOnP_append_cons _ _ (beq_self_eq_true ' '))

theorem words_of_no_space {text : String} (h : ' ' ∉ text.toList) : words text = [text] := by
  unfold words
  rw [List.splitOn_eq_singleton h, List.map_singleton, String.ofList_toList]

theorem words_intercalate {texts : List String} (h : texts ≠ []) :
    words (" ".intercalate texts) = texts.flatMap words := by
  induction texts with
  | nil => exact absurd rfl h
  | cons text rest ih =>
    cases rest with
    | nil => rw [String.intercalate_singleton, List.flatMap_cons, List.flatMap_nil, List.append_nil]
    | cons next rest =>
      rw [String.intercalate_cons_cons, words_append, ih (List.cons_ne_nil _ _)]
      rfl

/-- No word is lost. -/
theorem intercalate_words (text : String) : " ".intercalate (words text) = text := by
  have space : " ".toList = [' '] := rfl
  unfold words
  rw [← String.toList_inj, String.toList_intercalate, List.map_map, space]
  have same : String.toList ∘ String.ofList = id := funext fun _ => String.toList_ofList
  rw [same, List.map_id, List.intercalate_splitOn]

theorem sections_append {ws : List String} (h : Keyless ws) (rest : List String) :
    sections (ws ++ rest) = sections rest := by
  induction ws with
  | nil => rfl
  | cons w ws ih =>
    obtain ⟨first, others⟩ := List.forall_mem_cons.1 h
    rw [List.cons_append, sections, first]
    exact ih others

/-- Sections that were written one after the other are found again. -/
theorem sections_flatMap {body : Section → List String} (h : ∀ s, Keyless (body s)) (ss : List Section) :
    sections (ss.flatMap fun s => s.keyword :: body s) = ss.map fun s => (s, body s) := by
  induction ss with
  | nil => rfl
  | cons s ss ih =>
    -- behind the words of a section the statement ends or the next keyword stands
    have stop : (ss.flatMap fun s => s.keyword :: body s).takeWhile (fun w => (Section.ofKeyword? w).isNone) = [] := by
      cases ss with
      | nil => rfl
      | cons t ss =>
        rw [List.flatMap_cons, List.cons_append, List.takeWhile_cons_of_neg]
        rw [Section.ofKeyword?_keyword]
        exact Bool.false_ne_true
    have whole : ∀ w ∈ body s, (Section.ofKeyword? w).isNone = true := by
      intro w hw
      rw [h s w hw]
      rfl
    rw [List.flatMap_cons, List.cons_append, sections, Section.ofKeyword?_keyword, List.map_cons]
    simp only [List.takeWhile_append_of_pos whole, stop, List.append_nil, sections_append (h s), ih]

/-! ## Pieces -/

/-- How many brackets are open behind a character. -/
def nest (depth : Nat) (c : Char) : Nat :=
  if c = '(' then depth + 1 else if c = ')' then depth - 1 else depth

/-- The pieces of some characters between the commas with a space behind them at which no bracket is
open, `depth` of them being open at the start. -/
def pieces : (depth : Nat) → List Char → List (List Char)
  | _, [] => [[]]
  | 0, ',' :: ' ' :: rest => [] :: pieces 0 rest
  | depth, c :: rest => (pieces (nest depth c) rest).modifyHead (c :: ·)

/-- How many brackets are open behind some characters; none if one of them is a comma at which no
bracket is open. -/
def nesting : (depth : Nat) → List Char → Option Nat
  | depth, [] => some depth
  | depth, c :: rest => if depth = 0 ∧ c = ',' then none else nesting (nest depth c) rest

theorem nesting_append (depth : Nat) (s t : List Char) :
    nesting depth (s ++ t) = (nesting depth s).bind fun depth => nesting depth t := by
  induction s generalizing depth with
  | nil => rfl
  | cons c s ih =>
    rw [List.cons_append, nesting, nesting]
    split
    · rfl
    · exact ih (nest depth c)

theorem pieces_cons {depth : Nat} {c : Char} (h : ¬ (depth = 0 ∧ c = ',')) (rest : List Char) :
    pieces depth (c :: rest) = (pieces (nest depth c) rest).modifyHead (c :: ·) := by
  rw [pieces]
  rintro more hd hc -
  exact h ⟨hd, hc⟩

/-- What holds no comma outside of brackets is not cut. -/
theorem pieces_append {before after : Nat} {part : List Char} (h : nesting before part = some after)
    (rest : List Char) : pieces before (part ++ rest) = (pieces after rest).modifyHead (part ++ ·) := by
  induction part generalizing before with
  | nil =>
    cases h
    exact (congrFun List.modifyHead_id (pieces after rest)).symm
  | cons c part ih =>
    rw [nesting] at h
    split at h
    · cases h
    · rename_i inside
      rw [List.cons_append, pieces_cons inside, ih h, List.modifyHead_modifyHead]
      rfl

/-- Parts that were written one after the other are found again. -/
theorem pieces_intercalate {parts : List String} (hne : parts ≠ [])
    (h : ∀ part ∈ parts, nesting 0 part.toList = some 0) :
    pieces 0 (", ".intercalate parts).toList = parts.map String.toList := by
  induction parts with
  | nil => exact absurd rfl hne
  | cons part rest ih =>
    obtain ⟨first, others⟩ := List.forall_mem_cons.1 h
    cases rest with
    | nil =>
      have last := pieces_append first []
      rw [List.append_nil] at last
      rw [String.intercalate_singleton, last]
      exact congrArg (· :: []) (List.append_nil part.toList)
    | cons next rest =>
      have comma : ", ".toList = [',', ' '] := rfl
      rw [String.intercalate_cons_cons, String.append_assoc, String.toList_append, String.toList_append,
        pieces_append first, comma, List.cons_append, List.singleton_append, pieces,
        ih (List.cons_ne_nil _ _) others]
      exact congrArg (· :: _) (List.append_nil part.toList)

/-- The clauses that a statement has for a section. -/
def clausesIn (text : String) (s : Section) : List String :=
  match (sections (words text)).lookup s with
  | none => []
  | some ws => (pieces 0 (" ".intercalate ws).toList).map String.ofList

end Statement

/-! ## Clauses of a statement -/

namespace Clauses

open Statement

/-- The clauses that a statement shows. -/
def ofStatement (text : String) : Clauses where
  set := clausesIn text .set
  remove := clausesIn text .remove
  add := clausesIn text .add
  delete := clausesIn text .delete

theorem get_ofStatement (text : String) (s : Section) : (ofStatement text).get s = clausesIn text s := by
  cases s <;> rfl

/-- The sections that have clauses. -/
def present (c : Clauses) : List Section :=
  Section.all.filter fun s => !(c.get s).isEmpty

theorem mem_present {c : Clauses} {s : Section} : s ∈ c.present ↔ c.get s ≠ [] := by
  unfold present
  simp only [List.mem_filter, s.mem_all, true_and, Bool.not_eq_true', ne_eq, ← List.isEmpty_iff, Bool.not_eq_true]

/-- A statement is its sections with clauses, in order, each with its keyword in front. -/
theorem statement?_eq (c : Clauses) :
    c.statement? =
      if c.present = [] then none
      else some (" ".intercalate (c.present.map fun s => s.keyword ++ " " ++ ", ".intercalate (c.get s))) := by
  have written : Section.all.filterMap c.section? =
      c.present.map fun s => s.keyword ++ " " ++ ", ".intercalate (c.get s) := by
    unfold present
    rw [← List.filterMap_eq_map, List.filterMap_filter]
    refine List.filterMap_congr fun s _ => ?_
    show c.section? s =
      if (!(c.get s).isEmpty) = true then some (s.keyword ++ " " ++ ", ".intercalate (c.get s)) else none
    unfold section?
    cases c.get s <;> rfl
  unfold statement?
  rw [written]
  cases c.present <;> rfl

theorem statement?_eq_none_iff {c : Clauses} : c.statement? = none ↔ ∀ s, c.get s = [] := by
  have absent : c.present = [] ↔ ∀ s, c.get s = [] := by
    rw [List.eq_nil_iff_forall_not_mem]
    simp only [mem_present, ne_eq, not_not]
  rw [← absent, statement?_eq]
  split
  · rename_i h
    exact iff_of_true rfl h
  · rename_i h
    exact iff_of_false (Option.some_ne_none _) h

theorem words_statement? {c : Clauses} {text : String} (h : c.statement? = some text) :
    words text = c.present.flatMap fun s => s.keyword :: words (", ".intercalate (c.get s)) := by
  rw [statement?_eq] at h
  split at h
  · cases h
  · rename_i some_present
    cases h
    rw [words_intercalate (by simpa using some_present), List.flatMap_map]
    refine List.flatMap_congr fun s _ => ?_
    rw [words_append, words_of_no_space (by cases s <;> decide)]
    rfl

/-- A clause that is not taken apart: neither is a word of it a keyword, also not when a comma follows,
nor does a comma of it stand outside of brackets. -/
structure Whole (clause : String) : Prop where
  keyless : ∀ tail ∈ ["", ","], Keyless (words (clause ++ tail))
  brackets : nesting 0 clause.toList = some 0

theorem Whole.keyless_intercalate {clauses : List String} (h : ∀ clause ∈ clauses, Whole clause) :
    Keyless (words (", ".intercalate clauses)) := by
  induction clauses with
  | nil =>
    unfold Keyless
    decide
  | cons clause rest ih =>
    obtain ⟨first, others⟩ := List.forall_mem_cons.1 h
    cases rest with
    | nil =>
      have last := first.keyless "" (by decide)
      rw [String.append_empty] at last
      rw [String.intercalate_singleton]
      exact last
    | cons next rest =>
      have comma : ", " = "," ++ " " := by decide
      rw [String.intercalate_cons_cons, comma, ← String.append_assoc, words_append]
      intro w hw
      rcases List.mem_append.1 hw with hw | hw
      · exact first.keyless "," (by decide) w hw
      · exact ih others w hw

theorem lookup_map_pair {β : Type} (f : Section → β) (ss : List Section) (s : Section) :
    (ss.map fun s => (s, f s)).lookup s = if s ∈ ss then some (f s) else none := by
  induction ss with
  | nil => rfl
  | cons t ss ih =>
    rw [List.map_cons, List.lookup_cons, ih]
    by_cases h : s = t
    · subst h
      rw [beq_self_eq_true, if_pos (List.mem_cons_self ..)]
    · rw [beq_eq_false_iff_ne.2 h]
      simp only [List.mem_cons, h, false_or]

/-- Taking a statement apart gives back the clauses that it was written from. -/
theorem ofStatement_statement? {c : Clauses} (h : ∀ s, ∀ clause ∈ c.get s, Whole clause) {text : String}
    (ht : c.statement? = some text) : ofStatement text = c := by
  refine ext_get fun s => ?_
  have keyless : ∀ s, Keyless (words (", ".intercalate (c.get s))) := fun s => Whole.keyless_intercalate (h s)
  rw [get_ofStatement, clausesIn, words_statement? ht, sections_flatMap keyless, lookup_map_pair]
  by_cases hs : c.get s = []
  · rw [if_neg (mt mem_present.1 (not_not_intro hs)), hs]
  · rw [if_pos (mem_present.2 hs)]
    have strings : String.ofList ∘ String.toList = id := funext fun _ => String.ofList_toList
    have cut := pieces_intercalate hs fun clause hc => (h s clause hc).brackets
    simp only [intercalate_words, cut, List.map_map, strings, List.map_id]

end Clauses

end UpdateExpr
