/-
Statements are unambiguous. On a path that is no keyword and holds no space, comma or bracket every
clause is whole: its words are no keywords, and its commas stand inside the brackets of the functions
that it calls. So the clauses of a run on such paths are read off its statement, and two runs with the
same statement have the same clauses in every section.
-/
import UpdateExpr.Proofs.Builder.ClauseLists
import UpdateExpr.Proofs.Statement.References
import UpdateExpr.Proofs.Statement.Splitting

namespace UpdateExpr

open Token Statement

namespace Statement

/-! ## Words that are cut nowhere -/

/-- A text without spaces, commas and brackets. -/
def Unbroken (text : String) : Prop :=
  ∀ c ∈ text.toList, c ∉ [' ', ',', '(', ')']

theorem Unbroken.no_space {text : String} (h : Unbroken text) : ' ' ∉ text.toList := fun hc =>
  h ' ' hc (List.mem_cons_self ..)

theorem Unbroken.nesting {text : String} (h : Unbroken text) (depth : Nat) :
    nesting depth text.toList = some depth := by
  unfold Unbroken at h
  generalize text.toList = cs at h
  induction cs with
  | nil => rfl
  | cons c rest ih =>
    obtain ⟨hc, hr⟩ := List.forall_mem_cons.1 h
    simp only [List.mem_cons, List.not_mem_nil, or_false, not_or] at hc
    rw [Statement.nesting, if_neg fun hd => hc.2.1 hd.2, nest, if_neg hc.2.2.1, if_neg hc.2.2.2]
    exact ih hr

theorem unbroken_key (n : Nat) : Unbroken (key (numeral n)) := by
  intro c hc
  rw [toList_key, List.mem_cons] at hc
  rcases hc with rfl | hc
  · decide
  · obtain ⟨low, high⟩ := capital_numeral n c hc
    rw [char_le_iff] at low
    simp only [List.mem_cons, List.not_mem_nil, or_false, not_or]
    refine ⟨?_, ?_, ?_, ?_⟩ <;>
    · rintro rfl
      exact absurd low (by decide)

theorem unbroken_emptyListKey : Unbroken emptyListKey := by
  have apart : (emptyListKey.toList.all fun c => c ∉ [' ', ',', '(', ')']) = true := by decide
  intro c hc
  exact of_decide_eq_true (List.all_eq_true.1 apart c hc)

/-! ## Words that are no keywords -/

/-- A word that opens no section. -/
def Ordinary (word : String) : Prop :=
  ' ' ∉ word.toList ∧ Section.ofKeyword? word = none

/-- Keywords have capital letters only. -/
theorem ofKeyword?_of_mem {word : String} {c : Char} (hc : c ∈ word.toList) (hu : c.isUpper = false) :
    Section.ofKeyword? word = none := by
  refine List.find?_eq_none.2 fun s _ => ?_
  rw [decide_eq_true_iff]
  rintro rfl
  have upper : ∀ c ∈ s.keyword.toList, c.isUpper = true := List.all_eq_true.1 (by cases s <;> decide)
  rw [upper c hc] at hu
  cases hu

theorem ordinary_of_mem {word : String} (c : Char) (hu : c.isUpper = false) (hc : c ∈ word.toList)
    (hs : ' ' ∉ word.toList) : Ordinary word :=
  ⟨hs, ofKeyword?_of_mem hc hu⟩

theorem keyless_intercalate {parts : List String} (hne : parts ≠ []) (h : ∀ part ∈ parts, Ordinary part) :
    Keyless (words (" ".intercalate parts)) := by
  rw [words_intercalate hne]
  intro w hw
  obtain ⟨part, hp, hw⟩ := List.mem_flatMap.1 hw
  rw [words_of_no_space (h part hp).1] at hw
  rw [List.mem_singleton.1 hw]
  exact (h part hp).2

end Statement

/-! ## Clauses -/

namespace ClauseForm

/-- The words of a clause, with something behind the last of them. -/
def parts (key : Nat → String) (tail : String) : ClauseForm → List String
  | .raw fragment => [fragment ++ tail]
  | .assign path false => [path, "=", key 0 ++ tail]
  | .assign path true => [path, "=", "if_not_exists(" ++ path ++ ",", key 0 ++ ")" ++ tail]
  | .append path .front =>
    [path, "=", "list_append(" ++ key 0 ++ ",", "if_not_exists(" ++ path ++ ",", emptyListKey ++ "))" ++ tail]
  | .append path .back =>
    [path, "=", "list_append(if_not_exists(" ++ path ++ ",", emptyListKey ++ "),", key 0 ++ ")" ++ tail]
  | .increment path => [path, "=", "if_not_exists(" ++ path ++ ",", key 0 ++ ")", "+", key 1 ++ tail]
  | .remove path => [path ++ tail]
  | .valued path => [path, key 0 ++ tail]

theorem text_append_eq_parts (key : Nat → String) (form : ClauseForm) (tail : String) :
    form.text key ++ tail = " ".intercalate (form.parts key tail) := by
  apply String.toList_inj.1
  rcases form with _ | ⟨_, _ | _⟩ | ⟨_, _ | _⟩ | _ | _ | _ <;> simp [text, parts, String.intercalate_cons_cons]

theorem parts_ne_nil (key : Nat → String) (tail : String) (form : ClauseForm) : form.parts key tail ≠ [] := by
  rcases form with _ | ⟨_, _ | _⟩ | ⟨_, _ | _⟩ | _ | _ | _ <;> exact List.cons_ne_nil _ _

section Unbroken

variable {key : Nat → String} {path : String} {form : ClauseForm}
  (hk : ∀ i, Unbroken (key i)) (hu : Unbroken path) (hp : form.path? = some path)
include hk hu hp

/-- Every comma of a clause stands in the brackets of a call. -/
theorem nesting_text : nesting 0 (form.text key).toList = some 0 := by
  have empty := unbroken_emptyListKey
  cases form with
  | raw fragment => cases hp
  | assign p onlyIfAbsent =>
    cases hp
    cases onlyIfAbsent <;>
      simp [text, nesting_append, (hk 0).nesting, hu.nesting, nesting, nest]
  | append p listEnd =>
    cases hp
    cases listEnd <;>
      simp [text, nesting_append, (hk 0).nesting, hu.nesting, empty.nesting, nesting, nest]
  | increment p =>
    cases hp
    simp [text, nesting_append, (hk 0).nesting, (hk 1).nesting, hu.nesting, nesting, nest]
  | remove p =>
    cases hp
    exact hu.nesting 0
  | valued p =>
    cases hp
    simp [text, nesting_append, (hk 0).nesting, hu.nesting, nesting, nest]

/-- No word of a clause is a keyword, also not the last one with a comma behind it. -/
theorem ordinary_parts (hc : ∀ i, ':' ∈ (key i).toList) (hw : Section.ofKeyword? path = none) {tail : String}
    (ht : tail ∈ ["", ","]) : ∀ part ∈ form.parts key tail, Ordinary part := by
  have no_space : ' ' ∉ tail.toList := by
    revert tail
    decide
  have first : Ordinary path := ⟨hu.no_space, hw⟩
  have equals : Ordinary "=" := ordinary_of_mem '=' (by decide) (by decide) (by decide)
  have plus : Ordinary "+" := ordinary_of_mem '+' (by decide) (by decide) (by decide)
  have last : ∀ i, Ordinary (key i ++ tail) := fun i =>
    ordinary_of_mem ':' (by decide) (by simp [hc i]) (by simp [(hk i).no_space, no_space])
  have closed : ∀ i, Ordinary (key i ++ ")" ++ tail) := fun i =>
    ordinary_of_mem ':' (by decide) (by simp [hc i]) (by simp [(hk i).no_space, no_space])
  have fallback : Ordinary ("if_not_exists(" ++ path ++ ",") :=
    ordinary_of_mem '(' (by decide) (by simp) (by simp [hu.no_space])
  cases form with
  | raw fragment => cases hp
  | assign p onlyIfAbsent =>
    cases hp
    cases onlyIfAbsent <;> simp [parts, first, equals, last, closed, fallback]
  | append p listEnd =>
    cases hp
    have empty := unbroken_emptyListKey.no_space
    cases listEnd with
    | front =>
      have call : Ordinary ("list_append(" ++ key 0 ++ ",") :=
        ordinary_of_mem '(' (by decide) (by simp) (by simp [(hk 0).no_space])
      have list : Ordinary (emptyListKey ++ "))" ++ tail) :=
        ordinary_of_mem ')' (by decide) (by simp) (by simp [empty, no_space])
      simp [parts, first, equals, call, fallback, list]
    | back =>
      have call : Ordinary ("list_append(if_not_exists(" ++ path ++ ",") :=
        ordinary_of_mem '(' (by decide) (by simp) (by simp [hu.no_space])
      have list : Ordinary (emptyListKey ++ "),") := ordinary_of_mem ')' (by decide) (by simp) (by simp [empty])
      simp [parts, first, equals, call, closed, list]
  | increment p =>
    cases hp
    have base : Ordinary (key 0 ++ ")") := ordinary_of_mem ')' (by decide) (by simp) (by simp [(hk 0).no_space])
    simp [parts, first, equals, plus, last, fallback, base]
  | remove p =>
    cases hp
    -- a path alone may look like a keyword, and no longer does with a comma behind it
    rcases List.mem_cons.1 ht with rfl | ht
    · simp [parts, first]
    · obtain rfl := List.mem_singleton.1 ht
      have listed : Ordinary (path ++ ",") :=
        ordinary_of_mem ',' (by decide) (by simp) (by simp [hu.no_space])
      simp [parts, listed]
  | valued p =>
    cases hp
    simp [parts, first, last]

/-- A clause on a path that is no keyword and is cut nowhere is not taken apart. -/
theorem whole_text (hc : ∀ i, ':' ∈ (key i).toList) (hw : Section.ofKeyword? path = none) :
    Clauses.Whole (form.text key) where
  keyless tail ht := by
    rw [text_append_eq_parts]
    exact keyless_intercalate (form.parts_ne_nil key tail) (ordinary_parts hk hu hp hc hw ht)
  brackets := nesting_text hk hu hp

end Unbroken

end ClauseForm

/-! ## Runs on paths that are cut nowhere -/

/-- An operation that brings no raw fragment and whose path, if it has one, is no keyword and holds no
space, comma or bracket. -/
def Operation.Legible (op : Operation) : Prop :=
  op.isRaw = false ∧ ∀ path, op.path? = some path →
    path ∉ ["SET", "REMOVE", "ADD", "DELETE"] ∧ ∀ c ∈ path.toList, c ∉ [' ', ',', '(', ')']

-- decided on the characters of the path, for the quantifier as it stands ranges over all characters
instance : DecidablePred Operation.Legible := fun op =>
  decidable_of_iff (op.isRaw = false ∧ (op.path?.all fun path =>
    decide (path ∉ ["SET", "REMOVE", "ADD", "DELETE"]) &&
      path.toList.all fun c => c ∉ [' ', ',', '(', ')']) = true) <| by
  simp only [Operation.Legible, Option.all_eq_true, Bool.and_eq_true, List.all_eq_true, decide_eq_true_iff]

namespace Ledger

/-- A clause of a ledger reached from the empty one is that of a contribution, on some keys of numerals. -/
theorem exists_form_of_mem_get {cs : List Contribution} {s : Section} {clause : String}
    (h : clause ∈ (({} : Ledger).addAll cs).clauses.get s) :
    ∃ c ∈ cs, ∃ form n, c.clause? = some (s, form) ∧ clause = form.text fun k => Token.key (numeral (n + k + 1)) := by
  rw [get_addAll, Clauses.get_empty, List.nil_append, clausesFrom, List.mem_flatten] at h
  obtain ⟨written, hw, hc⟩ := h
  obtain ⟨i, hi, rfl⟩ := List.mem_mapIdx.1 hw
  unfold Contribution.clauseIn at hc
  split at hc
  · rename_i t form hclause
    split at hc
    · rename_i hts
      subst hts
      exact ⟨cs[i], List.getElem_mem hi, form, _, hclause, List.mem_singleton.1 hc⟩
    · cases hc
  · cases hc

end Ledger

namespace Builder

/-- In a run of legible operations no clause is taken apart. -/
theorem whole_clauses_runAll (config : Config) {ops : List Operation} (h : ∀ op ∈ ops, op.Legible) (s : Section) :
    ∀ clause ∈ (Operation.runAll ops (.new config)).2.clauses.get s, Clauses.Whole clause := by
  intro clause hclause
  rw [Ledger.runAll_new] at hclause
  obtain ⟨c, hc, form, n, hform, rfl⟩ := Ledger.exists_form_of_mem_get hclause
  obtain ⟨op, hop, rfl⟩ := List.mem_map.1 hc
  obtain ⟨raw, legible⟩ := h op ((Operation.accepted_sublist ops _).subset hop)
  obtain ⟨path, hpath, named⟩ := Operation.path?_contribution raw hform
  obtain ⟨other, unbroken⟩ := legible path named
  have no_keyword : Section.ofKeyword? path = none := by
    refine List.find?_eq_none.2 fun s _ => ?_
    rw [decide_eq_true_iff]
    rintro rfl
    exact other (by cases s <;> decide)
  refine ClauseForm.whole_text (fun i => unbroken_key _) unbroken hpath (fun i => ?_) no_keyword
  rw [toList_key]
  exact List.mem_cons_self ..

/-- For any two runs of legible operations, whatever their configurations and whichever of their
operations are refused: if the statements are the same, or none, so are the clauses of every section.
There is no statement exactly if no section has a clause; and a statement that is cut at its keywords,
and then at the commas outside of brackets, shows the clauses that were collected, in their sections
and in their order. -/
theorem statement_unambiguous (config config' : Config) {ops ops' : List Operation} (h : ∀ op ∈ ops, op.Legible)
    (h' : ∀ op ∈ ops', op.Legible) :
    let b := (Operation.runAll ops (.new config)).2
    let b' := (Operation.runAll ops' (.new config')).2
    (b.statement? = b'.statement? → ∀ s, b.clauses.get s = b'.clauses.get s) ∧
    (b.statement? = none ↔ ∀ s, b.clauses.get s = []) ∧
    ∀ text, b.statement? = some text → ∀ s, clausesIn text s = b.clauses.get s := by
  intro b b'
  have whole := whole_clauses_runAll config h
  have whole' := whole_clauses_runAll config' h'
  refine ⟨fun same s => ?_, ?_, fun text written s => ?_⟩
  · cases written : b.statement? with
    | none =>
      rw [written] at same
      rw [Clauses.statement?_eq_none_iff.1 written s, Clauses.statement?_eq_none_iff.1 same.symm s]
    | some text =>
      rw [written] at same
      rw [← Clauses.ofStatement_statement? whole written, Clauses.ofStatement_statement? whole' same.symm]
  · exact Clauses.statement?_eq_none_iff
  · rw [← Clauses.get_ofStatement, Clauses.ofStatement_statement? whole written]

/-- Calls with commas of their own between paths that look like keywords; the second run has other
values, the sections in another order, and a request that is refused. -/
theorem statement_unambiguous_nested :
    let ops : List Operation :=
      [.remove { path := "set" }, .append "SETS" [.string "x"] .front, .increment { path := "a.n" },
        .remove { path := "#ADD" }]
    let ops' : List Operation :=
      [.append "SETS" [] .front, .set { path := some "x" }, .increment { path := "a.n" },
        .remove { path := "set" }, .remove { path := "#ADD" }]
    let b := (Operation.runAll ops (.new {})).2
    let b' := (Operation.runAll ops' (.new { validateNames := true })).2
    let text := "SET SETS = list_append(:A, if_not_exists(SETS, :zz_empty_list)), " ++
      "a.n = if_not_exists(a.n, :B) + :C REMOVE set, #ADD"
    (∀ op ∈ ops, op.Legible) ∧ (∀ op ∈ ops', op.Legible) ∧ b.statement? = some text ∧ b'.statement? = some text ∧
      (∀ s, b.clauses.get s = b'.clauses.get s) ∧
      clausesIn text .set = ["SETS = list_append(:A, if_not_exists(SETS, :zz_empty_list))",
        "a.n = if_not_exists(a.n, :B) + :C"] ∧
      clausesIn text .remove = ["set", "#ADD"] ∧ clausesIn text .add = [] ∧ clausesIn text .delete = [] := by
  intro ops ops' b b' text
  have legible : ∀ op ∈ ops, op.Legible := by decide
  have legible' : ∀ op ∈ ops', op.Legible := by decide
  have written : b.statement? = some text := by decide
  have written' : b'.statement? = some text := by decide
  obtain ⟨equal, -, read⟩ := statement_unambiguous {} { validateNames := true } legible legible'
  have cut : ∀ s, clausesIn text s = b.clauses.get s := read text written
  exact ⟨legible, legible', written, written', equal (written.trans written'.symm), (cut .set).trans (by decide),
    (cut .remove).trans (by decide), (cut .add).trans (by decide), (cut .delete).trans (by decide)⟩

end Builder

end UpdateExpr
