/-
Validated aliases are mentioned. While a builder validates names, an alias comes into its table only
with an operation whose subject, a path or a raw fragment, mentions it; the clause of that operation
contains its subject, and the statement contains every clause. So in every state that a run reaches
without the unchecked merge of aliases, the statement mentions every alias of the table.
-/
import UpdateExpr.Proofs.Builder.ClauseLists

namespace UpdateExpr

/-! ## Texts inside texts -/

theorem infix_append_left {part s : String} (h : part.toList <:+: s.toList) (t : String) :
    part.toList <:+: (s ++ t).toList := by
  rw [String.toList_append]
  exact h.trans (List.infix_append [] s.toList t.toList)

theorem infix_append_right {part t : String} (s : String) (h : part.toList <:+: t.toList) :
    part.toList <:+: (s ++ t).toList := by
  rw [String.toList_append]
  exact h.trans (List.suffix_append _ _).isInfix

theorem infix_intercalate {part : String} {parts : List String} (separator : String) (h : part ∈ parts) :
    part.toList <:+: (separator.intercalate parts).toList := by
  induction parts with
  | nil => cases h
  | cons first rest ih =>
    cases rest with
    | nil =>
      obtain rfl := List.mem_singleton.1 h
      simp only [String.intercalate_singleton, List.infix_refl]
    | cons next rest =>
      rw [String.intercalate_cons_cons]
      rcases List.mem_cons.1 h with rfl | h
      · rw [String.append_assoc]
        exact infix_append_left (List.infix_refl _) _
      · exact infix_append_right _ (ih h)

/-! ## Clauses inside the statement -/

namespace Clauses

/-- A statement contains every clause, and there is one as soon as there is a clause. -/
theorem infix_statement? {c : Clauses} {s : Section} {clause : String} (h : clause ∈ c.get s) :
    ∃ text, c.statement? = some text ∧ clause.toList <:+: text.toList := by
  obtain ⟨written, hs, inside⟩ : ∃ written, c.section? s = some written ∧ clause.toList <:+: written.toList := by
    unfold section?
    cases hg : c.get s with
    | nil =>
      rw [hg] at h
      cases h
    | cons first rest =>
      rw [hg] at h
      exact ⟨_, rfl, infix_append_right _ (infix_intercalate ", " h)⟩
  have member : written ∈ Section.all.filterMap c.section? := List.mem_filterMap.2 ⟨s, s.mem_all, hs⟩
  unfold statement?
  cases hl : Section.all.filterMap c.section? with
  | nil =>
    rw [hl] at member
    cases member
  | cons first rest =>
    rw [hl] at member
    exact ⟨_, rfl, inside.trans (infix_intercalate " " member)⟩

end Clauses

namespace ClauseForm

/-- The text that a clause is about: its path, or the whole raw fragment. -/
def subject : ClauseForm → String
  | .raw fragment => fragment
  | .assign path _ | .append path _ | .increment path | .remove path | .valued path => path

/-- A clause contains the text it is about. -/
theorem subject_infix_text (form : ClauseForm) (key : Nat → String) :
    form.subject.toList <:+: (form.text key).toList := by
  cases form with
  | raw fragment => exact List.infix_refl _
  | remove path => exact List.infix_refl _
  | valued path =>
    simp only [subject, text, String.append_assoc]
    exact infix_append_left (List.infix_refl _) _
  | increment path =>
    simp only [subject, text, String.append_assoc]
    exact infix_append_left (List.infix_refl _) _
  | assign path onlyIfAbsent =>
    cases onlyIfAbsent <;> simp only [subject, text, String.append_assoc] <;>
      exact infix_append_left (List.infix_refl _) _
  | append path listEnd =>
    cases listEnd <;> simp only [subject, text, String.append_assoc] <;>
      exact infix_append_left (List.infix_refl _) _

end ClauseForm

/-! ## Aliases of an operation -/

/-- Every alias of a contribution is mentioned by the subject of its clause. -/
def Contribution.Mentioned (c : Contribution) : Prop :=
  ∀ p ∈ c.names, ∃ s form, c.clause? = some (s, form) ∧ ("#" ++ p.1).toList <:+: form.subject.toList

namespace Operation

/-- What is not refused when names are validated mentions every alias. -/
theorem infix_of_unmentioned? {name : OperationName} {subject : String} {names : Table String}
    (h : unmentioned? ⟨true⟩ name subject names = none) :
    ∀ p ∈ names.entries, ("#" ++ p.1).toList <:+: subject.toList := by
  intro p hp
  have none_fails : Builder.unmentioned? subject names = none := by simpa [unmentioned?] using h
  unfold Builder.unmentioned? at none_fails
  have mentioned := List.find?_eq_none.1 none_fails p.1 (List.mem_map.2 ⟨p, hp, rfl⟩)
  rw [Bool.not_eq_true, Bool.not_eq_false'] at mentioned
  exact Text.occurs_iff.1 mentioned

theorem mentioned_contribution {op : Operation} (h : op.refusal? ⟨true⟩ = none)
    (hn : ∀ pairs, op ≠ .addNames pairs) : op.contribution.Mentioned := by
  -- an operation that takes a record declares the aliases of the record for the subject of its clause
  have checked : ∀ {name subject} {names : Table String} {c : Contribution} {s form},
      unmentioned? ⟨true⟩ name subject names = none → c.names = names.entries →
      c.clause? = some (s, form) → form.subject = subject → c.Mentioned := by
    intro name subject names c s form hu hnames hclause hsubject p hp
    rw [hnames] at hp
    exact ⟨s, form, hclause, hsubject ▸ infix_of_unmentioned? hu p hp⟩
  have unnamed : ∀ {c : Contribution}, c.names = [] → c.Mentioned := by
    intro c hc p hp
    rw [hc] at hp
    cases hp
  have action : ∀ a : SetAction, a.contribution.names = [] := by
    intro a
    cases a <;> rfl
  cases op with
  | set request =>
    cases ha : SetAction.ofRequest request with
    | error cause =>
      rw [contribution_set_error ha]
      exact unnamed rfl
    | ok a =>
      have hu : unmentioned? ⟨true⟩ .set a.subject request.names = none := by
        simpa only [refusal?, ha] using h
      rw [contribution_set_ok ha]
      cases a <;> exact checked hu rfl rfl rfl
  | increment request => exact checked h rfl rfl rfl
  | remove request => exact checked h rfl rfl rfl
  | add request => exact checked h rfl rfl rfl
  | delete request => exact checked h rfl rfl rfl
  | act a => exact unnamed (action a)
  | assign path value => exact unnamed rfl
  | assignIfAbsent path value => exact unnamed rfl
  | append path elements listEnd => exact unnamed rfl
  | raw fragment => exact unnamed rfl
  | register value => exact unnamed rfl
  | addNames pairs => exact absurd rfl (hn pairs)

end Operation

/-! ## Aliases of a run -/

namespace Ledger

/-- The clause of a contribution is in the ledger to which it was added. -/
theorem exists_clause_mem (l : Ledger) {cs : List Contribution} {c : Contribution} (h : c ∈ cs) {s : Section}
    {form : ClauseForm} (hc : c.clause? = some (s, form)) :
    ∃ key, form.text key ∈ (l.addAll cs).clauses.get s := by
  obtain ⟨i, hi, rfl⟩ := List.getElem_of_mem h
  rw [get_addAll]
  unfold clausesFrom
  let key : Nat → String := fun k => ":" ++ Token.numeral (l.values.length + allocated (cs.take i) + k + 1)
  refine ⟨key, List.mem_append_right _ (List.mem_flatten.2 ⟨_, List.mem_mapIdx.2 ⟨i, hi, rfl⟩, ?_⟩)⟩
  unfold Contribution.clauseIn
  simp only [hc, if_true]
  exact List.mem_singleton_self _

end Ledger

namespace Builder

/-- In every state that a run of a validating builder reaches without merging aliases unchecked,
whichever of its operations were refused: if the table of aliases has a key, there is a statement, and
it contains the key behind a number sign. -/
theorem statement_mentions_aliases {ops : List Operation} (hn : ∀ op ∈ ops, ∀ pairs, op ≠ .addNames pairs) :
    let b := (Operation.runAll ops (.new { validateNames := true })).2
    ∀ key name, b.names.find? key = some name →
      ∃ text, b.statement? = some text ∧ ("#" ++ key).toList <:+: text.toList := by
  intro b key name found
  let done := Operation.accepted ops (.new { validateNames := true })
  let l : Ledger := ({} : Ledger).addAll (done.map Operation.contribution)
  have reached : b = l.builder { validateNames := true } := Ledger.runAll_new _ ops
  -- the alias came with an operation that was not refused
  rw [reached] at found
  have declared : (key, name) ∈ l.names := Table.mem_of_find?_ofPairs found
  rw [Ledger.names_addAll, List.nil_append, List.mem_flatMap] at declared
  obtain ⟨c, hc, hp⟩ := declared
  obtain ⟨op, hop, rfl⟩ := List.mem_map.1 hc
  have passed : op.refusal? ⟨true⟩ = none := by
    have ran : op ∈ Operation.accepted ops (({} : Ledger).builder { validateNames := true }) := by
      rw [Ledger.builder_empty]
      exact hop
    exact Ledger.refusal?_of_mem_accepted {} ran
  have checked := Operation.mentioned_contribution passed (hn op ((Operation.accepted_sublist ops _).subset hop))
  -- whose clause mentions it, and is in the statement
  obtain ⟨s, form, hclause, mentioned⟩ := checked (key, name) hp
  obtain ⟨keys, member⟩ := Ledger.exists_clause_mem {} hc hclause
  obtain ⟨text, written, inside⟩ := Clauses.infix_statement? member
  refine ⟨text, ?_, (mentioned.trans (form.subject_infix_text keys)).trans inside⟩
  rw [reached]
  exact written

/-- An alias that is declared twice, one that is refused, and the empty alias. -/
theorem statement_mentions_aliases_mixed :
    let ops : List Operation :=
      [.set { path := some "#p.qty", value := some (.number "5"), names := .ofPairs [("p", "profile")] },
        .remove { path := "old", names := .ofPairs [("x", "y")] },
        .set { expression := some "a = #", names := .ofPairs [("", "empty")] },
        .delete { path := "tags.#p", names := .ofPairs [("p", "place")], value := .stringSet ["a"] }]
    let b := (Operation.runAll ops (.new { validateNames := true })).2
    (∀ op ∈ ops, ∀ pairs, op ≠ .addNames pairs) ∧ b.names.find? "p" = some "place" ∧ b.names.find? "x" = none ∧
      ∃ text, b.statement? = some text ∧ ("#" ++ "p").toList <:+: text.toList := by
  intro ops b
  have checked : ∀ op ∈ ops, ∀ pairs, op ≠ .addNames pairs := by
    intro op hop pairs h
    subst h
    simp [ops] at hop
  have place : b.names.find? "p" = some "place" := by decide
  exact ⟨checked, place, by decide, statement_mentions_aliases checked "p" "place" place⟩

end Builder

end UpdateExpr
