/-
Results that are values or errors. A reader made of several readers gives a value exactly if each of
them does, one after the other, and else the error of the first one that does not.
-/
namespace UpdateExpr

variable {ε α β : Type}

theorem ok_bind (a : α) (f : α → Except ε β) : (Except.ok a >>= f) = f a := rfl

theorem bind_eq_ok {x : Except ε α} {f : α → Except ε β} {b : β} :
    (x >>= f) = .ok b ↔ ∃ a, x = .ok a ∧ f a = .ok b := by
  cases x with
  | error e =>
    constructor
    · intro h
      cases h
    · rintro ⟨a, h, -⟩
      cases h
  | ok a =>
    constructor
    · intro h
      exact ⟨a, rfl, h⟩
    · rintro ⟨a', h, hf⟩
      cases h
      exact hf

theorem map_eq_ok {x : Except ε α} {f : α → β} {b : β} :
    x.map f = .ok b ↔ ∃ a, x = .ok a ∧ f a = b := by
  cases x with
  | error e =>
    constructor
    · intro h
      cases h
    · rintro ⟨a, h, -⟩
      cases h
  | ok a =>
    constructor
    · intro h
      cases h
      exact ⟨a, rfl, rfl⟩
    · rintro ⟨a', h, hf⟩
      cases h
      cases hf
      rfl

theorem bind_eq_error {x : Except ε α} {f : α → Except ε β} {e : ε} :
    (x >>= f) = .error e ↔ x = .error e ∨ ∃ a, x = .ok a ∧ f a = .error e := by
  cases x with
  | error e' =>
    constructor
    · intro h
      cases h
      exact .inl rfl
    · rintro (h | ⟨a, h, -⟩)
      · cases h
        rfl
      · cases h
  | ok a =>
    constructor
    · intro h
      exact .inr ⟨a, rfl, h⟩
    · rintro (h | ⟨a', h, hf⟩)
      · cases h
      · cases h
        exact hf

theorem map_eq_error {x : Except ε α} {f : α → β} {e : ε} : x.map f = .error e ↔ x = .error e := by
  cases x with
  | error e' =>
    constructor
    · intro h
      cases h
      rfl
    · intro h
      cases h
      rfl
  | ok a =>
    constructor
    · intro h
      cases h
    · intro h
      cases h

/-! ## The first refusal of several -/

/-- Some item is refused with `e`, and all items before it are accepted. -/
def FirstRefusal (read : α → Except ε β) (items : List α) (e : ε) : Prop :=
  ∃ before x after, items = before ++ x :: after ∧ (∀ y ∈ before, ∃ b, read y = .ok b) ∧ read x = .error e

theorem firstRefusal_cons {read : α → Except ε β} {x : α} {rest : List α} {e : ε} :
    FirstRefusal read (x :: rest) e ↔
      read x = .error e ∨ (∃ b, read x = .ok b) ∧ FirstRefusal read rest e := by
  constructor
  · rintro ⟨before, y, after, h, hb, hy⟩
    cases before with
    | nil =>
      obtain ⟨rfl, -⟩ := List.cons.inj h
      exact .inl hy
    | cons z before =>
      obtain ⟨rfl, rfl⟩ := List.cons.inj h
      obtain ⟨first, others⟩ := List.forall_mem_cons.1 hb
      exact .inr ⟨first, before, y, after, rfl, others, hy⟩
  · rintro (hx | ⟨hx, before, y, after, rfl, hb, hy⟩)
    · exact ⟨[], x, rest, rfl, fun _ h => (nomatch h), hx⟩
    · exact ⟨x :: before, y, after, rfl, List.forall_mem_cons.2 ⟨hx, hb⟩, hy⟩

/-- There is a first refusal if there is one at all. -/
theorem exists_firstRefusal_iff {read : α → Except ε β} {items : List α} :
    (∃ e, FirstRefusal read items e) ↔ ∃ x ∈ items, ∃ e, read x = .error e := by
  constructor
  · rintro ⟨e, before, x, after, rfl, -, hx⟩
    exact ⟨x, List.mem_append_right _ (List.mem_cons_self ..), e, hx⟩
  · rintro ⟨x, hx, e, he⟩
    induction items with
    | nil => cases hx
    | cons y rest ih =>
      cases hy : read y with
      | error e' => exact ⟨e', firstRefusal_cons.2 (.inl hy)⟩
      | ok b =>
        rcases List.mem_cons.1 hx with rfl | hr
        · rw [he] at hy
          cases hy
        · obtain ⟨e', h⟩ := ih hr
          exact ⟨e', firstRefusal_cons.2 (.inr ⟨⟨b, hy⟩, h⟩)⟩

/-- A reader that goes through its items one by one fails with the first refusal and in no other way. -/
theorem eq_error_iff_firstRefusal {γ : Type} (read : α → Except ε β) (readAll : List α → Except ε γ)
    (nil : ∃ c, readAll [] = .ok c)
    (cons : ∀ x rest, ∃ join : β → γ → γ, readAll (x :: rest) = do .ok (join (← read x) (← readAll rest)))
    {items : List α} {e : ε} : readAll items = .error e ↔ FirstRefusal read items e := by
  induction items with
  | nil =>
    obtain ⟨c, hc⟩ := nil
    rw [hc]
    constructor
    · intro h
      cases h
    · rintro ⟨before, x, after, h, -⟩
      cases before <;> cases h
  | cons x rest ih =>
    obtain ⟨join, hj⟩ := cons x rest
    rw [hj, firstRefusal_cons, ← ih, bind_eq_error]
    refine or_congr_right ?_
    constructor
    · rintro ⟨b, hx, h⟩
      rcases bind_eq_error.1 h with hr | ⟨c, -, hc⟩
      · exact ⟨⟨b, hx⟩, hr⟩
      · cases hc
    · rintro ⟨⟨b, hx⟩, hr⟩
      exact ⟨b, hx, bind_eq_error.2 (.inl hr)⟩

end UpdateExpr
