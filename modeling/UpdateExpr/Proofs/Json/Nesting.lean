/-
The levels that decoding takes. Decoding the tree of a value that holds what is wanted needs as many
levels as the value nests, and with fewer the text is malformed: every array and object takes one, and
of several things read one after the other the deepest counts.
-/
import UpdateExpr.Json.Decode
import UpdateExpr.Proofs.Json.Text

namespace UpdateExpr

namespace Source

variable {α β : Type}

/-! ## Levels -/

/-- A result that takes `need` of the levels that may still be opened. -/
def within (need depth : Nat) (a : α) : Except Fault α :=
  if need ≤ depth then .ok a else .error .malformed

theorem within_zero (depth : Nat) (a : α) : within 0 depth a = .ok a :=
  if_pos (Nat.zero_le depth)

theorem enter_within (need depth : Nat) (a : α) :
    enter depth (fun depth => within need depth a) = within (need + 1) depth a := by
  cases depth with
  | zero => rfl
  | succ depth =>
    unfold enter within
    simp only [Nat.add_le_add_iff_right]

theorem map_within (f : α → β) (need depth : Nat) (a : α) :
    (within need depth a).map f = within need depth (f a) := by
  unfold within
  split <;> rfl

/-- Of two readings that follow each other the one that takes more levels decides. -/
theorem within_bind (read : α → Except Fault β) (need : Nat) {more depth : Nat} {a : α} {b : β}
    (h : read a = within more depth b) : (within need depth a >>= read) = within (max need more) depth b := by
  unfold within at *
  by_cases hn : need ≤ depth
  · rw [if_pos hn]
    refine h.trans ?_
    simp only [Nat.max_le, hn, true_and]
  · rw [if_neg hn, if_neg fun hm => hn (Nat.le_trans (Nat.le_max_left ..) hm)]
    rfl

theorem within_bind_ok (read : α → Except Fault β) {need depth : Nat} {a : α} {b : β} (h : read a = .ok b) :
    (within need depth a >>= read) = within need depth b := by
  rw [within_bind read need (h.trans (within_zero depth b).symm), Nat.max_zero]

end Source

/-- The text of a value is decoded if the value nests no more arrays and objects than texts may. -/
theorem Document.decode_compact {α : Type} {j : Json} (h : j.Integral) {read : Nat → Source → Except Fault α} {a : α}
    (hr : read nestingLimit j.toSource = Source.within j.depth nestingLimit a) :
    (ofText j.compact).decode read = Source.within j.depth nestingLimit a := by
  rw [ofText_compact h, decode, hr]
  exact Source.within_bind_ok (Source.close true) rfl

namespace Json

/-! ## Strings -/

theorem integralItems_texts (texts : List String) : IntegralItems (texts.map .str) := by
  induction texts with
  | nil => exact trivial
  | cons text rest ih => exact ⟨trivial, ih⟩

theorem integralMembers_texts (pairs : List (String × String)) :
    IntegralMembers (pairs.map fun p => (p.1, .str p.2)) := by
  induction pairs with
  | nil => exact trivial
  | cons p rest ih => exact ⟨trivial, ih⟩

theorem itemsDepth_texts (texts : List String) : itemsDepth (texts.map .str) = 0 := by
  induction texts with
  | nil => rfl
  | cons text rest ih =>
    rw [List.map_cons, itemsDepth, ih]
    rfl

theorem membersDepth_texts (pairs : List (String × String)) :
    membersDepth (pairs.map fun p => (p.1, .str p.2)) = 0 := by
  induction pairs with
  | nil => rfl
  | cons p rest ih =>
    rw [List.map_cons, membersDepth, ih]
    rfl

theorem textsOfItems_texts (texts : List String) :
    Source.textsOfItems true (itemsToSource (texts.map .str)) = .ok texts := by
  induction texts with
  | nil => rfl
  | cons text rest ih =>
    rw [List.map_cons, itemsToSource, Source.textsOfItems, ih]
    rfl

theorem textsOfMembers_texts (pairs : List (String × String)) :
    Source.textsOfMembers true (membersToSource (pairs.map fun p => (p.1, .str p.2))) = .ok pairs := by
  induction pairs with
  | nil => rfl
  | cons p rest ih =>
    rw [List.map_cons, membersToSource, Source.textsOfMembers, ih]
    rfl

/-- An array of strings is read as these strings. -/
theorem asTexts_texts (depth : Nat) (texts : List String) :
    (arr (texts.map .str)).toSource.asTexts depth = Source.within (arr (texts.map .str)).depth depth texts := by
  rw [toSource, Source.asTexts, Json.depth, itemsDepth_texts, ← Source.enter_within]
  simp only [textsOfItems_texts, Source.within_zero]

/-- An object of strings is read as the table of its members. -/
theorem asTextTable_texts (depth : Nat) (pairs : List (String × String)) :
    (obj (pairs.map fun p => (p.1, .str p.2))).toSource.asTextTable depth =
      Source.within (obj (pairs.map fun p => (p.1, .str p.2))).depth depth (Table.ofPairs pairs) := by
  rw [toSource, Source.asTextTable, Json.depth, membersDepth_texts, ← Source.enter_within]
  simp only [textsOfMembers_texts, Source.within_zero]
  rfl

end Json

end UpdateExpr
