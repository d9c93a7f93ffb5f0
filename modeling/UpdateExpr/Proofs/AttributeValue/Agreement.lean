/-
Attribute values from JSON values and from texts. The reader of texts goes through a tree step by step
and counts levels; the reader of values goes through the value. On the tree of a value that nests no
deeper than the levels which remain, both meet the same contents in the same order, so both give the
same result or the same error.
-/
import UpdateExpr.AttributeValue.Decode
import UpdateExpr.Proofs.Json.Nesting
import UpdateExpr.Proofs.Results

namespace UpdateExpr

/-! ## Results of the one reader as results of the other -/

namespace Fault

variable {α β : Type}

theorem lift_bind (x : Except DecodeError α) (f : α → Except DecodeError β) :
    lift (x >>= f) = lift x >>= fun a => lift (f a) := by
  cases x <;> rfl

theorem lift_map (f : α → β) (x : Except DecodeError α) : lift (x.map f) = (lift x).map f := by
  cases x <;> rfl

end Fault

namespace Source

variable {α : Type}

/-- Going into an array or object that nests no more than the levels which remain. -/
theorem enter_of_lt {need depth : Nat} (h : need < depth) {inside : Nat → Except Fault α} {result : Except Fault α}
    (hi : ∀ depth, need ≤ depth → inside depth = result) : enter depth inside = result := by
  cases depth with
  | zero => omega
  | succ depth => exact hi depth (by omega)

end Source

/-! ## Plain contents -/

namespace Json

open Fault Source

theorem asText_toSource (j : Json) : j.toSource.asText = lift j.asText := by
  cases j <;> rfl

theorem asFlag_toSource (j : Json) : j.toSource.asFlag = lift j.asFlag := by
  cases j <;> rfl

theorem textsOfItems_toSource (items : List Json) :
    Source.textsOfItems true (itemsToSource items) = lift (textsOfItems items) := by
  induction items with
  | nil => rfl
  | cons j rest ih =>
    rw [itemsToSource, Source.textsOfItems, textsOfItems, asText_toSource, ih]
    simp only [lift_bind]
    rfl

theorem asTexts_toSource {j : Json} {depth : Nat} (h : j.depth ≤ depth) :
    j.toSource.asTexts depth = lift j.asTexts := by
  cases j with
  | arr items => exact enter_of_lt h fun _ _ => textsOfItems_toSource items
  | _ => rfl

theorem textsOfMembers_toSource (members : List (String × Json)) :
    Source.textsOfMembers true (membersToSource members) = lift (textsOfMembers members) := by
  induction members with
  | nil => rfl
  | cons p rest ih =>
    obtain ⟨key, j⟩ := p
    rw [membersToSource, Source.textsOfMembers, textsOfMembers, asText_toSource, ih]
    simp only [lift_bind]
    rfl

theorem asTextTable_toSource {j : Json} {depth : Nat} (h : j.depth ≤ depth) :
    j.toSource.asTextTable depth = lift j.asTextTable := by
  cases j with
  | obj members =>
    refine enter_of_lt h fun _ _ => ?_
    rw [textsOfMembers_toSource, asTextTable, lift_map]
  | _ => rfl

end Json

/-! ## Attribute values -/

namespace AttributeValue

open Fault Source

mutual

/-- The tree of a value is read as the value is. -/
theorem ofSource_toSource : ∀ (j : Json) {depth : Nat}, j.depth ≤ depth →
    ofSource depth j.toSource = lift (ofJson j)
  | .null, _, _ | .bool _, _, _ | .num _, _, _ | .str _, _, _ | .arr _, _, _ => rfl
  | .obj [], depth, h => enter_of_lt h fun _ _ => rfl
  | .obj ((key, j) :: rest), depth, h => by
    rw [Json.toSource, Json.membersToSource, ofSource, ofJson]
    refine enter_of_lt h fun depth hd => ?_
    have first : j.depth ≤ depth := Nat.le_trans (Nat.le_max_left ..) hd
    have known : asKey (some key) = .ok key := rfl
    rw [known, ok_bind]
    rcases Tag.ofKey? key with _ | tag
    · rfl
    · -- what follows the first member is looked at only once its value is read
      simp only [ofSourceContents_toSource tag j first, lift_bind]
      congr 1
      funext value
      cases rest <;> rfl

theorem ofSourceContents_toSource : ∀ (tag : Tag) (j : Json) {depth : Nat}, j.depth ≤ depth →
    ofSourceContents depth tag j.toSource = lift (ofContents tag j)
  | .s, j, _, _ | .n, j, _, _ => by
    rw [ofSourceContents, ofContents, Json.asText_toSource, lift_map]
  | .b, j, _, _ => by
    rw [ofSourceContents, ofContents, Json.asText_toSource, lift_map]
    exact congrArg (Except.map AttributeValue.binary) (lift_bind j.asText binaryOf).symm
  | .ss, j, _, h | .ns, j, _, h => by
    rw [ofSourceContents, ofContents, Json.asTexts_toSource h, lift_map]
  | .bs, j, _, h => by
    rw [ofSourceContents, ofContents, Json.asTexts_toSource h, lift_map]
    exact congrArg (Except.map AttributeValue.binarySet) (lift_bind j.asTexts binariesOf).symm
  | .bool, j, _, _ | .null, j, _, _ => by
    rw [ofSourceContents, ofContents, Json.asFlag_toSource, lift_map]
  | .l, .arr items, _, h => by
    rw [Json.toSource, ofSourceContents, ofContents]
    refine enter_of_lt h fun depth hd => ?_
    rw [ofSourceItems_toSource items hd, lift_map]
  | .m, .obj members, _, h => by
    rw [Json.toSource, ofSourceContents, ofContents]
    refine enter_of_lt h fun depth hd => ?_
    rw [ofSourceMembers_toSource members hd, lift_map]
  | .l, .null, _, _ | .l, .bool _, _, _ | .l, .num _, _, _ | .l, .str _, _, _ | .l, .obj _, _, _ => rfl
  | .m, .null, _, _ | .m, .bool _, _, _ | .m, .num _, _, _ | .m, .str _, _, _ | .m, .arr _, _, _ => rfl

theorem ofSourceItems_toSource : ∀ (items : List Json) {depth : Nat}, Json.itemsDepth items ≤ depth →
    ofSourceItems depth true (Json.itemsToSource items) = lift (ofItems items)
  | [], _, _ => rfl
  | j :: rest, depth, h => by
    obtain ⟨first, others⟩ := Nat.max_le.1 h
    rw [Json.itemsToSource, ofSourceItems, ofItems, ofSource_toSource j first, ofSourceItems_toSource rest others]
    simp only [lift_bind]
    rfl

theorem ofSourceMembers_toSource : ∀ (members : List (String × Json)) {depth : Nat},
    Json.membersDepth members ≤ depth →
    ofSourceMembers depth true (Json.membersToSource members) = lift (ofMembers members)
  | [], _, _ => rfl
  | (key, j) :: rest, depth, h => by
    obtain ⟨first, others⟩ := Nat.max_le.1 h
    rw [Json.membersToSource, ofSourceMembers, ofMembers, ofSource_toSource j first,
      ofSourceMembers_toSource rest others]
    simp only [lift_bind]
    rfl

end

end AttributeValue

end UpdateExpr
