/-
Attribute values and texts. A map may be written with its members in any order; reading puts them in
key order again. So every text of a value is read as the value, except that a text which nests more
arrays and objects than the levels that remain is malformed.
-/
import UpdateExpr.Proofs.AttributeValue.RoundTrip
import UpdateExpr.Proofs.Json.Nesting

namespace UpdateExpr

namespace AttributeValue

open Source (within)

/-! ## Orders of members -/

mutual

/-- The value with the members of every map in key order. -/
def inOrder : AttributeValue → AttributeValue
  | .list items => .list (itemsInOrder items)
  | .map members => ofPairs (membersInOrder members)
  | v => v

/-- The elements with the members of every map in key order. -/
def itemsInOrder : List AttributeValue → List AttributeValue
  | [] => []
  | v :: rest => v.inOrder :: itemsInOrder rest

/-- The members, in the order they have, with those of every map inside in key order. -/
def membersInOrder : List (String × AttributeValue) → List (String × AttributeValue)
  | [] => []
  | (key, v) :: rest => (key, v.inOrder) :: membersInOrder rest

end

mutual

/-- The first value is the second one with the members of each map in some order. -/
def Arranges : AttributeValue → AttributeValue → Prop
  | .list items, v => ∃ items', v = .list items' ∧ ArrangesItems items items'
  | .map members, v => ∃ members' arranged, v = .map members' ∧ arranged.Perm members' ∧
      ArrangesMembers members arranged
  | w, v => w = v

/-- Element by element. -/
def ArrangesItems : List AttributeValue → List AttributeValue → Prop
  | [], items' => items' = []
  | w :: items, items' => ∃ v rest, items' = v :: rest ∧ w.Arranges v ∧ ArrangesItems items rest

/-- Member by member, each under the same key. -/
def ArrangesMembers : List (String × AttributeValue) → List (String × AttributeValue) → Prop
  | [], members' => members' = []
  | (key, w) :: members, members' => ∃ v rest, members' = (key, v) :: rest ∧ w.Arranges v ∧
      ArrangesMembers members rest

end

mutual

/-- The order that the members already have is one of their orders. -/
theorem arranges_self : ∀ v : AttributeValue, v.Arranges v
  | .string _ | .number _ | .binary _ | .stringSet _ | .numberSet _ | .binarySet _ | .bool _ | .null _ => rfl
  | .list items => ⟨items, rfl, arrangesItems_self items⟩
  | .map members => ⟨members, members, rfl, List.Perm.refl _, arrangesMembers_self members⟩

theorem arrangesItems_self : ∀ items : List AttributeValue, ArrangesItems items items
  | [] => rfl
  | v :: rest => ⟨v, rest, rfl, arranges_self v, arrangesItems_self rest⟩

theorem arrangesMembers_self : ∀ members : List (String × AttributeValue), ArrangesMembers members members
  | [] => rfl
  | (_, v) :: rest => ⟨v, rest, rfl, arranges_self v, arrangesMembers_self rest⟩

end

theorem wellFormedMembers_iff {members : List (String × AttributeValue)} :
    WellFormedMembers members ↔ ∀ p ∈ members, p.2.WellFormed := by
  induction members with
  | nil => exact ⟨fun _ _ hp => (nomatch hp), fun _ => trivial⟩
  | cons p rest ih =>
    rw [List.forall_mem_cons, ← ih]
    exact Iff.rfl

mutual

/-- Whatever the order of the members, putting them in key order gives the value back. -/
theorem inOrder_of_arranges : ∀ {w v : AttributeValue}, v.WellFormed → w.Arranges v → w.inOrder = v
  | .string _, _, _, h | .number _, _, _, h | .binary _, _, _, h | .stringSet _, _, _, h | .numberSet _, _, _, h
  | .binarySet _, _, _, h | .bool _, _, _, h | .null _, _, _, h => h
  | .list items, v, wf, h => by
    obtain ⟨items', rfl, h⟩ := h
    rw [inOrder, itemsInOrder_of_arranges wf h]
  | .map members, v, wf, h => by
    obtain ⟨members', arranged, rfl, perm, h⟩ := h
    have values : WellFormedMembers arranged :=
      wellFormedMembers_iff.2 fun p hp => wellFormedMembers_iff.1 wf.2 p (perm.subset hp)
    have keys : (arranged.map (·.1)).Nodup := ((perm.map (·.1)).nodup_iff).2 wf.1.nodup_keys
    rw [inOrder, membersInOrder_of_arranges values h, ofPairs]
    congr 1
    exact (Entries.sorted_ofPairs arranged).eq_of_perm wf.1 ((Entries.ofPairs_perm keys).trans perm)

theorem itemsInOrder_of_arranges : ∀ {items items' : List AttributeValue}, WellFormedItems items' →
    ArrangesItems items items' → itemsInOrder items = items'
  | [], _, _, h => h.symm
  | w :: items, items', wf, h => by
    obtain ⟨v, rest, rfl, hv, hr⟩ := h
    rw [itemsInOrder, inOrder_of_arranges wf.1 hv, itemsInOrder_of_arranges wf.2 hr]

theorem membersInOrder_of_arranges : ∀ {members members' : List (String × AttributeValue)},
    WellFormedMembers members' → ArrangesMembers members members' → membersInOrder members = members'
  | [], _, _, h => h.symm
  | (key, w) :: members, members', wf, h => by
    obtain ⟨v, rest, rfl, hv, hr⟩ := h
    rw [membersInOrder, inOrder_of_arranges wf.1 hv, membersInOrder_of_arranges wf.2 hr]

end

/-! ## Writing -/

theorem integral_tagged {tag : Tag} {j : Json} (h : j.Integral) : (tagged tag j).Integral :=
  ⟨h, trivial⟩

mutual

/-- No numbers are written: those of attribute values are texts. -/
theorem integral_toJson : ∀ v : AttributeValue, v.toJson.Integral
  | .string _ | .number _ | .binary _ | .bool _ | .null _ => integral_tagged trivial
  | .stringSet items | .numberSet items => integral_tagged (Json.integralItems_texts items)
  | .binarySet items => integral_tagged (Json.integralItems_texts (items.map Base64.encode))
  | .list items => integral_tagged (integral_itemsToJson items)
  | .map members => integral_tagged (integral_membersToJson members)

theorem integral_itemsToJson : ∀ items : List AttributeValue, Json.IntegralItems (itemsToJson items)
  | [] => trivial
  | v :: rest => ⟨integral_toJson v, integral_itemsToJson rest⟩

theorem integral_membersToJson : ∀ members : List (String × AttributeValue),
    Json.IntegralMembers (membersToJson members)
  | [] => trivial
  | (_, v) :: rest => ⟨integral_toJson v, integral_membersToJson rest⟩

end

/-! ## Reading -/

/-- What stands under a tag is one level deeper than the value. -/
theorem ofSource_tagged {depth : Nat} {tag : Tag} {j : Json} {v : AttributeValue}
    (h : ∀ depth, ofSourceContents depth tag j.toSource = within j.depth depth v) :
    ofSource depth (tagged tag j).toSource = within (tagged tag j).depth depth v := by
  have member : Json.membersDepth [(tag.key, j)] = j.depth := Nat.max_zero _
  rw [tagged, Json.depth, member, ← Source.enter_within, Json.toSource, Json.membersToSource, Json.membersToSource,
    ofSource]
  congr 1
  funext depth
  have key : Source.asKey (some tag.key) = .ok tag.key := rfl
  simp only [key, ok_bind, Tag.ofKey?_key, h]
  exact Source.within_bind_ok (fun value => endOfValue true value []) rfl

/-- Text contents are read at any depth. -/
theorem ofSource_tagged_flat {depth : Nat} {tag : Tag} {j : Json} {v : AttributeValue} (flat : j.depth = 0)
    (h : ∀ depth, ofSourceContents depth tag j.toSource = .ok v) :
    ofSource depth (tagged tag j).toSource = within (tagged tag j).depth depth v :=
  ofSource_tagged fun depth => by
    rw [flat, Source.within_zero, h]

theorem lift_binaryOf_encode (data : Text.Bytes) : Fault.lift (binaryOf (Base64.encode data)) = .ok data := by
  rw [binaryOf_eq_ok_iff.2 rfl]
  rfl

theorem lift_binariesOf_encode (items : List Text.Bytes) :
    Fault.lift (binariesOf (items.map Base64.encode)) = .ok items := by
  rw [binariesOf_eq_ok_iff.2 rfl]
  rfl

mutual

/-- The tree of a value is read as the value, with the members of every map in key order. -/
theorem ofSource_toJson (depth : Nat) : ∀ v : AttributeValue,
    ofSource depth v.toJson.toSource = within v.toJson.depth depth v.inOrder
  | .string _ | .number _ | .bool _ | .null _ => ofSource_tagged_flat rfl fun _ => rfl
  | .binary data => ofSource_tagged_flat rfl fun _ => by
    unfold ofSourceContents
    exact congrArg (Except.map AttributeValue.binary) (lift_binaryOf_encode data)
  | .stringSet items | .numberSet items => ofSource_tagged fun depth => by
    unfold ofSourceContents textsToJson
    rw [Json.asTexts_texts, Source.map_within]
    rfl
  | .binarySet items => ofSource_tagged fun depth => by
    unfold ofSourceContents textsToJson
    rw [Json.asTexts_texts]
    refine (congrArg (Except.map AttributeValue.binarySet)
      (Source.within_bind_ok (fun texts => Fault.lift (binariesOf texts)) (lift_binariesOf_encode items))).trans ?_
    rw [Source.map_within]
    rfl
  | .list items => ofSource_tagged fun depth => by
    rw [Json.toSource, ofSourceContents, Json.depth, ← Source.enter_within, inOrder]
    simp only [ofSourceItems_toJson _ items, Source.map_within]
  | .map members => ofSource_tagged fun depth => by
    rw [Json.toSource, ofSourceContents, Json.depth, ← Source.enter_within, inOrder]
    simp only [ofSourceMembers_toJson _ members, Source.map_within]

theorem ofSourceItems_toJson (depth : Nat) : ∀ items : List AttributeValue,
    ofSourceItems depth true (Json.itemsToSource (itemsToJson items)) =
      within (Json.itemsDepth (itemsToJson items)) depth (itemsInOrder items)
  | [] => (Source.within_zero depth []).symm
  | v :: rest => by
    rw [itemsToJson, Json.itemsToSource, ofSourceItems, Json.itemsDepth, itemsInOrder, ofSource_toJson depth v,
      ofSourceItems_toJson depth rest]
    exact Source.within_bind _ _ (Source.within_bind_ok _ rfl)

theorem ofSourceMembers_toJson (depth : Nat) : ∀ members : List (String × AttributeValue),
    ofSourceMembers depth true (Json.membersToSource (membersToJson members)) =
      within (Json.membersDepth (membersToJson members)) depth (membersInOrder members)
  | [] => (Source.within_zero depth []).symm
  | (key, v) :: rest => by
    rw [membersToJson, Json.membersToSource, ofSourceMembers, Json.membersDepth, membersInOrder,
      ofSource_toJson depth v, ofSourceMembers_toJson depth rest]
    exact Source.within_bind _ _ (Source.within_bind_ok _ rfl)

end

/-- Every text of a value is read as the value, if it nests no more than texts may. -/
theorem ofText_of_arranges {v w : AttributeValue} (wf : v.WellFormed) (h : w.Arranges v) :
    ofText w.toJson.compact = within w.toJson.depth nestingLimit v := by
  refine Document.decode_compact (integral_toJson w) ?_
  rw [ofSource_toJson, inOrder_of_arranges wf h]

/-! ## Lists in lists -/

/-- A value in so many lists of one element. -/
def nested : Nat → AttributeValue → AttributeValue
  | 0, v => v
  | n + 1, v => .list [nested n v]

theorem wellFormed_nested (n : Nat) {v : AttributeValue} (h : v.WellFormed) : (nested n v).WellFormed := by
  induction n with
  | zero => exact h
  | succ n ih => exact ⟨ih, trivial⟩

/-- Every list takes two levels of the text, its tag and its elements. -/
theorem depth_nested (n : Nat) (v : AttributeValue) :
    (nested n v).toJson.depth = v.toJson.depth + 2 * n := by
  induction n with
  | zero => rfl
  | succ n ih =>
    have level : (nested (n + 1) v).toJson.depth = max (max (nested n v).toJson.depth 0 + 1) 0 + 1 := rfl
    rw [level, ih]
    omega

end AttributeValue

end UpdateExpr
