/-
Equality of attribute values is equality of what they are written as, where objects are compared
whatever the order of their members. The members of a map are found in both values under the same keys,
so the order in which they were inserted, and the one in which they are written, leaves no trace; lists
and sets are compared element by element.
-/
import Mathlib.Data.List.Forall2
import Mathlib.Data.List.Perm.Subperm
import UpdateExpr.Proofs.AttributeValue.Text

namespace UpdateExpr

/-! ## JSON without order of members -/

namespace Json

mutual

/-- The same value: arrays in order, objects whatever the order of their members. -/
def Same : Json → Json → Prop
  | .arr items, j => ∃ items', j = .arr items' ∧ SameItems items items'
  | .obj members, j => ∃ members', j = .obj members' ∧ members.length = members'.length ∧
      SameMembers members members'
  | i, j => i = j

/-- Item by item. -/
def SameItems : List Json → List Json → Prop
  | [], items' => items' = []
  | i :: items, items' => ∃ j rest, items' = j :: rest ∧ i.Same j ∧ SameItems items rest

/-- Each member is found under its key. -/
def SameMembers : List (String × Json) → List (String × Json) → Prop
  | [], _ => True
  | (key, i) :: members, members' => (∃ j, members'.lookup key = some j ∧ i.Same j) ∧ SameMembers members members'

end

theorem sameItems_texts {texts : List String} {items : List Json} :
    SameItems (texts.map .str) items ↔ items = texts.map .str := by
  induction texts generalizing items with
  | nil => exact Iff.rfl
  | cons text texts ih =>
    constructor
    · rintro ⟨j, rest, rfl, h, hr⟩
      rw [ih.1 hr, ← h]
      rfl
    · rintro rfl
      exact ⟨_, _, rfl, rfl, ih.2 rfl⟩

end Json

/-! ## Entries in any order -/

/-- Entries in two orders are the same entries if there are as many and each is found under its key. -/
theorem Entries.eq_iff_lookup {α : Type} {x y x' y' : Entries α} (hx : x.Sorted) (hy : y.Sorted) (px : x'.Perm x)
    (py : y'.Perm y) : (x'.length = y'.length ∧ ∀ p ∈ x', y'.lookup p.1 = some p.2) ↔ x = y := by
  constructor
  · rintro ⟨length, found⟩
    have subset : x' ⊆ y' := fun p hp => mem_of_lookup (found p hp)
    have nodup : x'.Nodup := (px.nodup_iff).2 hx.nodup
    have perm : x'.Perm y' := (List.subperm_of_subset nodup subset).perm_of_length_le (Nat.le_of_eq length.symm)
    exact hx.eq_of_perm hy ((px.symm.trans perm).trans py)
  · rintro rfl
    have keys : (y'.map (·.1)).Nodup := ((py.map (·.1)).nodup_iff).2 hy.nodup_keys
    exact ⟨(px.trans py.symm).length_eq, fun p hp => lookup_of_mem keys ((px.trans py.symm).subset hp)⟩

namespace AttributeValue

/-! ## Values without order of members -/

theorem same_tagged {t u : Tag} {i j : Json} : (tagged t i).Same (tagged u j) ↔ t = u ∧ i.Same j := by
  constructor
  · rintro ⟨members, h, -, ⟨j', hj, same⟩, -⟩
    cases h
    rw [Entries.lookup_cons] at hj
    split at hj
    · rename_i key
      cases hj
      exact ⟨Tag.key_injective key, same⟩
    · cases hj
  · rintro ⟨rfl, same⟩
    refine ⟨_, rfl, rfl, ⟨j, ?_, same⟩, trivial⟩
    rw [Entries.lookup_cons, if_pos rfl]

/-- Values are the same if their tags are equal and what stands under them is the same. -/
theorem same_toJson {v w : AttributeValue} :
    v.toJson.Same w.toJson ↔ v.tag = w.tag ∧ v.contents.Same w.contents := by
  rw [toJson_eq_tagged, toJson_eq_tagged, same_tagged]

theorem tag_of_arranges {w v : AttributeValue} (h : w.Arranges v) : w.tag = v.tag := by
  cases w with
  | list items =>
    obtain ⟨items', rfl, -⟩ := h
    rfl
  | map members =>
    obtain ⟨members', arranged, rfl, -⟩ := h
    rfl
  | _ =>
    cases h
    rfl

/-- Whether no value is nested in a value. -/
def Flat (v : AttributeValue) : Prop :=
  v.tag ≠ .l ∧ v.tag ≠ .m

theorem eq_of_arranges {w v : AttributeValue} (flat : w.Flat) (h : w.Arranges v) : w = v := by
  cases w with
  | list items => exact absurd rfl flat.1
  | map members => exact absurd rfl flat.2
  | _ => exact h

theorem same_contents_iff {v : AttributeValue} (flat : v.Flat) {j : Json} : v.contents.Same j ↔ j = v.contents := by
  have texts : ∀ texts, (textsToJson texts).Same j ↔ j = textsToJson texts := by
    intro texts
    constructor
    · rintro ⟨items, rfl, h⟩
      rw [Json.sameItems_texts.1 h]
      rfl
    · rintro rfl
      exact ⟨_, rfl, Json.sameItems_texts.2 rfl⟩
  cases v with
  | list items => exact absurd rfl flat.1
  | map members => exact absurd rfl flat.2
  | stringSet items | numberSet items | binarySet items => exact texts _
  | _ => exact eq_comm

/-- Tag and contents determine a value. -/
theorem eq_of_contents {v w : AttributeValue} (hv : v.WellFormed) (hw : w.WellFormed) (tag : v.tag = w.tag)
    (contents : v.contents = w.contents) : v = w := by
  have written : v.toJson = w.toJson := by rw [toJson_eq_tagged, toJson_eq_tagged, tag, contents]
  have read := (ofJson_eq_ok_iff (canonical_toJson hv) w).2 ⟨hw, written.symm⟩
  rw [(ofJson_eq_ok_iff (canonical_toJson hv) v).2 ⟨hv, rfl⟩] at read
  exact Except.ok.inj read

theorem wellFormed_of_flat {v : AttributeValue} (flat : v.Flat) : v.WellFormed := by
  cases v with
  | list items => exact absurd rfl flat.1
  | map members => exact absurd rfl flat.2
  | _ => exact trivial

theorem length_membersToJson (members : List (String × AttributeValue)) :
    (membersToJson members).length = members.length := by
  have keys := congrArg List.length (keys_membersToJson members)
  rw [List.length_map, List.length_map] at keys
  exact keys

theorem lookup_membersToJson (key : String) (members : List (String × AttributeValue)) :
    (membersToJson members).lookup key = (members.lookup key).map toJson := by
  induction members with
  | nil => rfl
  | cons p members ih =>
    obtain ⟨k, v⟩ := p
    rw [membersToJson, Entries.lookup_cons, Entries.lookup_cons, ih]
    split <;> rfl

/-- Under each key members and their arrangement have a value and its arrangement. -/
theorem lookup_arranges : ∀ {members members' : List (String × AttributeValue)}, ArrangesMembers members members' →
    ∀ key, members.lookup key = none ∧ members'.lookup key = none ∨
      ∃ w v, members.lookup key = some w ∧ members'.lookup key = some v ∧ w.Arranges v
  | [], _, h, key => by
    cases h
    exact .inl ⟨rfl, rfl⟩
  | (k, w) :: members, _, h, key => by
    obtain ⟨v, rest, rfl, hv, hr⟩ := h
    rw [Entries.lookup_cons, Entries.lookup_cons]
    by_cases hk : key = k
    · rw [if_pos hk, if_pos hk]
      exact .inr ⟨w, v, rfl, rfl, hv⟩
    · rw [if_neg hk, if_neg hk]
      exact lookup_arranges hr key

theorem length_of_arranges : ∀ {members members' : List (String × AttributeValue)}, ArrangesMembers members members' →
    members.length = members'.length
  | [], _, h => by
    cases h
    rfl
  | _ :: _, _, h => by
    obtain ⟨v, rest, rfl, -, hr⟩ := h
    rw [List.length_cons, List.length_cons, length_of_arranges hr]

theorem same_toJson_flat {v w' w : AttributeValue} (flat : v.Flat) (hw : w.WellFormed) (aw : w'.Arranges w) :
    v.toJson.Same w'.toJson ↔ v = w := by
  rw [same_toJson, same_contents_iff flat]
  constructor
  · rintro ⟨tag, contents⟩
    have flat' : w'.Flat := by
      unfold Flat
      rw [← tag]
      exact flat
    obtain rfl := eq_of_arranges flat' aw
    exact eq_of_contents (wellFormed_of_flat flat) hw tag contents.symm
  · rintro rfl
    have flat' : w'.Flat := by
      unfold Flat
      rw [tag_of_arranges aw]
      exact flat
    obtain rfl := eq_of_arranges flat' aw
    exact ⟨rfl, rfl⟩

mutual

/-- In whatever orders two values are written, the same is written exactly if they are equal. -/
theorem same_toJson_iff : ∀ {v' w' v w : AttributeValue}, v.WellFormed → w.WellFormed → v'.Arranges v →
    w'.Arranges w → (v'.toJson.Same w'.toJson ↔ v = w)
  | .string _, _, _, _, _, hw, av, aw | .number _, _, _, _, _, hw, av, aw | .binary _, _, _, _, _, hw, av, aw
  | .stringSet _, _, _, _, _, hw, av, aw | .numberSet _, _, _, _, _, hw, av, aw
  | .binarySet _, _, _, _, _, hw, av, aw | .bool _, _, _, _, _, hw, av, aw | .null _, _, _, _, _, hw, av, aw => by
    obtain rfl := av
    exact same_toJson_flat ⟨nofun, nofun⟩ hw aw
  | .list items, w', v, w, hv, hw, av, aw => by
    obtain ⟨xs, rfl, hx⟩ := av
    have tag := tag_of_arranges aw
    rw [same_toJson]
    cases w' with
    | list items' =>
      obtain ⟨ys, rfl, hy⟩ := aw
      have inner : Json.SameItems (itemsToJson items) (itemsToJson items') ↔ xs = ys := sameItems_iff hv hw hx hy
      constructor
      · rintro ⟨-, js, h, same⟩
        cases h
        rw [inner.1 same]
      · intro h
        exact ⟨rfl, _, rfl, inner.2 (AttributeValue.list.inj h)⟩
    | _ =>
      constructor
      · rintro ⟨h, -⟩
        cases h
      · rintro rfl
        cases tag
  | .map members, w', v, w, hv, hw, av, aw => by
    obtain ⟨ms, xs, rfl, px, hx⟩ := av
    have tag := tag_of_arranges aw
    rw [same_toJson]
    cases w' with
    | map members' =>
      obtain ⟨ns, ys, rfl, py, hy⟩ := aw
      have inner : Json.SameMembers (membersToJson members) (membersToJson members') ↔
          ∀ p ∈ xs, ys.lookup p.1 = some p.2 := by
        refine sameMembers_iff ?_ ?_ hx hy
        · exact wellFormedMembers_iff.2 fun p hp => wellFormedMembers_iff.1 hv.2 p (px.subset hp)
        · exact wellFormedMembers_iff.2 fun p hp => wellFormedMembers_iff.1 hw.2 p (py.subset hp)
      have lengths : (membersToJson members).length = (membersToJson members').length ↔ xs.length = ys.length := by
        rw [length_membersToJson, length_membersToJson, length_of_arranges hx, length_of_arranges hy]
      have maps := Entries.eq_iff_lookup hv.1 hw.1 px py
      constructor
      · rintro ⟨-, js, h, length, same⟩
        cases h
        rw [maps.1 ⟨lengths.1 length, inner.1 same⟩]
      · intro h
        obtain ⟨length, found⟩ := maps.2 (AttributeValue.map.inj h)
        exact ⟨rfl, _, rfl, lengths.2 length, inner.2 found⟩
    | _ =>
      constructor
      · rintro ⟨h, -⟩
        cases h
      · rintro rfl
        cases tag

theorem sameItems_iff : ∀ {items items' xs ys : List AttributeValue}, WellFormedItems xs → WellFormedItems ys →
    ArrangesItems items xs → ArrangesItems items' ys →
    (Json.SameItems (itemsToJson items) (itemsToJson items') ↔ xs = ys)
  | [], items', xs, ys, _, _, hx, hy => by
    cases hx
    cases items' with
    | nil =>
      cases hy
      exact ⟨fun _ => rfl, fun _ => rfl⟩
    | cons w' items' =>
      obtain ⟨w, rest, rfl, -⟩ := hy
      exact ⟨fun h => (nomatch h), fun h => (nomatch h)⟩
  | v' :: items, items', xs, ys, hv, hw, hx, hy => by
    obtain ⟨v, xs, rfl, av, hx⟩ := hx
    cases items' with
    | nil =>
      cases hy
      exact ⟨fun ⟨_, _, h, _⟩ => (nomatch h), fun h => (nomatch h)⟩
    | cons w' items' =>
      obtain ⟨w, ys, rfl, aw, hy⟩ := hy
      rw [List.cons.injEq, ← same_toJson_iff hv.1 hw.1 av aw, ← sameItems_iff hv.2 hw.2 hx hy]
      constructor
      · rintro ⟨j, rest, h, same, more⟩
        cases h
        exact ⟨same, more⟩
      · rintro ⟨same, more⟩
        exact ⟨_, _, rfl, same, more⟩

theorem sameMembers_iff : ∀ {members members' xs ys : List (String × AttributeValue)}, WellFormedMembers xs →
    WellFormedMembers ys → ArrangesMembers members xs → ArrangesMembers members' ys →
    (Json.SameMembers (membersToJson members) (membersToJson members') ↔ ∀ p ∈ xs, ys.lookup p.1 = some p.2)
  | [], _, _, _, _, _, hx, _ => by
    cases hx
    exact ⟨fun _ _ h => (nomatch h), fun _ => trivial⟩
  | (key, v') :: members, members', xs, ys, hv, hw, hx, hy => by
    obtain ⟨v, xs, rfl, av, hx⟩ := hx
    rw [List.forall_mem_cons, ← sameMembers_iff hv.2 hw hx hy]
    refine and_congr_left fun _ => ?_
    rw [lookup_membersToJson]
    rcases lookup_arranges hy key with ⟨absent, absent'⟩ | ⟨w', w, found, found', aw⟩
    · rw [absent, absent']
      exact ⟨fun ⟨_, h, _⟩ => (nomatch h), fun h => (nomatch h)⟩
    · have wf : w.WellFormed := wellFormedMembers_iff.1 hw _ (Entries.mem_of_lookup found')
      rw [found, found', Option.some.injEq, eq_comm, ← same_toJson_iff hv.1 wf av aw]
      constructor
      · rintro ⟨j, h, same⟩
        cases h
        exact same
      · intro same
        exact ⟨_, rfl, same⟩

end

/-! ## Equality -/

/-- Maps are equal if under every key both have nothing or equal values. -/
theorem beq_map_iff {x y : List (String × AttributeValue)} (hx : Entries.Sorted x) (hy : Entries.Sorted y) :
    (map x).beq (map y) = true ↔
      ∀ key, Option.Rel (fun a b : AttributeValue => a.beq b = true) (x.lookup key) (y.lookup key) := by
  simp only [beq_iff, AttributeValue.map.injEq]
  constructor
  · rintro rfl key
    cases x.lookup key with
    | none => exact .none
    | some v => exact .some rfl
  · intro h
    refine hx.eq_of_lookup hy fun key => ?_
    have related := h key
    generalize x.lookup key = a, y.lookup key = b at related
    cases related with
    | some same => exact congrArg some same
    | none => rfl

/-- Lists are equal if they have equal elements in the same order. -/
theorem beq_list_iff {x y : List AttributeValue} :
    (list x).beq (list y) = true ↔ List.Forall₂ (fun a b : AttributeValue => a.beq b = true) x y := by
  simp only [beq_iff, AttributeValue.list.injEq]
  exact iff_of_eq (congrFun (congrFun List.forall₂_eq_eq_eq x) y).symm

/-- Values are equal exactly if the same is written for them, in whatever orders the members of maps are
written. So equality is an equivalence; the order in which the members of a map were inserted has no
part in it, at any depth, while the elements of lists and sets are compared in order and one by one;
binaries are compared by their bytes, and values with different tags are never equal. -/
theorem beq_iff_same_toJson :
    (∀ a b : AttributeValue, a.WellFormed → b.WellFormed → ∀ a' b' : AttributeValue, a'.Arranges a →
      b'.Arranges b → (a.beq b = true ↔ a'.toJson.Same b'.toJson)) ∧
    (Equivalence fun a b : AttributeValue => a.beq b = true) ∧
    (∀ v w w' : AttributeValue, v.WellFormed → w.Arranges v → w'.Arranges v →
      w.inOrder.beq w'.inOrder = true) ∧
    (∀ x y : List (String × AttributeValue), Entries.Sorted x → Entries.Sorted y →
      ((map x).beq (map y) = true ↔
        ∀ key, Option.Rel (fun a b : AttributeValue => a.beq b = true) (x.lookup key) (y.lookup key))) ∧
    (∀ x y : List AttributeValue, (list x).beq (list y) = true ↔
      List.Forall₂ (fun a b : AttributeValue => a.beq b = true) x y) ∧
    (∀ x y : List String, (stringSet x).beq (stringSet y) = true ↔ x = y) ∧
    (∀ x y : List String, (numberSet x).beq (numberSet y) = true ↔ x = y) ∧
    (∀ x y : List Text.Bytes, (binarySet x).beq (binarySet y) = true ↔ x = y) ∧
    (∀ x y : Text.Bytes, (binary x).beq (binary y) = true ↔ x = y) ∧
    ∀ a b : AttributeValue, a.tag ≠ b.tag → a.beq b = false := by
  refine ⟨fun a b ha hb a' b' aa ab => beq_iff.trans (same_toJson_iff ha hb aa ab).symm, ⟨beq_self, ?_, ?_⟩,
    fun v w w' hv hw hw' => ?_, fun x y hx hy => beq_map_iff hx hy, fun x y => beq_list_iff, fun x y => ?_,
    fun x y => ?_, fun x y => ?_, fun x y => ?_, fun a b tags => ?_⟩
  · intro a b h
    rw [eq_of_beq h]
    exact beq_self b
  · intro a b c hab hbc
    rw [eq_of_beq hab]
    exact hbc
  · rw [inOrder_of_arranges hv hw, inOrder_of_arranges hv hw']
    exact beq_self v
  · rw [beq_iff, AttributeValue.stringSet.injEq]
  · rw [beq_iff, AttributeValue.numberSet.injEq]
  · rw [beq_iff, AttributeValue.binarySet.injEq]
  · rw [beq_iff, AttributeValue.binary.injEq]
  · rw [← Bool.not_eq_true, beq_iff]
    rintro rfl
    exact tags rfl

/-- A map in a list in a map, with the members of both in the opposite order. -/
theorem beq_iff_same_toJson_reversed :
    let v := map [("a", .list [.map [("x", .string "1"), ("y", .number "1")]]), ("b", .binary [255])]
    let w := map [("b", .binary [255]), ("a", .list [.map [("y", .number "1"), ("x", .string "1")]])]
    v.WellFormed ∧ w.Arranges v ∧ w.toJson.Same v.toJson ∧ w.inOrder.beq v.inOrder = true := by
  intro v w
  have outer : Entries.Sorted [("a", AttributeValue.list [.map [("x", .string "1"), ("y", .number "1")]]),
      ("b", .binary [255])] := by
    unfold Entries.Sorted
    decide
  have inner : Entries.Sorted [("x", AttributeValue.string "1"), ("y", .number "1")] := by
    unfold Entries.Sorted
    decide
  have wf : v.WellFormed := ⟨outer, ⟨⟨inner, trivial, trivial, trivial⟩, trivial⟩, trivial, trivial⟩
  have innerArranged : (AttributeValue.map [("y", .number "1"), ("x", .string "1")]).Arranges
      (.map [("x", .string "1"), ("y", .number "1")]) :=
    ⟨_, _, rfl, .swap .., arrangesMembers_self _⟩
  have arranged : w.Arranges v :=
    ⟨_, _, rfl, .swap .., _, _, rfl, rfl, _, _, rfl, ⟨_, rfl, _, _, rfl, innerArranged, rfl⟩, rfl⟩
  obtain ⟨same, -, inserted, -⟩ := beq_iff_same_toJson
  exact ⟨wf, arranged, (same v v wf wf w v arranged (arranges_self v)).1 (beq_self v),
    inserted v w v wf arranged (arranges_self v)⟩

end AttributeValue

end UpdateExpr
