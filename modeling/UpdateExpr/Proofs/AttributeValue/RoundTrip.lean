/-
Attribute values and JSON values. Canonical JSON is read as a value exactly if it is what the value is
written as, and what values are written as is canonical. So reading and writing are inverse to each
other: no value is lost, and nothing but the image of the writer is accepted, at any depth.
-/
import UpdateExpr.AttributeValue.Decode
import UpdateExpr.AttributeValue.Encode
import UpdateExpr.Proofs.Base64.RoundTrip
import UpdateExpr.Proofs.Table.Lookup

namespace UpdateExpr

/-! ## Plain contents -/

namespace Json

theorem asText_eq_ok_iff {j : Json} {s : String} : j.asText = .ok s ↔ j = .str s := by
  cases j with
  | str t =>
    unfold asText
    rw [Except.ok.injEq, Json.str.injEq]
  | _ =>
    constructor
    · intro h
      cases h
    · intro h
      cases h

theorem asFlag_eq_ok_iff {j : Json} {b : Bool} : j.asFlag = .ok b ↔ j = .bool b := by
  cases j with
  | bool c =>
    unfold asFlag
    rw [Except.ok.injEq, Json.bool.injEq]
  | _ =>
    constructor
    · intro h
      cases h
    · intro h
      cases h

theorem textsOfItems_eq_ok_iff {items : List Json} {texts : List String} :
    textsOfItems items = .ok texts ↔ items = texts.map .str := by
  induction items generalizing texts with
  | nil =>
    unfold textsOfItems
    rw [Except.ok.injEq, eq_comm, eq_comm (a := []), List.map_eq_nil_iff]
  | cons j rest ih =>
    unfold textsOfItems
    simp only [bind_eq_ok, asText_eq_ok_iff, ih, Except.ok.injEq]
    constructor
    · rintro ⟨s, rfl, more, rfl, rfl⟩
      rfl
    · intro h
      cases texts with
      | nil => cases h
      | cons s more =>
        cases h
        exact ⟨s, rfl, more, rfl, rfl⟩

end Json

namespace AttributeValue

theorem asTexts_eq_ok_iff {j : Json} {texts : List String} : j.asTexts = .ok texts ↔ j = textsToJson texts := by
  cases j with
  | arr items =>
    unfold Json.asTexts textsToJson
    rw [Json.textsOfItems_eq_ok_iff, Json.arr.injEq]
  | _ =>
    constructor
    · intro h
      cases h
    · intro h
      cases h

theorem binaryOf_eq_ok_iff {text : String} {data : Text.Bytes} :
    binaryOf text = .ok data ↔ text = Base64.encode data := by
  rw [← Base64.decode_eq_ok_iff]
  unfold binaryOf
  cases Base64.decode text with
  | ok bytes => rw [Except.ok.injEq, Except.ok.injEq]
  | error cause =>
    constructor
    · intro h
      cases h
    · intro h
      cases h

theorem binariesOf_eq_ok_iff {texts : List String} {items : List Text.Bytes} :
    binariesOf texts = .ok items ↔ texts = items.map Base64.encode := by
  induction texts generalizing items with
  | nil =>
    unfold binariesOf
    rw [Except.ok.injEq, eq_comm, eq_comm (a := []), List.map_eq_nil_iff]
  | cons text rest ih =>
    unfold binariesOf
    simp only [bind_eq_ok, binaryOf_eq_ok_iff, ih, Except.ok.injEq]
    constructor
    · rintro ⟨data, rfl, more, rfl, rfl⟩
      rfl
    · intro h
      cases items with
      | nil => cases h
      | cons data more =>
        cases h
        exact ⟨data, rfl, more, rfl, rfl⟩

/-! ## Contents -/

/-- What stands under the tag of a value. -/
def contents : AttributeValue → Json
  | .string text => .str text
  | .number numeral => .str numeral
  | .binary data => .str (Base64.encode data)
  | .stringSet items => textsToJson items
  | .numberSet items => textsToJson items
  | .binarySet items => textsToJson (items.map Base64.encode)
  | .bool flag => .bool flag
  | .null flag => .bool flag
  | .list items => .arr (itemsToJson items)
  | .map members => .obj (membersToJson members)

/-- A value is written under its own tag. -/
theorem toJson_eq_tagged (v : AttributeValue) : v.toJson = tagged v.tag v.contents := by
  cases v <;> rfl

theorem keys_membersToJson (members : List (String × AttributeValue)) :
    (membersToJson members).map (·.1) = members.map (·.1) := by
  induction members with
  | nil => rfl
  | cons p rest ih =>
    obtain ⟨key, v⟩ := p
    rw [membersToJson, List.map_cons, ih, List.map_cons]

theorem sorted_membersToJson {members : List (String × AttributeValue)} :
    Entries.Sorted (membersToJson members) ↔ Entries.Sorted members := by
  rw [Entries.sorted_iff_keys, Entries.sorted_iff_keys, keys_membersToJson]

/-! ## Writing -/

theorem canonicalItems_texts (texts : List String) : Json.CanonicalItems (texts.map .str) := by
  induction texts with
  | nil => exact trivial
  | cons text rest ih => exact ⟨trivial, ih⟩

theorem canonical_tagged {tag : Tag} {j : Json} (h : j.Canonical) : (tagged tag j).Canonical :=
  ⟨List.pairwise_singleton .., h, trivial⟩

mutual

/-- What a value is written as is canonical. -/
theorem canonical_toJson : ∀ {v : AttributeValue}, v.WellFormed → v.toJson.Canonical
  | .string _, _ | .number _, _ | .binary _, _ | .bool _, _ | .null _, _ =>
    canonical_tagged trivial
  | .stringSet items, _ | .numberSet items, _ => canonical_tagged (canonicalItems_texts items)
  | .binarySet items, _ => canonical_tagged (canonicalItems_texts (items.map Base64.encode))
  | .list _, h => canonical_tagged (canonical_itemsToJson h)
  | .map _, h => canonical_tagged ⟨sorted_membersToJson.2 h.1, canonical_membersToJson h.2⟩

theorem canonical_itemsToJson : ∀ {items : List AttributeValue}, WellFormedItems items →
    Json.CanonicalItems (itemsToJson items)
  | [], _ => trivial
  | _ :: _, h => ⟨canonical_toJson h.1, canonical_itemsToJson h.2⟩

theorem canonical_membersToJson : ∀ {members : List (String × AttributeValue)}, WellFormedMembers members →
    Json.CanonicalMembers (membersToJson members)
  | [], _ => trivial
  | (_, _) :: _, h => ⟨canonical_toJson h.1, canonical_membersToJson h.2⟩

end

/-! ## Reading -/

theorem binaryText_eq_ok_iff {j : Json} {data : Text.Bytes} :
    j.asText.bind binaryOf = .ok data ↔ j = .str (Base64.encode data) := by
  refine bind_eq_ok.trans ?_
  simp only [Json.asText_eq_ok_iff, binaryOf_eq_ok_iff]
  constructor
  · rintro ⟨text, rfl, rfl⟩
    rfl
  · rintro rfl
    exact ⟨_, rfl, rfl⟩

theorem binaryTexts_eq_ok_iff {j : Json} {items : List Text.Bytes} :
    j.asTexts.bind binariesOf = .ok items ↔ j = textsToJson (items.map Base64.encode) := by
  refine bind_eq_ok.trans ?_
  simp only [asTexts_eq_ok_iff, binariesOf_eq_ok_iff]
  constructor
  · rintro ⟨texts, rfl, rfl⟩
    rfl
  · rintro rfl
    exact ⟨_, rfl, rfl⟩

/-- Contents in which no value is nested: the reader of a tag is exact if it reads what `write` makes
of the parameter of the tag's constructor, and nothing else. -/
theorem flat_eq_ok_iff {α : Type} (make : α → AttributeValue) (write : α → Json) {read : Except DecodeError α}
    {tag : Tag} {j : Json} (hread : ∀ a, read = .ok a ↔ j = write a)
    (hmake : ∀ a, (make a).WellFormed ∧ (make a).tag = tag ∧ (make a).contents = write a)
    (htag : ∀ v : AttributeValue, v.tag = tag → ∃ a, v = make a) (v : AttributeValue) :
    read.map make = .ok v ↔ v.WellFormed ∧ v.tag = tag ∧ v.contents = j := by
  rw [map_eq_ok]
  constructor
  · rintro ⟨a, ha, rfl⟩
    obtain ⟨wf, ht, hc⟩ := hmake a
    exact ⟨wf, ht, hc.trans ((hread a).1 ha).symm⟩
  · rintro ⟨-, ht, hc⟩
    obtain ⟨a, rfl⟩ := htag v ht
    exact ⟨a, (hread a).2 (hc.symm.trans (hmake a).2.2), rfl⟩

theorem ofContents_flat {tag : Tag} (hl : tag ≠ .l) (hm : tag ≠ .m) (j : Json) (v : AttributeValue) :
    ofContents tag j = .ok v ↔ v.WellFormed ∧ v.tag = tag ∧ v.contents = j := by
  cases tag with
  | l => exact absurd rfl hl
  | m => exact absurd rfl hm
  | s =>
    rw [ofContents]
    refine flat_eq_ok_iff .string .str (fun _ => Json.asText_eq_ok_iff) (fun _ => ⟨trivial, rfl, rfl⟩) ?_ v
    intro v h
    cases v <;> cases h
    exact ⟨_, rfl⟩
  | n =>
    rw [ofContents]
    refine flat_eq_ok_iff .number .str (fun _ => Json.asText_eq_ok_iff) (fun _ => ⟨trivial, rfl, rfl⟩) ?_ v
    intro v h
    cases v <;> cases h
    exact ⟨_, rfl⟩
  | b =>
    rw [ofContents]
    refine flat_eq_ok_iff .binary (fun data => .str (Base64.encode data)) (fun _ => binaryText_eq_ok_iff)
      (fun _ => ⟨trivial, rfl, rfl⟩) ?_ v
    intro v h
    cases v <;> cases h
    exact ⟨_, rfl⟩
  | ss =>
    rw [ofContents]
    refine flat_eq_ok_iff .stringSet textsToJson (fun _ => asTexts_eq_ok_iff) (fun _ => ⟨trivial, rfl, rfl⟩) ?_ v
    intro v h
    cases v <;> cases h
    exact ⟨_, rfl⟩
  | ns =>
    rw [ofContents]
    refine flat_eq_ok_iff .numberSet textsToJson (fun _ => asTexts_eq_ok_iff) (fun _ => ⟨trivial, rfl, rfl⟩) ?_ v
    intro v h
    cases v <;> cases h
    exact ⟨_, rfl⟩
  | bs =>
    rw [ofContents]
    refine flat_eq_ok_iff .binarySet (fun items => textsToJson (items.map Base64.encode))
      (fun _ => binaryTexts_eq_ok_iff) (fun _ => ⟨trivial, rfl, rfl⟩) ?_ v
    intro v h
    cases v <;> cases h
    exact ⟨_, rfl⟩
  | bool =>
    rw [ofContents]
    refine flat_eq_ok_iff .bool .bool (fun _ => Json.asFlag_eq_ok_iff) (fun _ => ⟨trivial, rfl, rfl⟩) ?_ v
    intro v h
    cases v <;> cases h
    exact ⟨_, rfl⟩
  | null =>
    rw [ofContents]
    refine flat_eq_ok_iff .null .bool (fun _ => Json.asFlag_eq_ok_iff) (fun _ => ⟨trivial, rfl, rfl⟩) ?_ v
    intro v h
    cases v <;> cases h
    exact ⟨_, rfl⟩

mutual

/-- Canonical JSON is read as a value exactly if it is what the value is written as. -/
theorem ofJson_eq_ok_iff : ∀ {j : Json}, j.Canonical → ∀ v : AttributeValue,
    ofJson j = .ok v ↔ v.WellFormed ∧ v.toJson = j
  -- neither side holds: a value is written as an object with a member
  | .null, _, v | .bool _, _, v | .num _, _, v | .str _, _, v | .arr _, _, v | .obj [], _, v => by
    rw [toJson_eq_tagged]
    constructor
    · intro h
      cases h
    · rintro ⟨-, h⟩
      cases h
  | .obj ((key, j) :: rest), hj, v => by
    rw [toJson_eq_tagged]
    unfold ofJson tagged
    rw [Json.obj.injEq, List.cons.injEq, Prod.mk.injEq]
    cases htag : Tag.ofKey? key with
    | none =>
      constructor
      · intro h
        cases h
      · rintro ⟨-, ⟨rfl, -⟩, -⟩
        rw [Tag.ofKey?_key] at htag
        cases htag
    | some tag =>
      -- the spelling of the tag that was found is the key, so it is the one that is written
      obtain rfl := Tag.key_of_ofKey? htag
      simp only [bind_eq_ok, ofContents_eq_ok_iff tag hj.2.1]
      constructor
      · rintro ⟨value, ⟨wf, ht, hc⟩, hrest⟩
        split at hrest
        · rename_i empty
          cases hrest
          exact ⟨wf, ⟨congrArg Tag.key ht, hc⟩, (List.isEmpty_iff.1 empty).symm⟩
        · cases hrest
      · rintro ⟨wf, ⟨ht, hc⟩, rfl⟩
        exact ⟨v, ⟨wf, Tag.key_injective ht, hc⟩, rfl⟩

/-- Canonical contents are read under a tag exactly if they are those of a value of this tag. -/
theorem ofContents_eq_ok_iff : ∀ (tag : Tag) {j : Json}, j.Canonical → ∀ v : AttributeValue,
    ofContents tag j = .ok v ↔ v.WellFormed ∧ v.tag = tag ∧ v.contents = j
  | .s, j, _, v | .n, j, _, v | .b, j, _, v | .ss, j, _, v | .ns, j, _, v | .bs, j, _, v | .bool, j, _, v
  | .null, j, _, v => ofContents_flat (by decide) (by decide) j v
  | .l, .arr js, hj, v => by
    unfold ofContents
    simp only [map_eq_ok, ofItems_eq_ok_iff hj]
    constructor
    · rintro ⟨items, ⟨wf, rfl⟩, rfl⟩
      exact ⟨wf, rfl, rfl⟩
    · rintro ⟨wf, ht, hc⟩
      cases v <;> cases ht
      exact ⟨_, ⟨wf, Json.arr.inj hc⟩, rfl⟩
  | .m, .obj js, hj, v => by
    unfold ofContents
    simp only [map_eq_ok, ofMembers_eq_ok_iff hj.2]
    constructor
    · rintro ⟨members, ⟨wf, rfl⟩, rfl⟩
      -- the members come in the order of the object, so putting them in order moves none
      have sorted := sorted_membersToJson.1 hj.1
      unfold ofPairs
      rw [Entries.ofPairs_of_sorted sorted]
      exact ⟨⟨sorted, wf⟩, rfl, rfl⟩
    · rintro ⟨wf, ht, hc⟩
      cases v <;> cases ht
      refine ⟨_, ⟨wf.2, Json.obj.inj hc⟩, ?_⟩
      unfold ofPairs
      rw [Entries.ofPairs_of_sorted wf.1]
  | .l, .null, _, v | .l, .bool _, _, v | .l, .num _, _, v | .l, .str _, _, v | .l, .obj _, _, v
  | .m, .null, _, v | .m, .bool _, _, v | .m, .num _, _, v | .m, .str _, _, v | .m, .arr _, _, v => by
    constructor
    · intro h
      cases h
    · rintro ⟨-, ht, hc⟩
      cases v <;> cases ht
      cases hc

theorem ofItems_eq_ok_iff : ∀ {js : List Json}, Json.CanonicalItems js → ∀ items : List AttributeValue,
    ofItems js = .ok items ↔ WellFormedItems items ∧ itemsToJson items = js
  | [], _, [] => ⟨fun _ => ⟨trivial, rfl⟩, fun _ => rfl⟩
  | [], _, _ :: _ => by
    constructor
    · intro h
      cases h
    · rintro ⟨-, h⟩
      cases h
  | j :: rest, hj, items => by
    unfold ofItems
    simp only [bind_eq_ok, ofJson_eq_ok_iff hj.1, ofItems_eq_ok_iff hj.2]
    constructor
    · rintro ⟨v, ⟨wf, rfl⟩, more, ⟨wfs, rfl⟩, h⟩
      cases h
      exact ⟨⟨wf, wfs⟩, rfl⟩
    · rintro ⟨wf, h⟩
      cases items with
      | nil => cases h
      | cons v more =>
        obtain ⟨rfl, rfl⟩ := List.cons.inj h
        exact ⟨v, ⟨wf.1, rfl⟩, more, ⟨wf.2, rfl⟩, rfl⟩

theorem ofMembers_eq_ok_iff : ∀ {js : List (String × Json)}, Json.CanonicalMembers js →
    ∀ members : List (String × AttributeValue),
    ofMembers js = .ok members ↔ WellFormedMembers members ∧ membersToJson members = js
  | [], _, [] => ⟨fun _ => ⟨trivial, rfl⟩, fun _ => rfl⟩
  | [], _, _ :: _ => by
    constructor
    · intro h
      cases h
    · rintro ⟨-, h⟩
      cases h
  | (key, j) :: rest, hj, members => by
    unfold ofMembers
    simp only [bind_eq_ok, ofJson_eq_ok_iff hj.1, ofMembers_eq_ok_iff hj.2]
    constructor
    · rintro ⟨v, ⟨wf, rfl⟩, more, ⟨wfs, rfl⟩, h⟩
      cases h
      exact ⟨⟨wf, wfs⟩, rfl⟩
    · rintro ⟨wf, h⟩
      cases members with
      | nil => cases h
      | cons p more =>
        obtain ⟨k, v⟩ := p
        obtain ⟨head, rfl⟩ := List.cons.inj h
        obtain ⟨rfl, rfl⟩ := Prod.mk.inj head
        exact ⟨v, ⟨wf.1, rfl⟩, more, ⟨wf.2, rfl⟩, rfl⟩

end

/-! ## Round trip -/

/-- Reading and writing are inverse to each other: what a value is written as is read as this value,
what is read as a value is what the value is written as, and so exactly the image of the writer is
accepted. -/
theorem ofJson_inverse_toJson :
    (∀ v : AttributeValue, v.WellFormed → v.toJson.Canonical ∧ ofJson v.toJson = .ok v) ∧
    (∀ j : Json, j.Canonical → ∀ v, ofJson j = .ok v → v.WellFormed ∧ v.toJson = j) ∧
    ∀ j : Json, j.Canonical →
      ((∃ v, ofJson j = .ok v) ↔ ∃ v : AttributeValue, v.WellFormed ∧ v.toJson = j) := by
  refine ⟨fun v wf => ?_, fun j hj v => (ofJson_eq_ok_iff hj v).1, fun j hj => ?_⟩
  · have canonical := canonical_toJson wf
    exact ⟨canonical, (ofJson_eq_ok_iff canonical v).2 ⟨wf, rfl⟩⟩
  · exact exists_congr (ofJson_eq_ok_iff hj)

/-- A map in a list, with bytes that need padding and a member that follows another in key order. -/
theorem ofJson_inverse_toJson_nested :
    let v : AttributeValue :=
      .list [.map [("a", .binary [104, 105]), ("b", .binarySet [[], [255]])], .null true]
    let j : Json := .obj [("L", .arr [.obj [("M", .obj [("a", .obj [("B", .str "aGk=")]),
      ("b", .obj [("BS", .arr [.str "", .str "/w=="])])])], .obj [("NULL", .bool true)]])]
    v.WellFormed ∧ v.toJson = j ∧ j.Canonical ∧ ofJson j = .ok v := by
  intro v j
  have sorted : Entries.Sorted [("a", AttributeValue.binary [104, 105]), ("b", .binarySet [[], [255]])] := by
    unfold Entries.Sorted
    decide
  have wf : v.WellFormed := ⟨⟨sorted, trivial, trivial, trivial⟩, trivial, trivial⟩
  have written : v.toJson = j := by rfl
  obtain ⟨canonical, read⟩ := ofJson_inverse_toJson.1 v wf
  rw [written] at canonical read
  obtain ⟨wf', written'⟩ := ofJson_inverse_toJson.2.1 j canonical v read
  exact ⟨wf', written', canonical, read⟩

end AttributeValue

end UpdateExpr
