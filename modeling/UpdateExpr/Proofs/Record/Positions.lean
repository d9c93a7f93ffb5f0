/-
Records by position and by name. An array gives the values of the first fields of a record, in the order
in which these are declared; the object that has them under the names of the fields says the same. One
way walks along the fields and takes an item for each, the other puts every member into its slot and
looks at the fields afterwards. Yet the same data make a record, and it is the same record, whatever the
order of the members. An array that goes on behind the last field makes none.
-/
import UpdateExpr.Proofs.Record.Defaults

namespace UpdateExpr

namespace Record

/-! ## Values with names -/

/-- Values under the names of the fields, as many as there are of both. -/
def named (fields : List Field) (items : List Json) : List (String × Json) :=
  (fields.map (·.name)).zip items

theorem named_nil (fields : List Field) : named fields [] = [] :=
  List.zip_nil_right

theorem keys_named_subset (fields : List Field) (items : List Json) :
    (named fields items).map (·.1) ⊆ fields.map (·.name) := by
  intro key hk
  obtain ⟨p, hp, rfl⟩ := List.mem_map.1 hk
  exact (List.of_mem_zip (show (p.1, p.2) ∈ _ from hp)).1

namespace Slots

variable {f : Field} {fields : List Field}

/-- Members of other names are read past the slot of the first field. -/
theorem readMembers_of_not_mem (slot : Option f.shape.Carrier) {members : List (String × Json)}
    (slots : Slots fields) (h : f.name ∉ members.map (·.1)) :
    (cons slot slots).readMembers members = (slots.readMembers members).map (cons slot) :=
  readMembers_map slots fun _ hp => put_of_ne (fun same => h (List.mem_map.2 ⟨_, hp, same.symm⟩)) slot

end Slots

/-! ## Rows of members and of items -/

namespace Row

variable {f : Field} {fields : List Field}

/-- A value for the first field, and a row for the others. -/
def cons (x : f.shape.Carrier) (row : Row fields) : Row (f :: fields) := (x, row)

/-- The first member is the value of the first field. -/
theorem ofMembers_cons {j : Json} {rest : List (String × Json)} (h : f.name ∉ rest.map (·.1)) :
    ofMembers (f :: fields) ((f.name, j) :: rest) =
      f.shape.ofJson j >>= fun x => (ofMembers fields rest).map (cons x) := by
  unfold ofMembers
  show ((Slots.cons none (Slots.empty fields)).readMembers _ >>= _) = _
  rw [Slots.readMembers_cons, Slots.put_self]
  cases f.shape.ofJson j with
  | error cause => rfl
  | ok x =>
    show ((Slots.cons (some x) (Slots.empty fields)).readMembers rest >>= _) = _
    rw [Slots.readMembers_of_not_mem _ _ h, ok_bind]
    cases (Slots.empty fields).readMembers rest with
    | error cause => rfl
    | ok slots =>
      show (Slots.cons (some x) slots).complete = slots.complete.map (cons x)
      rw [Slots.cons, Slots.complete, Option.some_or]
      cases slots.complete <;> rfl

/-- Without a member every field needs its default. -/
theorem ofMembers_nil : ofMembers (f :: fields) [] =
    match f.default? with
    | none => .error (.missingField f.name)
    | some x => (ofMembers fields []).map (cons x) := by
  show (Slots.cons none (Slots.empty fields)).complete = _
  rw [Slots.cons, Slots.complete, Option.none_or]
  cases f.default? with
  | none => rfl
  | some x =>
    show _ = (Slots.empty fields).complete.map (cons x)
    cases (Slots.empty fields).complete <;> rfl

section Items

variable {short : Nat → DecodeError}

theorem ofItems_cons (index : Nat) (j : Json) (items : List Json) :
    Row.ofItems Shape.ofJson (.ok ()) short (f :: fields) index (j :: items) =
      f.shape.ofJson j >>= fun x =>
        (Row.ofItems Shape.ofJson (.ok ()) short fields (index + 1) items).map fun p => (cons x p.1, p.2) := by
  rw [ofItems]
  cases f.shape.ofJson j with
  | error cause => rfl
  | ok x => cases Row.ofItems Shape.ofJson (.ok ()) short fields (index + 1) items <;> rfl

theorem ofItems_nil (index : Nat) : Row.ofItems Shape.ofJson (.ok ()) short (f :: fields) index [] =
    match f.default? with
    | none => .error (short index)
    | some x =>
      (Row.ofItems Shape.ofJson (.ok ()) short fields (index + 1) []).map fun p => (cons x p.1, p.2) := by
  rw [ofItems, ok_bind]
  cases f.default? with
  | none => rfl
  | some x => cases Row.ofItems Shape.ofJson (.ok ()) short fields (index + 1) [] <;> rfl

/-- A value in front of what the items and the members make alike. -/
theorem exists_map_cons_eq_ok_iff {ε : Type} {items : Except ε (Row fields × List Json)}
    {members : Except ε (Row fields)} (alike : ∀ row, (∃ rest, items = .ok (row, rest)) ↔ members = .ok row)
    (x : f.shape.Carrier) {row : Row (f :: fields)} :
    (∃ rest, (items.map fun p => (cons x p.1, p.2)) = .ok (row, rest)) ↔ members.map (cons x) = .ok row := by
  simp only [map_eq_ok, ← alike]
  constructor
  · rintro ⟨_, ⟨others, rest⟩, ho, h⟩
    cases h
    exact ⟨others, ⟨rest, ho⟩, rfl⟩
  · rintro ⟨others, ⟨rest, ho⟩, rfl⟩
    exact ⟨rest, (others, rest), ho, rfl⟩

/-- Items make a row exactly if they make it as members. -/
theorem exists_ofItems_eq_ok_iff : ∀ {fields : List Field} {index : Nat} {items : List Json} {row : Row fields},
    (fields.map (·.name)).Nodup →
    ((∃ rest, Row.ofItems Shape.ofJson (.ok ()) short fields index items = .ok (row, rest)) ↔
      ofMembers fields (named fields items) = .ok row)
  | [], _, items, row, _ => ⟨fun _ => rfl, fun _ => ⟨items, rfl⟩⟩
  | f :: fields, index, j :: items, row, distinct => by
    obtain ⟨fresh, distinct⟩ := List.nodup_cons.1 distinct
    have other : f.name ∉ (named fields items).map (·.1) := fun h => fresh (keys_named_subset fields items h)
    have first : named (f :: fields) (j :: items) = (f.name, j) :: named fields items := rfl
    rw [first, ofMembers_cons other, ofItems_cons]
    cases f.shape.ofJson j with
    | error cause => exact ⟨nofun, nofun⟩
    | ok x => exact exists_map_cons_eq_ok_iff (fun row => exists_ofItems_eq_ok_iff distinct) x
  | f :: fields, index, [], row, distinct => by
    rw [named_nil, ofMembers_nil, ofItems_nil]
    cases f.default? with
    | none => exact ⟨nofun, nofun⟩
    | some x =>
      refine exists_map_cons_eq_ok_iff (fun row => ?_) x
      rw [← named_nil fields]
      exact exists_ofItems_eq_ok_iff (List.nodup_cons.1 distinct).2

end Items

end Row

/-! ## Records -/

variable {α : Type} [Record α]

theorem ofJson_obj_eq_ok_iff {members : List (String × Json)} {a : α} :
    ofJson (.obj members) = .ok a ↔ Row.ofMembers (fields α) members = .ok (toRow a) := by
  rw [ofJson_obj, map_eq_ok]
  constructor
  · rintro ⟨row, hr, rfl⟩
    rw [toRow_ofRow]
    exact hr
  · intro h
    exact ⟨toRow a, h, ofRow_toRow a⟩

/-- An array is a record exactly if it has no more items than there are fields, and the items make the
record under their names. -/
theorem ofJson_arr_eq_ok_iff {items : List Json} {a : α} :
    ofJson (.arr items) = .ok a ↔
      items.length ≤ (fields α).length ∧ Row.ofMembers (fields α) (named (fields α) items) = .ok (toRow a) := by
  rw [ofJson_arr, bind_eq_ok, ← Row.exists_ofItems_eq_ok_iff distinct]
  constructor
  · rintro ⟨⟨row, rest⟩, hp, ha⟩
    have left := Row.rest_of_ofItems hp
    cases rest with
    | cons j rest => cases ha
    | nil =>
      cases ha
      refine ⟨List.drop_eq_nil_iff.1 left.symm, [], ?_⟩
      rw [toRow_ofRow]
      exact hp
  · rintro ⟨fits, rest, hp⟩
    have left := Row.rest_of_ofItems hp
    rw [List.drop_eq_nil_of_le fits] at left
    subst left
    exact ⟨(toRow a, []), hp, congrArg Except.ok (ofRow_toRow a)⟩

theorem ofJson_obj_of_perm_iff {members members' : List (String × Json)} (h : members.Perm members') {a : α} :
    ofJson (.obj members) = .ok a ↔ ofJson (.obj members') = .ok a :=
  ⟨ofJson_of_perm h, ofJson_of_perm h.symm⟩

variable (α) in
/-- With `names` in the order of declaration, an array of values that are not more than these is a record
exactly if the object with the same values under the first of the names is this record, whatever the order
of the members; and an array of more values is none. -/
structure FormsAgree (names : List String) : Prop where
  arr_iff_obj : ∀ (items : List Json) (members : List (String × Json)), items.length ≤ names.length →
    members.Perm (names.zip items) → ∀ a : α, ofJson (.arr items) = .ok a ↔ ofJson (.obj members) = .ok a
  overlong : ∀ items : List Json, names.length < items.length →
    ∃ cause, (ofJson (.arr items) : Except DecodeError α) = .error cause

variable (α) in
theorem formsAgree : FormsAgree α ((fields α).map (·.name)) where
  arr_iff_obj items members fits arranged a := by
    rw [List.length_map] at fits
    rw [ofJson_obj_of_perm_iff arranged, ofJson_obj_eq_ok_iff, ofJson_arr_eq_ok_iff, and_iff_right fits]
    exact Iff.rfl
  overlong items long := by
    rw [List.length_map] at long
    cases h : (ofJson (.arr items) : Except DecodeError α) with
    | error cause => exact ⟨cause, rfl⟩
    | ok a => exact absurd (ofJson_arr_eq_ok_iff.1 h).1 (Nat.not_le_of_lt long)

end Record

open Record

/-- The two forms of a record agree, for every record there is. -/
theorem records_formsAgree :
    FormsAgree SetRequest ["Name", "SetExpression", "IfNotExists", "AttributeNames", "Value", "ListAppend"] ∧
    FormsAgree IncrementRequest ["Name", "AttributeNames", "BaseValueIfNotExist", "IncrementAmount"] ∧
    FormsAgree RemoveRequest ["Name", "AttributeNames"] ∧
    FormsAgree AddRequest ["Name", "AttributeNames", "Value"] ∧
    FormsAgree DeleteRequest ["Name", "AttributeNames", "Value"] ∧
    FormsAgree UpdateParams ["UpdateExpression", "ExpressionAttributeNames", "ExpressionAttributeValues"] ∧
    FormsAgree Config ["validateNames"] :=
  ⟨formsAgree SetRequest, formsAgree IncrementRequest, formsAgree RemoveRequest, formsAgree AddRequest,
    formsAgree DeleteRequest, formsAgree UpdateParams, formsAgree Config⟩

/-- A counter by position without its amount, and with the members of the object in key order, which is not
that of the fields; an addition without its value, in either form; and a removal with one item too many. -/
theorem records_formsAgree_increment :
    let items : List Json := [.str "#h", .obj [("h", .str "hits")], .obj [("N", .str "7")]]
    let members : List (String × Json) :=
      [("AttributeNames", .obj [("h", .str "hits")]), ("BaseValueIfNotExist", .obj [("N", .str "7")]),
        ("Name", .str "#h")]
    let increment : IncrementRequest :=
      { path := "#h", names := .ofPairs [("h", "hits")], base := .number "7" }
    let short : List Json := [.str "n", .obj []]
    let long : List Json := [.str "n", .obj [], .null]
    (members.Perm (["Name", "AttributeNames", "BaseValueIfNotExist", "IncrementAmount"].zip items) ∧
      ofJson (.arr items) = .ok increment ∧ ofJson (.obj members) = .ok increment) ∧
    (∀ a : AddRequest, ¬ ofJson (.obj (["Name", "AttributeNames", "Value"].zip short)) = .ok a) ∧
    ∃ cause, (ofJson (.arr long) : Except DecodeError RemoveRequest) = .error cause := by
  intro items members increment short long
  obtain ⟨-, increments, removals, additions, -⟩ := records_formsAgree
  have arranged :
      members.Perm (["Name", "AttributeNames", "BaseValueIfNotExist", "IncrementAmount"].zip items) :=
    (List.Perm.cons _ (List.Perm.swap ..)).trans (List.Perm.swap ..)
  have read : ofJson (.arr items) = .ok increment := rfl
  refine ⟨⟨arranged, read, (increments.arr_iff_obj items members (by decide) arranged increment).1 read⟩, ?_,
    removals.overlong long (by decide)⟩
  intro a
  rw [← additions.arr_iff_obj short _ (by decide) (List.Perm.refl _) a]
  exact nofun

end UpdateExpr
