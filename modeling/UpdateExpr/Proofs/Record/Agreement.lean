/-
Records from JSON values and from texts. Read by members or by position, the fields of a record are
met in the same order on both ways, so a JSON value without floats that nests no more arrays and
objects than texts may is decoded to the same result, or refused with the same error, as its compact
text. There is one exception: an array that goes on behind the last field is too long as a value and
malformed as a text. Members of no field make no difference: one way skips them, the other has no slot
for them.
-/
import UpdateExpr.Proofs.AttributeValue.Agreement
import UpdateExpr.Proofs.Record.Text

namespace UpdateExpr

open Fault Source

theorem ListEnd.ofSource_toSource (j : Json) : ListEnd.ofSource j.toSource = lift (ListEnd.ofJson j) := by
  rw [ListEnd.ofSource, ListEnd.ofJson, Json.asText_toSource, lift_map]

theorem Json.isComplete_toSource (j : Json) : j.toSource.isComplete = true := by
  cases j <;> rfl

/-- A text is decoded as its value is, if the tree of the value is. -/
theorem Document.decode_compact_lift {α : Type} {j : Json} (h : j.Integral) {read : Nat → Source → Except Fault α}
    {result : Except Fault α} (hr : read nestingLimit j.toSource = result) :
    (ofText j.compact).decode read = result := by
  rw [ofText_compact h, decode, hr]
  cases result <;> rfl

namespace Record

/-! ## Fields -/

theorem Shape.ofJson_optional (shape : Shape) {j : Json} (h : j ≠ .null) :
    ofJson (.optional shape) j = (ofJson shape j).map some := by
  cases j with
  | null => exact absurd rfl h
  | _ => rfl

/-- The tree of a value is read as a field's value as the value is. -/
theorem Shape.ofSource_toSource : ∀ (shape : Shape) {j : Json} {depth : Nat}, j.depth ≤ depth →
    shape.ofSource depth j.toSource = lift (shape.ofJson j)
  | .text, j, _, _ => j.asText_toSource
  | .flag, j, _, _ => j.asFlag_toSource
  | .value, j, _, h => AttributeValue.ofSource_toSource j h
  | .listEnd, j, _, _ => ListEnd.ofSource_toSource j
  | .names, _, _, h => Json.asTextTable_toSource h
  | .values, .obj members, _, h => by
    refine enter_of_lt h fun depth hd => ?_
    rw [AttributeValue.ofSourceMembers_toSource members hd]
    exact (lift_map Table.ofPairs (AttributeValue.ofMembers members)).symm
  | .values, .null, _, _ | .values, .bool _, _, _ | .values, .num _, _, _ | .values, .str _, _, _
  | .values, .arr _, _, _ => rfl
  | .optional shape, j, depth, h => by
    by_cases null : j = .null
    · subst null
      rfl
    · rw [ofSource_optional depth shape null, ofJson_optional shape null, ofSource_toSource shape h]
      exact (lift_map some (shape.ofJson j)).symm

/-! ## By members -/

namespace Slots

variable {f : Field} {fields : List Field}

theorem put_taken {ε : Type} {taken : ε} {read : (shape : Shape) → Except ε shape.Carrier} (x : f.shape.Carrier)
    (slots : Slots fields) : (cons (some x) slots).put taken read f.name = .error taken := by
  rw [cons, put, if_pos rfl]

theorem put_lift (taken : DecodeError) (read : (shape : Shape) → Except DecodeError shape.Carrier) (key : String) :
    ∀ {fields : List Field} (slots : Slots fields),
      slots.put (.decode taken) (fun shape => lift (read shape)) key = lift (slots.put taken read key)
  | [], _ => rfl
  | f :: fields, (slot, rest) => by
    show (cons slot rest).put _ _ key = lift ((cons slot rest).put taken read key)
    by_cases h : f.name = key
    · subst h
      cases slot with
      | some x => rw [put_taken, put_taken, lift]
      | none => rw [put_self, put_self, lift_map]
    · rw [put_of_ne h, put_of_ne h, put_lift taken read key rest, lift_map]

/-- A key of no field changes nothing. -/
theorem put_of_unknown {ε : Type} {taken : ε} {read : (shape : Shape) → Except ε shape.Carrier} {key : String} :
    ∀ {fields : List Field} (slots : Slots fields), (fields.any fun f => f.name = key) = false →
      slots.put taken read key = .ok slots
  | [], _, _ => rfl
  | f :: fields, (slot, rest), h => by
    rw [List.any_cons, Bool.or_eq_false_iff, decide_eq_false_iff_not] at h
    show (cons slot rest).put taken read key = .ok (cons slot rest)
    rw [put_of_ne h.1, put_of_unknown rest h.2]
    rfl

theorem readSourceMembers_toSource {depth : Nat} :
    ∀ (members : List (String × Json)) (slots : Slots fields), Json.membersDepth members ≤ depth →
      slots.readSourceMembers depth true (Json.membersToSource members) = lift (slots.readMembers members)
  | [], _, _ => rfl
  | (key, j) :: rest, slots, h => by
    obtain ⟨first, others⟩ := Nat.max_le.1 h
    have known : asKey (some key) = .ok key := rfl
    rw [Json.membersToSource, readSourceMembers, readMembers, known, ok_bind]
    cases hk : fields.any fun f => f.name = key with
    | true =>
      simp only [if_true, Shape.ofSource_toSource _ first, put_lift, lift_bind]
      congr 1
      funext slots
      exact readSourceMembers_toSource rest slots others
    | false =>
      simp only [Bool.false_eq_true, if_false, j.isComplete_toSource, if_true]
      rw [put_of_unknown slots hk, ok_bind]
      exact readSourceMembers_toSource rest slots others

end Slots

/-! ## By position -/

namespace Row

/-- Trees are read by position as the values are, and the trees of what is left over are left over. -/
theorem ofItems_toSource {depth : Nat} (short : Nat → DecodeError) :
    ∀ (fields : List Field) (index : Nat) (items : List Json), Json.itemsDepth items ≤ depth →
      Row.ofItems (Shape.ofSource depth) (close true ()) (fun i => .decode (short i)) fields index
          (Json.itemsToSource items) =
        lift ((Row.ofItems Shape.ofJson (.ok ()) short fields index items).map fun (row, rest) =>
          (row, Json.itemsToSource rest))
  | [], _, _, _ => rfl
  | f :: fields, index, j :: rest, h => by
    obtain ⟨first, others⟩ := Nat.max_le.1 h
    rw [Json.itemsToSource, ofItems, ofItems, Shape.ofSource_toSource _ first, ofItems_toSource short _ _ rest others]
    cases f.shape.ofJson j with
    | error cause => rfl
    | ok x => cases Row.ofItems Shape.ofJson (.ok ()) short fields (index + 1) rest <;> rfl
  | f :: fields, index, [], h => by
    have more := ofItems_toSource short fields (index + 1) [] h
    rw [Json.itemsToSource] at more
    have closed : close true () = .ok () := rfl
    rw [Json.itemsToSource, ofItems, ofItems, more, closed, ok_bind, ok_bind]
    cases f.default? with
    | none => rfl
    | some x => cases Row.ofItems Shape.ofJson (.ok ()) short fields (index + 1) [] <;> rfl

variable {σ ε : Type} {read : (shape : Shape) → σ → Except ε shape.Carrier} {atEnd : Except ε Unit} {short : Nat → ε}

/-- Every field takes one item. -/
theorem rest_of_ofItems : ∀ {fields : List Field} {index : Nat} {items : List σ} {row : Row fields} {rest : List σ},
    Row.ofItems read atEnd short fields index items = .ok (row, rest) → rest = items.drop fields.length
  | [], _, _, _, _, h => by
    cases h
    rfl
  | f :: fields, index, item :: items, row, rest, h => by
    rw [ofItems] at h
    obtain ⟨x, -, h⟩ := bind_eq_ok.1 h
    obtain ⟨⟨row', rest'⟩, hr, h⟩ := bind_eq_ok.1 h
    cases h
    exact (rest_of_ofItems hr).trans rfl
  | f :: fields, index, [], row, rest, h => by
    rw [ofItems] at h
    obtain ⟨-, -, h⟩ := bind_eq_ok.1 h
    cases hd : f.default? with
    | none =>
      rw [hd] at h
      cases h
    | some x =>
      rw [hd] at h
      obtain ⟨⟨row', rest'⟩, hr, h⟩ := bind_eq_ok.1 h
      cases h
      rw [rest_of_ofItems hr, List.drop_nil, List.drop_nil]

/-- If there are enough items, the row depends on the first of them alone. -/
theorem ofItems_take : ∀ {fields : List Field} {index : Nat} {items : List σ}, fields.length ≤ items.length →
    Row.ofItems read atEnd short fields index items =
      (Row.ofItems read atEnd short fields index (items.take fields.length)).map fun (row, _) =>
        (row, items.drop fields.length)
  | [], _, _, _ => rfl
  | f :: fields, index, item :: items, h => by
    have others : fields.length ≤ items.length := Nat.le_of_succ_le_succ h
    rw [List.length_cons, List.take_succ_cons, List.drop_succ_cons, ofItems, ofItems, ofItems_take others]
    cases read f.shape item with
    | error e => rfl
    | ok x => cases Row.ofItems read atEnd short fields (index + 1) (items.take fields.length) <;> rfl

end Row

/-! ## Records -/

variable (α : Type) [Record α]

/-- An array of more items than a record has fields, the first of which make a record. -/
def Overlong (j : Json) : Prop :=
  ∃ items, j = .arr items ∧ (fields α).length < items.length ∧
    ∃ a : α, ofJson (.arr (items.take (fields α).length)) = .ok a

/-- A JSON value of no floats that nests no more than 127 arrays and objects, whatever it holds, decodes
as its compact text does: to the same record or with the same error. An array that would be a record but
for the items behind its last field is too long as a value and malformed as a text. -/
def PathsAgree : Prop :=
  ∀ j : Json, j.Integral → j.depth ≤ 127 →
    (¬ Overlong α j → (ofText j.compact : Except Fault α) = lift (ofJson j)) ∧
    (Overlong α j → (ofText j.compact : Except Fault α) = .error .malformed ∧
      ∃ items, j = .arr items ∧ (ofJson j : Except DecodeError α) = .error (.tooLong items.length))

variable {α}

theorem ofSource_obj_toSource {members : List (String × Json)} {depth : Nat}
    (h : (Json.obj members).depth ≤ depth) :
    (ofSource depth (Json.obj members).toSource : Except Fault α) = lift (ofJson (.obj members)) := by
  rw [Json.toSource, ofSource, ofJson]
  refine enter_of_lt h fun depth hd => ?_
  rw [Slots.readSourceMembers_toSource members _ hd]
  simp only [lift_bind]
  rfl

/-- The row and the items left over that an array gives. -/
def positional (items : List Json) : Except DecodeError (Row (fields α) × List Json) :=
  Row.ofItems Shape.ofJson (.ok ()) (fun index => .tooShort index (name α) (fields α).length) (fields α) 0 items

theorem ofJson_arr (items : List Json) :
    (ofJson (.arr items) : Except DecodeError α) =
      positional items >>= fun (row, rest) =>
        if rest.isEmpty then .ok (ofRow row) else .error (.tooLong items.length) := rfl

theorem ofSource_arr_toSource {items : List Json} {depth : Nat} (h : (Json.arr items).depth ≤ depth) :
    (ofSource depth (Json.arr items).toSource : Except Fault α) =
      lift (positional (α := α) items) >>= fun (row, rest) => close rest.isEmpty (ofRow row) := by
  rw [Json.toSource, ofSource]
  refine enter_of_lt h fun depth hd => ?_
  rw [Row.ofItems_toSource _ _ _ items hd]
  unfold positional
  rcases Row.ofItems Shape.ofJson _ _ (fields α) 0 items with cause | ⟨row, rest⟩
  · rfl
  · cases rest <;> rfl

theorem overlong_of_rest {items : List Json} {row : Row (fields α)} {j : Json} {rest : List Json}
    (h : positional (α := α) items = .ok (row, j :: rest)) : Overlong α (.arr items) := by
  have longer : (fields α).length < items.length := by
    refine Nat.lt_of_not_le fun short => ?_
    have none_left := Row.rest_of_ofItems h
    rw [List.drop_eq_nil_of_le short] at none_left
    cases none_left
  refine ⟨items, rfl, longer, ?_⟩
  unfold positional at h
  rw [Row.ofItems_take (by omega)] at h
  obtain ⟨⟨row', rest'⟩, first, -⟩ := map_eq_ok.1 h
  have whole := Row.rest_of_ofItems first
  rw [List.drop_eq_nil_of_le (by rw [List.length_take]; omega)] at whole
  subst whole
  refine ⟨ofRow row', ?_⟩
  rw [ofJson_arr, positional, first]
  rfl

theorem exists_rest_of_overlong {items : List Json} (h : Overlong α (.arr items)) :
    ∃ row j rest, positional (α := α) items = .ok (row, j :: rest) := by
  obtain ⟨_, ⟨rfl⟩, longer, a, ha⟩ := h
  rw [ofJson_arr] at ha
  obtain ⟨⟨row, rest⟩, first, -⟩ := bind_eq_ok.1 ha
  unfold positional at first ⊢
  rw [Row.ofItems_take (by omega), first, Except.map]
  rcases hd : items.drop (fields α).length with _ | ⟨j, more⟩
  · rw [List.drop_eq_nil_iff] at hd
    omega
  · exact ⟨row, j, more, rfl⟩

theorem pathsAgree : PathsAgree α := by
  intro j integral shallow
  have read : ∀ {result : Except Fault α}, ofSource nestingLimit j.toSource = result →
      ofText j.compact = result := Document.decode_compact_lift integral
  cases j with
  | arr items =>
    have text := read (ofSource_arr_toSource shallow)
    rw [text, ofJson_arr]
    constructor
    · intro fits
      rcases hp : positional (α := α) items with cause | ⟨row, _ | ⟨j, rest⟩⟩
      · rfl
      · rfl
      · exact absurd (overlong_of_rest hp) fits
    · intro long
      obtain ⟨row, j, rest, hp⟩ := exists_rest_of_overlong long
      rw [hp]
      exact ⟨rfl, items, rfl, rfl⟩
  | obj members =>
    refine ⟨fun _ => read (ofSource_obj_toSource shallow), ?_⟩
    rintro ⟨items, h, -⟩
    cases h
  | _ =>
    refine ⟨fun _ => read rfl, ?_⟩
    rintro ⟨items, h, -⟩
    cases h

end Record

/-- The two ways of decoding agree, for every type that travels on the wire: what a JSON value without
floats decodes to is what its compact text decodes to, unless the text nests too deep. -/
theorem decoding_paths_agree :
    (∀ j : Json, j.Integral → j.depth ≤ 127 →
      AttributeValue.ofText j.compact = lift (AttributeValue.ofJson j) ∧
      ListEnd.ofJsonText j.compact = lift (ListEnd.ofJson j)) ∧
    Record.PathsAgree SetRequest ∧ Record.PathsAgree IncrementRequest ∧ Record.PathsAgree RemoveRequest ∧
    Record.PathsAgree AddRequest ∧ Record.PathsAgree DeleteRequest ∧ Record.PathsAgree UpdateParams ∧
    Record.PathsAgree Config := by
  refine ⟨fun j integral shallow => ⟨?_, ?_⟩, Record.pathsAgree, Record.pathsAgree, Record.pathsAgree,
    Record.pathsAgree, Record.pathsAgree, Record.pathsAgree, Record.pathsAgree⟩
  · exact Document.decode_compact_lift integral (AttributeValue.ofSource_toSource j shallow)
  · exact Document.decode_compact_lift integral (ListEnd.ofSource_toSource j)

/-- The second of two faulty elements is never looked at, a member of no field is skipped, and an array
that goes on behind the last field is refused on both ways for reasons of their own. -/
theorem decoding_paths_agree_faulty :
    let elements : Json := .obj [("L", .arr [.obj [("N", .num (.int 5))], .obj [("Q", .null)]])]
    let members : Json := .obj [("Name", .str "old"), ("note", .arr [.obj [], .num (.int (-1))])]
    let items : Json := .arr [.str "old", .obj [("p", .str "profile")], .null]
    (elements.Integral ∧ elements.depth ≤ 127 ∧
      AttributeValue.ofText elements.compact = .error (.decode (.invalidType (.num (.int 5)) .string))) ∧
    (¬ Record.Overlong RemoveRequest members ∧
      Record.ofText members.compact = .ok ({ path := "old" } : RemoveRequest)) ∧
    Record.Overlong RemoveRequest items ∧
      (Record.ofText items.compact : Except Fault RemoveRequest) = .error .malformed := by
  intro elements members items
  obtain ⟨values, -, -, removals, -⟩ := decoding_paths_agree
  have fits : ¬ Record.Overlong RemoveRequest members := by
    rintro ⟨items, h, -⟩
    exact Json.noConfusion h
  have long : Record.Overlong RemoveRequest items :=
    ⟨_, rfl, by decide, { path := "old", names := .ofPairs [("p", "profile")] }, rfl⟩
  have small : elements.depth ≤ 127 ∧ members.depth ≤ 127 ∧ items.depth ≤ 127 := by decide
  have whole : elements.Integral := ⟨⟨⟨rfl, trivial⟩, ⟨trivial, trivial⟩, trivial⟩, trivial⟩
  refine ⟨⟨whole, small.1, (values elements whole small.1).1⟩, ⟨fits, ?_⟩, long, ?_⟩
  · exact (removals members ⟨trivial, ⟨trivial, rfl, trivial⟩, trivial⟩ small.2.1).1 fits
  · exact ((removals items ⟨trivial, ⟨trivial, trivial⟩, trivial, trivial⟩ small.2.2).2 long).1

end UpdateExpr
