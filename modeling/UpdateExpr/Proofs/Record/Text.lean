/-
Records and texts. A record is written with its members in the order of the fields, those left out
that reading puts back, tables in key order and the members of every map in any order. Every such text
is read as the record, except that a text which nests more arrays and objects than texts may is
malformed. The law holds of every record whose fields tell an absent value from a written one.
-/
import UpdateExpr.Proofs.AttributeValue.Text
import UpdateExpr.Record.Decode
import UpdateExpr.Record.Encode
import UpdateExpr.Record.Forms

namespace UpdateExpr

open Source (within)

namespace Record

/-! ## Spellings -/

namespace Shape

/-- No value is written as null except an absent one. -/
def isDefinite : Shape → Bool
  | .optional (.optional _) => false
  | _ => true

/-- Every attribute value inside is well-formed. -/
def WellFormed : (shape : Shape) → shape.Carrier → Prop
  | .value, (v : AttributeValue) => v.WellFormed
  | .values, (t : Table AttributeValue) => AttributeValue.WellFormedMembers t.entries
  | .optional shape, (x : Option shape.Carrier) => ∀ y ∈ x, shape.WellFormed y
  | .text, _ | .flag, _ | .listEnd, _ | .names, _ => True

/-- What a value may be written as: tables in key order, the members of every map in any order. -/
def Spells : (shape : Shape) → shape.Carrier → Json → Prop
  | .value, (v : AttributeValue), j => ∃ w : AttributeValue, w.Arranges v ∧ j = w.toJson
  | .values, (t : Table AttributeValue), j =>
    ∃ members, AttributeValue.ArrangesMembers members t.entries ∧ j = .obj (AttributeValue.membersToJson members)
  | .optional shape, (x : Option shape.Carrier), j =>
    match x with
    | none => j = .null
    | some y => shape.Spells y j
  | .text, x, j => j = toJson .text x
  | .flag, x, j => j = toJson .flag x
  | .listEnd, x, j => j = toJson .listEnd x
  | .names, x, j => j = toJson .names x

theorem spells_toJson : ∀ (shape : Shape) (x : shape.Carrier), shape.Spells x (shape.toJson x)
  | .text, _ | .flag, _ | .listEnd, _ | .names, _ => rfl
  | .value, (v : AttributeValue) => ⟨v, AttributeValue.arranges_self v, rfl⟩
  | .values, (t : Table AttributeValue) => ⟨t.entries, AttributeValue.arrangesMembers_self t.entries, rfl⟩
  | .optional _, none => rfl
  | .optional shape, some y => spells_toJson shape y

theorem integral_of_spells : ∀ (shape : Shape) {x : shape.Carrier} {j : Json}, shape.Spells x j → j.Integral
  | .text, _, _, rfl | .flag, _, _, rfl | .listEnd, _, _, rfl => trivial
  | .names, (t : Table String), _, rfl => Json.integralMembers_texts t.entries
  | .value, _, _, ⟨w, _, rfl⟩ => AttributeValue.integral_toJson w
  | .values, _, _, ⟨members, _, rfl⟩ => AttributeValue.integral_membersToJson members
  | .optional _, none, _, rfl => trivial
  | .optional shape, some _, _, h => integral_of_spells shape h

/-- A value that cannot be absent is not written as null. -/
theorem ne_null_of_spells {shape : Shape} (h : (Shape.optional shape).isDefinite = true) {x : shape.Carrier}
    {j : Json} (hs : shape.Spells x j) : j ≠ .null := by
  cases shape with
  | optional shape => cases h
  | value =>
    obtain ⟨w, -, rfl⟩ := hs
    rw [AttributeValue.toJson_eq_tagged]
    exact Json.noConfusion
  | values =>
    obtain ⟨members, -, rfl⟩ := hs
    exact Json.noConfusion
  | text | flag | listEnd | names =>
    cases hs
    exact Json.noConfusion

theorem ofSource_values_toJson (depth : Nat) (members : List (String × AttributeValue)) :
    ofSource depth .values (Json.obj (AttributeValue.membersToJson members)).toSource =
      within (Json.obj (AttributeValue.membersToJson members)).depth depth
        (Table.ofPairs (AttributeValue.membersInOrder members)) := by
  rw [Json.depth, ← Source.enter_within]
  refine congrArg (Source.enter depth) (funext fun depth => ?_)
  rw [AttributeValue.ofSourceMembers_toJson]
  exact Source.map_within Table.ofPairs _ depth _

theorem ofSource_optional (depth : Nat) (shape : Shape) {j : Json} (h : j ≠ .null) :
    ofSource depth (.optional shape) j.toSource = (ofSource depth shape j.toSource).map some := by
  cases j with
  | null => exact absurd rfl h
  | _ => rfl

/-- Whatever a value is written as is read as the value. -/
theorem ofSource_of_spells (depth : Nat) : ∀ (shape : Shape), shape.isDefinite = true →
    ∀ {x : shape.Carrier} {j : Json}, shape.WellFormed x → shape.Spells x j →
      ofSource depth shape j.toSource = within j.depth depth x
  | .text, _, _, _, _, rfl | .flag, _, _, _, _, rfl => rfl
  | .listEnd, _, e, _, _, rfl => congrArg Except.ok (ListEnd.ofText_text e)
  | .names, _, (t : Table String), _, _, rfl => by
    refine (Json.asTextTable_texts depth t.entries).trans ?_
    rw [Table.ofPairs_entries]
    rfl
  | .value, _, v, _, wf, ⟨w, h, rfl⟩ => by
    refine (AttributeValue.ofSource_toJson depth w).trans ?_
    rw [AttributeValue.inOrder_of_arranges wf h]
    rfl
  | .values, _, (t : Table AttributeValue), _, wf, ⟨members, h, rfl⟩ => by
    refine (ofSource_values_toJson depth members).trans ?_
    rw [AttributeValue.membersInOrder_of_arranges wf h, Table.ofPairs_entries]
    rfl
  | .optional shape, hd, none, _, _, rfl => rfl
  | .optional shape, hd, some y, j, wf, h => by
    have definite : shape.isDefinite = true := by
      cases shape <;> first | rfl | cases hd
    rw [ofSource_optional depth shape (ne_null_of_spells hd h), ofSource_of_spells depth shape definite (wf y rfl) h,
      Source.map_within]
    rfl

end Shape

/-- Every attribute value in a row is well-formed. -/
def Row.WellFormed : {fields : List Field} → Row fields → Prop
  | [], () => True
  | f :: _, (x, row) => f.shape.WellFormed x ∧ row.WellFormed

/-- What a row may be written as: a member for each field that is not left out, in their order. -/
def Row.Spells : {fields : List Field} → Row fields → List (String × Json) → Prop
  | [], (), members => members = []
  | f :: _, (x, row), members =>
    if f.omits x then row.Spells members
    else ∃ j rest, members = (f.name, j) :: rest ∧ f.shape.Spells x j ∧ row.Spells rest

namespace Row

variable {f : Field} {fields : List Field}

/-- The value of the first field. -/
def first (row : Row (f :: fields)) : f.shape.Carrier := row.1

/-- The values of the other fields. -/
def others (row : Row (f :: fields)) : Row fields := row.2

theorem spells_of_omits {row : Row (f :: fields)} {members : List (String × Json)} (h : f.omits row.first = true) :
    row.Spells members ↔ row.others.Spells members := by
  show (if f.omits row.first = true then row.others.Spells members else _) ↔ _
  rw [if_pos h]

theorem spells_of_not_omits {row : Row (f :: fields)} {members : List (String × Json)}
    (h : ¬ f.omits row.first = true) : row.Spells members ↔
      ∃ j rest, members = (f.name, j) :: rest ∧ f.shape.Spells row.first j ∧ row.others.Spells rest := by
  show (if f.omits row.first = true then row.others.Spells members else _) ↔ _
  rw [if_neg h]
  rfl

theorem spells_members : ∀ {fields : List Field} (row : Row fields), row.Spells row.members
  | [], _ => rfl
  | f :: _, row => by
    have rest := spells_members row.others
    by_cases omitted : f.omits row.first = true
    · refine (spells_of_omits omitted).2 ?_
      show row.others.Spells (if f.omits row.first = true then row.others.members else _)
      rw [if_pos omitted]
      exact rest
    · refine (spells_of_not_omits omitted).2
        ⟨f.shape.toJson row.first, row.others.members, ?_, f.shape.spells_toJson _, rest⟩
      show (if f.omits row.first = true then row.others.members else _) = _
      rw [if_neg omitted]
      rfl

theorem integral_of_spells : ∀ {fields : List Field} {row : Row fields} {members : List (String × Json)},
    row.Spells members → Json.IntegralMembers members
  | [], _, _, rfl => trivial
  | f :: _, row, members, h => by
    by_cases omitted : f.omits row.first = true
    · exact integral_of_spells ((spells_of_omits omitted).1 h)
    · obtain ⟨j, rest, rfl, hj, hr⟩ := (spells_of_not_omits omitted).1 h
      exact ⟨f.shape.integral_of_spells hj, integral_of_spells hr⟩

/-- Every member that is written is one of a field. -/
theorem mem_names_of_spells : ∀ {fields : List Field} {row : Row fields} {members : List (String × Json)},
    row.Spells members → ∀ p ∈ members, p.1 ∈ fields.map (·.name)
  | [], _, _, rfl, p, hp => (nomatch hp)
  | f :: fields, row, members, h, p, hp => by
    by_cases omitted : f.omits row.first = true
    · exact List.mem_cons_of_mem _ (mem_names_of_spells ((spells_of_omits omitted).1 h) p hp)
    · obtain ⟨j, rest, rfl, -, hr⟩ := (spells_of_not_omits omitted).1 h
      rcases List.mem_cons.1 hp with rfl | hp
      · exact List.mem_cons_self ..
      · exact List.mem_cons_of_mem _ (mem_names_of_spells hr p hp)

end Row

/-! ## Reading -/

namespace Slots

variable {f : Field} {fields : List Field}

/-- Slots with one more in front. -/
def cons (slot : Option f.shape.Carrier) (slots : Slots fields) : Slots (f :: fields) := (slot, slots)

/-- The slots with the values of a row that are written. -/
def written : {fields : List Field} → Row fields → Slots fields
  | [], _ => ()
  | f :: _, row => cons (if f.omits row.first then none else some row.first) (written row.others)

theorem complete_cons {slot : Option f.shape.Carrier} {slots : Slots fields} {row : Row (f :: fields)}
    (hf : slot.or f.default? = some row.first) (h : slots.complete = .ok row.others) :
    (cons slot slots).complete = .ok row := by
  rw [cons, complete, hf, h]
  rfl

/-- What was left out comes back as the default. -/
theorem complete_written : ∀ {fields : List Field} (row : Row fields), (written row).complete = .ok row
  | [], _ => rfl
  | f :: _, row => by
    refine complete_cons ?_ (complete_written row.others)
    split
    · rename_i omitted
      exact f.default_of_omits row.first omitted
    · rfl

theorem put_of_ne {ε : Type} {taken : ε} {read : (shape : Shape) → Except ε shape.Carrier} {key : String}
    (h : f.name ≠ key) (slot : Option f.shape.Carrier) (slots : Slots fields) :
    (cons slot slots).put taken read key = (slots.put taken read key).map (cons slot) := by
  show (if f.name = key then _ else do
    let slots ← slots.put taken read key
    .ok (cons slot slots)) = _
  rw [if_neg h]
  cases slots.put taken read key <;> rfl

theorem put_self {ε : Type} {taken : ε} {read : (shape : Shape) → Except ε shape.Carrier} (slots : Slots fields) :
    (cons (none : Option f.shape.Carrier) slots).put taken read f.name =
      (read f.shape).map fun x => cons (some x) slots := by
  rw [cons, put, if_pos rfl]
  cases read f.shape <;> rfl

theorem readSourceMembers_cons (depth : Nat) {key : String} (h : key ∈ fields.map (·.name)) (v : Source)
    (slots : Slots fields) (rest : List (Option String × Source)) :
    slots.readSourceMembers depth true ((some key, v) :: rest) =
      (slots.put (.decode (.duplicateField key)) (fun shape => shape.ofSource depth v) key) >>= fun slots =>
        slots.readSourceMembers depth true rest := by
  obtain ⟨f, hf, rfl⟩ := List.mem_map.1 h
  have known : (fields.any fun f' => f'.name = f.name) = true :=
    List.any_eq_true.2 ⟨f, hf, decide_eq_true rfl⟩
  rw [readSourceMembers]
  show (if _ then _ else _) = _
  rw [if_pos known]

/-- Members of other fields are read past the slot of the first one. -/
theorem readSourceMembers_of_ne (depth : Nat) (slot : Option f.shape.Carrier) (hf : f.name ∉ fields.map (·.name)) :
    ∀ {members : List (String × Json)} (slots : Slots fields), (∀ p ∈ members, p.1 ∈ fields.map (·.name)) →
      (cons slot slots).readSourceMembers depth true (Json.membersToSource members) =
        (slots.readSourceMembers depth true (Json.membersToSource members)).map (cons slot)
  | [], slots, _ => rfl
  | (key, j) :: rest, slots, h => by
    obtain ⟨hk, hr⟩ := List.forall_mem_cons.1 h
    have other : f.name ≠ key := by
      rintro rfl
      exact hf hk
    rw [Json.membersToSource, readSourceMembers_cons depth (List.mem_cons_of_mem _ hk),
      readSourceMembers_cons depth hk, put_of_ne other]
    cases slots.put (.decode (.duplicateField key)) (fun shape => shape.ofSource depth j.toSource) key with
    | error fault => rfl
    | ok slots => exact readSourceMembers_of_ne depth slot hf slots hr

/-- Whatever a row is written as is read into the slots of the fields that are written. -/
theorem readSourceMembers_of_spells (depth : Nat) : ∀ {fields : List Field} {row : Row fields}
    {members : List (String × Json)}, (fields.map (·.name)).Nodup → (∀ f ∈ fields, f.shape.isDefinite = true) →
    row.WellFormed → row.Spells members →
    (empty fields).readSourceMembers depth true (Json.membersToSource members) =
      within (Json.membersDepth members) depth (written row)
  | [], _, _, _, _, _, rfl => rfl
  | f :: fields, row, members, distinct, definite, wf, h => by
    obtain ⟨hf, distinct⟩ := List.nodup_cons.1 distinct
    obtain ⟨hd, definite⟩ := List.forall_mem_cons.1 definite
    have ih : ∀ {members : List (String × Json)}, row.others.Spells members →
        (empty fields).readSourceMembers depth true (Json.membersToSource members) =
          within (Json.membersDepth members) depth (written row.others) :=
      readSourceMembers_of_spells depth distinct definite wf.2
    show (cons none (empty fields)).readSourceMembers depth true (Json.membersToSource members) =
      within (Json.membersDepth members) depth
        (cons (if f.omits row.first then none else some row.first) (written row.others))
    by_cases omitted : f.omits row.first = true
    · have others := (Row.spells_of_omits omitted).1 h
      rw [if_pos omitted, readSourceMembers_of_ne depth none hf _ (Row.mem_names_of_spells others), ih others,
        Source.map_within]
    · obtain ⟨j, rest, rfl, hj, others⟩ := (Row.spells_of_not_omits omitted).1 h
      rw [if_neg omitted, Json.membersToSource, readSourceMembers_cons depth (List.mem_cons_self ..), put_self,
        f.shape.ofSource_of_spells depth hd wf.1 hj, Source.map_within]
      refine Source.within_bind _ _ ?_
      rw [readSourceMembers_of_ne depth _ hf _ (Row.mem_names_of_spells others), ih others, Source.map_within]
      rfl

end Slots

variable {α : Type} [Record α]

theorem ofSource_of_spells (definite : ∀ f ∈ fields α, f.shape.isDefinite = true) (depth : Nat) {a : α}
    {members : List (String × Json)} (wf : (toRow a).WellFormed) (h : (toRow a).Spells members) :
    ofSource depth (Json.obj members).toSource = within (Json.obj members).depth depth a := by
  rw [Json.toSource, ofSource, Json.depth, ← Source.enter_within]
  refine congrArg (Source.enter depth) (funext fun depth => ?_)
  rw [Slots.readSourceMembers_of_spells depth distinct definite wf h]
  refine Source.within_bind_ok _ ?_
  rw [Slots.complete_written, Fault.lift, ok_bind, ofRow_toRow]

/-! ## Round trip -/

variable (α) in
/-- Every text of a record is read as the record, unless it nests more than 127 arrays and objects:
then it is malformed. What `wire` writes is one of these texts. -/
def ReadsBack : Prop :=
  ∀ a : α, (toRow a).WellFormed →
    (toRow a).Spells (members a) ∧
    ∀ ms, (toRow a).Spells ms →
      ofText (Json.obj ms).compact = if (Json.obj ms).depth ≤ 127 then .ok a else .error .malformed

theorem readsBack (definite : ∀ f ∈ fields α, f.shape.isDefinite = true) : ReadsBack α := by
  intro a wf
  refine ⟨Row.spells_members _, fun ms h => ?_⟩
  have integral : (Json.obj ms).Integral := Row.integral_of_spells h
  exact Document.decode_compact integral (ofSource_of_spells definite nestingLimit wf h)

end Record

/-- Texts give back what was written in them: every attribute value, whatever the order of the members
of its maps, and every record, if the text nests no more than 127 arrays and objects. If it nests more
it is malformed. -/
theorem texts_readBack :
    (∀ v : AttributeValue, v.WellFormed → v.Arranges v ∧ ∀ w : AttributeValue, w.Arranges v →
      AttributeValue.ofText w.toJson.compact = if w.toJson.depth ≤ 127 then .ok v else .error .malformed) ∧
    Record.ReadsBack SetRequest ∧ Record.ReadsBack IncrementRequest ∧ Record.ReadsBack RemoveRequest ∧
    Record.ReadsBack AddRequest ∧ Record.ReadsBack DeleteRequest ∧ Record.ReadsBack UpdateParams ∧
    Record.ReadsBack Config := by
  refine ⟨fun v wf => ⟨AttributeValue.arranges_self v, fun w h => ?_⟩, ?_⟩
  · exact AttributeValue.ofText_of_arranges wf h
  · exact ⟨Record.readsBack (by decide), Record.readsBack (by decide), Record.readsBack (by decide),
      Record.readsBack (by decide), Record.readsBack (by decide), Record.readsBack (by decide),
      Record.readsBack (by decide)⟩

/-- Members out of key order, characters that are escaped, fields left out, and texts on either side of
the limit: 63 lists around a scalar nest 127 arrays and objects, around an empty list one more. -/
theorem texts_readBack_swapped :
    let v : AttributeValue := .map [("\"", .string "\n\x01é"), ("b", .null true)]
    let w : AttributeValue := .map [("b", .null true), ("\"", .string "\n\x01é")]
    let request : SetRequest := { path := some "\\", value := some .emptyList }
    let deep := AttributeValue.nested 63 (.null true)
    let deeper := AttributeValue.nested 63 .emptyList
    w.toJson.compact =
      "\x7b\"M\":\x7b\"b\":\x7b\"NULL\":true\x7d,\"\\\"\":\x7b\"S\":\"\\n\\u0001é\"\x7d\x7d\x7d" ∧
    AttributeValue.ofText w.toJson.compact = .ok v ∧
    Record.wire request = "\x7b\"Name\":\"\\\\\",\"IfNotExists\":false,\"Value\":\x7b\"L\":[]\x7d\x7d" ∧
    Record.ofText (Record.wire request) = .ok request ∧
    AttributeValue.ofText deep.toJson.compact = .ok deep ∧
    AttributeValue.ofText deeper.toJson.compact = .error .malformed := by
  intro v w request deep deeper
  obtain ⟨values, sets, -⟩ := texts_readBack
  have read : ∀ u : AttributeValue, u.WellFormed → AttributeValue.ofText u.toJson.compact =
      if u.toJson.depth ≤ 127 then .ok u else .error .malformed := fun u wf =>
    (values u wf).2 u (AttributeValue.arranges_self u)
  refine ⟨rfl, ?_, rfl, ?_, ?_, ?_⟩
  · have sorted : Entries.Sorted [("\"", AttributeValue.string "\n\x01é"), ("b", .null true)] := by
      unfold Entries.Sorted
      decide
    have wf : v.WellFormed := ⟨sorted, trivial, trivial, trivial⟩
    have arranged : w.Arranges v :=
      ⟨_, _, rfl, List.Perm.swap .., AttributeValue.arrangesMembers_self _⟩
    have swapped := (values v wf).2 w arranged
    rw [if_pos (by decide)] at swapped
    exact swapped
  · have wf : (Record.toRow request).WellFormed := by
      refine ⟨fun _ _ => trivial, fun _ _ => trivial, trivial, trivial, ?_, fun _ _ => trivial, trivial⟩
      rintro u hu
      cases hu
      exact trivial
    obtain ⟨self, reads⟩ := sets request wf
    have whole := reads (Record.members request) self
    rw [if_pos (by decide)] at whole
    exact whole
  · have depth : deep.toJson.depth = 127 := AttributeValue.depth_nested 63 (.null true)
    have whole := read deep (AttributeValue.wellFormed_nested 63 trivial)
    rw [depth, if_pos (Nat.le_refl _)] at whole
    exact whole
  · have depth : deeper.toJson.depth = 128 := AttributeValue.depth_nested 63 .emptyList
    have whole := read deeper (AttributeValue.wellFormed_nested 63 trivial)
    rw [depth, if_neg (by decide)] at whole
    exact whole

end UpdateExpr
