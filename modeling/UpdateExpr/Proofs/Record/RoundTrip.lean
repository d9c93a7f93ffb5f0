/-
Records and JSON values. A record is written as an object with a member for every field that is not
left out, and what is left out is what reading puts back, so the object is read as the record. Its
members stand in key order and not in that of the fields; but members that can be read one after the
other can be read in any other order, with the same record as the result. So it is enough to read them
in the order of the fields, and there a value is read as its text is.
-/
import UpdateExpr.Proofs.Record.Agreement

namespace UpdateExpr

theorem Json.canonicalMembers_iff {members : List (String × Json)} :
    CanonicalMembers members ↔ ∀ p ∈ members, p.2.Canonical := by
  induction members with
  | nil => exact ⟨fun _ _ hp => (nomatch hp), fun _ => trivial⟩
  | cons p rest ih =>
    rw [List.forall_mem_cons, ← ih]
    exact Iff.rfl

theorem Fault.lift_eq_ok_iff {α : Type} {x : Except DecodeError α} {a : α} : lift x = .ok a ↔ x = .ok a := by
  cases x <;> simp [lift]

namespace Record

/-! ## Members in any order -/

namespace Slots

variable {f : Field} {fields : List Field} {ε : Type} {taken : ε}
  {read : (shape : Shape) → Except ε shape.Carrier}

/-- The slot of a member must be free, and takes the value. -/
theorem put_self_eq_ok {slot : Option f.shape.Carrier} {slots : Slots fields} {result : Slots (f :: fields)} :
    (cons slot slots).put taken read f.name = .ok result ↔
      slot = none ∧ ∃ x, read f.shape = .ok x ∧ cons (some x) slots = result := by
  cases slot with
  | some x => simp [put_taken]
  | none => simp [put_self, map_eq_ok]

/-- The slot of another field stays as it is. -/
theorem put_of_ne_eq_ok {key : String} (h : f.name ≠ key) {slot : Option f.shape.Carrier} {slots : Slots fields}
    {result : Slots (f :: fields)} :
    (cons slot slots).put taken read key = .ok result ↔
      ∃ rest, slots.put taken read key = .ok rest ∧ cons slot rest = result := by
  rw [put_of_ne h, map_eq_ok]

/-- Two members that can be read one after the other can be read the other way round. -/
theorem put_comm {taken' : ε} {read' : (shape : Shape) → Except ε shape.Carrier} {key key' : String} :
    ∀ {fields : List Field} {slots first both : Slots fields}, slots.put taken read key = .ok first →
      first.put taken' read' key' = .ok both →
      ∃ other, slots.put taken' read' key' = .ok other ∧ other.put taken read key = .ok both
  | [], _, _, _, _, _ => ⟨(), rfl, rfl⟩
  | f :: fields, (slot, rest), first, both, h, h' => by
    change (cons slot rest).put taken read key = .ok first at h
    show ∃ other, (cons slot rest).put taken' read' key' = .ok other ∧ _
    by_cases hk : f.name = key <;> by_cases hk' : f.name = key'
    · -- the slot is taken when the second one comes
      subst hk hk'
      obtain ⟨-, x, -, rfl⟩ := put_self_eq_ok.1 h
      obtain ⟨taken, -⟩ := put_self_eq_ok.1 h'
      cases taken
    · subst hk
      obtain ⟨rfl, x, hx, rfl⟩ := put_self_eq_ok.1 h
      obtain ⟨more, hm, rfl⟩ := (put_of_ne_eq_ok hk').1 h'
      exact ⟨cons none more, (put_of_ne_eq_ok hk').2 ⟨more, hm, rfl⟩, put_self_eq_ok.2 ⟨rfl, x, hx, rfl⟩⟩
    · subst hk'
      obtain ⟨more, hm, rfl⟩ := (put_of_ne_eq_ok hk).1 h
      obtain ⟨rfl, x, hx, rfl⟩ := put_self_eq_ok.1 h'
      exact ⟨cons (some x) rest, put_self_eq_ok.2 ⟨rfl, x, hx, rfl⟩, (put_of_ne_eq_ok hk).2 ⟨more, hm, rfl⟩⟩
    · obtain ⟨more, hm, rfl⟩ := (put_of_ne_eq_ok hk).1 h
      obtain ⟨all, ha, rfl⟩ := (put_of_ne_eq_ok hk').1 h'
      obtain ⟨other, ho, hb⟩ := put_comm hm ha
      exact ⟨cons slot other, (put_of_ne_eq_ok hk').2 ⟨other, ho, rfl⟩, (put_of_ne_eq_ok hk).2 ⟨all, hb, rfl⟩⟩

theorem readMembers_cons_eq_ok {key : String} {j : Json} {rest : List (String × Json)} {slots result : Slots fields} :
    slots.readMembers ((key, j) :: rest) = .ok result ↔
      ∃ first, slots.put (.duplicateField key) (fun shape => shape.ofJson j) key = .ok first ∧
        first.readMembers rest = .ok result := by
  rw [readMembers, bind_eq_ok]

/-- Members that can be read can be read in any order, and the order leaves no trace. -/
theorem readMembers_of_perm {members members' : List (String × Json)} (h : members.Perm members') :
    ∀ {slots result : Slots fields}, slots.readMembers members = .ok result →
      slots.readMembers members' = .ok result := by
  induction h with
  | nil => exact id
  | cons p _ ih =>
    intro slots result hr
    obtain ⟨first, hf, hr⟩ := readMembers_cons_eq_ok.1 hr
    exact readMembers_cons_eq_ok.2 ⟨first, hf, ih hr⟩
  | swap p q rest =>
    intro slots result hr
    obtain ⟨first, hf, hr⟩ := readMembers_cons_eq_ok.1 hr
    obtain ⟨both, hb, hr⟩ := readMembers_cons_eq_ok.1 hr
    obtain ⟨other, ho, hb⟩ := put_comm hf hb
    exact readMembers_cons_eq_ok.2 ⟨other, ho, readMembers_cons_eq_ok.2 ⟨both, hb, hr⟩⟩
  | trans _ _ ih ih' => exact fun hr => ih' (ih hr)

end Slots

/-! ## Written members -/

namespace Shape

/-- What a value is written as is canonical. -/
theorem canonical_toJson : ∀ (shape : Shape) {x : shape.Carrier}, shape.WellFormed x → (shape.toJson x).Canonical
  | .text, _, _ | .flag, _, _ | .listEnd, _, _ => trivial
  | .value, _, wf => AttributeValue.canonical_toJson wf
  | .names, (t : Table String), _ => by
    refine ⟨Entries.sorted_iff_keys.2 ?_, Json.canonicalMembers_iff.2 ?_⟩
    · rw [List.map_map]
      exact Entries.sorted_iff_keys.1 t.sorted
    · intro p hp
      obtain ⟨q, -, rfl⟩ := List.mem_map.1 hp
      trivial
  | .values, (t : Table AttributeValue), wf =>
    ⟨AttributeValue.sorted_membersToJson.2 t.sorted, AttributeValue.canonical_membersToJson wf⟩
  | .optional _, none, _ => trivial
  | .optional shape, some y, wf => canonical_toJson shape (wf y rfl)

end Shape

namespace Row

variable {f : Field} {fields : List Field}

theorem members_of_omits {row : Row (f :: fields)} (h : f.omits row.first = true) :
    row.members = row.others.members := by
  show (if f.omits row.first = true then row.others.members else _) = _
  rw [if_pos h]

theorem members_of_not_omits {row : Row (f :: fields)} (h : ¬ f.omits row.first = true) :
    row.members = (f.name, f.shape.toJson row.first) :: row.others.members := by
  show (if f.omits row.first = true then row.others.members else _) = _
  rw [if_neg h]
  rfl

theorem keys_members_sublist : ∀ {fields : List Field} (row : Row fields),
    (row.members.map (·.1)).Sublist (fields.map (·.name))
  | [], _ => List.Sublist.refl _
  | f :: _, row => by
    have rest := keys_members_sublist row.others
    by_cases omitted : f.omits row.first = true
    · rw [members_of_omits omitted]
      exact rest.cons _
    · rw [members_of_not_omits omitted]
      exact rest.cons_cons _

theorem canonical_of_mem_members : ∀ {fields : List Field} {row : Row fields}, row.WellFormed →
    ∀ p ∈ row.members, p.2.Canonical
  | [], _, _, _, hp => nomatch hp
  | f :: _, row, wf, p, hp => by
    by_cases omitted : f.omits row.first = true
    · rw [members_of_omits omitted] at hp
      exact canonical_of_mem_members wf.2 p hp
    · rw [members_of_not_omits omitted] at hp
      rcases List.mem_cons.1 hp with rfl | hp
      · exact f.shape.canonical_toJson wf.1
      · exact canonical_of_mem_members wf.2 p hp

/-- A row has a value for a field. -/
inductive Holds : {fields : List Field} → Row fields → (f : Field) → f.shape.Carrier → Prop where
  | first {f : Field} {fields : List Field} (row : Row (f :: fields)) : Holds row f row.first
  | others {f g : Field} {fields : List Field} {row : Row (f :: fields)} {x : g.shape.Carrier} :
    Holds row.others g x → Holds row g x

theorem Holds.mem {fields : List Field} {row : Row fields} {x : f.shape.Carrier} (h : row.Holds f x) : f ∈ fields := by
  induction h with
  | first => exact List.mem_cons_self ..
  | others _ ih => exact List.mem_cons_of_mem _ ih

/-- Under the name of a field stands its value, unless it is left out. -/
theorem lookup_members {fields : List Field} {row : Row fields} {x : f.shape.Carrier}
    (distinct : (fields.map (·.name)).Nodup) (h : row.Holds f x) :
    row.members.lookup f.name = if f.omits x then none else some (f.shape.toJson x) := by
  induction h with
  | @first f fields row =>
    obtain ⟨hf, -⟩ := List.nodup_cons.1 distinct
    by_cases omitted : f.omits row.first = true
    · have absent : f.name ∉ row.others.members.map (·.1) := fun h => hf (row.others.keys_members_sublist.subset h)
      rw [members_of_omits omitted, if_pos omitted]
      refine List.lookup_eq_none_iff.2 fun p hp => bne_iff_ne.2 ?_
      rintro e
      exact absent (List.mem_map.2 ⟨p, hp, e.symm⟩)
    · rw [members_of_not_omits omitted, if_neg omitted, Entries.lookup_cons, if_pos rfl]
  | @others f g fields row x h ih =>
    obtain ⟨hf, others⟩ := List.nodup_cons.1 distinct
    have other : g.name ≠ f.name := by
      rintro e
      exact hf (List.mem_map.2 ⟨g, h.mem, e⟩)
    by_cases omitted : f.omits row.first = true
    · rw [members_of_omits omitted, ih others]
    · rw [members_of_not_omits omitted, Entries.lookup_cons, if_neg other, ih others]

end Row

/-! ## Records -/

variable {α : Type} [Record α]

theorem nodup_keys_members (a : α) : ((members a).map (·.1)).Nodup :=
  (toRow a).keys_members_sublist.nodup distinct

/-- An object that is read as a record is read as this record whatever the order of its members. -/
theorem ofJson_of_perm {members members' : List (String × Json)} (h : members.Perm members') {a : α}
    (hr : ofJson (.obj members) = .ok a) : ofJson (.obj members') = .ok a := by
  rw [ofJson] at hr ⊢
  obtain ⟨slots, hs, hr⟩ := bind_eq_ok.1 hr
  exact bind_eq_ok.2 ⟨slots, Slots.readMembers_of_perm h hs, hr⟩

/-- Members in the order of the fields are read as the tree of their text is. -/
theorem ofJson_of_spells (definite : ∀ f ∈ fields α, f.shape.isDefinite = true) {a : α}
    {members : List (String × Json)} (wf : (toRow a).WellFormed) (h : (toRow a).Spells members) :
    ofJson (.obj members) = .ok a := by
  have read := ofSource_of_spells definite (Json.obj members).depth wf h
  rw [ofSource_obj_toSource (Nat.le_refl _), Source.within, if_pos (Nat.le_refl _)] at read
  exact Fault.lift_eq_ok_iff.1 read

theorem members_perm (a : α) : (members a).Perm (Entries.ofPairs (members a)) :=
  (Entries.ofPairs_perm (nodup_keys_members a)).symm

theorem canonical_toJson {a : α} (wf : (toRow a).WellFormed) : (toJson a).Canonical := by
  refine ⟨Entries.sorted_ofPairs _, Json.canonicalMembers_iff.2 fun p hp => ?_⟩
  exact Row.canonical_of_mem_members wf p ((members_perm a).symm.subset hp)

/-- Under the name of a field stands its value, unless it is left out. -/
theorem get?_toJson {a : α} {f : Field} {x : f.shape.Carrier} (h : (toRow a).Holds f x) :
    (toJson a).get? f.name = if f.omits x then none else some (f.shape.toJson x) := by
  have found : (toJson a).get? f.name = (members a).lookup f.name :=
    Entries.lookup_ofPairs (nodup_keys_members a) f.name
  rw [found]
  exact Row.lookup_members distinct h

theorem get?_optional {a : α} {key : String} {shape : Shape} {x : Option shape.Carrier}
    (h : (toRow a).Holds (.optional key shape) x) : (toJson a).get? key = x.map shape.toJson := by
  refine (get?_toJson h).trans ?_
  cases x <;> rfl

theorem get?_aliases {a : α} {key : String} {t : Table String} (h : (toRow a).Holds (.aliases key) t) :
    (toJson a).get? key = t.nonEmpty?.map (Shape.toJson .names) := by
  refine (get?_toJson h).trans ?_
  show (if t.isEmpty = true then none else _) = (if t.isEmpty = true then none else some t).map (Shape.toJson .names)
  split <;> rfl

variable (α) in
/-- The JSON value of every record is canonical and is read as the record; under the name of every field
it has the value of this field, unless the field is left out. -/
def RoundTrips : Prop :=
  ∀ a : α, (toRow a).WellFormed → (toJson a).Canonical ∧ ofJson (toJson a) = .ok a ∧
    ∀ f x, (toRow a).Holds f x → (toJson a).get? f.name = if f.omits x then none else some (f.shape.toJson x)

theorem roundTrips (definite : ∀ f ∈ fields α, f.shape.isDefinite = true) : RoundTrips α := by
  intro a wf
  have inOrder : ofJson (.obj (members a)) = .ok a := ofJson_of_spells definite wf (Row.spells_members _)
  exact ⟨canonical_toJson wf, ofJson_of_perm (members_perm a) inOrder, fun f x => get?_toJson⟩

end Record

open Record

/-- Every record is read back from the JSON value that it is written as, whatever texts, tables and
attribute values it holds. A table of aliases that is empty is left out and comes back empty; a table
of parameters is left out exactly if there is none, so an empty one stays there; and the value `NULL` is
written like any other, so it is not taken for an absent one. -/
theorem values_readBack :
    (RoundTrips SetRequest ∧ RoundTrips IncrementRequest ∧ RoundTrips RemoveRequest ∧ RoundTrips AddRequest ∧
      RoundTrips DeleteRequest ∧ RoundTrips UpdateParams ∧ RoundTrips Config) ∧
    (∀ r : SetRequest, (toJson r).get? "Value" = r.value.map (·.toJson) ∧
      (toJson r).get? "AttributeNames" =
        r.names.nonEmpty?.map fun t => .obj (t.entries.map fun q => (q.1, .str q.2))) ∧
    ∀ p : UpdateParams,
      (toJson p).get? "ExpressionAttributeNames" =
        (p.names.map fun t => .obj (t.entries.map fun q => (q.1, .str q.2))) ∧
      (toJson p).get? "ExpressionAttributeValues" =
        p.values.map fun t => .obj (AttributeValue.membersToJson t.entries) := by
  refine ⟨⟨roundTrips (by decide), roundTrips (by decide), roundTrips (by decide), roundTrips (by decide),
    roundTrips (by decide), roundTrips (by decide), roundTrips (by decide)⟩, fun r => ⟨?_, ?_⟩, fun p => ⟨?_, ?_⟩⟩
  · have value : (toRow r).Holds (.optional "Value" .value) r.value :=
      .others (.others (.others (.others (.first _))))
    exact get?_optional value
  · have names : (toRow r).Holds (.aliases "AttributeNames") r.names := .others (.others (.others (.first _)))
    exact get?_aliases names
  · have names : (toRow p).Holds (.optional "ExpressionAttributeNames" .names) p.names := .others (.first _)
    exact get?_optional names
  · have values : (toRow p).Holds (.optional "ExpressionAttributeValues" .values) p.values :=
      .others (.others (.first _))
    exact get?_optional values

/-- An absent value beside the value `NULL`, an empty table of parameters beside an absent one, and a
counter whose amount is a map. -/
theorem values_readBack_null :
    let absent : SetRequest := { path := some "a" }
    let null : SetRequest := { path := some "a", value := some (.null true) }
    let params : UpdateParams := { names := some .empty }
    let increment : IncrementRequest :=
      { path := "#n", names := .ofPairs [("n", "hits")], amount := .map [("x", .binary [255])] }
    (toJson absent).get? "Value" = none ∧ ofJson (toJson absent) = .ok absent ∧
    (toJson null).get? "Value" = some (.obj [("NULL", .bool true)]) ∧ ofJson (toJson null) = .ok null ∧
    (toJson params).get? "ExpressionAttributeNames" = some (.obj []) ∧
    (toJson params).get? "ExpressionAttributeValues" = none ∧ ofJson (toJson params) = .ok params ∧
    (toRow increment).WellFormed ∧ ofJson (toJson increment) = .ok increment := by
  intro absent null params increment
  obtain ⟨⟨sets, increments, -, -, -, finished, -⟩, bags, tables⟩ := values_readBack
  have missing : (toRow absent).WellFormed := by
    refine ⟨fun _ _ => trivial, fun _ _ => trivial, trivial, trivial, ?_, fun _ _ => trivial, trivial⟩
    rintro _ ⟨⟩
  have present : (toRow null).WellFormed := by
    refine ⟨fun _ _ => trivial, fun _ _ => trivial, trivial, trivial, ?_, fun _ _ => trivial, trivial⟩
    rintro _ ⟨⟩
    exact trivial
  have empty : (toRow params).WellFormed := by
    refine ⟨fun _ _ => trivial, fun _ _ => trivial, ?_, trivial⟩
    rintro _ ⟨⟩
  have amount : (toRow increment).WellFormed :=
    ⟨trivial, trivial, trivial, ⟨List.pairwise_singleton .., trivial, trivial⟩, trivial⟩
  exact ⟨(bags absent).1, (sets absent missing).2.1, (bags null).1, (sets null present).2.1, (tables params).1,
    (tables params).2, (finished params empty).2.1, amount, (increments increment amount).2.1⟩

end UpdateExpr
