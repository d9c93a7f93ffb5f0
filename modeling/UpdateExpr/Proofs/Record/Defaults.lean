/-
Members that make no difference. An object is read as a record member by member, and a member of no
field is skipped; one whose value is read as the default of its field fills the slot with what is put
there in the end anyway. Filling a slot in this way and reading another member can be swapped, with the
same slots or the same error as the result. So such members can be left out anywhere, whatever the
others are and whichever of them is at fault. A null is the default of the optional fields, which are
absent then; no other field takes it.
-/
import Mathlib.Data.List.Nodup
import UpdateExpr.Proofs.Record.RoundTrip

namespace UpdateExpr

namespace Record

/-! ## Fields and their defaults -/

/-- A member without a say: if a field has its name, then its value is read as the default of the field. -/
def Idle (fields : List Field) (p : String × Json) : Prop :=
  ∀ f ∈ fields, f.name = p.1 → ∃ x, f.default? = some x ∧ f.shape.ofJson p.2 = .ok x

/-- What the default of a field is written as is read as the default. -/
def Field.ReadsDefault (f : Field) : Prop :=
  ∀ x, f.default? = some x → f.shape.ofJson (f.shape.toJson x) = .ok x

/-- The defaults of fields, written as members. -/
def defaultMembers (fields : List Field) : List (String × Json) :=
  fields.filterMap fun f => f.default?.map fun x => (f.name, f.shape.toJson x)

/-- Whether an absent value is written as null. -/
def Shape.isOptional : Shape → Bool
  | .optional _ => true
  | _ => false

/-- The names of the fields that are not optional. -/
def definiteNames (fields : List Field) : List String :=
  (fields.filter fun f => !f.shape.isOptional).map (·.name)

namespace Field

theorem readsDefault_required (name : String) (shape : Shape) : (required name shape).ReadsDefault :=
  nofun

theorem readsDefault_optional (name : String) (shape : Shape) : (optional name shape).ReadsDefault := by
  rintro _ ⟨⟩
  rfl

theorem readsDefault_aliases (name : String) : (aliases name).ReadsDefault := by
  rintro _ ⟨⟩
  rfl

theorem readsDefault_defaulted {name : String} {shape : Shape} {value : shape.Carrier}
    (h : shape.ofJson (shape.toJson value) = .ok value) : (defaulted name shape value).ReadsDefault := by
  rintro _ ⟨⟩
  exact h

end Field

theorem Shape.ofJson_null_ne_ok {shape : Shape} (h : shape.isOptional = false) (x : shape.Carrier) :
    shape.ofJson .null ≠ .ok x := by
  cases shape with
  | optional shape => cases h
  | text | flag | value | listEnd | names | values => exact nofun

theorem eq_of_name_eq {fields : List Field} (distinct : (fields.map (·.name)).Nodup) {f g : Field} (hf : f ∈ fields)
    (hg : g ∈ fields) (h : f.name = g.name) : f = g :=
  List.inj_on_of_nodup_map distinct hf hg h

theorem idle_of_not_mem {fields : List Field} {p : String × Json} (h : p.1 ∉ fields.map (·.name)) :
    Idle fields p := by
  intro f hf same
  exact absurd (List.mem_map.2 ⟨f, hf, same⟩) h

theorem idle_of_mem_defaultMembers {fields : List Field} (distinct : (fields.map (·.name)).Nodup)
    (defaults : ∀ f ∈ fields, f.ReadsDefault) {p : String × Json} (h : p ∈ defaultMembers fields) :
    Idle fields p := by
  obtain ⟨g, hg, written⟩ := List.mem_filterMap.1 h
  obtain ⟨x, hx, rfl⟩ := Option.map_eq_some_iff.1 written
  intro f hf same
  obtain rfl := eq_of_name_eq distinct hf hg same
  exact ⟨x, hx, defaults f hf x hx⟩

/-! ## Filling a slot with its default -/

namespace Slots

/-- The slots with the default in the slot `key`, unless it is taken. -/
def fill (key : String) : {fields : List Field} → Slots fields → Slots fields
  | [], () => ()
  | f :: _, (slot, rest) => if f.name = key then cons (slot.or f.default?) rest else cons slot (rest.fill key)

/-- Nothing is in the slot `key`. -/
def Free (key : String) : {fields : List Field} → Slots fields → Prop
  | [], () => True
  | f :: _, (slot, rest) => (f.name = key → slot = none) ∧ rest.Free key

variable {f : Field} {fields : List Field}

theorem fill_self (slot : Option f.shape.Carrier) (slots : Slots fields) :
    (cons slot slots).fill f.name = cons (slot.or f.default?) slots := by
  show (if f.name = f.name then cons (slot.or f.default?) slots else _) = _
  rw [if_pos rfl]

theorem fill_of_ne {key : String} (h : f.name ≠ key) (slot : Option f.shape.Carrier) (slots : Slots fields) :
    (cons slot slots).fill key = cons slot (slots.fill key) := by
  show (if f.name = key then _ else cons slot (slots.fill key)) = _
  rw [if_neg h]

theorem free_empty (key : String) : ∀ fields : List Field, (empty fields).Free key
  | [] => trivial
  | _ :: fields => ⟨fun _ => rfl, free_empty key fields⟩

/-- A default that is put there early is the one that is put there in the end. -/
theorem complete_fill (key : String) : ∀ {fields : List Field} (slots : Slots fields),
    (slots.fill key).complete = slots.complete
  | [], _ => rfl
  | f :: fields, (slot, rest) => by
    show ((cons slot rest).fill key).complete = (cons slot rest).complete
    by_cases h : f.name = key
    · subst h
      rw [fill_self, cons, cons, complete, complete, Option.or_assoc, Option.or_self]
    · rw [fill_of_ne h, cons, cons, complete, complete, complete_fill key rest]

section Reading

variable {ε : Type} {taken : ε} {read : (shape : Shape) → Except ε shape.Carrier}

/-- Another member is read in the same way before and after. -/
theorem put_fill {key key' : String} (h : key ≠ key') : ∀ {fields : List Field} (slots : Slots fields),
    (slots.fill key).put taken read key' = (slots.put taken read key').map (fill key)
  | [], _ => rfl
  | f :: fields, (slot, rest) => by
    show ((cons slot rest).fill key).put taken read key' = ((cons slot rest).put taken read key').map (fill key)
    by_cases first : f.name = key
    · subst first
      rw [fill_self, put_of_ne h, put_of_ne h]
      cases rest.put taken read key' with
      | error e => rfl
      | ok slots => exact congrArg Except.ok (fill_self slot slots).symm
    · rw [fill_of_ne first]
      by_cases second : f.name = key'
      · subst second
        cases slot with
        | some x => rw [put_taken, put_taken, Except.map]
        | none =>
          rw [put_self, put_self]
          cases read f.shape with
          | error e => rfl
          | ok x => exact congrArg Except.ok (fill_of_ne first (some x) rest).symm
      · rw [put_of_ne second, put_of_ne second, put_fill h rest]
        cases rest.put taken read key' with
        | error e => rfl
        | ok slots => exact congrArg Except.ok (fill_of_ne first slot slots).symm

theorem Free.put {key key' : String} (h : key ≠ key') : ∀ {fields : List Field} {slots result : Slots fields},
    slots.Free key → slots.put taken read key' = .ok result → result.Free key
  | [], _, _, _, _ => trivial
  | f :: fields, (slot, rest), result, free, hr => by
    change (cons slot rest).put taken read key' = .ok result at hr
    by_cases first : f.name = key'
    · subst first
      obtain ⟨-, x, -, rfl⟩ := put_self_eq_ok.1 hr
      exact ⟨fun same => absurd same.symm h, free.2⟩
    · obtain ⟨others, ho, rfl⟩ := (put_of_ne_eq_ok first).1 hr
      exact ⟨free.1, free.2.put h ho⟩

/-- A field takes a member of its name only if it can read the value. -/
theorem exists_read_of_put {key : String} : ∀ {fields : List Field} {slots result : Slots fields},
    (fields.map (·.name)).Nodup → slots.put taken read key = .ok result →
      ∀ f ∈ fields, f.name = key → ∃ x, read f.shape = .ok x
  | [], _, _, _, _, _, hf, _ => nomatch hf
  | f :: fields, (slot, rest), result, distinct, hr, g, hg, same => by
    change (cons slot rest).put taken read key = .ok result at hr
    by_cases first : f.name = key
    · subst first
      obtain rfl := eq_of_name_eq distinct hg (List.mem_cons_self ..) same
      obtain ⟨-, x, hx, -⟩ := put_self_eq_ok.1 hr
      exact ⟨x, hx⟩
    · obtain ⟨others, ho, -⟩ := (put_of_ne_eq_ok first).1 hr
      rcases List.mem_cons.1 hg with rfl | hg
      · exact absurd same first
      · exact exists_read_of_put (List.nodup_cons.1 distinct).2 ho g hg same

end Reading

/-- A member without a say fills its slot with the default. -/
theorem put_of_idle {taken : DecodeError} {p : String × Json} : ∀ {fields : List Field} {slots : Slots fields},
    slots.Free p.1 → Idle fields p → slots.put taken (fun shape => shape.ofJson p.2) p.1 = .ok (slots.fill p.1)
  | [], _, _, _ => rfl
  | f :: fields, (slot, rest), free, idle => by
    obtain ⟨here, others⟩ := List.forall_mem_cons.1 idle
    show (cons slot rest).put taken _ p.1 = .ok ((cons slot rest).fill p.1)
    by_cases first : f.name = p.1
    · obtain rfl : slot = none := free.1 first
      obtain ⟨x, hx, read⟩ := here first
      rw [← first, put_self, read, fill_self, Option.none_or, hx]
      rfl
    · rw [put_of_ne first, put_of_idle free.2 others, fill_of_ne first]
      rfl

/-! ## Reading members -/

theorem readMembers_cons (slots : Slots fields) (p : String × Json) (rest : List (String × Json)) :
    slots.readMembers (p :: rest) =
      slots.put (.duplicateField p.1) (fun shape => shape.ofJson p.2) p.1 >>= fun slots => slots.readMembers rest :=
  rfl

/-- A change of the slots that comes to the same before and after each member comes to the same before
and after all of them. -/
theorem readMembers_map {fields' : List Field} {g : Slots fields → Slots fields'} :
    ∀ {members : List (String × Json)} (slots : Slots fields),
      (∀ p ∈ members, ∀ slots : Slots fields,
        (g slots).put (.duplicateField p.1) (fun shape => shape.ofJson p.2) p.1 =
          (slots.put (.duplicateField p.1) (fun shape => shape.ofJson p.2) p.1).map g) →
      (g slots).readMembers members = (slots.readMembers members).map g
  | [], _, _ => rfl
  | p :: rest, slots, same => by
    obtain ⟨here, same⟩ := List.forall_mem_cons.1 same
    rw [readMembers_cons, readMembers_cons, here]
    cases slots.put (.duplicateField p.1) (fun shape => shape.ofJson p.2) p.1 with
    | error cause => rfl
    | ok slots => exact readMembers_map slots same

theorem readMembers_fill {key : String} {members : List (String × Json)} (slots : Slots fields)
    (h : key ∉ members.map (·.1)) :
    (slots.fill key).readMembers members = (slots.readMembers members).map (fill key) :=
  readMembers_map slots fun _ hp => put_fill fun same => h (List.mem_map.2 ⟨_, hp, same.symm⟩)

/-- Members without a say can be left out. -/
theorem readMembers_filter {keep : String × Json → Bool} :
    ∀ {members : List (String × Json)} {slots : Slots fields}, (members.map (·.1)).Nodup →
      (∀ p ∈ members, slots.Free p.1) → (∀ p ∈ members, keep p = false → Idle fields p) →
      (slots.readMembers (members.filter keep) >>= complete) = (slots.readMembers members >>= complete)
  | [], _, _, _, _ => rfl
  | p :: rest, slots, distinct, free, idle => by
    obtain ⟨fresh, distinct⟩ := List.nodup_cons.1 distinct
    obtain ⟨hp, free⟩ := List.forall_mem_cons.1 free
    obtain ⟨here, idle⟩ := List.forall_mem_cons.1 idle
    cases kept : keep p with
    | true =>
      rw [List.filter_cons_of_pos kept, readMembers_cons, readMembers_cons]
      cases hr : slots.put (.duplicateField p.1) (fun shape => shape.ofJson p.2) p.1 with
      | error cause => rfl
      | ok result =>
        refine readMembers_filter distinct (fun q hq => (free q hq).put ?_ hr) idle
        intro same
        exact fresh (List.mem_map.2 ⟨q, hq, same⟩)
    | false =>
      rw [List.filter_cons_of_neg (by rw [kept]; exact Bool.false_ne_true), readMembers_filter distinct free idle,
        readMembers_cons, put_of_idle hp (here kept), ok_bind, readMembers_fill slots fresh]
      cases slots.readMembers rest with
      | error cause => rfl
      | ok result => exact (complete_fill p.1 result).symm

theorem exists_read_of_readMembers (distinct : (fields.map (·.name)).Nodup) {p : String × Json} :
    ∀ {members : List (String × Json)} {slots result : Slots fields}, slots.readMembers members = .ok result →
      p ∈ members → ∀ f ∈ fields, f.name = p.1 → ∃ x, f.shape.ofJson p.2 = .ok x
  | [], _, _, _, hp => nomatch hp
  | q :: rest, slots, result, hr, hp => by
    obtain ⟨first, hf, hr⟩ := readMembers_cons_eq_ok.1 hr
    rcases List.mem_cons.1 hp with rfl | hp
    · exact exists_read_of_put distinct hf
    · exact exists_read_of_readMembers distinct hr hp

end Slots

/-! ## Records -/

/-- The row that members give. -/
def Row.ofMembers (fields : List Field) (members : List (String × Json)) : Except DecodeError (Row fields) :=
  (Slots.empty fields).readMembers members >>= Slots.complete

variable {α : Type} [Record α]

theorem ofJson_obj (members : List (String × Json)) :
    (ofJson (.obj members) : Except DecodeError α) = (Row.ofMembers (fields α) members).map ofRow := by
  unfold Row.ofMembers
  rw [ofJson]
  cases (Slots.empty (fields α)).readMembers members with
  | error cause => rfl
  | ok slots =>
    rw [ok_bind, ok_bind]
    cases slots.complete <;> rfl

variable (α) in
/-- Members that stand for defaults, like members of no field, can be left out of an object, as many of
them as one likes and wherever they stand: the outcome of reading, a record or an error, stays the same.
The names in an object are all different. A null under one of the definite names is an error. -/
structure IgnoresDefaults (defaults : List (String × Json)) (definite : List String) : Prop where
  ofJson_filter : ∀ (members : List (String × Json)) (keep : String × Json → Bool), (members.map (·.1)).Nodup →
    (∀ p ∈ members, keep p = false → p.1 ∉ (fields α).map (·.name) ∨ p ∈ defaults) →
    (ofJson (.obj (members.filter keep)) : Except DecodeError α) = ofJson (.obj members)
  ofJson_null : ∀ (members : List (String × Json)), ∀ key ∈ definite, (key, .null) ∈ members →
    ∃ cause, (ofJson (.obj members) : Except DecodeError α) = .error cause

theorem ignoresDefaults (defaults : ∀ f ∈ fields α, f.ReadsDefault) :
    IgnoresDefaults α (defaultMembers (fields α)) (definiteNames (fields α)) where
  ofJson_filter members keep nodup dropped := by
    rw [ofJson_obj, ofJson_obj]
    refine congrArg (Except.map ofRow) (Slots.readMembers_filter nodup (fun p _ => Slots.free_empty p.1 _) ?_)
    intro p hp hk
    rcases dropped p hp hk with unknown | default
    · exact idle_of_not_mem unknown
    · exact idle_of_mem_defaultMembers distinct defaults default
  ofJson_null members key hkey hnull := by
    obtain ⟨f, hf, rfl⟩ := List.mem_map.1 hkey
    obtain ⟨hf, solid⟩ := List.mem_filter.1 hf
    cases h : (ofJson (.obj members) : Except DecodeError α) with
    | error cause => exact ⟨cause, rfl⟩
    | ok a =>
      -- the field would have read the null
      rw [ofJson_obj] at h
      obtain ⟨row, hrow, -⟩ := map_eq_ok.1 h
      obtain ⟨slots, read, -⟩ := bind_eq_ok.1 hrow
      obtain ⟨x, hx⟩ := Slots.exists_read_of_readMembers distinct read hnull f hf rfl
      exact absurd hx (Shape.ofJson_null_ne_ok (by simpa using solid) x)

end Record

open Record

/-- Reading a record from an object, for every record there is: a member of no field, a null for an
optional field, and the default of a field written out make no difference to the record or to the error;
and a null for any other field is an error. -/
theorem records_ignoreDefaults :
    IgnoresDefaults SetRequest
      [("Name", .null), ("SetExpression", .null), ("IfNotExists", .bool false), ("AttributeNames", .obj []),
        ("Value", .null), ("ListAppend", .null)]
      ["IfNotExists", "AttributeNames"] ∧
    IgnoresDefaults IncrementRequest
      [("AttributeNames", .obj []), ("BaseValueIfNotExist", .obj [("N", .str "0")]),
        ("IncrementAmount", .obj [("N", .str "1")])]
      ["Name", "AttributeNames", "BaseValueIfNotExist", "IncrementAmount"] ∧
    IgnoresDefaults RemoveRequest [("AttributeNames", .obj [])] ["Name", "AttributeNames"] ∧
    IgnoresDefaults AddRequest [("AttributeNames", .obj [])] ["Name", "AttributeNames", "Value"] ∧
    IgnoresDefaults DeleteRequest [("AttributeNames", .obj [])] ["Name", "AttributeNames", "Value"] ∧
    IgnoresDefaults UpdateParams
      [("UpdateExpression", .null), ("ExpressionAttributeNames", .null), ("ExpressionAttributeValues", .null)] [] ∧
    IgnoresDefaults Config [("validateNames", .bool false)] ["validateNames"] := by
  have required := Field.readsDefault_required
  have optional := Field.readsDefault_optional
  have aliases := Field.readsDefault_aliases
  have flag (name : String) : (Field.defaulted name .flag false).ReadsDefault := Field.readsDefault_defaulted rfl
  have value (name numeral : String) : (Field.defaulted name .value (.number numeral)).ReadsDefault :=
    Field.readsDefault_defaulted rfl
  refine ⟨ignoresDefaults ?_, ignoresDefaults ?_, ignoresDefaults ?_, ignoresDefaults ?_, ignoresDefaults ?_,
    ignoresDefaults ?_, ignoresDefaults ?_⟩
  all_goals
    simp only [fields, List.forall_mem_cons, List.not_mem_nil, false_imp_iff, implies_true, and_true, required,
      optional, aliases, flag, value]

/-- Four members without a say around a path that is none: the fault stays the one in the path, although
the value behind it is at fault as well. An amount that is null is no amount, and no default either. -/
theorem records_ignoreDefaults_faulty :
    let members : List (String × Json) :=
      [("AttributeNames", .obj []), ("IfNotExists", .bool false), ("ListAppend", .null), ("Name", .num (.int 5)),
        ("Value", .obj [("Q", .null)]), ("note", .arr [.null])]
    let keep : String × Json → Bool := fun p => ["Name", "Value"].contains p.1
    let increment : List (String × Json) := [("IncrementAmount", .null), ("Name", .str "hits")]
    (members.map (·.1)).Nodup ∧ members.filter keep = [("Name", .num (.int 5)), ("Value", .obj [("Q", .null)])] ∧
    (ofJson (.obj (members.filter keep)) : Except DecodeError SetRequest) = ofJson (.obj members) ∧
    (ofJson (.obj members) : Except DecodeError SetRequest) = .error (.invalidType (.num (.int 5)) .string) ∧
    ("IncrementAmount", .null) ∈ increment ∧
    ∃ cause, (ofJson (.obj increment) : Except DecodeError IncrementRequest) = .error cause := by
  intro members keep increment
  have distinct : (members.map (·.1)).Nodup := by decide
  have nulled : ("IncrementAmount", Json.null) ∈ increment := List.mem_cons_self ..
  obtain ⟨sets, increments, -⟩ := records_ignoreDefaults
  refine ⟨distinct, rfl, sets.ofJson_filter members keep distinct ?_, rfl, nulled,
    increments.ofJson_null increment _ (by decide) nulled⟩
  intro p hp dropped
  simp only [members, List.mem_cons, List.not_mem_nil, or_false] at hp
  rcases hp with rfl | rfl | rfl | rfl | rfl | rfl
  · exact .inr (by simp)
  · exact .inr (by simp)
  · exact .inr (by simp)
  · cases dropped
  · cases dropped
  · exact .inl (by decide)

end UpdateExpr
