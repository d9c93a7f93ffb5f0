/-
The error of a JSON value that is no attribute value. A key is looked at before what stands under it,
and that before a second member; of elements and members the first that fails decides, in the order of
the array or object, which for the members of a canonical object is that of their keys. So the error is
that of one place: everything before the place is read, and what comes after it has no say, however deep
the place lies.
-/
import UpdateExpr.Proofs.AttributeValue.RoundTrip

namespace UpdateExpr

/-! ## Plain contents -/

namespace Json

/-- Whether a value is what is wanted, seen from outside. -/
def Meets : Json → Wanted → Prop
  | .str _, .string => True
  | .bool _, .boolean => True
  | .arr _, .sequence => True
  | .obj _, .map => True
  | _, _ => False

/-- The first item that is no string, and its error. -/
def FirstNonText (items : List Json) (e : DecodeError) : Prop :=
  ∃ (texts : List String) (j : Json) (after : List Json), items = texts.map .str ++ j :: after ∧
    ¬ j.Meets .string ∧ e = .invalidType j.found .string

theorem exists_of_meets_string {j : Json} (h : j.Meets .string) : ∃ s, j = .str s := by
  cases j with
  | str s => exact ⟨s, rfl⟩
  | _ => exact h.elim

theorem exists_of_meets_boolean {j : Json} (h : j.Meets .boolean) : ∃ b, j = .bool b := by
  cases j with
  | bool b => exact ⟨b, rfl⟩
  | _ => exact h.elim

theorem exists_of_meets_sequence {j : Json} (h : j.Meets .sequence) : ∃ items, j = .arr items := by
  cases j with
  | arr items => exact ⟨items, rfl⟩
  | _ => exact h.elim

theorem exists_of_meets_map {j : Json} (h : j.Meets .map) : ∃ members, j = .obj members := by
  cases j with
  | obj members => exact ⟨members, rfl⟩
  | _ => exact h.elim

theorem mismatch_eq_error_iff {α : Type} {j : Json} {wanted : Wanted} {e : DecodeError} :
    (j.mismatch wanted : Except DecodeError α) = .error e ↔ e = .invalidType j.found wanted := by
  unfold mismatch
  rw [Except.error.injEq]
  exact eq_comm

theorem asText_eq_error_iff {j : Json} {e : DecodeError} :
    j.asText = .error e ↔ ¬ j.Meets .string ∧ e = .invalidType j.found .string := by
  cases j with
  | str s =>
    constructor
    · intro h
      cases h
    · rintro ⟨h, -⟩
      exact absurd trivial h
  | _ => exact mismatch_eq_error_iff.trans (and_iff_right id).symm

/-- Items that are all read as strings are strings. -/
theorem exists_texts_iff {items : List Json} :
    (∀ j ∈ items, ∃ s, j.asText = .ok s) ↔ ∃ texts : List String, items = texts.map .str := by
  constructor
  · intro h
    induction items with
    | nil => exact ⟨[], rfl⟩
    | cons j rest ih =>
      obtain ⟨⟨s, hs⟩, hr⟩ := List.forall_mem_cons.1 h
      obtain ⟨texts, rfl⟩ := ih hr
      exact ⟨s :: texts, by rw [asText_eq_ok_iff.1 hs, List.map_cons]⟩
  · rintro ⟨texts, rfl⟩ j hj
    obtain ⟨s, -, rfl⟩ := List.mem_map.1 hj
    exact ⟨s, rfl⟩

theorem textsOfItems_eq_error_iff {items : List Json} {e : DecodeError} :
    textsOfItems items = .error e ↔ FirstNonText items e := by
  have first : textsOfItems items = .error e ↔ FirstRefusal asText items e :=
    eq_error_iff_firstRefusal asText textsOfItems ⟨_, rfl⟩ fun _ _ => ⟨(· :: ·), rfl⟩
  rw [first]
  constructor
  · rintro ⟨before, j, after, rfl, hb, hj⟩
    obtain ⟨texts, rfl⟩ := exists_texts_iff.1 hb
    exact ⟨texts, j, after, rfl, asText_eq_error_iff.1 hj⟩
  · rintro ⟨texts, j, after, rfl, hj⟩
    exact ⟨_, j, after, rfl, exists_texts_iff.2 ⟨texts, rfl⟩, asText_eq_error_iff.2 hj⟩

end Json

namespace Tag

/-- What stands under a tag. -/
def wanted : Tag → Wanted
  | .s | .n | .b => .string
  | .ss | .ns | .bs | .l => .sequence
  | .bool | .null => .boolean
  | .m => .map

/-- Whether a value of this type is a set. -/
def IsSet (tag : Tag) : Prop :=
  tag = .ss ∨ tag = .ns ∨ tag = .bs

end Tag

namespace AttributeValue

/-! ## Lists of readings -/

theorem binaryOf_eq_error_iff {text : String} {e : DecodeError} :
    binaryOf text = .error e ↔ ∃ cause, Base64.decode text = .error cause ∧ e = .binary cause := by
  unfold binaryOf
  cases Base64.decode text with
  | ok data =>
    constructor
    · intro h
      cases h
    · rintro ⟨cause, h, -⟩
      cases h
  | error cause =>
    constructor
    · intro h
      cases h
      exact ⟨cause, rfl, rfl⟩
    · rintro ⟨cause', h, rfl⟩
      cases h
      rfl

theorem binariesOf_eq_error_iff {texts : List String} {e : DecodeError} :
    binariesOf texts = .error e ↔ ∃ cause, FirstRefusal Base64.decode texts cause ∧ e = .binary cause := by
  have first : binariesOf texts = .error e ↔ FirstRefusal binaryOf texts e :=
    eq_error_iff_firstRefusal binaryOf binariesOf ⟨_, rfl⟩ fun _ _ => ⟨(· :: ·), rfl⟩
  have accepted : ∀ text, (∃ data, binaryOf text = .ok data) ↔ ∃ data, Base64.decode text = .ok data := fun text =>
    exists_congr fun data => binaryOf_eq_ok_iff.trans Base64.decode_eq_ok_iff.symm
  rw [first]
  constructor
  · rintro ⟨before, text, after, rfl, hb, ht⟩
    obtain ⟨cause, hc, rfl⟩ := binaryOf_eq_error_iff.1 ht
    exact ⟨cause, ⟨before, text, after, rfl, fun t h => (accepted t).1 (hb t h), hc⟩, rfl⟩
  · rintro ⟨cause, ⟨before, text, after, rfl, hb, hc⟩, rfl⟩
    exact ⟨before, text, after, rfl, fun t h => (accepted t).2 (hb t h), binaryOf_eq_error_iff.2 ⟨cause, hc, rfl⟩⟩

/-- A list fails with its first element that fails. -/
theorem ofItems_eq_error_iff {items : List Json} {e : DecodeError} :
    ofItems items = .error e ↔ FirstRefusal ofJson items e :=
  eq_error_iff_firstRefusal ofJson ofItems ⟨[], by rw [ofItems]⟩ fun j rest => ⟨(· :: ·), by rw [ofItems]⟩

/-- A map fails with its first member that fails. -/
theorem ofMembers_eq_error_iff {members : List (String × Json)} {e : DecodeError} :
    ofMembers members = .error e ↔ FirstRefusal (fun p => ofJson p.2) members e :=
  eq_error_iff_firstRefusal _ ofMembers ⟨[], by rw [ofMembers]⟩ fun (key, j) rest =>
    ⟨fun value values => (key, value) :: values, by rw [ofMembers]⟩

/-! ## Contents -/

/-- What is wrong with the contents under a tag, other than in an element or member. -/
inductive ContentsFault : Tag → Json → DecodeError → Prop
  /-- The contents are not of the kind that the tag wants. -/
  | kind {tag : Tag} {j : Json} (h : ¬ j.Meets tag.wanted) : ContentsFault tag j (.invalidType j.found tag.wanted)
  /-- An element of a set is no string. -/
  | element {tag : Tag} {items : List Json} {e : DecodeError} (ht : tag.IsSet) (h : Json.FirstNonText items e) :
    ContentsFault tag (.arr items) e
  /-- The text of a binary is not base64. -/
  | binary {text : String} {cause : Base64.Error} (h : Base64.decode text = .error cause) :
    ContentsFault .b (.str text) (.binary cause)
  /-- All elements of a binary set are strings, and one of them is not base64. -/
  | binaries {texts : List String} {cause : Base64.Error} (h : FirstRefusal Base64.decode texts cause) :
    ContentsFault .bs (textsToJson texts) (.binary cause)

theorem ofContents_of_not_meets {tag : Tag} {j : Json} (h : ¬ j.Meets tag.wanted) :
    ofContents tag j = .error (.invalidType j.found tag.wanted) := by
  cases tag with
  | s | n | b =>
    cases j with
    | str text => exact absurd trivial h
    | _ => rfl
  | ss | ns | bs | l =>
    cases j with
    | arr items => exact absurd trivial h
    | _ => rfl
  | bool | null =>
    cases j with
    | bool flag => exact absurd trivial h
    | _ => rfl
  | m =>
    cases j with
    | obj members => exact absurd trivial h
    | _ => rfl

theorem ofContents_texts_eq_error_iff {tag : Tag} (ht : tag = .ss ∨ tag = .ns) {items : List Json} {e : DecodeError} :
    ofContents tag (.arr items) = .error e ↔ Json.FirstNonText items e := by
  rcases ht with rfl | rfl
  · rw [ofContents, map_eq_error]
    exact Json.textsOfItems_eq_error_iff
  · rw [ofContents, map_eq_error]
    exact Json.textsOfItems_eq_error_iff

/-- All elements are read as strings before the first of them is read as base64. -/
theorem ofContents_binaries_eq_error_iff {items : List Json} {e : DecodeError} :
    ofContents .bs (.arr items) = .error e ↔ Json.FirstNonText items e ∨
      ∃ texts cause, items = texts.map .str ∧ FirstRefusal Base64.decode texts cause ∧ e = .binary cause := by
  rw [ofContents, map_eq_error]
  refine bind_eq_error.trans (or_congr Json.textsOfItems_eq_error_iff ?_)
  constructor
  · rintro ⟨texts, ht, hb⟩
    obtain ⟨cause, hc, rfl⟩ := binariesOf_eq_error_iff.1 hb
    exact ⟨texts, cause, Json.textsOfItems_eq_ok_iff.1 ht, hc, rfl⟩
  · rintro ⟨texts, cause, rfl, hc, rfl⟩
    exact ⟨texts, Json.textsOfItems_eq_ok_iff.2 rfl, binariesOf_eq_error_iff.2 ⟨cause, hc, rfl⟩⟩

theorem ofContents_list_eq_error_iff {items : List Json} {e : DecodeError} :
    ofContents .l (.arr items) = .error e ↔ FirstRefusal ofJson items e := by
  rw [ofContents, map_eq_error, ofItems_eq_error_iff]

theorem ofContents_map_eq_error_iff {members : List (String × Json)} {e : DecodeError} :
    ofContents .m (.obj members) = .error e ↔ FirstRefusal (fun p => ofJson p.2) members e := by
  rw [ofContents, map_eq_error, ofMembers_eq_error_iff]

/-- Contents of the kind that a tag wants fail only with what is in them. -/
theorem contentsFault_of_meets {tag : Tag} {j : Json} {e : DecodeError} (meets : j.Meets tag.wanted)
    (h : ofContents tag j = .error e) : ContentsFault tag j e ∨
      (∃ items, tag = .l ∧ j = .arr items ∧ FirstRefusal ofJson items e) ∨
      ∃ members, tag = .m ∧ j = .obj members ∧ FirstRefusal (fun p => ofJson p.2) members e := by
  cases tag with
  | s | n =>
    obtain ⟨text, rfl⟩ := Json.exists_of_meets_string meets
    cases h
  | bool | null =>
    obtain ⟨flag, rfl⟩ := Json.exists_of_meets_boolean meets
    cases h
  | b =>
    obtain ⟨text, rfl⟩ := Json.exists_of_meets_string meets
    obtain ⟨cause, hc, rfl⟩ := binaryOf_eq_error_iff.1 (map_eq_error.1 h)
    exact .inl (.binary hc)
  | ss =>
    obtain ⟨items, rfl⟩ := Json.exists_of_meets_sequence meets
    exact .inl (.element (.inl rfl) ((ofContents_texts_eq_error_iff (.inl rfl)).1 h))
  | ns =>
    obtain ⟨items, rfl⟩ := Json.exists_of_meets_sequence meets
    exact .inl (.element (.inr (.inl rfl)) ((ofContents_texts_eq_error_iff (.inr rfl)).1 h))
  | bs =>
    obtain ⟨items, rfl⟩ := Json.exists_of_meets_sequence meets
    rcases ofContents_binaries_eq_error_iff.1 h with ht | ⟨texts, cause, rfl, hc, rfl⟩
    · exact .inl (.element (.inr (.inr rfl)) ht)
    · exact .inl (.binaries hc)
  | l =>
    obtain ⟨items, rfl⟩ := Json.exists_of_meets_sequence meets
    exact .inr (.inl ⟨items, rfl, rfl, ofContents_list_eq_error_iff.1 h⟩)
  | m =>
    obtain ⟨members, rfl⟩ := Json.exists_of_meets_map meets
    exact .inr (.inr ⟨members, rfl, rfl, ofContents_map_eq_error_iff.1 h⟩)

theorem ofContents_of_contentsFault {tag : Tag} {j : Json} {e : DecodeError} (h : ContentsFault tag j e) :
    ofContents tag j = .error e := by
  cases h with
  | kind h => exact ofContents_of_not_meets h
  | element ht h =>
    rcases ht with rfl | rfl | rfl
    · exact (ofContents_texts_eq_error_iff (.inl rfl)).2 h
    · exact (ofContents_texts_eq_error_iff (.inr rfl)).2 h
    · exact ofContents_binaries_eq_error_iff.2 (.inl h)
  | binary h => exact map_eq_error.2 (binaryOf_eq_error_iff.2 ⟨_, h, rfl⟩)
  | binaries h => exact ofContents_binaries_eq_error_iff.2 (.inr ⟨_, _, rfl, h, rfl⟩)

/-! ## Values -/

theorem ofJson_unknownType {key : String} (h : ∀ tag : Tag, tag.key ≠ key) (j : Json) (others : List (String × Json)) :
    ofJson (.obj ((key, j) :: others)) = .error (.unknownType key) := by
  rw [ofJson]
  cases hk : Tag.ofKey? key with
  | none => rfl
  | some tag => exact absurd (Tag.key_of_ofKey? hk) (h tag)

theorem ofJson_of_contents {tag : Tag} {j : Json} {e : DecodeError} (h : ofContents tag j = .error e)
    (others : List (String × Json)) : ofJson (.obj ((tag.key, j) :: others)) = .error e := by
  rw [ofJson, Tag.ofKey?_key]
  exact bind_eq_error.2 (.inl h)

theorem ofJson_notOneKey {tag : Tag} {j : Json} {v : AttributeValue} (h : ofContents tag j = .ok v)
    (member : String × Json) (others : List (String × Json)) :
    ofJson (.obj ((tag.key, j) :: member :: others)) = .error .notOneKey := by
  rw [ofJson, Tag.ofKey?_key]
  exact bind_eq_error.2 (.inr ⟨v, h, rfl⟩)

/-- What is wrong with a value, other than in an element of a list or a member of a map. -/
inductive OwnFault : Json → DecodeError → Prop
  /-- The value is no object. -/
  | kind {j : Json} (h : ¬ j.Meets .map) : OwnFault j (.invalidType j.found .attributeValue)
  /-- The object is empty. -/
  | noMember : OwnFault (.obj []) .notOneKey
  /-- The first key is no tag. -/
  | unknownType {key : String} {j : Json} {others : List (String × Json)} (h : ∀ tag : Tag, tag.key ≠ key) :
    OwnFault (.obj ((key, j) :: others)) (.unknownType key)
  /-- The contents under the tag are wrong, whatever members follow. -/
  | contents {tag : Tag} {j : Json} {others : List (String × Json)} {e : DecodeError} (h : ContentsFault tag j e) :
    OwnFault (.obj ((tag.key, j) :: others)) e
  /-- The contents under the tag are read, and another member follows. -/
  | secondMember {tag : Tag} {j : Json} {v : AttributeValue} {member : String × Json}
    {others : List (String × Json)} (h : ofContents tag j = .ok v) :
    OwnFault (.obj ((tag.key, j) :: member :: others)) .notOneKey

theorem ofJson_of_ownFault {j : Json} {e : DecodeError} (h : OwnFault j e) : ofJson j = .error e := by
  cases h with
  | kind h =>
    cases j with
    | obj members => exact absurd trivial h
    | _ => rfl
  | noMember => rfl
  | unknownType h => exact ofJson_unknownType h ..
  | contents h => exact ofJson_of_contents (ofContents_of_contentsFault h) _
  | secondMember h => exact ofJson_notOneKey h ..

/-! ## Places -/

/-- A list or a map around a place: what comes before the place and after it, and the members that
follow the one under the tag. -/
inductive Frame where
  | element (before after : List Json) (others : List (String × Json))
  | member (before : List (String × Json)) (key : String) (after others : List (String × Json))

namespace Frame

/-- The list or map with a value at its place. -/
def around : Frame → Json → Json
  | .element before after others, j => .obj ((Tag.l.key, .arr (before ++ j :: after)) :: others)
  | .member before key after others, j => .obj ((Tag.m.key, .obj (before ++ (key, j) :: after)) :: others)

/-- All that comes before the place is read. -/
def Clear : Frame → Prop
  | .element before _ _ => ∀ j ∈ before, ∃ v, ofJson j = .ok v
  | .member before _ _ _ => ∀ p ∈ before, ∃ v, ofJson p.2 = .ok v

theorem sizeOf_lt_around (frame : Frame) (j : Json) : sizeOf j < sizeOf (frame.around j) := by
  cases frame with
  | element before after others =>
    have inside : sizeOf j < sizeOf (before ++ j :: after) :=
      List.sizeOf_lt_of_mem (List.mem_append_right _ (List.mem_cons_self ..))
    simp only [around, Json.obj.sizeOf_spec, List.cons.sizeOf_spec, Prod.mk.sizeOf_spec, Json.arr.sizeOf_spec]
    omega
  | member before key after others =>
    have inside : sizeOf (key, j) < sizeOf (before ++ (key, j) :: after) :=
      List.sizeOf_lt_of_mem (List.mem_append_right _ (List.mem_cons_self ..))
    simp only [around, Json.obj.sizeOf_spec, List.cons.sizeOf_spec, Prod.mk.sizeOf_spec] at inside ⊢
    omega

/-- Behind what is read, the error at a place is the error of the list or map. -/
theorem ofJson_around {frame : Frame} (clear : frame.Clear) {j : Json} {e : DecodeError}
    (h : ofJson j = .error e) : ofJson (frame.around j) = .error e := by
  cases frame with
  | element before after others =>
    exact ofJson_of_contents (ofContents_list_eq_error_iff.2 ⟨before, j, after, rfl, clear, h⟩) others
  | member before key after others =>
    exact ofJson_of_contents (ofContents_map_eq_error_iff.2 ⟨before, (key, j), after, rfl, clear, h⟩) others

end Frame

/-- A value fails by itself, or as a list or a map around a place that fails. -/
theorem fault_cases {j : Json} {e : DecodeError} (h : ofJson j = .error e) :
    OwnFault j e ∨
      ∃ (frame : Frame) (inner : Json), j = frame.around inner ∧ frame.Clear ∧ ofJson inner = .error e := by
  match j with
  | .null | .bool _ | .num _ | .str _ | .arr _ =>
    cases h
    exact .inl (.kind id)
  | .obj [] =>
    cases h
    exact .inl .noMember
  | .obj ((key, j) :: others) =>
    rw [ofJson] at h
    cases hk : Tag.ofKey? key with
    | none =>
      rw [hk] at h
      cases h
      refine .inl (.unknownType ?_)
      rintro tag rfl
      rw [Tag.ofKey?_key] at hk
      cases hk
    | some tag =>
      obtain rfl := Tag.key_of_ofKey? hk
      rw [hk] at h
      rcases bind_eq_error.1 h with hc | ⟨v, hv, hr⟩
      · by_cases meets : j.Meets tag.wanted
        · rcases contentsFault_of_meets meets hc with own | ⟨items, rfl, rfl, before, x, after, rfl, clear, hx⟩ |
            ⟨members, rfl, rfl, before, ⟨key, x⟩, after, rfl, clear, hx⟩
          · exact .inl (.contents own)
          · exact .inr ⟨.element before after others, x, rfl, clear, hx⟩
          · exact .inr ⟨.member before key after others, x, rfl, clear, hx⟩
        · rw [ofContents_of_not_meets meets] at hc
          cases hc
          exact .inl (.contents (.kind meets))
      · cases others with
        | nil => cases hr
        | cons member others =>
          cases hr
          exact .inl (.secondMember hv)

/-- The value with another one at a place inside it, which is told from the outermost list or map inwards. -/
def around (place : List Frame) (j : Json) : Json :=
  place.foldr Frame.around j

theorem ofJson_around {place : List Frame} (clear : ∀ frame ∈ place, frame.Clear) {j : Json} {e : DecodeError}
    (h : ofJson j = .error e) : ofJson (around place j) = .error e := by
  induction place with
  | nil => exact h
  | cons frame place ih =>
    obtain ⟨outer, inner⟩ := List.forall_mem_cons.1 clear
    exact Frame.ofJson_around outer (ih inner)

/-- A value that fails does so at a place that all before is read, and there by itself. -/
theorem exists_place (j : Json) {e : DecodeError} (h : ofJson j = .error e) :
    ∃ place inner, j = around place inner ∧ (∀ frame ∈ place, frame.Clear) ∧ OwnFault inner e := by
  rcases fault_cases h with own | ⟨frame, inner, hj, clear, hi⟩
  · exact ⟨[], j, rfl, fun _ h => (nomatch h), own⟩
  · obtain ⟨place, innermost, rfl, clears, own⟩ := exists_place inner hi
    exact ⟨frame :: place, innermost, hj, List.forall_mem_cons.2 ⟨clear, clears⟩, own⟩
termination_by sizeOf j
decreasing_by
  rw [hj]
  exact frame.sizeOf_lt_around inner

/-- The first fault is the one reported. A key that is no tag is reported whatever stands under it and
after it, else what is wrong under the tag whatever members follow, else a second member. A list or map
fails exactly if something in it does, with the first error in it; of a set the first element that is no
string is reported, and base64 is read only if there is none. So an error at any depth is that of a place
which is wrong by itself and before which everything is read, and nothing behind the place changes it. -/
theorem first_fault_reported :
    (∀ (key : String) (j : Json) (others : List (String × Json)), (∀ tag : Tag, tag.key ≠ key) →
      ofJson (.obj ((key, j) :: others)) = .error (.unknownType key)) ∧
    (∀ (tag : Tag) (j : Json) (others : List (String × Json)) (e : DecodeError), ofContents tag j = .error e →
      ofJson (.obj ((tag.key, j) :: others)) = .error e) ∧
    (∀ (tag : Tag) (j : Json) (v : AttributeValue) (member : String × Json) (others : List (String × Json)),
      ofContents tag j = .ok v → ofJson (.obj ((tag.key, j) :: member :: others)) = .error .notOneKey) ∧
    (∀ items : List Json,
      ((∃ e, ofContents .l (.arr items) = .error e) ↔ ∃ j ∈ items, ∃ e, ofJson j = .error e) ∧
      ∀ e, ofContents .l (.arr items) = .error e ↔ FirstRefusal ofJson items e) ∧
    (∀ members : List (String × Json),
      ((∃ e, ofContents .m (.obj members) = .error e) ↔ ∃ p ∈ members, ∃ e, ofJson p.2 = .error e) ∧
      ∀ e, ofContents .m (.obj members) = .error e ↔ FirstRefusal (fun p => ofJson p.2) members e) ∧
    (∀ tag : Tag, tag = .ss ∨ tag = .ns → ∀ (items : List Json) (e : DecodeError),
      ofContents tag (.arr items) = .error e ↔ Json.FirstNonText items e) ∧
    (∀ (items : List Json) (e : DecodeError),
      ofContents .bs (.arr items) = .error e ↔ Json.FirstNonText items e ∨
        ∃ texts cause, items = texts.map .str ∧ FirstRefusal Base64.decode texts cause ∧ e = .binary cause) ∧
    (∀ place : List Frame, (∀ frame ∈ place, frame.Clear) → ∀ (j : Json) (e : DecodeError),
      ofJson j = .error e → ofJson (around place j) = .error e) ∧
    ∀ (j : Json) (e : DecodeError), ofJson j = .error e ↔
      ∃ place inner, j = around place inner ∧ (∀ frame ∈ place, frame.Clear) ∧ OwnFault inner e := by
  refine ⟨fun key j others h => ofJson_unknownType h j others, fun tag j others e h => ofJson_of_contents h others,
    fun tag j v member others h => ofJson_notOneKey h member others, fun items => ⟨?_, fun e => ?_⟩,
    fun members => ⟨?_, fun e => ?_⟩, fun tag ht items e => ofContents_texts_eq_error_iff ht,
    fun items e => ofContents_binaries_eq_error_iff, fun place clear j e h => ofJson_around clear h, fun j e => ?_⟩
  · exact (exists_congr fun e => ofContents_list_eq_error_iff).trans exists_firstRefusal_iff
  · exact ofContents_list_eq_error_iff
  · exact (exists_congr fun e => ofContents_map_eq_error_iff).trans exists_firstRefusal_iff
  · exact ofContents_map_eq_error_iff
  · constructor
    · exact exists_place j
    · rintro ⟨place, inner, rfl, clear, own⟩
      exact ofJson_around clear (ofJson_of_ownFault own)

/-- The second string of a set that stands in a map in a list, with faults of other kinds behind it at
each level. -/
theorem first_fault_reported_nested :
    let set := Json.obj [("BS", .arr [.str "aGk=", .str "?", .str "!"]), ("L", .null)]
    let place := [Frame.element [.obj [("S", .str "a")]] [.null] [("S", .null)],
      .member [("a", .obj [("NULL", .bool true)])] "b" [("c", .obj [("X", .null)])] [("Z", .null)]]
    (∀ frame ∈ place, frame.Clear) ∧
      ofJson (around place set) = .error (.binary (.symbol 63 0)) := by
  intro set place
  obtain ⟨-, value, -, -, -, -, base64, lift, -⟩ := first_fault_reported
  have clear : ∀ frame ∈ place, frame.Clear := by
    refine List.forall_mem_cons.2 ⟨?_, List.forall_mem_cons.2 ⟨?_, fun _ h => nomatch h⟩⟩
    · exact List.forall_mem_cons.2 ⟨⟨_, rfl⟩, fun _ h => nomatch h⟩
    · exact List.forall_mem_cons.2 ⟨⟨_, rfl⟩, fun _ h => nomatch h⟩
  refine ⟨clear, lift place clear set _ (value .bs _ _ _ ((base64 _ _).2 (.inr ?_)))⟩
  exact ⟨["aGk=", "?", "!"], .symbol 63 0, rfl, ⟨["aGk="], "?", ["!"], rfl,
    List.forall_mem_cons.2 ⟨⟨[104, 105], rfl⟩, fun _ h => nomatch h⟩, rfl⟩, rfl⟩

end AttributeValue

end UpdateExpr
