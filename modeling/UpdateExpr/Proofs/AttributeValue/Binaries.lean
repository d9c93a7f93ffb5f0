/-
Binaries and binary sets in JSON. A string under the tag of a binary is read exactly if it keeps to the
grammar of base64, as the bytes that its symbols stand for; of a binary set every string has to.
-/
import Mathlib.Data.List.Forall2
import UpdateExpr.Proofs.AttributeValue.FirstFault
import UpdateExpr.Proofs.Base64.Grammar

namespace UpdateExpr.AttributeValue

open Base64 (Canonical IsCanonical StandsFor Regroups)

/-! ## One string -/

theorem ofJson_tagged (tag : Tag) (j : Json) : ofJson (tagged tag j) = ofContents tag j := by
  unfold tagged
  rw [ofJson, Tag.ofKey?_key]
  exact bind_pure (ofContents tag j)

theorem binaryOf_eq_ok_iff_standsFor {text : String} {data : Text.Bytes} :
    binaryOf text = .ok data ↔ StandsFor text data :=
  binaryOf_eq_ok_iff.trans (Base64.decode_eq_ok_iff.symm.trans Base64.decode_eq_ok_iff_standsFor)

theorem ofJson_binary_eq_ok_iff {text : String} {v : AttributeValue} :
    ofJson (tagged .b (.str text)) = .ok v ↔ ∃ data, v = .binary data ∧ StandsFor text data := by
  rw [ofJson_tagged, ofContents]
  refine map_eq_ok.trans (exists_congr fun data => ?_)
  exact (and_congr binaryOf_eq_ok_iff_standsFor eq_comm).trans and_comm

theorem exists_ofJson_binary_iff {text : String} :
    (∃ v, ofJson (tagged .b (.str text)) = .ok v) ↔ IsCanonical text := by
  simp only [ofJson_binary_eq_ok_iff, ← Base64.exists_standsFor_iff]
  constructor
  · rintro ⟨_, data, -, h⟩
    exact ⟨data, h⟩
  · rintro ⟨data, h⟩
    exact ⟨_, data, rfl, h⟩

theorem exists_ofJson_binary_error_iff {text : String} :
    (∃ cause, ofJson (tagged .b (.str text)) = .error (.binary cause)) ↔ ¬ IsCanonical text := by
  rw [← Base64.exists_decode_eq_error_iff]
  refine exists_congr fun cause => ?_
  rw [ofJson_tagged, ofContents]
  refine map_eq_error.trans (binaryOf_eq_error_iff.trans ?_)
  simp only [DecodeError.binary.injEq, exists_eq_right']

/-! ## Several strings -/

theorem ofJson_binaries (texts : List String) :
    ofJson (tagged .bs (textsToJson texts)) = (binariesOf texts).map .binarySet := by
  have read : (textsToJson texts).asTexts = .ok texts := asTexts_eq_ok_iff.2 rfl
  rw [ofJson_tagged, ofContents, read]
  rfl

theorem binariesOf_eq_ok_iff_standsFor {texts : List String} {items : List Text.Bytes} :
    binariesOf texts = .ok items ↔ List.Forall₂ StandsFor texts items := by
  have one : ∀ text data, text = Base64.encode data ↔ StandsFor text data := fun text data =>
    binaryOf_eq_ok_iff.symm.trans binaryOf_eq_ok_iff_standsFor
  simp only [binariesOf_eq_ok_iff, ← List.forall₂_eq_eq_eq, List.forall₂_map_right_iff, one]

theorem ofJson_binaries_eq_ok_iff {texts : List String} {v : AttributeValue} :
    ofJson (tagged .bs (textsToJson texts)) = .ok v ↔
      ∃ items, v = .binarySet items ∧ List.Forall₂ StandsFor texts items := by
  rw [ofJson_binaries, map_eq_ok]
  refine exists_congr fun items => ?_
  rw [binariesOf_eq_ok_iff_standsFor, and_comm, eq_comm]

/-- One bad string is enough. -/
theorem exists_ofJson_binaries_error_iff {texts : List String} :
    (∃ cause, ofJson (tagged .bs (textsToJson texts)) = .error (.binary cause)) ↔
      ∃ text ∈ texts, ¬ IsCanonical text := by
  have bad : ∀ cause, ofJson (tagged .bs (textsToJson texts)) = .error (.binary cause) ↔
      FirstRefusal Base64.decode texts cause := by
    intro cause
    rw [ofJson_binaries, map_eq_error, binariesOf_eq_error_iff]
    simp only [DecodeError.binary.injEq, exists_eq_right']
  simp only [bad, exists_firstRefusal_iff, Base64.exists_decode_eq_error_iff]

theorem exists_ofJson_binaries_iff {texts : List String} :
    (∃ v, ofJson (tagged .bs (textsToJson texts)) = .ok v) ↔ ∀ text ∈ texts, IsCanonical text := by
  constructor
  · rintro ⟨v, hv⟩ text ht
    by_contra bad
    obtain ⟨cause, h⟩ := exists_ofJson_binaries_error_iff.2 ⟨text, ht, bad⟩
    rw [hv] at h
    cases h
  · intro all
    cases h : binariesOf texts with
    | ok items => exact ⟨.binarySet items, by rw [ofJson_binaries, h]; rfl⟩
    | error e =>
      obtain ⟨cause, refused, -⟩ := binariesOf_eq_error_iff.1 h
      obtain ⟨text, ht, bad⟩ := exists_firstRefusal_iff.1 ⟨cause, refused⟩
      exact absurd (all text ht) (Base64.exists_decode_eq_error_iff.1 bad)

/-! ## The grammar decides -/

/-- A string is read as a binary exactly if its bytes come in groups of four, are symbols of the alphabet
but for two padding bytes at most at the end, and leave no spare bit set: as three bytes for each group
less one for each padding byte, which have the bits of the symbols. Any other string is an error. So it is
with each string of a binary set, and one that is refused is enough to refuse the set. -/
theorem binary_grammar :
    (∀ text : String,
      ((∃ v, ofJson (tagged .b (.str text)) = .ok v) ↔ ∃ symbols pads, Canonical (Text.utf8 text) symbols pads) ∧
      (∀ (symbols : Text.Bytes) (pads : Nat), Canonical (Text.utf8 text) symbols pads →
        ∃ data, ofJson (tagged .b (.str text)) = .ok (.binary data) ∧
          data.length = 3 * (Text.utf8 text).length / 4 - pads ∧ Regroups symbols pads data) ∧
      ((¬ ∃ symbols pads, Canonical (Text.utf8 text) symbols pads) →
        ∃ cause, ofJson (tagged .b (.str text)) = .error (.binary cause))) ∧
    ∀ texts : List String,
      ((∃ v, ofJson (tagged .bs (textsToJson texts)) = .ok v) ↔ ∀ text ∈ texts, IsCanonical text) ∧
      (∀ v, ofJson (tagged .bs (textsToJson texts)) = .ok v ↔
        ∃ items, v = .binarySet items ∧ List.Forall₂ StandsFor texts items) ∧
      ((∃ text ∈ texts, ¬ IsCanonical text) →
        ∃ cause, ofJson (tagged .bs (textsToJson texts)) = .error (.binary cause)) := by
  refine ⟨fun text => ⟨exists_ofJson_binary_iff, fun symbols pads h => ?_, exists_ofJson_binary_error_iff.2⟩,
    fun texts => ⟨exists_ofJson_binaries_iff, fun v => ofJson_binaries_eq_ok_iff,
      exists_ofJson_binaries_error_iff.2⟩⟩
  obtain ⟨data, same⟩ := h.exists_regroups
  exact ⟨data, ofJson_binary_eq_ok_iff.2 ⟨data, rfl, symbols, pads, h, same⟩, h.length_data same, same⟩

/-- Two bytes with padding, and the same text with a spare bit set, alone and in a set. -/
theorem binary_grammar_padded :
    Canonical (Text.utf8 "aGk=") [97, 71, 107] 1 ∧
      (∃ data, ofJson (tagged .b (.str "aGk=")) = .ok (.binary data) ∧ data.length = 2 ∧
        Regroups [97, 71, 107] 1 data) ∧
      ¬ IsCanonical "aGl=" ∧ (∃ cause, ofJson (tagged .b (.str "aGl=")) = .error (.binary cause)) ∧
      ∃ cause, ofJson (tagged .bs (textsToJson ["aGk=", "aGl="])) = .error (.binary cause) := by
  have good : Canonical (Text.utf8 "aGk=") [97, 71, 107] 1 :=
    ⟨by decide, by decide, by decide +kernel, by decide, by decide +kernel⟩
  have bad : ¬ IsCanonical "aGl=" := Base64.exists_decode_eq_error_iff.1 ⟨.lastSymbol 108 2, by rfl⟩
  exact ⟨good, (binary_grammar.1 "aGk=").2.1 _ _ good, bad, (binary_grammar.1 "aGl=").2.2 bad,
    (binary_grammar.2 ["aGk=", "aGl="]).2.2 ⟨_, by simp, bad⟩⟩

end UpdateExpr.AttributeValue
