/-
Texts seen as bytes and as lists of characters: the UTF-8 bytes of a text, and whether one text
occurs inside another. The order of strings is the order of their UTF-8 bytes, so sorted keys need
no order of their own.
-/
namespace UpdateExpr.Text

/-- A string of bytes. -/
abbrev Bytes := List UInt8

/-- The UTF-8 bytes of a text, character by character. -/
def utf8 (s : String) : Bytes :=
  s.toList.flatMap String.utf8EncodeChar

/-! ## Occurrence -/

/-- Whether the characters of `part` stand somewhere in `text`, one after the other. -/
def occurs (part : List Char) : List Char → Bool
  | [] => part.isEmpty
  | c :: rest => part.isPrefixOf (c :: rest) || occurs part rest

/-- It finds exactly the infixes. -/
theorem occurs_iff {part text : List Char} : occurs part text = true ↔ part <:+: text := by
  induction text with
  | nil => simp [occurs]
  | cons c rest ih =>
    simp only [occurs, Bool.or_eq_true, List.isPrefixOf_iff_prefix, ih, List.infix_cons_iff]

/-- Whether the text `part` stands somewhere in `text`. -/
def mentions (text part : String) : Bool :=
  occurs part.toList text.toList

end UpdateExpr.Text
