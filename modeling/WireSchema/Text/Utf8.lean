/-!
# Texts as bytes

The UTF-8 bytes of a text, and the text of bytes that are UTF-8. The main statements say that a
text is read back from its bytes, so that they tell it apart from every other text.
-/

namespace WireSchema.Text

/-- The UTF-8 bytes of a text. -/
def utf8 (s : String) : List UInt8 := s.toUTF8.data.toList

/-- The text whose UTF-8 bytes these are, if they are those of one. -/
def ofUtf8? (bytes : List UInt8) : Option String := String.fromUTF8? bytes.toByteArray

/-- A text is read back from its bytes. -/
theorem ofUtf8?_utf8 (s : String) : ofUtf8? (utf8 s) = some s := by
  have hb : (utf8 s).toByteArray = s.toUTF8 :=
    ByteArray.ext (Array.toList_inj.mp List.toList_data_toByteArray)
  simp only [ofUtf8?, hb, String.fromUTF8?, String.toUTF8]
  rw [dif_pos s.isValidUTF8]
  rfl

/-- Different texts have different bytes. -/
theorem utf8_inj {s t : String} : utf8 s = utf8 t ↔ s = t := by
  constructor
  · intro h
    have ht := ofUtf8?_utf8 t
    rw [← h, ofUtf8?_utf8] at ht
    exact Option.some.inj ht
  · rintro rfl
    rfl

end WireSchema.Text
