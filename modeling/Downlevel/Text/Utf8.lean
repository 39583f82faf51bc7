/-!
# Bytes of a text

The UTF-8 form of a text as a list of bytes.
-/

namespace Downlevel.Text

/-- The bytes of a string. -/
def utf8 (s : String) : List UInt8 := s.toList.flatMap String.utf8EncodeChar

/-- The bytes of a text are those of its parts, one after the other. -/
@[simp] theorem utf8_append (s t : String) : utf8 (s ++ t) = utf8 s ++ utf8 t := by
  simp [utf8, String.toList_append]

end Downlevel.Text
