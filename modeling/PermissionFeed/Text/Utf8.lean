namespace PermissionFeed.Text

def utf8 (text : String) : List UInt8 :=
  text.toByteArray.data.toList

def ofUtf8? (bytes : List UInt8) : Option String :=
  String.fromUTF8? ⟨bytes.toArray⟩

theorem ofUtf8?_utf8 (text : String) : ofUtf8? (utf8 text) = some text := by
  have valid : (⟨text.toByteArray.data⟩ : ByteArray).IsValidUTF8 := text.isValidUTF8
  unfold ofUtf8? utf8 String.fromUTF8?
  rw [Array.toArray_toList]
  split
  · rfl
  · contradiction

end PermissionFeed.Text
