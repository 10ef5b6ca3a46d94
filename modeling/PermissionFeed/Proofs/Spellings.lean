import PermissionFeed.Proofs.Frames

namespace PermissionFeed.PlayerId

theorem length_digits (id : PlayerId) : id.digits.length = 32 := by
  rw [digits, Text.Hex.length_digits, id.bytes.length_toList]

theorem unhyphenate?_parts {first second third fourth : List Char} (firstLength : first.length = 8)
    (secondLength : second.length = 4) (thirdLength : third.length = 4) (fourthLength : fourth.length = 4)
    (fifth : List Char) :
    unhyphenate? (first ++ '-' :: second ++ '-' :: third ++ '-' :: fourth ++ '-' :: fifth) =
      some (first ++ second ++ third ++ fourth ++ fifth) := by
  simp [unhyphenate?, List.getElem?_append, List.drop_append, List.drop_of_length_le, *]

theorem unhyphenate?_hyphenate {digits : List Char} (length : digits.length = 32) :
    unhyphenate? (hyphenate digits) = some digits := by
  have part (start : Nat) (enough : start + 4 ≤ 32) : ((digits.drop start).take 4).length = 4 := by
    rw [List.length_take, List.length_drop, length]
    omega
  have joined (start count : Nat) : (digits.drop start).take count ++ digits.drop (start + count) = digits.drop start := by
    rw [← List.drop_drop, List.take_append_drop]
  rw [hyphenate, unhyphenate?_parts (by rw [List.length_take, length]; rfl) (part 8 (by decide)) (part 12 (by decide))
    (part 16 (by decide)), List.append_assoc, joined 16 4, List.append_assoc, joined 12 4, List.append_assoc, joined 8 4,
    List.take_append_drop]

theorem ofChars?_toString (id : PlayerId) : ofChars? (toString id).toList = some id := by
  have spelled : (toString id).toList = hyphenate id.digits := String.toList_ofList
  have length : (hyphenate id.digits).length = 36 := by simp [hyphenate, length_digits]
  have read : Text.Hex.bytes? id.digits = some id.bytes.toList := Text.Hex.bytes?_digits _
  simp only [spelled, ofChars?, spelledDigits?, length, unhyphenate?_hyphenate id.length_digits, read,
    Option.bind_eq_bind, Option.bind_some, ofBytes?_toList]

end PermissionFeed.PlayerId
