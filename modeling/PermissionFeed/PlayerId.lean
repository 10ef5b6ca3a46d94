import Std.Data.ExtTreeSet
import PermissionFeed.Text.Blank
import PermissionFeed.Text.Hex

namespace PermissionFeed

structure PlayerId where
  bytes : Vector UInt8 16
  deriving DecidableEq

structure PlayerIdError where
  text : String
  deriving DecidableEq

def PlayerIdError.message (error : PlayerIdError) : String :=
  s!"invalid player id: {error.text}"

namespace PlayerId

instance : Ord PlayerId :=
  ⟨compareOn bytes⟩

instance : Std.TransOrd PlayerId :=
  inferInstanceAs (Std.TransCmp (compareOn bytes))

instance : Std.LawfulEqOrd PlayerId where
  eq_of_compare {left right} same := by
    have sameBytes : compare left.bytes right.bytes = .eq := same
    have equal := Std.LawfulEqCmp.eq_of_compare sameBytes
    cases left
    cases right
    simpa using equal

def ofBytes? (bytes : List UInt8) : Option PlayerId :=
  if sixteen : bytes.toArray.size = 16 then some ⟨bytes.toArray, sixteen⟩ else none

/-- The small ids used in examples: `00000000-0000-4000-8000-0000000000NN`, with NN the number. -/
def numbered (number : UInt8) : PlayerId :=
  ⟨#v[0, 0, 0, 0, 0, 0, 0x40, 0, 0x80, 0, 0, 0, 0, 0, 0, number]⟩

def digits (id : PlayerId) : List Char :=
  Text.Hex.digits id.bytes.toList

def hyphenate (digits : List Char) : List Char :=
  digits.take 8 ++ '-' :: (digits.drop 8).take 4 ++ '-' :: (digits.drop 12).take 4 ++
    '-' :: (digits.drop 16).take 4 ++ '-' :: digits.drop 20

def unhyphenate? (chars : List Char) : Option (List Char) :=
  if chars[8]? = some '-' ∧ chars[13]? = some '-' ∧ chars[18]? = some '-' ∧ chars[23]? = some '-' then
    some (chars.take 8 ++ (chars.drop 9).take 4 ++ (chars.drop 14).take 4 ++ (chars.drop 19).take 4 ++
      chars.drop 24)
  else none

def spelledDigits? (chars : List Char) : Option (List Char) :=
  match chars.length with
  | 32 => some chars
  | 36 => unhyphenate? chars
  | 38 =>
      if chars.head? = some '\x7b' ∧ chars.getLast? = some '\x7d' then unhyphenate? (chars.drop 1).dropLast
      else none
  | 45 =>
      if (chars.take 9).map Char.toLower = "urn:uuid:".toList then unhyphenate? (chars.drop 9) else none
  | _ => none

def ofChars? (chars : List Char) : Option PlayerId := do
  let digits ← spelledDigits? chars
  ofBytes? (← Text.Hex.bytes? digits)

def parse? (text : String) : Option PlayerId :=
  ofChars? (Text.trimChars text.toList)

def ofText (text : String) : Except PlayerIdError PlayerId :=
  match parse? text with
  | some id => .ok id
  | none => .error ⟨text⟩

instance : ToString PlayerId :=
  ⟨fun id => String.ofList (hyphenate id.digits)⟩

def diagnostic (id : PlayerId) : String :=
  s!"PlayerId({id})"

end PlayerId

abbrev PlayerSet := Std.ExtTreeSet PlayerId

end PermissionFeed
