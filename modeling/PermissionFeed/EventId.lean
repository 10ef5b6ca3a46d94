import PermissionFeed.Text.Hex
import PermissionFeed.Text.Quoted
import PermissionFeed.Text.Utf8

namespace PermissionFeed

structure EventId where
  bytes : Vector UInt8 16
  deriving DecidableEq

inductive EventIdError where
  | oddLength
  | notADigit (byte : UInt8) (position : Nat)
  | notSixteenBytes (text : String)
  deriving DecidableEq

def EventIdError.message : EventIdError → String
  | .oddLength => "invalid event id: Odd number of digits"
  | .notADigit byte position =>
      let shown := Text.Quoted.char (Char.ofNat byte.toNat)
      s!"invalid event id: Invalid character {shown} at position {position}"
  | .notSixteenBytes text => s!"invalid event id: expected 16 bytes: {text}"

namespace EventId

def ofBytes? (bytes : List UInt8) : Option EventId :=
  if sixteen : bytes.toArray.size = 16 then some ⟨bytes.toArray, sixteen⟩ else none

def zero : EventId :=
  ⟨Vector.replicate 16 0⟩

def ofWords (first second : UInt64) : EventId :=
  let part (word place : UInt64) : UInt8 := (word >>> (8 * place)).toUInt8
  ⟨#v[part first 7, part first 6, part first 5, part first 4, part first 3, part first 2, part first 1, part first 0,
    part second 7, part second 6, part second 5, part second 4, part second 3, part second 2, part second 1,
    part second 0]⟩

def origin (id : EventId) : UInt64 :=
  (id.bytes.toList.take 8).foldl (fun word byte => word <<< 8 ||| byte.toUInt64) 0

def toHex (id : EventId) : String :=
  String.ofList (Text.Hex.digits id.bytes.toList)

instance : ToString EventId :=
  ⟨toHex⟩

def diagnostic (id : EventId) : String :=
  s!"EventId({id})"

def digitOfByte? (byte : UInt8) : Option Nat :=
  Text.Hex.value? (Char.ofNat byte.toNat)

def bytesFromHex : List UInt8 → Nat → Except EventIdError (List UInt8)
  | high :: low :: rest, position =>
      match digitOfByte? high, digitOfByte? low with
      | none, _ => .error (.notADigit high position)
      | some _, none => .error (.notADigit low (position + 1))
      | some highValue, some lowValue => do
          let rest ← bytesFromHex rest (position + 2)
          return UInt8.ofNat (16 * highValue + lowValue) :: rest
  | _, _ => .ok []

def fromHex (text : String) : Except EventIdError EventId :=
  let digits := Text.utf8 text
  if digits.length % 2 = 1 then .error .oddLength
  else do
    let bytes ← bytesFromHex digits 0
    match ofBytes? bytes with
    | some id => return id
    | none => throw (.notSixteenBytes text)

structure Supply where
  origin : UInt64
  issued : Nat
  deriving DecidableEq

namespace Supply

/-- A supply with the least first word that none of the given ids has, so that it never hands out one of them. -/
def avoiding (ids : List EventId) : Supply :=
  let origins := (List.range (ids.length + 1)).map UInt64.ofNat
  ⟨(origins.find? fun origin => ids.all (·.origin ≠ origin)).getD 0, 0⟩

def next (supply : Supply) : EventId × Supply :=
  (.ofWords supply.origin (UInt64.ofNat supply.issued), { supply with issued := supply.issued + 1 })

end Supply

end EventId

end PermissionFeed
