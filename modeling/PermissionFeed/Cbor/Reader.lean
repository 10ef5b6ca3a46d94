import PermissionFeed.Cbor.Token
import PermissionFeed.Text.Utf8

namespace PermissionFeed.Cbor

abbrev Reader := StateT (List Token) Option

namespace Reader

def token : Reader Token
  | [] => none
  | token :: rest => some (token, rest)

def untagged : Reader Token
  | [] => none
  | .tag _ :: rest => untagged rest
  | token :: rest => some (token, rest)

def byteChunks : (enclosing : Nat) → Reader (List UInt8)
  | _, [] => none
  | enclosing, .bytes payload :: rest => (byteChunks enclosing rest).map fun (bytes, rest) => (payload ++ bytes, rest)
  | enclosing, .chunkedBytes :: rest => byteChunks (enclosing + 1) rest
  | 0, .stop :: rest => some ([], rest)
  | enclosing + 1, .stop :: rest => byteChunks enclosing rest
  | _, _ :: _ => none

def textChunks : (enclosing : Nat) → Reader String
  | _, [] => none
  | enclosing, .text payload :: rest => do
      let chunk ← Text.ofUtf8? payload
      let (text, rest) ← textChunks enclosing rest
      return (chunk ++ text, rest)
  | enclosing, .chunkedText :: rest => textChunks (enclosing + 1) rest
  | 0, .stop :: rest => some ("", rest)
  | enclosing + 1, .stop :: rest => textChunks enclosing rest
  | _, _ :: _ => none

def byteString : Reader (List UInt8) := do
  match ← token with
  | .bytes payload => return payload
  | .chunkedBytes => byteChunks 0
  | _ => failure

def text : Reader String := do
  match ← untagged with
  | .text payload => (Text.ofUtf8? payload : Option String)
  | .chunkedText => textChunks 0
  | _ => failure

def longestName : Nat :=
  4096

def shortBytes : Reader (List UInt8) := do
  match ← untagged with
  | .bytes payload => if payload.length ≤ longestName then return payload else failure
  | _ => failure

def name : Reader (List UInt8) := do
  match ← untagged with
  | .bytes payload => if payload.length ≤ longestName then return payload else failure
  | .text payload =>
      if payload.length ≤ longestName ∧ (Text.ofUtf8? payload).isSome then return payload else failure
  | _ => failure

def magnitude? (bytes : List UInt8) : Option Nat :=
  let significant := bytes.dropWhile (· = 0)
  if significant.length ≤ 16 then some (bigEndian significant) else none

def naturalTag : UInt64 :=
  2

def negativeTag : UInt64 :=
  3

def integer : Reader Int
  | .unsigned value :: rest => some (value.toNat, rest)
  | .negative value :: rest => some (-1 - (value.toNat : Int), rest)
  | .tag number :: rest =>
      if number = naturalTag then do
        let (bytes, rest) ← byteString rest
        return (((← magnitude? bytes) : Int), rest)
      else if number = negativeTag then do
        let (bytes, rest) ← byteString rest
        return (-1 - ((← magnitude? bytes) : Int), rest)
      else integer rest
  | _ => none

def byte : Reader UInt8 := do
  let value ← integer
  if 0 ≤ value ∧ value < 256 then return UInt8.ofNat value.toNat else failure

def int64 : Reader Int64 := do
  let value ← integer
  if Int64.minValue.toInt ≤ value ∧ value ≤ Int64.maxValue.toInt then return Int64.ofInt value else failure

def falseCode : UInt8 :=
  20

def trueCode : UInt8 :=
  21

def nullCode : UInt8 :=
  22

def undefinedCode : UInt8 :=
  23

def bool : Reader Bool := do
  match ← untagged with
  | .simple code => if code = trueCode then return true else if code = falseCode then return false else failure
  | _ => failure

def optional {α : Type} (value : Reader α) : Reader (Option α)
  | .simple code :: rest =>
      if code = nullCode ∨ code = undefinedCode then some (none, rest)
      else (value (.simple code :: rest)).map fun (value, rest) => (some value, rest)
  | tokens => (value tokens).map fun (value, rest) => (some value, rest)

def times {α : Type} : (count : Nat) → Reader α → Reader (List α)
  | 0, _ => return []
  | count + 1, item => do
      let first ← item
      let rest ← times count item
      return first :: rest

def untilStopWithin {α : Type} : (count : Nat) → Reader α → Reader (List α)
  | _, _, [] => none
  | _, _, .stop :: rest => some ([], rest)
  | 0, _, _ => none
  | count + 1, item, tokens => do
      let (first, tokens) ← item tokens
      let (rest, tokens) ← untilStopWithin count item tokens
      return (first :: rest, tokens)

def untilStop {α : Type} (item : Reader α) : Reader (List α) :=
  fun tokens => untilStopWithin tokens.length item tokens

def list {α : Type} (item : Reader α) : Reader (List α) := do
  match ← untagged with
  | .array count => times count.toNat item
  | .openArray => untilStop item
  | .bytes [] => return []
  | .chunkedBytes => do
      let bytes ← byteChunks 0
      if bytes.isEmpty then return [] else failure
  | _ => failure

/-- Exactly `count` bytes: the first elements of an array, or the first bytes of a byte string. What follows the last
element of an array that is needed is left where it is. -/
def tuple (count : Nat) : Reader (List UInt8) := do
  match ← untagged with
  | .array length => if length.toNat < count then failure else times count byte
  | .openArray => times count byte
  | .bytes payload => firstOf payload
  | .chunkedBytes => do firstOf (← byteChunks 0)
  | _ => failure
where
  firstOf (payload : List UInt8) : Reader (List UInt8) :=
    if payload.length < count then failure else return payload.take count

def wideNumber? : List Token → Option (Int × List Token)
  | .tag number :: .bytes payload :: rest =>
      if payload.length ≤ 16 then
        if number = naturalTag then some (bigEndian payload, rest)
        else if number = negativeTag then some (-1 - (bigEndian payload : Int), rest)
        else none
      else none
  | _ => none

def leastWide : Int :=
  -0x80000000000000000000000000000000

def skipPlain : Reader Unit := fun tokens =>
  match wideNumber? tokens with
  | some (value, rest) => if leastWide ≤ value then some ((), rest) else none
  | none => skipToken tokens
where
  skipToken : Reader Unit := do
    match ← token with
    | .unsigned _ | .negative _ | .bytes _ | .float _ => return
    | .chunkedBytes => discard (byteChunks 0)
    | .text payload => if (Text.ofUtf8? payload).isSome then return else failure
    | .chunkedText => discard (textChunks 0)
    | .simple code => if falseCode ≤ code ∧ code ≤ undefinedCode then return else failure
    | _ => failure

/-- Skips a value with at most `depth` levels of arrays, maps and tags. A tag that belongs to a number is no level. -/
def skip : (depth : Nat) → Reader Unit
  | 0 => skipPlain
  | depth + 1 => fun tokens =>
      match tokens with
      | .array count :: rest => (discard (times count.toNat (skip depth)) : Reader Unit) rest
      | .openArray :: rest => (discard (untilStop (skip depth)) : Reader Unit) rest
      | .map count :: rest => (discard (times count.toNat (do skip depth; skip depth)) : Reader Unit) rest
      | .openMap :: rest => (discard (untilStop (do skip depth; skip depth)) : Reader Unit) rest
      | .tag _ :: rest => if (wideNumber? tokens).isSome then skipPlain tokens else skip depth rest
      | _ => skipPlain tokens

def record {α : Type} (entry : List UInt8 → Reader α) : Reader (List α) := do
  let named : Reader α := do entry (← name)
  match ← untagged with
  | .map count => times count.toNat named
  | .openMap => untilStop named
  | _ => failure

def choice {α : Type} (named? : List UInt8 → Option α) : Reader α := do
  match ← untagged with
  | .text payload =>
      if payload.length ≤ longestName then (named? payload : Option α) else failure
  | .map count => if count = 1 then do (named? (← name) : Option α) else failure
  | _ => failure

end Reader

end PermissionFeed.Cbor
