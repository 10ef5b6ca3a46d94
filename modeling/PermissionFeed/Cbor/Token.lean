namespace PermissionFeed.Cbor

inductive Token where
  | unsigned (value : UInt64)
  | negative (value : UInt64)
  | bytes (payload : List UInt8)
  | chunkedBytes
  | text (payload : List UInt8)
  | chunkedText
  | array (count : UInt64)
  | openArray
  | map (count : UInt64)
  | openMap
  | tag (number : UInt64)
  | simple (code : UInt8)
  | float (payload : List UInt8)
  | stop
  deriving DecidableEq

def bigEndian (bytes : List UInt8) : Nat :=
  bytes.foldl (fun value byte => 256 * value + byte.toNat) 0

def bytesOf : (count : Nat) → UInt64 → List UInt8
  | 0, _ => []
  | count + 1, value => (value >>> (8 * UInt64.ofNat count)).toUInt8 :: bytesOf count value

def head (major : UInt8) (argument : UInt64) : List UInt8 :=
  let initial (low : UInt8) : UInt8 := major <<< 5 ||| low
  if argument < 24 then [initial argument.toUInt8]
  else if argument < 0x100 then initial 24 :: bytesOf 1 argument
  else if argument < 0x10000 then initial 25 :: bytesOf 2 argument
  else if argument < 0x100000000 then initial 26 :: bytesOf 4 argument
  else initial 27 :: bytesOf 8 argument

inductive Argument where
  | value (value : UInt64)
  | indefinite
  deriving DecidableEq

def cut? (count : Nat) (bytes : List UInt8) : Option (List UInt8 × List UInt8) :=
  if bytes.length < count then none else some (bytes.splitAt count)

def argument? (low : UInt8) (bytes : List UInt8) : Option (Argument × List UInt8) :=
  let wide (count : Nat) : Option (Argument × List UInt8) := do
    let (argument, rest) ← cut? count bytes
    return (.value (UInt64.ofNat (bigEndian argument)), rest)
  if low < 24 then some (.value low.toUInt64, bytes)
  else if low = 24 then wide 1
  else if low = 25 then wide 2
  else if low = 26 then wide 4
  else if low = 27 then wide 8
  else if low = 31 then some (.indefinite, bytes)
  else none

namespace Token

def written : Token → List UInt8
  | unsigned value => head 0 value
  | negative value => head 1 value
  | bytes payload => head 2 (UInt64.ofNat payload.length) ++ payload
  | chunkedBytes => [0x5f]
  | text payload => head 3 (UInt64.ofNat payload.length) ++ payload
  | chunkedText => [0x7f]
  | array count => head 4 count
  | openArray => [0x9f]
  | map count => head 5 count
  | openMap => [0xbf]
  | tag number => head 6 number
  | simple code => head 7 code.toUInt64
  | float payload => (if payload.length = 2 then 0xf9 else if payload.length = 4 then 0xfa else 0xfb) :: payload
  | stop => [0xff]

def special? (low : UInt8) (rest : List UInt8) : Option (Token × List UInt8) := do
  if low < 24 then return (simple low, rest)
  else if low = 24 then
    match rest with
    | [] => none
    | code :: rest => return (simple code, rest)
  else if low = 25 then (cut? 2 rest).map fun (payload, rest) => (float payload, rest)
  else if low = 26 then (cut? 4 rest).map fun (payload, rest) => (float payload, rest)
  else if low = 27 then (cut? 8 rest).map fun (payload, rest) => (float payload, rest)
  else if low = 31 then return (stop, rest)
  else none

def ofArgument? (major : UInt8) (argument : Argument) (rest : List UInt8) : Option (Token × List UInt8) :=
  match major, argument with
  | 0, .value value => some (unsigned value, rest)
  | 1, .value value => some (negative value, rest)
  | 2, .value length => (cut? length.toNat rest).map fun (payload, rest) => (bytes payload, rest)
  | 2, .indefinite => some (chunkedBytes, rest)
  | 3, .value length => (cut? length.toNat rest).map fun (payload, rest) => (text payload, rest)
  | 3, .indefinite => some (chunkedText, rest)
  | 4, .value count => some (array count, rest)
  | 4, .indefinite => some (openArray, rest)
  | 5, .value count => some (map count, rest)
  | 5, .indefinite => some (openMap, rest)
  | 6, .value number => some (tag number, rest)
  | _, _ => none

def next? : List UInt8 → Option (Token × List UInt8)
  | [] => none
  | initial :: rest =>
      let major := initial >>> 5
      let low := initial &&& 0x1f
      if major = 7 then special? low rest
      else do
        let (argument, rest) ← argument? low rest
        ofArgument? major argument rest

end Token

def tokensWithin : (count : Nat) → List UInt8 → List Token
  | 0, _ => []
  | count + 1, bytes =>
      match Token.next? bytes with
      | none => []
      | some (token, rest) => token :: tokensWithin count rest

def tokens (bytes : List UInt8) : List Token :=
  tokensWithin bytes.length bytes

end PermissionFeed.Cbor
