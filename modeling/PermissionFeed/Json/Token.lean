import PermissionFeed.Text.Hex

namespace PermissionFeed.Json

inductive Token where
  | openArray
  | closeArray
  | openObject
  | closeObject
  | comma
  | colon
  | null
  | bool (value : Bool)
  | number (literal : List Char)
  | string (text : Option String)
  deriving DecidableEq

inductive Piece where
  | char (char : Char)
  | unit (code : Nat)
  deriving DecidableEq

def isHighHalf (code : Nat) : Bool :=
  0xD800 ≤ code && code < 0xDC00

def isLowHalf (code : Nat) : Bool :=
  0xDC00 ≤ code && code < 0xE000

def textOf? : List Piece → Option (List Char)
  | [] => some []
  | .char char :: rest => (textOf? rest).map (char :: ·)
  | .unit high :: .unit low :: rest =>
      if isHighHalf high then
        if isLowHalf low then
          (textOf? rest).map (Char.ofNat (0x10000 + (high - 0xD800) * 0x400 + (low - 0xDC00)) :: ·)
        else none
      else if isLowHalf high then none
      else (textOf? (.unit low :: rest)).map (Char.ofNat high :: ·)
  | .unit code :: rest =>
      if isHighHalf code || isLowHalf code then none else (textOf? rest).map (Char.ofNat code :: ·)

def escaped? : Char → Option Char
  | '"' => some '"'
  | '\\' => some '\\'
  | '/' => some '/'
  | 'b' => some '\x08'
  | 'f' => some '\x0c'
  | 'n' => some '\n'
  | 'r' => some '\r'
  | 't' => some '\t'
  | _ => none

def unit? (first second third fourth : Char) : Option Nat := do
  let first ← Text.Hex.value? first
  let second ← Text.Hex.value? second
  let third ← Text.Hex.value? third
  let fourth ← Text.Hex.value? fourth
  return 0x1000 * first + 0x100 * second + 0x10 * third + fourth

def pieces? : List Char → Option (List Piece × List Char)
  | [] => none
  | '"' :: rest => some ([], rest)
  | '\\' :: 'u' :: first :: second :: third :: fourth :: rest => do
      let code ← unit? first second third fourth
      let (pieces, rest) ← pieces? rest
      return (.unit code :: pieces, rest)
  | '\\' :: letter :: rest => do
      let char ← escaped? letter
      let (pieces, rest) ← pieces? rest
      return (.char char :: pieces, rest)
  | char :: rest => do
      if char = '\\' ∨ char < ' ' then none
      let (pieces, rest) ← pieces? rest
      return (.char char :: pieces, rest)

def digits (chars : List Char) : List Char × List Char :=
  (chars.takeWhile Char.isDigit, chars.dropWhile Char.isDigit)

def digits? (chars : List Char) : Option (List Char × List Char) :=
  let (digits, rest) := digits chars
  if digits.isEmpty then none else some (digits, rest)

def whole? : List Char → Option (List Char × List Char)
  | '0' :: rest => some (['0'], rest)
  | chars => digits? chars

def fraction? : List Char → Option (List Char × List Char)
  | '.' :: rest => (digits? rest).map fun (digits, rest) => ('.' :: digits, rest)
  | chars => some ([], chars)

def signed? : List Char → Option (List Char × List Char)
  | '+' :: rest => (digits? rest).map fun (digits, rest) => ('+' :: digits, rest)
  | '-' :: rest => (digits? rest).map fun (digits, rest) => ('-' :: digits, rest)
  | chars => digits? chars

def exponent? : List Char → Option (List Char × List Char)
  | 'e' :: rest => (signed? rest).map fun (digits, rest) => ('e' :: digits, rest)
  | 'E' :: rest => (signed? rest).map fun (digits, rest) => ('E' :: digits, rest)
  | chars => some ([], chars)

def number? (chars : List Char) : Option (List Char × List Char) := do
  let (sign, chars) := match chars with
    | '-' :: rest => (['-'], rest)
    | _ => ([], chars)
  let (whole, chars) ← whole? chars
  let (fraction, chars) ← fraction? chars
  let (exponent, chars) ← exponent? chars
  return (sign ++ whole ++ fraction ++ exponent, chars)

def isSpace (char : Char) : Bool :=
  char = ' ' || char = '\t' || char = '\n' || char = '\r'

def next? : List Char → Option (Token × List Char)
  | '[' :: rest => some (.openArray, rest)
  | ']' :: rest => some (.closeArray, rest)
  | '\x7b' :: rest => some (.openObject, rest)
  | '\x7d' :: rest => some (.closeObject, rest)
  | ',' :: rest => some (.comma, rest)
  | ':' :: rest => some (.colon, rest)
  | 'n' :: 'u' :: 'l' :: 'l' :: rest => some (.null, rest)
  | 't' :: 'r' :: 'u' :: 'e' :: rest => some (.bool true, rest)
  | 'f' :: 'a' :: 'l' :: 's' :: 'e' :: rest => some (.bool false, rest)
  | '"' :: rest => (pieces? rest).map fun (pieces, rest) => (.string ((textOf? pieces).map String.ofList), rest)
  | chars => (number? chars).map fun (literal, rest) => (.number literal, rest)

def tokensWithin? : (count : Nat) → List Char → Option (List Token)
  | _, [] => some []
  | 0, _ => none
  | count + 1, char :: rest =>
      if isSpace char then tokensWithin? count rest
      else do
        let (token, rest) ← next? (char :: rest)
        let tokens ← tokensWithin? count rest
        return token :: tokens

def tokens? (chars : List Char) : Option (List Token) :=
  tokensWithin? chars.length chars

def escape (char : Char) : List Char :=
  if char = '"' then ['\\', '"']
  else if char = '\\' then ['\\', '\\']
  else if char = '\x08' then ['\\', 'b']
  else if char = '\x0c' then ['\\', 'f']
  else if char = '\n' then ['\\', 'n']
  else if char = '\r' then ['\\', 'r']
  else if char = '\t' then ['\\', 't']
  else if char < ' ' then ['\\', 'u', '0', '0'] ++ Text.Hex.digitsOfByte (UInt8.ofNat char.toNat)
  else [char]

def quote (text : String) : List Char :=
  '"' :: text.toList.flatMap escape ++ ['"']

def Token.written : Token → List Char
  | openArray => ['[']
  | closeArray => [']']
  | openObject => ['\x7b']
  | closeObject => ['\x7d']
  | comma => [',']
  | colon => [':']
  | null => "null".toList
  | bool value => (if value then "true" else "false").toList
  | number literal => literal
  | string text => quote (text.getD "")

end PermissionFeed.Json
