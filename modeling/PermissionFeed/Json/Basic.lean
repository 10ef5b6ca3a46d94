import PermissionFeed.Json.Token

namespace PermissionFeed

inductive Json where
  | null
  | bool (value : Bool)
  | number (literal : List Char)
  | string (text : Option String)
  | array (items : List Json)
  | object (members : List (Option String × Json))

namespace Json

mutual

def tokens : Json → List Token
  | null => [.null]
  | bool value => [.bool value]
  | number literal => [.number literal]
  | string text => [.string text]
  | array items => .openArray :: itemTokens items ++ [.closeArray]
  | object members => .openObject :: memberTokens members ++ [.closeObject]

def itemTokens : List Json → List Token
  | [] => []
  | [item] => item.tokens
  | item :: rest => item.tokens ++ .comma :: itemTokens rest

def memberTokens : List (Option String × Json) → List Token
  | [] => []
  | [(name, value)] => .string name :: .colon :: value.tokens
  | (name, value) :: rest => .string name :: .colon :: value.tokens ++ .comma :: memberTokens rest

end

def print (json : Json) : String :=
  String.ofList (json.tokens.flatMap Token.written)

mutual

def value? : (depth : Nat) → List Token → Option (Json × List Token)
  | 0, _ => none
  | depth + 1, tokens =>
      match tokens with
      | .null :: rest => some (null, rest)
      | .bool value :: rest => some (bool value, rest)
      | .number literal :: rest => some (number literal, rest)
      | .string text :: rest => some (string text, rest)
      | .openArray :: .closeArray :: rest => some (array [], rest)
      | .openArray :: rest => (items? depth rest).map fun (items, rest) => (array items, rest)
      | .openObject :: .closeObject :: rest => some (object [], rest)
      | .openObject :: rest => (members? depth rest).map fun (members, rest) => (object members, rest)
      | _ => none

def items? : (depth : Nat) → List Token → Option (List Json × List Token)
  | 0, _ => none
  | depth + 1, tokens => do
      let (item, rest) ← value? depth tokens
      match rest with
      | .closeArray :: rest => return ([item], rest)
      | .comma :: rest =>
          let (items, rest) ← items? depth rest
          return (item :: items, rest)
      | _ => none

def members? : (depth : Nat) → List Token → Option (List (Option String × Json) × List Token)
  | 0, _ => none
  | depth + 1, tokens =>
      match tokens with
      | .string name :: .colon :: rest => do
          let (value, rest) ← value? depth rest
          match rest with
          | .closeObject :: rest => return ([(name, value)], rest)
          | .comma :: rest =>
              let (members, rest) ← members? depth rest
              return ((name, value) :: members, rest)
          | _ => none
      | _ => none

end

def parse? (text : String) : Option Json := do
  let tokens ← tokens? text.toList
  match ← value? (2 * tokens.length + 1) tokens with
  | (json, []) => return json
  | _ => none

end Json

end PermissionFeed
