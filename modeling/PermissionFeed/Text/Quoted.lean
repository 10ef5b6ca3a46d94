import PermissionFeed.Text.Hex
import PermissionFeed.Text.Hidden

namespace PermissionFeed.Text.Quoted

def escape (quote char : Char) : List Char :=
  if char = '\x00' then ['\\', '0']
  else if char = '\t' then ['\\', 't']
  else if char = '\n' then ['\\', 'n']
  else if char = '\r' then ['\\', 'r']
  else if char = '\\' || char = quote then ['\\', char]
  else if isHidden char then ['\\', 'u', '\x7b'] ++ Nat.toDigits 16 char.toNat ++ ['\x7d']
  else [char]

def text (value : String) : String :=
  String.ofList ('"' :: value.toList.flatMap (escape '"') ++ ['"'])

def char (value : Char) : String :=
  String.ofList ('\'' :: escape '\'' value ++ ['\''])

end PermissionFeed.Text.Quoted
