import Coverage.Json.Value
/-!
The compact text of a JSON value. Strings are written with the escapes that JSON requires and no
others, the short one where there is one; members of objects are written in their order.
-/

namespace Coverage.Json

def escapedChar (c : Char) : List Char :=
  if c = '"' then ['\\', '"']
  else if c = '\\' then ['\\', '\\']
  else if c.toNat = 0x08 then ['\\', 'b']
  else if c.toNat = 0x09 then ['\\', 't']
  else if c.toNat = 0x0A then ['\\', 'n']
  else if c.toNat = 0x0C then ['\\', 'f']
  else if c.toNat = 0x0D then ['\\', 'r']
  else if c.toNat < 0x20 then '\\' :: 'u' :: Text.hexDigits 4 c.toNat
  else [c]

def quoted (s : String) : List Char := '"' :: s.toList.flatMap escapedChar ++ ['"']

def integerChars (n : Int) : List Char :=
  if n < 0 then '-' :: Nat.toDigits 10 n.natAbs else Nat.toDigits 10 n.natAbs

namespace Value

mutual

def chars : Value → List Char
  | null => ['n', 'u', 'l', 'l']
  | bool true => ['t', 'r', 'u', 'e']
  | bool false => ['f', 'a', 'l', 's', 'e']
  | integer value => integerChars value
  | real value => value.chars
  | text value => quoted value
  | array [] => ['[', ']']
  | array (item :: rest) => '[' :: chars item ++ itemChars rest
  | object [] => ['\x7b', '\x7d']
  | object ((key, value) :: rest) => '\x7b' :: quoted key ++ ':' :: chars value ++ memberChars rest

def itemChars : List Value → List Char
  | [] => [']']
  | item :: rest => ',' :: chars item ++ itemChars rest

def memberChars : List (String × Value) → List Char
  | [] => ['\x7d']
  | (key, value) :: rest => ',' :: quoted key ++ ':' :: chars value ++ memberChars rest

end

def print (value : Value) : String := String.ofList value.chars

end Value

end Coverage.Json
