import LiquidStaking.Json.Value
import LiquidStaking.Text.Bytes

/-!
# Writing JSON

Documents are written without blanks.  In a string, quotes, backslashes and
control characters are escaped, and nothing else.  A word that is no value is
written as it stands.
-/

namespace LiquidStaking.Json

def escapeChar (c : Char) : List Char :=
  if c = '"' then ['\\', '"']
  else if c = '\\' then ['\\', '\\']
  else if c.toNat = 8 then ['\\', 'b']
  else if c.toNat = 9 then ['\\', 't']
  else if c.toNat = 10 then ['\\', 'n']
  else if c.toNat = 12 then ['\\', 'f']
  else if c.toNat = 13 then ['\\', 'r']
  else if c.toNat < 32 then
    ['\\', 'u', '0', '0', Bytes.hexDigit true (c.toNat / 16), Bytes.hexDigit true (c.toNat % 16)]
  else [c]

def escape (text : List Char) : List Char := text.flatMap escapeChar

def printText (text : String) : List Char := '"' :: escape text.toList ++ ['"']

mutual

def print : Json → List Char
  | .null => "null".toList
  | .bool true => "true".toList
  | .bool false => "false".toList
  | .nat value => Digits.render value
  | .negative magnitude => '-' :: Digits.render magnitude
  | .string value => printText value
  | .array items => '[' :: printItems items ++ [']']
  | .object members => '\x7b' :: printMembers members ++ ['\x7d']
  | .word text => text.toList

def printItems : List Json → List Char
  | [] => []
  | [item] => print item
  | item :: rest => print item ++ ',' :: printItems rest

def printMembers : List (String × Json) → List Char
  | [] => []
  | [(name, value)] => printText name ++ ':' :: print value
  | (name, value) :: rest => printText name ++ ':' :: print value ++ ',' :: printMembers rest

end

def toText (document : Json) : String := String.ofList document.print

end LiquidStaking.Json
