import ImportAlias.Json.Basic

/-!
# Printed JSON

Values are printed without blanks. In a string only the quote, the backslash and control characters
are escaped.
-/

namespace ImportAlias

/-- A hexadecimal digit in lower case. -/
def hexDigit (value : Nat) : Char :=
  if value < 10 then Char.ofNat ('0'.toNat + value) else Char.ofNat ('a'.toNat + value - 10)

/-- A character as it stands between quotes. -/
def Json.escapeChar (char : Char) : List Char :=
  if char = '"' then ['\\', '"']
  else if char = '\\' then ['\\', '\\']
  else if char = '\n' then ['\\', 'n']
  else if char = '\t' then ['\\', 't']
  else if char = '\r' then ['\\', 'r']
  else if char = '\x08' then ['\\', 'b']
  else if char = '\x0c' then ['\\', 'f']
  else if char.toNat < 0x20 then
    ['\\', 'u', '0', '0', hexDigit (char.toNat / 16), hexDigit (char.toNat % 16)]
  else [char]

/-- A string between quotes. -/
def Json.quoted (text : String) : List Char :=
  '"' :: text.toList.flatMap Json.escapeChar ++ ['"']

/-- The notation of a number. -/
def Number.chars : Number → List Char
  | .integer value => (toString value).toList
  | .binary value => value.chars

namespace Json

mutual

/-- The characters of a printed value. -/
def chars : Json → List Char
  | null => "null".toList
  | bool true => "true".toList
  | bool false => "false".toList
  | number value => value.chars
  | string text => quoted text
  | array items => '[' :: itemChars items ++ [']']
  | object fields => '\x7b' :: fieldChars fields ++ ['\x7d']

/-- The characters of printed items with commas between them. -/
def itemChars : List Json → List Char
  | [] => []
  | [item] => item.chars
  | item :: rest => item.chars ++ ',' :: itemChars rest

/-- The characters of printed fields with commas between them. -/
def fieldChars : List (String × Json) → List Char
  | [] => []
  | [(key, value)] => quoted key ++ ':' :: value.chars
  | (key, value) :: rest => quoted key ++ ':' :: value.chars ++ ',' :: fieldChars rest

end

/-- The printed value. -/
def print (value : Json) : String :=
  String.ofList value.chars

end Json

end ImportAlias
