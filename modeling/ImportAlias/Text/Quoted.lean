import ImportAlias.Json.Printer
import ImportAlias.Unicode.Category

/-!
# Quoted text

The notation of a text in a message: between double quotes, with escapes for quotes, backslashes and
every character that cannot be shown as it is or only extends the one before it.
-/

namespace ImportAlias

/-- Hexadecimal digits of a number, without leading zeros. -/
def hexChars (value : Nat) : List Char :=
  Nat.toDigits 16 value

/-- A character as a message shows it between quotes. -/
def shownChar (char : Char) : List Char :=
  if char = '\x00' then ['\\', '0']
  else if char = '\t' then ['\\', 't']
  else if char = '\r' then ['\\', 'r']
  else if char = '\n' then ['\\', 'n']
  else if char = '"' then ['\\', '"']
  else if char = '\\' then ['\\', '\\']
  else if Unicode.isExtender char || !Unicode.isPrintable char then
    ['\\', 'u', '\x7b'] ++ hexChars char.toNat ++ ['\x7d']
  else [char]

/-- A text as a message shows it. -/
def shownText (text : String) : String :=
  String.ofList ('"' :: text.toList.flatMap shownChar ++ ['"'])

end ImportAlias
