import ImportAlias.Json.Basic
import ImportAlias.Text.Digits

/-!
# Reading JSON

The reader accepts exactly the standard grammar: no byte order mark, nothing but blanks behind the
value, and nesting up to a limit. A number that is too great for double precision and an escape that
is half of a surrogate pair are refused. When a key repeats, its first place and its last value
stay.
-/

namespace ImportAlias

namespace Json

/-- The blanks between tokens. -/
def isBlank (char : Char) : Bool :=
  char = ' ' || char = '\n' || char = '\t' || char = '\r'

/-- The text from its first character that is no blank. -/
def skipBlanks (text : List Char) : List Char :=
  text.dropWhile isBlank

/-- The value of a decimal digit. -/
def decimalDigit? (char : Char) : Option Nat :=
  if '0' ≤ char ∧ char ≤ '9' then some (char.toNat - '0'.toNat) else none

/-- The character that one code unit or a surrogate pair of two code units writes. -/
def escapedChar? (text : List Char) : Option (Char × List Char) := do
  let (unit, rest) ← codeUnit? text
  if 0xD800 ≤ unit ∧ unit < 0xDC00 then
    match rest with
    | '\\' :: 'u' :: more =>
      let (second, rest) ← codeUnit? more
      if 0xDC00 ≤ second ∧ second < 0xE000 then
        return (Char.ofNat (0x10000 + (unit - 0xD800) * 0x400 + (second - 0xDC00)), rest)
      else none
    | _ => none
  else if 0xDC00 ≤ unit ∧ unit < 0xE000 then none
  else return (Char.ofNat unit, rest)

/-- The characters of a string up to its closing quote, behind the opening one. The first argument
bounds their number. -/
def readString? : Nat → List Char → Option (List Char × List Char)
  | _, [] => none
  | _, '"' :: rest => some ([], rest)
  | 0, _ => none
  | fuel + 1, '\\' :: escape :: rest => do
    let (char, rest) ←
      match escape with
      | '"' => some ('"', rest)
      | '\\' => some ('\\', rest)
      | '/' => some ('/', rest)
      | 'b' => some ('\x08', rest)
      | 'f' => some ('\x0c', rest)
      | 'n' => some ('\n', rest)
      | 'r' => some ('\r', rest)
      | 't' => some ('\t', rest)
      | 'u' => escapedChar? rest
      | _ => none
    let (more, rest) ← readString? fuel rest
    return (char :: more, rest)
  | fuel + 1, char :: rest => do
    if char = '\\' ∨ char.toNat < 0x20 then none
    let (more, rest) ← readString? fuel rest
    return (char :: more, rest)

/-- The greatest number that fits a significand of 64 bits. -/
def greatestWord : Nat := UInt64.size - 1

/-- Digits taken into a significand for as long as it fits 64 bits: the significand, the number of
digits taken, and the text behind them. -/
def takeDigits (significand count : Nat) : List Char → Nat × Nat × List Char
  | [] => (significand, count, [])
  | char :: rest =>
    match decimalDigit? char with
    | none => (significand, count, char :: rest)
    | some digit =>
      if greatestWord < significand * 10 + digit then (significand, count, char :: rest)
      else takeDigits (significand * 10 + digit) (count + 1) rest

/-- The number of digits at the start of a text and the text behind them. -/
def skipDigits (text : List Char) : Nat × List Char :=
  ((text.takeWhile Char.isDigit).length, text.dropWhile Char.isDigit)

/-- A power of ten rounded to double precision, as a fraction. -/
def tenPower (exponent : Nat) : Nat × Nat :=
  match Binary.ofQuotient? false (Nat.pow 10 exponent) 1 with
  | some value => (value.numerator, value.denominator)
  | none => (Nat.pow 10 exponent, 1)

/-- The number of double precision `significand * 10 ^ exponent`. The significand is rounded first,
then scaled by rounded powers of ten of at most `10 ^ 308`, with a rounding after each step. -/
def scaled? (negative : Bool) : Nat → Binary → Int → Option Binary
  | 0, value, _ => some value
  | fuel + 1, value, exponent =>
    if exponent.natAbs ≤ 308 then
      let (top, bottom) := tenPower exponent.natAbs
      if 0 ≤ exponent then
        Binary.ofQuotient? negative (value.numerator * top) (value.denominator * bottom)
      else
        Binary.ofQuotient? negative (value.numerator * bottom) (value.denominator * top)
    else if value.significand = 0 then some value
    else if 0 ≤ exponent then none
    else do
      let (top, bottom) := tenPower 308
      let smaller ←
        Binary.ofQuotient? negative (value.numerator * bottom) (value.denominator * top)
      scaled? negative fuel smaller (exponent + 308)

/-- The number with a significand and a power of ten. -/
def ofParts? (negative : Bool) (significand : Nat) (exponent : Int) : Option Number := do
  let value ← Binary.ofQuotient? negative significand 1
  return .binary (← scaled? negative 4 value exponent)

/-- The greatest exponent that is read as such. -/
def greatestExponent : Nat := 0x7fffffff

/-- A number behind its significand, from the mark of an exponent on. -/
def readExponent? (negative : Bool) (significand : Nat) (shift : Int) (text : List Char) :
    Option (Number × List Char) := do
  let (down, digits) : Bool × List Char :=
    match text with
    | '+' :: rest => (false, rest)
    | '-' :: rest => (true, rest)
    | _ => (false, text)
  let written := digits.takeWhile Char.isDigit
  let rest := digits.dropWhile Char.isDigit
  if written = [] then none
  let exponent := numberOf written
  if greatestExponent < exponent then
    if significand ≠ 0 ∧ !down then none
    else return (.binary ⟨negative, 0, Binary.leastExponent⟩, rest)
  else
    let total := if down then shift - (exponent : Int) else shift + (exponent : Int)
    -- far below the least number the power makes no difference
    let number ← ofParts? negative significand (max total (-2000))
    return (number, rest)

/-- A number behind its significand: an exponent or nothing. -/
def readScale? (negative : Bool) (significand : Nat) (shift : Int) :
    List Char → Option (Number × List Char)
  | 'e' :: rest => readExponent? negative significand shift rest
  | 'E' :: rest => readExponent? negative significand shift rest
  | text => return (← ofParts? negative significand shift, text)

/-- A number from the digits behind its point on. -/
def readFraction? (negative : Bool) (significand : Nat) (shift : Int) (text : List Char) :
    Option (Number × List Char) := do
  let (significand, count, rest) := takeDigits significand 0 text
  let (dropped, rest) := skipDigits rest
  if count + dropped = 0 then none
  readScale? negative significand (shift - (count : Int)) rest

/-- The number that an integer stands for. -/
def ofWord (negative : Bool) (significand : Nat) : Option Number :=
  if negative then
    if significand = 0 ∨ Nat.pow 2 63 < significand then
      (Binary.ofQuotient? true significand 1).map .binary
    else some (.integer (-(significand : Int)))
  else some (.integer significand)

/-- A number behind its sign. -/
def readUnsigned? (negative : Bool) (text : List Char) : Option (Number × List Char) := do
  let (significand, count, rest) := takeDigits 0 0 text
  if count = 0 then none
  if 1 < count ∧ text.head? = some '0' then none
  let (dropped, rest) := skipDigits rest
  match rest with
  | '.' :: fraction => readFraction? negative significand dropped fraction
  | 'e' :: _ => readScale? negative significand dropped rest
  | 'E' :: _ => readScale? negative significand dropped rest
  | _ =>
    if dropped = 0 then return (← ofWord negative significand, rest)
    else return (← ofParts? negative significand dropped, rest)

/-- A number. -/
def readNumber? : List Char → Option (Number × List Char)
  | '-' :: rest => readUnsigned? true rest
  | text => readUnsigned? false text

/-- The items of an array up to its closing bracket, the first one already due. The first argument
bounds their number. -/
def readItems? (readItem? : List Char → Option (Json × List Char)) :
    Nat → List Char → Option (List Json × List Char)
  | 0, _ => none
  | fuel + 1, text => do
    let (item, rest) ← readItem? text
    match skipBlanks rest with
    | ']' :: rest => return ([item], rest)
    | ',' :: rest =>
      let (items, rest) ← readItems? readItem? fuel rest
      return (item :: items, rest)
    | _ => none

/-- The fields of an object up to its closing brace, the first one already due. The first argument
bounds their number. -/
def readFields? (readItem? : List Char → Option (Json × List Char)) :
    Nat → List Char → Option (List (String × Json) × List Char)
  | 0, _ => none
  | fuel + 1, text => do
    let '"' :: keyText := skipBlanks text | none
    let (key, rest) ← readString? keyText.length keyText
    let ':' :: valueText := skipBlanks rest | none
    let (value, rest) ← readItem? valueText
    match skipBlanks rest with
    | '\x7d' :: rest => return ([(String.ofList key, value)], rest)
    | ',' :: rest =>
      let (fields, rest) ← readFields? readItem? fuel rest
      return ((String.ofList key, value) :: fields, rest)
    | _ => none

/-- A value, with at most the given number of arrays and objects around each other. -/
def readValue? : Nat → List Char → Option (Json × List Char)
  | depth, text =>
    match skipBlanks text with
    | 'n' :: 'u' :: 'l' :: 'l' :: rest => some (.null, rest)
    | 't' :: 'r' :: 'u' :: 'e' :: rest => some (.bool true, rest)
    | 'f' :: 'a' :: 'l' :: 's' :: 'e' :: rest => some (.bool false, rest)
    | '"' :: rest => do
      let (chars, rest) ← readString? rest.length rest
      return (.string (String.ofList chars), rest)
    | '[' :: rest =>
      match depth with
      | 0 => none
      | depth + 1 =>
        match skipBlanks rest with
        | ']' :: rest => some (.array [], rest)
        | _ => do
          let (items, rest) ← readItems? (readValue? depth) rest.length rest
          return (.array items, rest)
    | '\x7b' :: rest =>
      match depth with
      | 0 => none
      | depth + 1 =>
        match skipBlanks rest with
        | '\x7d' :: rest => some (.object [], rest)
        | _ => do
          let (fields, rest) ← readFields? (readValue? depth) rest.length rest
          return (.object (fieldsOf fields), rest)
    | text => do
      let (value, rest) ← readNumber? text
      return (.number value, rest)

/-- The number of arrays and objects that may lie around each other. -/
def nestingLimit : Nat := 127

/-- The value that a text writes, if it writes one. -/
def read? (text : String) : Option Json :=
  match readValue? nestingLimit text.toList with
  | some (value, rest) => if skipBlanks rest = [] then some value else none
  | none => none

end Json

end ImportAlias
