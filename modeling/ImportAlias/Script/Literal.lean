import ImportAlias.Script.Character
import ImportAlias.Text.Digits

/-!
# Contents of literals

The contents of a string or of a part of a template, from behind the opening delimiter to the
closing one, and the text that they stand for. In a template every line end counts as a line feed.
-/

namespace ImportAlias

namespace Script

/-- The contents of a string up to the quote that closes it, and the text behind that quote. -/
def stringBody? (quote : Char) : List Char → Option (List Char × List Char)
  | [] => none
  | '\\' :: '\r' :: '\n' :: rest =>
    (stringBody? quote rest).map (fun found => ('\\' :: '\r' :: '\n' :: found.1, found.2))
  | '\\' :: char :: rest =>
    (stringBody? quote rest).map (fun found => ('\\' :: char :: found.1, found.2))
  | char :: rest =>
    if char = quote then some ([], rest)
    else if char = '\n' ∨ char = '\r' then none
    else (stringBody? quote rest).map (fun found => (char :: found.1, found.2))

/-- How a part of a template ends: with the backtick, or with the start of a substitution. -/
inductive ChunkEnd where
  | closed
  | substitution
deriving DecidableEq

/-- The contents of a part of a template up to its end, how it ends, and the text behind the end. -/
def chunkBody? : List Char → Option (List Char × ChunkEnd × List Char)
  | [] => none
  | '\x60' :: rest => some ([], .closed, rest)
  | '$' :: '\x7b' :: rest => some ([], .substitution, rest)
  | '\\' :: char :: rest =>
    (chunkBody? rest).map (fun found => ('\\' :: char :: found.1, found.2))
  | char :: rest => (chunkBody? rest).map (fun found => (char :: found.1, found.2))

/-- The text with every carriage return, alone or before a line feed, made a line feed. -/
def unifyLineEnds : List Char → List Char
  | [] => []
  | '\r' :: '\n' :: rest => '\n' :: unifyLineEnds rest
  | '\r' :: rest => '\n' :: unifyLineEnds rest
  | char :: rest => char :: unifyLineEnds rest

/-- A piece of the text that a literal stands for: a character, or half of a surrogate pair. -/
inductive Piece where
  | char (char : Char)
  | half (code : Nat)
deriving DecidableEq

/-- The piece with a code point. -/
def Piece.ofCode (code : Nat) : Piece :=
  if 0xD800 ≤ code ∧ code < 0xE000 then .half code else .char (Char.ofNat code)

/-- The mark that stands for what is no character. -/
def replacementChar : Char := '\ufffd'

/-- A number as four hexadecimal digits. -/
def fourDigits (value : Nat) : List Char :=
  let digits := Nat.toDigits 16 value
  List.replicate (4 - digits.length) '0' ++ digits

/-- The text of pieces. When one of them is half of a surrogate pair, the mark for such a half, with
its digits behind it, is told apart from the same character in the text by digits of its own. -/
def textOf (pieces : List Piece) : List Char :=
  let hasHalf := pieces.any (fun piece =>
    match piece with
    | .half _ => true
    | .char _ => false)
  pieces.flatMap (fun piece =>
    match piece with
    | .half code => replacementChar :: fourDigits code
    | .char char =>
      if hasHalf ∧ char = replacementChar then char :: fourDigits char.toNat else [char])

/-- Hexadecimal digits up to a closing brace, at least one, for a code point. -/
def codeInBraces? (value : Option Nat) : List Char → Option (Nat × List Char)
  | [] => none
  | char :: rest =>
    if char = '\x7d' then value.map (·, rest)
    else
      match hexValue? char with
      | none => none
      | some digit =>
        let value := value.getD 0 * 16 + digit
        if value < 0x110000 then codeInBraces? (some value) rest else none

/-- The pieces of an escape by code points, behind its letter. Two escapes that are a surrogate pair
make one character. -/
def unicodeEscape? : List Char → Option (List Piece × List Char)
  | '\x7b' :: rest => (codeInBraces? none rest).map (fun found => ([.ofCode found.1], found.2))
  | text => do
    let (unit, rest) ← codeUnit? text
    match rest with
    | '\\' :: 'u' :: more =>
      if 0xD800 ≤ unit ∧ unit < 0xDC00 then
        let (second, rest) ← codeUnit? more
        if 0xDC00 ≤ second ∧ second < 0xE000 then
          let code := 0x10000 + (unit - 0xD800) * 0x400 + (second - 0xDC00)
          return ([.char (Char.ofNat code)], rest)
        else return ([.ofCode unit, .ofCode second], rest)
      else return ([.ofCode unit], rest)
    | _ => return ([.ofCode unit], rest)

/-- An octal escape of up to three digits, no greater than a byte. -/
def octalEscape (first : Char) (rest : List Char) : Nat × List Char :=
  let value (char : Char) : Nat := char.toNat - '0'.toNat
  match rest with
  | second :: more =>
    if isOctalDigit second then
      match more with
      | third :: behind =>
        if isOctalDigit third && first ≤ '3' then
          ((value first * 8 + value second) * 8 + value third, behind)
        else (value first * 8 + value second, more)
      | [] => (value first * 8 + value second, more)
    else (value first, rest)
  | [] => (value first, rest)

/-- The pieces of an escape behind its backslash. A template knows no octal escapes. -/
def escape? (inTemplate : Bool) : List Char → Option (List Piece × List Char)
  | [] => none
  | '\r' :: '\n' :: rest => some ([], rest)
  | 'u' :: rest => unicodeEscape? rest
  | 'x' :: high :: low :: rest => do
    let high ← hexValue? high
    let low ← hexValue? low
    return ([.char (Char.ofNat (high * 16 + low))], rest)
  | 'x' :: _ => none
  | char :: rest =>
    if isLineEnd char then some ([], rest)
    else if char = 'b' then some ([.char '\x08'], rest)
    else if char = 'f' then some ([.char '\x0c'], rest)
    else if char = 'n' then some ([.char '\n'], rest)
    else if char = 'r' then some ([.char '\r'], rest)
    else if char = 't' then some ([.char '\t'], rest)
    else if char = 'v' then some ([.char '\x0b'], rest)
    else if char = '0' && !(rest.head?.any Char.isDigit) then some ([.char '\x00'], rest)
    else if char.isDigit && inTemplate then none
    else if isOctalDigit char then
      let (code, rest) := octalEscape char rest
      some ([.char (Char.ofNat code)], rest)
    else some ([.char char], rest)

/-- The pieces that contents stand for, if all escapes in them are valid. The first argument bounds
the number of pieces. -/
def pieces? (inTemplate : Bool) : Nat → List Char → Option (List Piece)
  | 0, text => if text = [] then some [] else none
  | _, [] => some []
  | fuel + 1, char :: rest =>
    if char = '\\' then
      match escape? inTemplate rest with
      | none => none
      | some (pieces, rest) => (pieces? inTemplate fuel rest).map (pieces ++ ·)
    else (pieces? inTemplate fuel rest).map (.char char :: ·)

/-- The text that the contents of a string stand for. -/
def stringText? (body : List Char) : Option (List Char) :=
  (pieces? false body.length body).map textOf

/-- The text that the contents of a part of a template stand for. -/
def chunkText? (body : List Char) : Option (List Char) :=
  let unified := unifyLineEnds body
  (pieces? true unified.length unified).map textOf

/-- The contents of a string are what stands before its closing quote. -/
theorem append_of_stringBody? {quote : Char} {text body rest : List Char}
    (found : stringBody? quote text = some (body, rest)) : text = body ++ quote :: rest := by
  fun_induction stringBody? quote text generalizing body with
  | case1 => simp at found
  | case2 text ih =>
    obtain ⟨⟨inner, behind⟩, equal, split⟩ := Option.map_eq_some_iff.1 found
    simp only [Prod.mk.injEq] at split
    obtain ⟨rfl, rfl⟩ := split
    simp [ih equal]
  | case3 char text _ ih =>
    obtain ⟨⟨inner, behind⟩, equal, split⟩ := Option.map_eq_some_iff.1 found
    simp only [Prod.mk.injEq] at split
    obtain ⟨rfl, rfl⟩ := split
    simp [ih equal]
  | case4 text =>
    simp only [Option.some.injEq, Prod.mk.injEq] at found
    obtain ⟨rfl, rfl⟩ := found
    simp
  | case5 => simp at found
  | case6 char text _ _ _ _ ih =>
    obtain ⟨⟨inner, behind⟩, equal, split⟩ := Option.map_eq_some_iff.1 found
    simp only [Prod.mk.injEq] at split
    obtain ⟨rfl, rfl⟩ := split
    simp [ih equal]

/-- The characters that end a part of a template. -/
def ChunkEnd.chars : ChunkEnd → List Char
  | closed => ['\x60']
  | substitution => ['$', '\x7b']

/-- The contents of a part of a template are what stands before its end. -/
theorem append_of_chunkBody? {text body rest : List Char} {stop : ChunkEnd}
    (found : chunkBody? text = some (body, stop, rest)) : text = body ++ stop.chars ++ rest := by
  fun_induction chunkBody? text generalizing body with
  | case1 => simp at found
  | case2 text =>
    simp only [Option.some.injEq, Prod.mk.injEq] at found
    obtain ⟨rfl, rfl, rfl⟩ := found
    simp [ChunkEnd.chars]
  | case3 text =>
    simp only [Option.some.injEq, Prod.mk.injEq] at found
    obtain ⟨rfl, rfl, rfl⟩ := found
    simp [ChunkEnd.chars]
  | case4 char text ih =>
    obtain ⟨⟨inner, behind⟩, equal, split⟩ := Option.map_eq_some_iff.1 found
    simp only [Prod.mk.injEq] at split
    obtain ⟨rfl, rfl⟩ := split
    simp [ih equal]
  | case5 char text _ _ _ ih =>
    obtain ⟨⟨inner, behind⟩, equal, split⟩ := Option.map_eq_some_iff.1 found
    simp only [Prod.mk.injEq] at split
    obtain ⟨rfl, rfl⟩ := split
    simp [ih equal]

end Script

end ImportAlias
