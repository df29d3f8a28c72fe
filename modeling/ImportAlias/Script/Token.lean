import ImportAlias.Script.Tree

/-!
# Tokens

The next token behind a cursor. Blanks and comments before it are skipped, and it is noted whether
there is a line end among them. What a slash, a brace or an angle bracket starts depends on where it
stands, so the reader asks for regular expressions, parts of templates and texts of markup on its
own.
-/

namespace ImportAlias

namespace Script

/-- A token of a source. -/
inductive Token (source : List Char) where
  /-- A name or a keyword; the flag tells that it was written with an escape. -/
  | word (text : String) (escaped : Bool)
  | privateName (text : String)
  | number
  | string (literal : StringAt source)
  | template (head : HeadAt source) (stop : ChunkEnd)
  | mark (text : String)
  | finish
  /-- Something that is no token. -/
  | bad

/-- The number of characters up to the end of a line. -/
def lineLength (text : List Char) : Nat :=
  (text.takeWhile (fun char => !isLineEnd char)).length

/-- Where a text between tokens stands: in a comment up to the end of its line, in a comment with an
end of its own, or in none. -/
inductive Gap where
  | blank
  | lineComment
  | blockComment

/-- The number of characters between tokens, and whether there is a line end among them; none when a
comment has no end. In a script that is no module there are two more kinds of line comments. -/
def gapLength? (isModule : Bool) : Gap → Nat → Bool → List Char → Option (Nat × Bool)
  | .blockComment, _, _, [] => none
  | .blockComment, count, fresh, '*' :: '/' :: rest =>
    gapLength? isModule .blank (count + 2) fresh rest
  | .blockComment, count, fresh, char :: rest =>
    gapLength? isModule .blockComment (count + 1) (fresh || isLineEnd char) rest
  | .lineComment, count, fresh, [] => some (count, fresh)
  | .lineComment, count, fresh, char :: rest =>
    if isLineEnd char then gapLength? isModule .blank (count + 1) true rest
    else gapLength? isModule .lineComment (count + 1) fresh rest
  | .blank, count, fresh, [] => some (count, fresh)
  | .blank, count, fresh, '/' :: '/' :: rest =>
    gapLength? isModule .lineComment (count + 2) fresh rest
  | .blank, count, fresh, '/' :: '*' :: rest =>
    gapLength? isModule .blockComment (count + 2) fresh rest
  | .blank, count, fresh, '<' :: '!' :: '-' :: '-' :: rest =>
    if isModule then some (count, fresh)
    else gapLength? isModule .lineComment (count + 4) fresh rest
  | .blank, count, fresh, '-' :: '-' :: '>' :: rest =>
    if isModule || !fresh then some (count, fresh)
    else gapLength? isModule .lineComment (count + 3) fresh rest
  | .blank, count, fresh, char :: rest =>
    if isBlank char then gapLength? isModule .blank (count + 1) fresh rest
    else if isLineEnd char then gapLength? isModule .blank (count + 1) true rest
    else some (count, fresh)

/-- The characters of a name, the number of characters that write it, and whether an escape is among
them. The first argument bounds the number of characters. -/
def nameParts? (isFirst : Bool) : Nat → List Char → Option (List Char × Nat × Bool)
  | 0, _ => some ([], 0, false)
  | _, [] => some ([], 0, false)
  | fuel + 1, char :: rest =>
    let fits (char : Char) : Bool := if isFirst then isNameStart char else isNamePart char
    if char = '\\' then
      match rest with
      | 'u' :: escape =>
        match unicodeEscape? escape with
        | some ([.char written], behind) =>
          if fits written then
            (nameParts? false fuel behind).map (fun more =>
              (written :: more.1, 2 + (escape.length - behind.length) + more.2.1, true))
          else none
        | _ => none
      | _ => none
    else if fits char then
      (nameParts? false fuel rest).map (fun more => (char :: more.1, 1 + more.2.1, more.2.2))
    else some ([], 0, false)

/-- The characters of a name, the number of characters that write it, and whether an escape is among
them. -/
def name? (text : List Char) : Option (List Char × Nat × Bool) :=
  let mayWrite (char : Char) : Bool :=
    isNamePart char || char = '\\' || char = '\x7b' || char = '\x7d'
  nameParts? true (text.takeWhile mayWrite).length text

/-- The number of characters of digits that may have single underscores between them; none when an
underscore has no digit behind it. The flag tells that an underscore may come next. -/
def digitsLength? (isDigit : Char → Bool) (afterDigit : Bool) : List Char → Option Nat
  | [] => some 0
  | '_' :: digit :: rest =>
    if afterDigit && isDigit digit then (digitsLength? isDigit true rest).map (· + 2) else none
  | char :: rest =>
    if isDigit char then (digitsLength? isDigit true rest).map (· + 1)
    else if char = '_' then none
    else some 0

/-- A hexadecimal digit. -/
def isHexDigit (char : Char) : Bool :=
  (hexValue? char).isSome

/-- The number of characters of an exponent, which may be missing. -/
def exponentLength? (text : List Char) : Option Nat :=
  match text with
  | mark :: rest =>
    if mark = 'e' ∨ mark = 'E' then
      let (sign, digits) : Nat × List Char :=
        match rest with
        | '+' :: digits => (1, digits)
        | '-' :: digits => (1, digits)
        | _ => (0, rest)
      match digitsLength? Char.isDigit false digits with
      | some 0 => none
      | some length => some (1 + sign + length)
      | none => none
    else some 0
  | [] => some 0

/-- The number of characters of a fraction and an exponent, which may be missing. -/
def fractionLength? (text : List Char) : Option Nat :=
  match text with
  | '.' :: rest => do
    let digits ← digitsLength? Char.isDigit false rest
    let exponent ← exponentLength? (rest.drop digits)
    return 1 + digits + exponent
  | _ => exponentLength? text

/-- The number of characters of an integer with a base mark, behind the mark. -/
def basedLength? (isDigit : Char → Bool) (text : List Char) : Option Nat :=
  match digitsLength? isDigit false text with
  | some 0 => none
  | some length => if (text.drop length).head? = some 'n' then some (length + 1) else some length
  | none => none

/-- The number of characters of a number that starts with a digit. -/
def integerLength? : List Char → Option Nat
  | '0' :: mark :: rest =>
    let isBinary (char : Char) : Bool := char = '0' || char = '1'
    if mark = 'x' ∨ mark = 'X' then (basedLength? isHexDigit rest).map (· + 2)
    else if mark = 'o' ∨ mark = 'O' then (basedLength? isOctalDigit rest).map (· + 2)
    else if mark = 'b' ∨ mark = 'B' then (basedLength? isBinary rest).map (· + 2)
    else if mark = 'n' then some 2
    else if mark.isDigit then
      let digits := (mark :: rest).takeWhile Char.isDigit
      if digits.all isOctalDigit then some (1 + digits.length)
      else (fractionLength? ((mark :: rest).drop digits.length)).map (1 + digits.length + ·)
    else (fractionLength? (mark :: rest)).map (1 + ·)
  | text => do
    let digits ← digitsLength? Char.isDigit false text
    let rest := text.drop digits
    if rest.head? = some 'n' then return digits + 1
    let fraction ← fractionLength? rest
    return digits + fraction

/-- The number of characters of a number; no name and no digit may follow it. -/
def numberLength? (text : List Char) : Option Nat := do
  let length ← if text.head? = some '.' then fractionLength? text else integerLength? text
  match (text.drop length).head? with
  | some char => if isNamePart char || char = '\\' then none else some length
  | none => return length

/-- The marks of more than one character, longer ones first. An angle bracket that closes stands
alone until the reader asks for more. -/
def longMarks : List String :=
  ["...", "===", "!==", "**=", "<<=", "&&=", "||=", "??=",
    "=>", "==", "!=", "<=", "&&", "||", "??", "?.", "++", "--", "+=", "-=", "*=", "/=", "%=", "&=",
    "|=", "^=", "<<", "**"]

/-- The marks of one character. -/
def shortMarks : List Char :=
  ['(', ')', '[', ']', '\x7b', '\x7d', ';', ',', '<', '>', '.', '+', '-', '*', '/', '%', '&', '|',
    '^', '!', '~', '?', ':', '=', '@']

/-- The mark at the start of a text. An optional link does not stand before a digit. -/
def markAt? (text : List Char) : Option String :=
  let fits (mark : String) : Bool :=
    mark.toList.isPrefixOf text &&
      !(mark = "?." && ((text.drop 2).head?.any Char.isDigit))
  match longMarks.find? fits with
  | some mark => some mark
  | none =>
    match text with
    | [] => none
    | char :: _ => if char ∈ shortMarks then some (String.ofList [char]) else none

/-- The marks that start with an angle bracket that closes, longer ones first. -/
def closingMarks : List String :=
  [">>>=", ">>>", ">>=", ">>", ">=", ">"]

/-- A token with the place where it starts, the place behind it, and whether a line ends before it.
-/
structure Lexeme (source : List Char) where
  here : Cursor source
  next : Cursor source
  token : Token source
  fresh : Bool

variable {source : List Char}

/-- The string literal at a cursor that stands before a quote, and the number of its characters. -/
def stringAt? (cursor : Cursor source) (quote : Char) (isQuote : quote = '"' ∨ quote = '\'')
    (text : List Char) (stands : cursor.rest = quote :: text) : Option (StringAt source × Nat) :=
  match found : stringBody? quote text with
  | none => none
  | some (body, after) =>
    match value : stringText? body with
    | none => none
    | some chars =>
      let span : Span := ⟨cursor.offset, cursor.offset + byteLength body + 2⟩
      some (⟨⟨span, quote, chars⟩, by
        obtain ⟨before, split, length⟩ := cursor.reached
        have text_eq := append_of_stringBody? found
        refine ⟨isQuote, before, body, after, ?_, ?_, value, length.symm, by simp [span, length]⟩
        · rw [split, stands, text_eq]
        · rw [← text_eq]
          exact found⟩, body.length + 2)

/-- The first part of the template at a cursor that stands before a backtick, how it ends, and the
number of its characters. -/
def headAt? (cursor : Cursor source) (text : List Char) (stands : cursor.rest = '\x60' :: text) :
    Option (HeadAt source × ChunkEnd × Nat) :=
  match found : chunkBody? text with
  | none => none
  | some (body, stop, after) =>
    some (⟨cursor.offset, ⟨unifyLineEnds body, chunkText? body⟩, by
      obtain ⟨before, split, length⟩ := cursor.reached
      have text_eq := append_of_chunkBody? found
      refine ⟨before, body, stop, after, ?_, ?_, length.symm, rfl, rfl⟩
      · rw [split, stands, text_eq]
      · rw [← text_eq]
        exact found⟩, stop, 1 + body.length + stop.chars.length)

/-- The token at a cursor that stands before no blank, and the number of its characters. -/
def tokenAt (cursor : Cursor source) : Token source × Nat :=
  match stands : cursor.rest with
  | [] => (.finish, 0)
  | char :: rest =>
    if isNameStart char || char = '\\' then
      match name? (char :: rest) with
      | some (name, count, escaped) => (.word (String.ofList name) escaped, count)
      | none => (.bad, 1)
    else if char.isDigit || (char = '.' && (rest.head?.any Char.isDigit)) then
      match numberLength? (char :: rest) with
      | some count => (.number, count)
      | none => (.bad, 1)
    else if isQuote : char = '"' ∨ char = '\'' then
      match stringAt? cursor char isQuote rest stands with
      | some (literal, count) => (.string literal, count)
      | none => (.bad, 1)
    else if backtick : char = '\x60' then
      match headAt? cursor rest (by rw [stands, backtick]) with
      | some (head, stop, count) => (.template head stop, count)
      | none => (.bad, 1)
    else if char = '#' then
      match name? rest with
      | some (name, count, _) =>
        if count = 0 then (.bad, 1) else (.privateName (String.ofList name), count + 1)
      | none => (.bad, 1)
    else
      match markAt? (char :: rest) with
      | some mark => (.mark mark, mark.toList.length)
      | none => (.bad, 1)

/-- The next token behind a cursor. -/
def lexemeBehind (isModule : Bool) (atStart : Bool) (cursor : Cursor source) : Lexeme source :=
  match gapLength? isModule .blank 0 atStart cursor.rest with
  | none => ⟨cursor, cursor, .bad, false⟩
  | some (count, fresh) =>
    let here := cursor.drop count
    let (token, length) := tokenAt here
    ⟨here, here.drop length, token, fresh⟩

/-- The cursor behind a line that tells which program runs the script, if there is one. -/
def skipHashbang (cursor : Cursor source) : Cursor source :=
  match cursor.rest with
  | '#' :: '!' :: rest => cursor.drop (2 + lineLength rest)
  | _ => cursor

/-- The number of characters of a regular expression behind its first slash, up to the slash that
closes it. The flag tells that a class is open. -/
def regexLength? (inClass : Bool) : List Char → Option Nat
  | [] => none
  | '\\' :: char :: rest =>
    if isLineEnd char then none else (regexLength? inClass rest).map (· + 2)
  | char :: rest =>
    if isLineEnd char then none
    else if char = '/' && !inClass then some 1
    else
      let inClass := if char = '[' then true else if char = ']' then false else inClass
      (regexLength? inClass rest).map (· + 1)

/-- The flags of regular expressions. -/
def regexFlags : List Char :=
  ['d', 'g', 'i', 'm', 's', 'u', 'v', 'y']

/-- The characters are flags of a regular expression, each of them once. -/
def validFlags : List Char → Bool
  | [] => true
  | char :: rest => char ∈ regexFlags && char ∉ rest && validFlags rest

/-- The number of characters of a regular expression and its flags, from its first slash on. -/
def regexAt? : List Char → Option Nat
  | '/' :: rest => do
    let length ← regexLength? false rest
    let flags := (rest.drop length).takeWhile isNamePart
    if validFlags flags then some (1 + length + flags.length) else none
  | _ => none

/-- The number of characters of a text between tags; closing marks may not stand in it. -/
def markupTextLength? (text : List Char) : Option Nat :=
  let taken := text.takeWhile (fun char => char ≠ '<' && char ≠ '\x7b')
  if taken.any (fun char => char = '>' || char = '\x7d') then none else some taken.length

/-- The number of characters of a string in a tag, which knows no escapes. -/
def markupStringLength? : List Char → Option Nat
  | quote :: rest =>
    if quote = '"' ∨ quote = '\'' then
      let inner := rest.takeWhile (· ≠ quote)
      if inner.length < rest.length then some (inner.length + 2) else none
    else none
  | [] => none

/-- The number of characters of a name in markup that has started with a word. -/
def markupNameLength (text : List Char) : Nat :=
  (text.takeWhile (fun char => isNamePart char || char = '-')).length

end Script

end ImportAlias
