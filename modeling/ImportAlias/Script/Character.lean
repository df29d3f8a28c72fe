import ImportAlias.Unicode.Category

/-!
# Characters of scripts

Blanks, line ends and the characters of identifiers. The first 128 characters are told apart without
a table.
-/

namespace ImportAlias

namespace Script

/-- A character that ends a line. -/
def isLineEnd (char : Char) : Bool :=
  char = '\n' || char = '\r' || char = '\u2028' || char = '\u2029'

/-- A character between tokens that ends no line; the byte order mark and the blank without a width
are among them. -/
def isBlank (char : Char) : Bool :=
  char = ' ' || char = '\t' || char = '\x0b' || char = '\x0c' ||
    (0x80 ≤ char.toNat && (char = '\u0085' || char = '\u200b' || char = '\ufeff' ||
      Unicode.category char = .spaceSeparator))

/-- A character that may start an identifier. -/
def isNameStart (char : Char) : Bool :=
  if char.toNat < 0x80 then char.isAlpha || char = '$' || char = '_'
  else Unicode.isIdentifierStart char

/-- A character that may stand in an identifier. -/
def isNamePart (char : Char) : Bool :=
  if char.toNat < 0x80 then char.isAlphanum || char = '$' || char = '_'
  else Unicode.isIdentifierPart char

/-- An octal digit. -/
def isOctalDigit (char : Char) : Bool :=
  '0' ≤ char && char ≤ '7'

end Script

end ImportAlias
