import ImportAlias.Unicode.Fold
import ImportAlias.Unicode.Letter
import ImportAlias.Unicode.Script

/-!
# Character sets

A character set is an expression over ranges and named classes. Whether it holds a character is read
off the expression; a set is folded by holding every character of which it holds a case variant.
-/

namespace ImportAlias

namespace Regex

/-- The classes that have a letter of their own. -/
inductive NamedClass where
  | digit
  | space
  | word
deriving DecidableEq

/-- A set of characters. -/
inductive CharSet where
  | none
  | range (first last : Nat)
  | named (unicode : Bool) (name : NamedClass)
  | categories (members : List Unicode.Category)
  | alphabetic
  | capital
  | small
  /-- The characters of the script with a code. -/
  | script (code : String)
  | complement (inner : CharSet)
  | union (left right : CharSet)
  | intersection (left right : CharSet)
  | folded (unicode : Bool) (inner : CharSet)

namespace CharSet

/-- The set of one character. -/
def single (char : Char) : CharSet :=
  range char.toNat char.toNat

/-- The set of all characters. -/
def all : CharSet :=
  complement none

/-- The union of ranges. -/
def ofRanges (ranges : List (Nat × Nat)) : CharSet :=
  ranges.foldr (fun range rest => union (.range range.1 range.2) rest) none

/-- What is in the left set and not in the right one. -/
def difference (left right : CharSet) : CharSet :=
  intersection left (complement right)

/-- What is in exactly one of two sets. -/
def symmetricDifference (left right : CharSet) : CharSet :=
  union (difference left right) (difference right left)

/-- The complement if asked for. -/
def complementIf (negated : Bool) (set : CharSet) : CharSet :=
  if negated then complement set else set

/-- Digits, blanks and word characters among the first 128 characters. -/
def asciiClass : NamedClass → Nat → Bool
  | .digit, code => Unicode.inRanges [(0x30, 0x39)] code
  | .space, code => Unicode.inRanges [(0x09, 0x0D), (0x20, 0x20)] code
  | .word, code => Unicode.inRanges [(0x30, 0x39), (0x41, 0x5A), (0x5F, 0x5F), (0x61, 0x7A)] code

/-- Digits, blanks and word characters of all scripts. -/
def unicodeClass : NamedClass → Char → Bool
  | .digit, char => Unicode.isDecimalDigit char
  | .space, char => Unicode.isWhiteSpace char
  | .word, char => Unicode.isWord char

/-- The case variants of a code point, in all scripts or among the first 128 characters. -/
def variants (unicode : Bool) (code : Nat) : List Nat :=
  if unicode then Unicode.caseVariants code
  else if 0x41 ≤ code ∧ code ≤ 0x5A then [code, code + 32]
  else if 0x61 ≤ code ∧ code ≤ 0x7A then [code, code - 32]
  else [code]

/-- The set holds the code point. -/
def holds : CharSet → Nat → Bool
  | none, _ => false
  | range first last, code => first ≤ code && code ≤ last
  | named true name, code => unicodeClass name (Char.ofNat code)
  | named false name, code => asciiClass name code
  | categories members, code => (Unicode.categoryOfCode code) ∈ members
  | alphabetic, code => Unicode.isAlphabetic code
  | capital, code => Unicode.isCapital code
  | small, code => Unicode.isSmall code
  | script name, code => Unicode.scriptOfCode code = name
  | complement inner, code => !inner.holds code
  | union left right, code => left.holds code || right.holds code
  | intersection left right, code => left.holds code && right.holds code
  | folded unicode inner, code => (variants unicode code).any inner.holds

/-- An estimate of the number of ranges in the set. -/
def weight : CharSet → Nat
  | none => 1
  | range _ last => if last < 0x80 then 1 else 2
  | named true .word => 760
  | named true .digit => 70
  | named true .space => 10
  | named false _ => 1
  | categories _ => 400
  | alphabetic => 730
  | capital => 650
  | small => 660
  | script _ => 40
  | complement inner => inner.weight
  | union left right => left.weight + right.weight
  | intersection left right => left.weight + right.weight
  | folded _ inner => inner.weight

end CharSet

end Regex

end ImportAlias
