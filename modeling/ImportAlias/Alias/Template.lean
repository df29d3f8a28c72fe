import ImportAlias.Text.Digits

/-!
# Templates

A template says what a pattern alias stands for. A backslash and digits stand for the text of a
group, two backslashes for one, and any other backslash for itself.
-/

namespace ImportAlias

namespace Template

/-- A part of a template. -/
inductive Token where
  | literal (text : List Char)
  | group (index : Nat)
deriving DecidableEq

/-- The greatest index of a group; a greater number is read as it. -/
def greatestIndex : Nat := UInt64.size - 1

/-- The index that decimal digits write. -/
def indexOf (digits : List Char) : Nat :=
  min (numberOf digits) greatestIndex

/-- The tokens with a character in front of them. -/
def Token.consChar (char : Char) : List Token → List Token
  | .literal text :: rest => .literal (char :: text) :: rest
  | tokens => .literal [char] :: tokens

/-- The tokens of a template: characters one after the other make one literal. -/
def readTokens : List Char → List Token
  | [] => []
  | '\\' :: '\\' :: rest => Token.consChar '\\' (readTokens rest)
  | '\\' :: digit :: rest =>
    if digit.isDigit then
      .group (indexOf (digit :: rest.takeWhile Char.isDigit)) ::
        readTokens (rest.dropWhile Char.isDigit)
    else Token.consChar '\\' (readTokens (digit :: rest))
  | char :: rest => Token.consChar char (readTokens rest)
termination_by source => source.length
decreasing_by
  · simp only [List.length_cons]
    omega
  · have shorter := (List.dropWhile_sublist Char.isDigit (l := rest)).length_le
    simp only [List.length_cons]
    omega
  · simp
  · simp

/-- What a token stands for: its own text, or the text of a group, which is empty if there is no
such group or it took no part in the match. -/
def Token.expand (captures : Nat → Option String) : Token → List Char
  | literal text => text
  | group index => ((captures index).map String.toList).getD []

/-- What tokens stand for, one after the other. -/
def expandTokens (captures : Nat → Option String) (tokens : List Token) : List Char :=
  tokens.flatMap (Token.expand captures)

end Template

/-- A template, as its tokens. -/
structure Template where
  tokens : List Template.Token
deriving DecidableEq

namespace Template

/-- The template that a text writes. -/
def ofText (source : String) : Template :=
  ⟨readTokens source.toList⟩

/-- What a template stands for, given the texts of the groups. -/
def expand (template : Template) (captures : Nat → Option String) : String :=
  String.ofList (expandTokens captures template.tokens)

/-- A token as a template writes it. -/
def Token.written : Token → List Char
  | literal text => text.flatMap (fun char => if char = '\\' then ['\\', '\\'] else [char])
  | group index => '\\' :: Nat.toDigits 10 index

/-- A template that is read as the given tokens. -/
def written (template : Template) : String :=
  String.ofList (template.tokens.flatMap Token.written)

end Template

end ImportAlias
