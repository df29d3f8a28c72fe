import ImportAlias.Script.Parser

/-!
# Names

Names of values and names of members. A keyword is no name of a value; what is a keyword in some
places alone is one everywhere else.
-/

namespace ImportAlias

namespace Script

/-- The words that never name a value. -/
def reservedWords : List String :=
  ["break", "case", "catch", "class", "const", "continue", "debugger", "default", "delete", "do",
    "else", "enum", "export", "extends", "false", "finally", "for", "function", "if", "import",
    "in", "instanceof", "new", "null", "return", "super", "switch", "this", "throw", "true", "try",
    "typeof", "var", "void", "while", "with"]

variable {source : List Char}

namespace Parser

/-- The current token is a word that can name a value. -/
def atName : Parser source Bool := do
  match ← token with
  | .word text _ => return text ∉ reservedWords
  | _ => return false

/-- The word is an operator at the current place. -/
def isOperatorName (word : Option String) : Parser source Bool := do
  let context ← context
  return (word = some "await" && context.allowAwait) || (word = some "yield" && context.allowYield)

/-- Takes a name of a value. Where `await` or `yield` are operators they are no names. -/
def takeName : Parser source String := do
  match ← token with
  | .word text _ =>
    require (text ∉ reservedWords)
    flawIf (← isOperatorName text)
    advance
    return text
  | _ => fail

/-- Takes a name of a value as a tree. -/
def nameTree : Parser source (Tree source) := do
  let start ← here
  let text ← takeName
  return .name (← spanFrom start) text

/-- Takes any word. -/
def takeWord : Parser source String := do
  match ← token with
  | .word text _ =>
    advance
    return text
  | _ => fail

/-- Takes a string. -/
def takeString : Parser source (StringAt source) := do
  match ← token with
  | .string literal =>
    advance
    return literal
  | _ => fail

/-- Takes the current token as something with nothing inside. -/
def leaf : Parser source (Tree source) := do
  let start ← here
  advance
  return .other .leaf (← spanFrom start) []

/-- A construct around some trees, from a place on. -/
def construct (form : Form) (start : Nat) (parts : List (Tree source)) :
    Parser source (Tree source) := do
  return .other form (← spanFrom start) parts

/-- The current token can be the name of a member: a word, a string, a number, a private name, or a
bracket around an expression. -/
def atMemberName : Parser source Bool := do
  match ← token with
  | .word _ _ | .string _ | .number | .privateName _ => return true
  | .mark mark => return mark = "["
  | _ => return false

end Parser

/-- The name of a member. -/
structure MemberName (source : List Char) where
  /-- The text of a name that is not computed. -/
  text : Option String
  isPrivate : Bool
  /-- The name is a word that can name a value. -/
  isName : Bool
  /-- The expression of a computed name. -/
  parts : List (Tree source)

namespace Grammar

open ImportAlias.Script.Parser

/-- The context of an expression in brackets. -/
def enclosed (context : Context) : Context :=
  { context with allowIn := true, inDecorator := false }

/-- Takes the name of a member. -/
def memberName (grammar : Grammar source) : Parser source (MemberName source) := do
  let start ← here
  match ← token with
  | .word text _ =>
    advance
    return ⟨some text, false, text ∉ reservedWords, []⟩
  | .string literal =>
    advance
    return ⟨some (String.ofList literal.val.value), false, false, []⟩
  | .number =>
    advance
    return ⟨none, false, false, []⟩
  | .privateName text =>
    advance
    return ⟨some text, true, false, []⟩
  | .mark "[" =>
    advance
    let inner ← within enclosed (grammar (.assignment true))
    expectMark "]"
    return ⟨none, false, false, [← construct .leaf start [inner]]⟩
  | _ => fail

/-- Takes the name of a property, which is not private. -/
def propertyName (grammar : Grammar source) : Parser source (MemberName source) := do
  let key ← memberName grammar
  require !key.isPrivate
  return key

end Grammar

end Script

end ImportAlias
