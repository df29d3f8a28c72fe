import ImportAlias.Script.Grammar.Type

/-!
# Markup

Elements with their attributes and what stands between their tags. Between tags there are no tokens:
the text is read up to the next bracket or brace. An element ends with its closing bracket as the
current token, since what follows it is text when the element stands inside another one.
-/

namespace ImportAlias

namespace Script

variable {source : List Char}

namespace Parser

/-- Takes a name in markup, which may have hyphens in it. -/
def markupWord : Parser source String := do
  match ← token with
  | .word _ _ =>
    let here := (← state).lexeme.here
    let length := markupNameLength here.rest
    let behind := here.drop length
    enter (lexemeBehind (← dialect).isModule false behind) behind.offset
    return String.ofList (here.rest.take length)
  | _ => fail

/-- Takes a string in a tag. -/
def markupString : Parser source Unit := do
  let here := (← state).lexeme.here
  match markupStringLength? here.rest with
  | some length =>
    let behind := here.drop length
    enter (lexemeBehind (← dialect).isModule false behind) behind.offset
  | none => fail

/-- Takes the current mark and the text behind it up to a bracket or a brace. -/
def markupText : Parser source Unit := do
  let behind := (← state).lexeme.next
  match markupTextLength? behind.rest with
  | some length =>
    let stop := behind.drop length
    enter (lexemeBehind (← dialect).isModule false stop) stop.offset
  | none => fail

end Parser

namespace Grammar

open ImportAlias.Script.Parser

/-- The name of an attribute, perhaps with a colon in it. -/
def attributeName : Parser source String := do
  let first ← markupWord
  if ← eatMark ":" then return first ++ ":" ++ (← markupWord) else return first

/-- The name of an element: a name of markup, or names with dots between them. -/
def elementName : Parser source String := do
  let first ← markupWord
  if ← eatMark ":" then return first ++ ":" ++ (← markupWord)
  else
    let rest ← many do
      if ← eatMark "." then return some (← markupWord) else return none
    require (rest.isEmpty || !first.contains '-')
    return ".".intercalate (first :: rest)

/-- An expression in markup, which has no commas of its own. -/
def markupExpression (grammar : Grammar source) : Parser source (Tree source) := do
  let inner ← within enclosed (grammar .expression)
  require (inner.val.form? ≠ some .sequence)
  return inner

/-- The value of an attribute. -/
def attributeValue (grammar : Grammar source) : Parser source (List (Tree source)) := do
  if ← atMark "\x7b" then
    advance
    let inner ← markupExpression grammar
    expectMark "\x7d"
    return [inner]
  else if ← atMark "<" then
    let inner ← grammar .element
    expectMark ">"
    return [inner]
  else
    markupString
    return []

/-- An attribute, or properties that are spread. -/
def elementAttribute (grammar : Grammar source) : Parser source (List (Tree source)) := do
  if ← eatMark "\x7b" then
    expectMark "..."
    let inner ← within enclosed (grammar (.assignment true))
    expectMark "\x7d"
    return [inner]
  else
    let _ ← attributeName
    if ← eatMark "=" then attributeValue grammar else return []

/-- What stands between tags, up to the closing tag, whose name it gives. The current token is the
mark in front of the text. -/
def elementChildren (grammar : Grammar source) :
    Nat → Parser source (String × List (Tree source))
  | 0 => fail
  | fuel + 1 => do
    markupText
    let isClosing ← holdsAhead do
      expectMark "<"
      atMark "/"
    if isClosing then
      advance
      advance
      if ← atMark ">" then return ("", [])
      else
        let name ← elementName
        require (← atMark ">")
        return (name, [])
    else
      let child ← do
        if ← atMark "<" then pure [← grammar .element]
        else
          expectMark "\x7b"
          if ← atMark "\x7d" then pure []
          else
            let _ ← eatMark "..."
            let inner ← markupExpression grammar
            require (← atMark "\x7d")
            pure [inner]
      let (name, rest) ← elementChildren grammar fuel
      return (name, child ++ rest)

/-- An element up to its closing bracket, which is left as the current token. -/
def element (grammar : Grammar source) : Parser source (Tree source) := do
  let start ← here
  expectMark "<"
  if ← atMark ">" then
    let (name, children) ← elementChildren grammar (← context).bound
    require (name = "")
    construct .markup start children
  else
    let name ← elementName
    let types ← do
      if (← typed) && (← atMarks ["<", "<<"]) then typeArguments grammar else pure []
    let attributes ← many do
      if (← atMarks ["/", ">"]) || (← atFinish) then return none
      else return some (← elementAttribute grammar)
    let inner := types ++ attributes.flatten
    if ← eatMark "/" then
      require (← atMark ">")
      construct .markup start inner
    else
      require (← atMark ">")
      let (closing, children) ← elementChildren grammar (← context).bound
      require (closing = name)
      construct .markup start (inner ++ children)

end Grammar

end Script

end ImportAlias
