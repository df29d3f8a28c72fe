import ImportAlias.Script.Grammar.Binding

/-!
# Parameters

The parameters of functions and of types: what is bound, the types of it and the decorators on it.
Types leave no trees behind, apart from the expressions in them.
-/

namespace ImportAlias

namespace Script

/-- The words that may stand before a parameter of a typed source. -/
def parameterModifiers : List String :=
  ["public", "private", "protected", "readonly", "override"]

variable {source : List Char}

namespace Parser

/-- Takes the bracket that opens a list of types, if it is the current token. -/
def eatOpeningAngle : Parser source Bool := do
  if ← atMarks ["<", "<<", "<<="] then
    splitOpening
    advance
    return true
  else return false

/-- The current token is a name of a value or one of some words, on the line of the last token. -/
def atNameOnLine (words : List String) : Parser source Bool := do
  if ← fresh then return false
  return (← atName) || (← atWords words)

end Parser

namespace Grammar

open ImportAlias.Script.Parser

/-- A type in which conditional types need no parentheses. -/
def wholeType (grammar : Grammar source) : Parser source (Tree source) :=
  within (fun context => { context with plainTypes := false }) (grammar .type)

/-- The type behind a colon, if there is one. -/
def typeAnnotation (grammar : Grammar source) : Parser source (List (Tree source)) := do
  if (← typed) && (← atMark ":") then
    advance
    return [← wholeType grammar]
  else return []

/-- The type that a function gives back, which may tell what its result says of a parameter. -/
def resultType (grammar : Grammar source) : Parser source (Tree source) := do
  let start ← here
  let asserts ← holdsAhead do
    expectWord "asserts"
    atNameOnLine ["this"]
  if asserts then
    advance
    advance
    if (← atWord "is") && !(← fresh) then
      advance
      construct .type start [← wholeType grammar]
    else construct .type start []
  else
    let tells ← holdsAhead do
      require ((← atName) || (← atWord "this"))
      advance
      return (← atWord "is") && !(← fresh)
    if tells then
      advance
      advance
      construct .type start [← wholeType grammar]
    else wholeType grammar

/-- The type of a result behind a colon, if there is one. -/
def resultAnnotation (grammar : Grammar source) : Parser source (List (Tree source)) := do
  if (← typed) && (← atMark ":") then
    advance
    return [← resultType grammar]
  else return []

/-- The name of a type parameter with what stands before and behind it. -/
def typeParameter (grammar : Grammar source) : Parser source (List (Tree source)) := do
  let _ ← many do
    let isModifier ← holdsAhead do
      require (← atWords ["const", "in", "out"])
      advance
      return (← atName) || (← atWord "in")
    if isModifier then
      advance
      return some ()
    else return none
  let _ ← takeName
  let bound ← do
    if ← eatWord "extends" then pure [← wholeType grammar] else pure []
  let byDefault ← do
    if ← eatMark "=" then pure [← wholeType grammar] else pure []
  return bound ++ byDefault

/-- The type parameters of a declaration, if it has any; there has to be one in the brackets. -/
def typeParameters (grammar : Grammar source) : Parser source (List (Tree source)) := do
  if (← typed) && (← atMark "<") then
    advance
    let parameters ← itemsUntil ">" (typeParameter grammar)
    expectMark ">"
    flawIf parameters.isEmpty
    return parameters.flatten
  else return []

/-- The types in angle brackets; there has to be one. -/
def typeArguments (grammar : Grammar source) : Parser source (List (Tree source)) := do
  require (← eatOpeningAngle)
  let arguments ← itemsUntil ">" (wholeType grammar)
  expectMark ">"
  flawIf arguments.isEmpty
  return arguments

/-- A decorator. -/
def decorator (grammar : Grammar source) : Parser source (Tree source) := do
  expectMark "@"
  within (fun context => { context with inDecorator := true, allowIn := true })
    (grammar .leftSide)

/-- The decorators in front of a declaration. -/
def decorators (grammar : Grammar source) : Parser source (List (Tree source)) :=
  many do
    if ← atMark "@" then return some (← decorator grammar) else return none

/-- The modifiers in front of a parameter. -/
def skipParameterModifiers : Parser source Unit := do
  let _ ← many do
    let isModifier ← holdsAhead do
      require ((← typed) && (← atWords parameterModifiers))
      advance
      return (← atName) || (← atMarks ["[", "\x7b"]) || (← atWord "this")
    if isModifier then
      advance
      return some ()
    else return none

/-- A parameter. The flag tells that it takes all that is left over. -/
def parameter (grammar : Grammar source) : Parser source (Bool × List (Tree source)) := do
  let marks ← decorators grammar
  skipParameterModifiers
  let start ← here
  if (← typed) && (← eatWord "this") then
    return (false, marks ++ (← typeAnnotation grammar))
  let takesRest ← eatMark "..."
  let target ← grammar .binding
  if ← typed then
    let isOptional ← eatMark "?"
    flawIf (isOptional && takesRest)
  let types ← typeAnnotation grammar
  let value ← withDefault grammar start target
  return (takesRest, marks ++ types ++ [value])

/-- The parameters of a function. -/
structure Parameters (source : List Char) where
  count : Nat
  /-- The last parameter takes all that is left over. -/
  takesRest : Bool
  parts : List (Tree source)

/-- Parameters in parentheses. One that takes all that is left over has to be the last one, with no
comma behind it. -/
def parameters (grammar : Grammar source) : Parser source (Parameters source) := do
  expectMark "("
  let items ← many do
    if ← atMark ")" then return none
    else
      let (takesRest, parts) ← within enclosed (parameter grammar)
      if takesRest then flawIf !(← atMark ")")
      if !(← atMark ")") then expectMark ","
      return some (takesRest, parts)
  expectMark ")"
  return ⟨items.length, items.any (fun item => item.1), items.flatMap (fun item => item.2)⟩

end Grammar

end Script

end ImportAlias
