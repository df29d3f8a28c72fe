import ImportAlias.Script.Grammar.Parameter
import ImportAlias.Script.Grammar.Template

/-!
# Types

Types are read for their extent. The only expressions in them are computed names of members and the
options of imports.
-/

namespace ImportAlias

namespace Script

variable {source : List Char}

namespace Grammar

open ImportAlias.Script.Parser

/-- A type around the expressions inside it. -/
def typeAround (start : Nat) (parts : List (Tree source)) : Parser source (Tree source) :=
  construct .type start parts

/-- Type arguments on the line of what they belong to, if there are any. -/
def typeArgumentsOnLine (grammar : Grammar source) : Parser source (List (Tree source)) := do
  if !(← fresh) && (← atMarks ["<", "<<", "<<="]) then typeArguments grammar else return []

/-- The names behind dots. -/
def dottedNames : Parser source Unit := do
  let _ ← many do
    if ← eatMark "." then
      match ← token with
      | .privateName _ => advance
      | _ =>
        let _ ← takeWord
      return some ()
    else return none

/-- A name of a type, perhaps with dots and type arguments. -/
def typeReference (grammar : Grammar source) : Parser source (Tree source) := do
  let start ← here
  let _ ← takeName
  dottedNames
  typeAround start (← typeArgumentsOnLine grammar)

/-- The module that a type is taken from. -/
def importType (grammar : Grammar source) : Parser source (Tree source) := do
  let start ← here
  expectWord "import"
  expectMark "("
  let _ ← wholeType grammar
  if (← eatMark ",") && !(← atMark ")") then
    let _ ← within enclosed (grammar (.assignment true))
    let _ ← eatMark ","
  expectMark ")"
  dottedNames
  typeAround start (← typeArgumentsOnLine grammar)

/-- The type of a value. -/
def typeQuery (grammar : Grammar source) : Parser source (Tree source) := do
  let start ← here
  expectWord "typeof"
  if ← atWord "import" then importType grammar
  else
    if ← atWord "this" then advance
    else
      let _ ← takeName
    dottedNames
    typeAround start (← typeArgumentsOnLine grammar)

/-- The end of a member of an object type. -/
def endMember : Parser source Unit := do
  if (← eatMark ";") || (← eatMark ",") then return
  if (← atMark "\x7d") || (← fresh) then return
  fail

/-- The type of a function behind what names it. -/
def signature (grammar : Grammar source) : Parser source (List (Tree source)) := do
  let types ← typeParameters grammar
  let parameters ← parameters grammar
  return types ++ parameters.parts ++ (← resultAnnotation grammar)

/-- The brackets of an index signature with the type behind them. -/
def indexSignature (grammar : Grammar source) : Parser source (List (Tree source)) := do
  expectMark "["
  let _ ← takeName
  let key ← typeAnnotation grammar
  expectMark "]"
  return key ++ (← typeAnnotation grammar)

/-- An index signature starts here: a bracket, a name and a colon. -/
def atIndexSignature : Parser source Bool :=
  holdsAhead do
    expectMark "["
    let _ ← takeName
    atMark ":"

/-- The words before a member of an object type. -/
def skipMemberModifiers (words : List String) : Parser source Unit := do
  let _ ← many do
    let isModifier ← holdsAhead do
      require (← atWords words)
      advance
      return !(← fresh) && (← atMemberName)
    if isModifier then
      advance
      return some ()
    else return none

/-- A member of an object type. -/
def typeMember (grammar : Grammar source) : Parser source (List (Tree source)) := do
  let atSignature : Parser source Bool := atMarks ["(", "<"]
  if ← atSignature then signature grammar
  else if ← holdsAhead (do expectWord "new"; atSignature) then
    advance
    signature grammar
  else
    skipMemberModifiers ["readonly"]
    if ← atIndexSignature then indexSignature grammar
    else
      let isAccessor ← holdsAhead do
        require (← atWords ["get", "set"])
        advance
        atMemberName
      if isAccessor then advance
      let key ← propertyName grammar
      let _ ← eatMark "?"
      if ← atSignature then return key.parts ++ (← signature grammar)
      else return key.parts ++ (← typeAnnotation grammar)

/-- The members of an object type in braces. -/
def typeMembers (grammar : Grammar source) : Parser source (List (Tree source)) := do
  expectMark "\x7b"
  let members ← many do
    if ← atMark "\x7d" then return none
    else
      let member ← typeMember grammar
      endMember
      return some member
  expectMark "\x7d"
  return members.flatten

/-- A mapped type starts here. -/
def atMappedType : Parser source Bool :=
  holdsAhead do
    expectMark "\x7b"
    if (← eatMark "+") || (← eatMark "-") then expectWord "readonly"
    else
      let isModifier ← holdsAhead (do expectWord "readonly"; atMark "[")
      if isModifier then advance
    expectMark "["
    let _ ← takeName
    atWord "in"

/-- A mark that says of all members whether they are there, or whether they can be written: the given
mark or word, perhaps with a sign in front of it. -/
def memberMark (taken : Parser source Bool) : Parser source Unit := do
  if (← eatMark "+") || (← eatMark "-") then
    require (← taken)
  else
    let _ ← taken

/-- A mapped type. -/
def mappedType (grammar : Grammar source) : Parser source (Tree source) := do
  let start ← here
  expectMark "\x7b"
  memberMark (eatWord "readonly")
  expectMark "["
  let _ ← takeName
  expectWord "in"
  let keys ← wholeType grammar
  let renamed ← do
    if ← eatWord "as" then pure [← wholeType grammar] else pure []
  expectMark "]"
  memberMark (eatMark "?")
  let types ← typeAnnotation grammar
  let _ ← (do if (← eatMark ";") || (← eatMark ",") then return)
  expectMark "\x7d"
  typeAround start (keys :: renamed ++ types)

/-- An item of a tuple type. -/
def tupleItem (grammar : Grammar source) : Parser source (Tree source) := do
  let start ← here
  let isNamed ← holdsAhead do
    let _ ← eatMark "..."
    let _ ← takeWord
    let _ ← eatMark "?"
    atMark ":"
  if isNamed then
    let _ ← eatMark "..."
    let _ ← takeWord
    let _ ← eatMark "?"
    typeAround start (← typeAnnotation grammar)
  else
    let _ ← eatMark "..."
    let inner ← wholeType grammar
    let _ ← eatMark "?"
    typeAround start [inner]

/-- A tuple type. -/
def tupleType (grammar : Grammar source) : Parser source (Tree source) := do
  let start ← here
  expectMark "["
  let items ← itemsUntil "]" (tupleItem grammar)
  expectMark "]"
  typeAround start items

/-- A type without operators. -/
def simpleType (grammar : Grammar source) : Parser source (Tree source) := do
  let start ← here
  match ← token with
  | .string _ | .number => leaf
  | .template _ _ => template false (wholeType grammar)
  | .mark "-" =>
    advance
    match ← token with
    | .number =>
      advance
      typeAround start []
    | _ => fail
  | .mark "(" =>
    advance
    let inner ← wholeType grammar
    expectMark ")"
    typeAround start [inner]
  | .mark "[" => tupleType grammar
  | .mark "\x7b" =>
    if ← atMappedType then mappedType grammar
    else typeAround start (← typeMembers grammar)
  | .word text false =>
    if text = "typeof" then typeQuery grammar
    else if text = "import" then importType grammar
    else if text ∈ ["void", "null", "true", "false", "this"] then leaf
    else typeReference grammar
  | .word _ true => typeReference grammar
  | _ => fail

/-- A type with brackets behind it. -/
def indexedType (grammar : Grammar source) : Parser source (Tree source) := do
  let start ← here
  let first ← simpleType grammar
  extend (fun inner => do
    if (← atMark "[") && !(← fresh) then
      advance
      if ← eatMark "]" then return some (← typeAround start [inner])
      else
        let index ← wholeType grammar
        expectMark "]"
        return some (← typeAround start [inner, index])
    else return none) first

/-- A type that is named where it is found, with a bound if it has one. A question mark behind the
bound would belong to a condition. -/
def inferredType (grammar : Grammar source) : Parser source (Tree source) := do
  let start ← here
  expectWord "infer"
  let _ ← takeName
  let plain := (← context).plainTypes
  let bound ← attempt do
    expectWord "extends"
    let bound ← within (fun context => { context with plainTypes := true }) (grammar .type)
    require (plain || !(← atMark "?"))
    return bound
  typeAround start bound.toList

/-- A type with operators in front of it. -/
def typeOperand (grammar : Grammar source) : Parser source (Tree source) := do
  if ← atWords ["keyof", "unique", "readonly"] then
    advance
    grammar .typeOperand
  else if ← atWord "infer" then inferredType grammar
  else indexedType grammar

/-- Types with a mark between them and perhaps in front of them. -/
def typesWith (mark : String) (item : Parser source (Tree source)) :
    Parser source (Tree source) := do
  let start ← here
  let _ ← eatMark mark
  match ← itemsBetween mark item with
  | [single] => return single
  | items => typeAround start items

/-- A type without functions and conditions at its top. -/
def unionType (grammar : Grammar source) : Parser source (Tree source) :=
  typesWith "|" (typesWith "&" (typeOperand grammar))

/-- The type of a function starts here. -/
def atFunctionType (grammar : Grammar source) : Parser source Bool := do
  if ← atMarks ["<", "<<"] then return true
  else if ← atWord "new" then return true
  else if ← holdsAhead (do expectWord "abstract"; atWord "new") then return true
  else
    holdsAhead do
      expectMark "("
      if ← atMarks [")", "..."] then return true
      skipParameterModifiers
      if ← atWord "this" then advance
      else
        let _ ← grammar .binding
      if ← atMarks [":", ",", "?", "="] then return true
      else if ← eatMark ")" then atMark "=>"
      else return false

/-- The type of a function. -/
def functionType (grammar : Grammar source) : Parser source (Tree source) := do
  let start ← here
  let _ ← eatWord "abstract"
  let _ ← eatWord "new"
  let types ← typeParameters grammar
  let parameters ← parameters grammar
  expectMark "=>"
  let result ← resultType grammar
  typeAround start (types ++ parameters.parts ++ [result])

/-- A type. -/
def type (grammar : Grammar source) : Parser source (Tree source) := do
  let start ← here
  if ← atFunctionType grammar then functionType grammar
  else
    let checked ← unionType grammar
    if !(← context).plainTypes && !(← fresh) && (← atWord "extends") then
      advance
      let bound ← within (fun context => { context with plainTypes := true }) (grammar .type)
      expectMark "?"
      let yes ← wholeType grammar
      expectMark ":"
      let no ← wholeType grammar
      typeAround start [checked, bound, yes, no]
    else return checked

/-- The types in angle brackets behind an expression, if what follows them shows that they are
types. -/
def typeArgumentsInExpression (grammar : Grammar source) : Parser source (List (Tree source)) := do
  let arguments ← within (fun context => { context with plainTypes := false }) (do
    require (← eatOpeningAngle)
    let arguments ← itemsUntil ">" (wholeType grammar)
    flawIf arguments.isEmpty
    require (← atMark ">")
    return arguments)
  joinClosing
  require (← atMark ">")
  advance
  match ← token with
  | .template _ _ => return arguments
  | .mark mark =>
    if mark = "(" then return arguments
    else if mark ∈ ["<", ">", "+", "-"] then fail
    else
      require ((← fresh) || mark ∉ ["[", "\x7b", "++", "--", "!", "~", "/", "/=", "@"])
      return arguments
  | .word text false =>
    require ((← fresh) || text ∈ ["in", "instanceof", "as", "satisfies"] ||
      (text ∈ reservedWords && text ∉ ["class", "delete", "false", "function", "import", "new",
        "null", "super", "this", "true", "typeof", "void"]))
    return arguments
  | .finish => return arguments
  | _ =>
    require (← fresh)
    return arguments

end Grammar

end Script

end ImportAlias
