import ImportAlias.Script.Grammar.Expression

/-!
# Declarations

What declares names: variables, functions and classes, and in a typed source types, enumerations and
namespaces. A declaration comes with the names of the values that it declares.
-/

namespace ImportAlias

namespace Script

/-- The words behind which a declaration may exist elsewhere. -/
def declarationWords : List String :=
  ["var", "let", "const", "function", "class", "enum", "async", "abstract", "interface", "type",
    "namespace", "module", "global"]

variable {source : List Char}

/-- A declaration and the names of the values that it declares. -/
structure Declaration (source : List Char) where
  names : List String
  tree : Tree source

/-- A declaration of variables. -/
structure Variables (source : List Char) where
  declaration : Declaration source
  /-- They hold resources that are released at the end of their block. -/
  isResource : Bool
  /-- A variable has no value that ought to have one. -/
  lacksValue : Bool

namespace Grammar

open ImportAlias.Script.Parser

/-- A word stands here, and a name of a value behind it on its line. -/
def atWordBeforeName (word : String) : Parser source Bool :=
  holdsAhead do
    expectWord word
    return (← atName) && !(← fresh)

/-- A resource that is released at the end of its block is declared here. -/
def atResource : Parser source Bool :=
  holdsAhead do
    let waits ← eatWord "await"
    require !(waits && (← fresh))
    expectWord "using"
    return (← atName) && !(← fresh) && !(← atWord "of")

/-- What stands here goes on with an expression that has started with a name. -/
def continuesName : Parser source Bool := do
  match ← token with
  | .mark mark =>
    let isOperator := (operatorLevels.lookup mark).isSome && mark ∉ ["??", "||", "&&"]
    return isOperator || mark ∈ ["=", ".", "(", ";"] || mark ∈ updateMarks
  | .word text false => return text ∈ ["in", "instanceof"]
  | _ => return false

/-- A declaration that starts with `let` stands here, and not an expression. As the only statement of
a branch it is one only before a bracket. -/
def atLet (single : Bool) : Parser source Bool :=
  holdsAhead do
    expectWord "let"
    if single then atMark "[" else return !(← continuesName)

/-- A variable with its type and its value; a pattern and a constant ought to have a value. -/
def variableItem (grammar : Grammar source) (isConstant : Bool) :
    Parser source (List String × Bool × List (Tree source)) := do
  let target ← grammar .binding
  if (← typed) && !(← fresh) then
    let _ ← eatMark "!"
  let types ← typeAnnotation grammar
  let value ← do
    if ← eatMark "=" then pure [← grammar (.assignment true)] else pure []
  let lacksValue := value.isEmpty && (isConstant || target.val.form? = some .pattern)
  return (target.val.boundNames, lacksValue, target :: types ++ value)

/-- Variables from their keyword on. -/
def variableItems (grammar : Grammar source) : Parser source (Variables source) := do
  let start ← here
  let waits ← eatWord "await"
  flawIf (waits && !(← context).allowAwait)
  let isResource ← atWord "using"
  let isConstant := isResource || (← atWord "const")
  advance
  let items ← itemsBetween "," do
    if isResource then require (← atName)
    variableItem grammar isConstant
  let names := items.flatMap (fun item => item.1)
  let tree ← construct .statement start (items.flatMap (fun item => item.2.2))
  return ⟨⟨names, tree⟩, isResource, items.any (fun item => item.2.1)⟩

/-- Variables as a statement. -/
def variableDeclaration (grammar : Grammar source) : Parser source (Declaration source) := do
  let items ← variableItems grammar
  flawIf (items.lacksValue && !(← context).ambient)
  endStatement
  return items.declaration

/-- A function as a statement. As the only statement of a branch it is a plain one. -/
def functionDeclaration (grammar : Grammar source) (single : Bool) :
    Parser source (Declaration source) := do
  let (names, kind, tree) ← namedFunction grammar false true
  flawIf (single && (kind.isAsync || kind.isGenerator))
  return ⟨names, tree⟩

/-- A class as a statement. -/
def classDeclaration (grammar : Grammar source) (marks : List (Tree source)) :
    Parser source (Declaration source) := do
  let (names, tree) ← namedClass grammar marks
  return ⟨names, tree⟩

/-- A name for a type. -/
def typeDeclaration (grammar : Grammar source) : Parser source (Tree source) := do
  let start ← here
  expectWord "type"
  let _ ← takeName
  let parameters ← typeParameters grammar
  expectMark "="
  let meant ← wholeType grammar
  endStatement
  construct .type start (parameters ++ [meant])

/-- An interface. -/
def interfaceDeclaration (grammar : Grammar source) : Parser source (Tree source) := do
  let start ← here
  expectWord "interface"
  let _ ← takeName
  let parameters ← typeParameters grammar
  let bases ← do
    if ← eatWord "extends" then itemsBetween "," (typeReference grammar) else pure []
  let members ← typeMembers grammar
  construct .type start (parameters ++ bases ++ members)

/-- A member of an enumeration. -/
def enumerationMember (grammar : Grammar source) : Parser source (List (Tree source)) := do
  let key ← propertyName grammar
  require (key.text.isSome || !key.parts.isEmpty)
  if ← eatMark "=" then return key.parts ++ [← grammar (.assignment true)] else return key.parts

/-- An enumeration. -/
def enumerationDeclaration (grammar : Grammar source) : Parser source (Tree source) := do
  let start ← here
  let _ ← eatWord "const"
  expectWord "enum"
  let _ ← takeName
  expectMark "\x7b"
  let members ← within enclosed (itemsUntil "\x7d" (enumerationMember grammar))
  expectMark "\x7d"
  construct .statement start members.flatten

/-- A namespace or a module that is declared by a string. -/
def namespaceDeclaration (grammar : Grammar source) : Parser source (Tree source) := do
  let start ← here
  advance
  let isModule ← do
    match ← token with
    | .string _ =>
      advance
      pure true
    | _ => pure false
  if !isModule && !(← atMark "\x7b") then
    let _ ← itemsBetween "." takeWord
  if isModule && !(← atMark "\x7b") then
    endStatement
    construct .statement start []
  else construct .statement start (← statementsInBraces grammar)

/-- A namespace or a module starts here. -/
def atNamespace : Parser source Bool := do
  if ← atWordBeforeName "namespace" then return true
  else
    holdsAhead do
      if ← eatWord "global" then atMark "\x7b"
      else
        expectWord "module"
        require !(← fresh)
        match ← token with
        | .string _ => return true
        | _ => atName

/-- An enumeration starts here. -/
def atEnumeration : Parser source Bool :=
  holdsAhead do
    let _ ← eatWord "const"
    atWord "enum"

/-- A class that is not made as such starts here. -/
def atAbstractClass : Parser source Bool :=
  holdsAhead do
    expectWord "abstract"
    return (← atWord "class") && !(← fresh)

/-- A declaration of types or namespaces, if one starts here. -/
def typedDeclaration? (grammar : Grammar source) : Parser source (Option (Tree source)) := do
  if !(← typed) then return none
  else if ← atWordBeforeName "type" then return some (← typeDeclaration grammar)
  else if ← atWordBeforeName "interface" then return some (← interfaceDeclaration grammar)
  else if ← atEnumeration then return some (← enumerationDeclaration grammar)
  else if ← atNamespace then return some (← namespaceDeclaration grammar)
  else return none

/-- A declaration of something that exists here, if one starts here. The flag tells that it is the
only statement of a branch. -/
def plainDeclaration? (grammar : Grammar source) (single : Bool) (marks : List (Tree source)) :
    Parser source (Option (Declaration source)) := do
  if (← typed) && (← atAbstractClass) then
    advance
    return some (← classDeclaration grammar marks)
  else if ← atWord "class" then
    flawIf single
    return some (← classDeclaration grammar marks)
  else if (← atWord "function") || (← atAsyncFunction) then
    return some (← functionDeclaration grammar single)
  else
    match ← typedDeclaration? grammar with
    | some tree => return some ⟨[], tree⟩
    | none =>
      if ← atWord "var" then return some (← variableDeclaration grammar)
      else if (← atWord "const") || (← atLet single) || (← atResource) then
        flawIf single
        return some (← variableDeclaration grammar)
      else return none

/-- A declaration of something that exists elsewhere starts here. -/
def atAmbient : Parser source Bool :=
  holdsAhead do
    require (← typed)
    expectWord "declare"
    return (← atWords declarationWords) && !(← fresh)

/-- A declaration, if one starts here. -/
def declaration? (grammar : Grammar source) (single : Bool) (marks : List (Tree source)) :
    Parser source (Option (Declaration source)) := do
  if ← atAmbient then
    advance
    within (fun context => { context with ambient := true })
      (plainDeclaration? grammar single marks)
  else plainDeclaration? grammar single marks

end Grammar

end Script

end ImportAlias
