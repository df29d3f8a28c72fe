import ImportAlias.Script.Grammar.Expression
import ImportAlias.Script.Grammar.Module

/-!
# Statements

Blocks, branches, loops and whatever else a list of statements may hold. Imports and exports are
accepted in every such list.
-/

namespace ImportAlias

namespace Script

variable {source : List Char}

namespace Grammar

open ImportAlias.Script.Parser

/-- A statement around the trees inside it. -/
def statementAround (start : Nat) (parts : List (Tree source)) : Parser source (Tree source) :=
  construct .statement start parts

/-- Statements in braces as a statement. -/
def block (grammar : Grammar source) : Parser source (Tree source) := do
  let start ← here
  statementAround start (← statementsInBraces grammar)

/-- A statement that belongs to another one. -/
def body (grammar : Grammar source) : Parser source (Tree source) :=
  grammar (.statement true)

/-- What is asked at the head of a statement. -/
def headExpression (grammar : Grammar source) : Parser source (Tree source) := do
  expectMark "("
  let tree ← grammar .expression
  expectMark ")"
  return tree

/-- A branch. -/
def ifStatement (grammar : Grammar source) : Parser source (Tree source) := do
  let start ← here
  expectWord "if"
  let condition ← headExpression grammar
  let yes ← body grammar
  let no ← do
    if ← eatWord "else" then pure [← body grammar] else pure []
  statementAround start (condition :: yes :: no)

/-- A statement with a head and a body: a loop, or one that adds an object to what is in sight. -/
def headedStatement (grammar : Grammar source) : Parser source (Tree source) := do
  let start ← here
  advance
  let head ← headExpression grammar
  let inner ← body grammar
  statementAround start [head, inner]

/-- A loop with its condition at its end. -/
def doStatement (grammar : Grammar source) : Parser source (Tree source) := do
  let start ← here
  expectWord "do"
  let inner ← body grammar
  expectWord "while"
  let condition ← headExpression grammar
  let _ ← eatMark ";"
  statementAround start [inner, condition]

/-- An expression up to a mark, if there is one. -/
def expressionBefore (grammar : Grammar source) (mark : String) :
    Parser source (List (Tree source)) := do
  if ← atMark mark then return [] else return [← grammar .expression]

/-- The rest of the head of a loop that counts, from the first semicolon on. -/
def countingHead (grammar : Grammar source) : Parser source (List (Tree source)) := do
  expectMark ";"
  let condition ← expressionBefore grammar ";"
  expectMark ";"
  let step ← expressionBefore grammar ")"
  return condition ++ step

/-- What a loop runs over, and whether the words for it are there. -/
def rangeHead? (grammar : Grammar source) (waits : Bool) :
    Parser source (Option (Tree source)) := do
  if ← eatWord "of" then return some (← grammar (.assignment true))
  else if !waits && (← atWord "in") then
    advance
    return some (← grammar .expression)
  else
    require !waits
    return none

/-- The head of a loop that starts with variables. -/
def variablesHead (grammar : Grammar source) (waits : Bool) :
    Parser source (List (Tree source)) := do
  let items ← within (fun context => { context with allowIn := false }) (variableItems grammar)
  let first := items.declaration.tree
  let isIn ← atWord "in"
  match ← rangeHead? grammar waits with
  | some range =>
    flawIf (isIn && items.isResource)
    return [first, range]
  | none =>
    flawIf items.lacksValue
    return first :: (← countingHead grammar)

/-- The head of a loop that starts with an expression. -/
def expressionHead (grammar : Grammar source) (waits : Bool) :
    Parser source (List (Tree source)) := do
  let isLet ← atWord "let"
  let isAsync ← holdsAhead (do expectWord "async"; atWord "of")
  let first ← within (fun context => { context with allowIn := false }) (grammar .expression)
  let isOf ← atWord "of"
  match ← rangeHead? grammar waits with
  | some range =>
    flawIf (isOf && (isLet || (isAsync && !waits && isName first.val)))
    match first.val.targetDefaults? with
    | none => fail
    | some places =>
      modify (fun state => { state with
        looseDefaults := state.looseDefaults.filter (fun place => place ∉ places) })
      return [first, range]
  | none => return first :: (← countingHead grammar)

/-- Variables that are declared with `let` stand here. -/
def atLetHead : Parser source Bool :=
  holdsAhead do
    expectWord "let"
    return (← atName) || (← atMarks ["[", "\x7b"])

/-- A loop with a head of its own kind. -/
def forStatement (grammar : Grammar source) : Parser source (Tree source) := do
  let start ← here
  expectWord "for"
  let waits ← eatWord "await"
  flawIf (waits && !(← context).allowAwait)
  expectMark "("
  let head ← do
    if ← atMark ";" then
      require !waits
      countingHead grammar
    else if (← atWords ["var", "const"]) || (← atLetHead) || (← atResource) then
      variablesHead grammar waits
    else expressionHead grammar waits
  expectMark ")"
  let inner ← body grammar
  statementAround start (head ++ [inner])

/-- A case of a choice between many. -/
def choiceCase (grammar : Grammar source) : Parser source (List (Tree source)) := do
  let condition ← do
    if ← eatWord "case" then pure [← grammar .expression]
    else
      expectWord "default"
      pure []
  expectMark ":"
  let inner ← many do
    if (← atWords ["case", "default"]) || (← atMark "\x7d") then return none
    else return some (← grammar (.statement false))
  return condition ++ inner

/-- A choice between many. -/
def switchStatement (grammar : Grammar source) : Parser source (Tree source) := do
  let start ← here
  expectWord "switch"
  let head ← headExpression grammar
  expectMark "\x7b"
  let cases ← many do
    if ← atMark "\x7d" then return none else return some (← choiceCase grammar)
  expectMark "\x7d"
  statementAround start (head :: cases.flatten)

/-- A statement that leaves a loop or a block. -/
def jumpStatement : Parser source (Tree source) := do
  let start ← here
  advance
  if (← atName) && !(← fresh) then
    let _ ← takeName
  endStatement
  statementAround start []

/-- A statement that leaves a function. -/
def returnStatement (grammar : Grammar source) : Parser source (Tree source) := do
  let start ← here
  flawIf !(← context).allowReturn
  expectWord "return"
  if (← fresh) || (← atMarks [";", "\x7d"]) || (← atFinish) then
    endStatement
    statementAround start []
  else
    let value ← grammar .expression
    endStatement
    statementAround start [value]

/-- A statement that raises an error. -/
def throwStatement (grammar : Grammar source) : Parser source (Tree source) := do
  let start ← here
  expectWord "throw"
  require !(← fresh)
  let value ← grammar .expression
  endStatement
  statementAround start [value]

/-- What catches an error. -/
def catchClause (grammar : Grammar source) : Parser source (List (Tree source)) := do
  expectWord "catch"
  let error ← do
    if ← eatMark "(" then
      let target ← grammar .binding
      let types ← typeAnnotation grammar
      expectMark ")"
      pure (target :: types)
    else pure []
  return error ++ (← statementsInBraces grammar)

/-- A block whose errors are caught, or behind which another one always runs. -/
def tryStatement (grammar : Grammar source) : Parser source (Tree source) := do
  let start ← here
  expectWord "try"
  let tried ← statementsInBraces grammar
  let catches ← atWord "catch"
  let caught ← if catches then catchClause grammar else pure []
  if ← eatWord "finally" then
    let last ← statementsInBraces grammar
    statementAround start (tried ++ caught ++ last)
  else
    require catches
    statementAround start (tried ++ caught)

/-- An expression as a statement, or a statement with a label. -/
def expressionStatement (grammar : Grammar source) : Parser source (Tree source) := do
  let start ← here
  let tree ← grammar .expression
  if isName tree.val && (← atMark ":") then
    advance
    statementAround start [← body grammar]
  else
    endStatement
    statementAround start [tree]

/-- The current token starts an import declaration. -/
def atImport : Parser source Bool :=
  holdsAhead do
    expectWord "import"
    return !(← atMarks ["(", "."])

/-- A class or an export behind decorators. -/
def decorated (grammar : Grammar source) : Parser source (Tree source) := do
  let marks ← decorators grammar
  if ← atWord "export" then exportDeclaration grammar marks
  else
    require ((← atWords ["class", "abstract", "declare"]))
    match ← declaration? grammar false marks with
    | some declaration => return declaration.tree
    | none => fail

/-- A statement that its first word tells, if there is one. -/
def wordStatement? (grammar : Grammar source) (word : String) :
    Option (Parser source (Tree source)) :=
  match word with
  | "if" => some (ifStatement grammar)
  | "for" => some (forStatement grammar)
  | "while" => some (headedStatement grammar)
  | "with" => some (headedStatement grammar)
  | "do" => some (doStatement grammar)
  | "switch" => some (switchStatement grammar)
  | "break" => some jumpStatement
  | "continue" => some jumpStatement
  | "return" => some (returnStatement grammar)
  | "throw" => some (throwStatement grammar)
  | "try" => some (tryStatement grammar)
  | "export" => some (exportDeclaration grammar [])
  | "debugger" => some (do
    let tree ← leaf
    endStatement
    return tree)
  | _ => none

/-- A statement that starts with a word, or an expression. -/
def declarationOrExpression (grammar : Grammar source) (single : Bool) :
    Parser source (Tree source) := do
  if ← atImport then importDeclaration
  else
    match ← declaration? grammar single [] with
    | some declaration => return declaration.tree
    | none => expressionStatement grammar

/-- A statement. The flag tells that it is the only one of a branch or a loop. -/
def statement (grammar : Grammar source) (single : Bool) : Parser source (Tree source) := do
  match ← token with
  | .mark "\x7b" => block grammar
  | .mark ";" => leaf
  | .mark "@" => decorated grammar
  | .word text false =>
    match wordStatement? grammar text with
    | some reader => reader
    | none => declarationOrExpression grammar single
  | _ => expressionStatement grammar

end Grammar

end Script

end ImportAlias
