import ImportAlias.Script.Grammar.Operand

/-!
# Expressions

Operators with two operands, conditions, assignments and arrow functions. Whether something in
parentheses is the parameters of an arrow function shows only behind it, so that it may have to be
read twice.
-/

namespace ImportAlias

namespace Script

/-- The marks of operators with two operands, by how tightly they bind. -/
def operatorLevels : List (String × Nat) :=
  [("??", 1), ("||", 2), ("&&", 3), ("|", 4), ("^", 5), ("&", 6), ("==", 7), ("!=", 7), ("===", 7),
    ("!==", 7), ("<", 8), (">", 8), ("<=", 8), (">=", 8), ("<<", 9), (">>", 9), (">>>", 9),
    ("+", 10), ("-", 10), ("*", 11), ("/", 11), ("%", 11), ("**", 12)]

/-- How tightly the operators that are words bind. -/
def wordLevel : Nat := 8

/-- The marks of assignments with an operator. -/
def updateMarks : List String :=
  ["+=", "-=", "*=", "/=", "%=", "**=", "<<=", ">>=", ">>>=", "&=", "|=", "^=", "&&=", "||=", "??="]

variable {source : List Char}

namespace Parser

/-- The operator with two operands at the current place and how tightly it binds. -/
def operator? : Parser source (Option (String × Nat)) := do
  joinClosing
  match ← token with
  | .mark mark => return (operatorLevels.lookup mark).map (mark, ·)
  | .word text false =>
    if text = "instanceof" || (text = "in" && (← context).allowIn) then
      return some (text, wordLevel)
    else if text ∈ ["as", "satisfies"] && (← typed) && !(← fresh) then
      return some (text, wordLevel)
    else return none
  | _ => return none

end Parser

namespace Grammar

open ImportAlias.Script.Parser

/-- An operation with two operands. A choice between values by absence does not mix with other
logical operators. -/
def operation (start : Nat) (operator : String) (left right : Tree source) :
    Parser source (Tree source) := do
  let isLogical (tree : Tree source) : Bool :=
    tree.val.form? = some .logicalOr || tree.val.form? = some .logicalAnd
  match operator with
  | "+" => return .sum (← spanFrom start) left right
  | "||" => construct .logicalOr start [left, right]
  | "&&" => construct .logicalAnd start [left, right]
  | "??" =>
    flawIf (isLogical left || isLogical right)
    construct .coalescing start [left, right]
  | _ => construct .binary start [left, right]

/-- The operator behind an operand with what belongs to it, if it binds tighter than a level. -/
def operationFrom? (grammar : Grammar source) (start level : Nat) (left : Tree source) :
    Parser source (Option (Tree source)) := do
  match ← operator? with
  | none => return none
  | some (operator, own) =>
    if own ≤ level then return none
    else
      advance
      if operator = "as" || operator = "satisfies" then
        if ← eatWord "const" then return some (← construct .typed start [left])
        else
          let type ← wholeType grammar
          return some (← construct .typed start [left, type])
      else
        let right ← grammar (.operands (if operator = "**" then own - 1 else own))
        return some (← operation start operator left right)

/-- The question whether an object has a private member. -/
def privateTest (grammar : Grammar source) : Parser source (Tree source) := do
  let start ← here
  advance
  require (← context).allowIn
  expectWord "in"
  let object ← grammar .unary
  construct .binary start [object]

/-- Operands with operators that bind tighter than a level. -/
def operands (grammar : Grammar source) (level : Nat) : Parser source (Tree source) := do
  let start ← here
  let first ← do
    match ← token with
    | .privateName _ => privateTest grammar
    | _ => unary grammar
  extend (operationFrom? grammar start level) first

/-- What the start of an expression says of its being an arrow function. -/
inductive ArrowGuess where
  | certain
  | possible
  | none

/-- The guess for what starts with a parenthesis. -/
def guessInParentheses : Parser source ArrowGuess := do
  expectMark "("
  if ← eatMark ")" then
    return if ← atMarks ["=>", ":", "\x7b"] then .certain else .none
  else if ← atMarks ["[", "\x7b"] then return .possible
  else if ← atMark "..." then return .certain
  else
    require ((← atName) || (← atWord "this"))
    advance
    if ← atMark ":" then return .certain
    else if ← eatMark "?" then
      return if ← atMarks [":", ",", "=", ")"] then .certain else .none
    else return if ← atMarks [",", "=", ")"] then .possible else .none

/-- The guess for what starts with an angle bracket. Where there is markup, type parameters have to
show that they are none. -/
def guessInAngles : Parser source ArrowGuess := do
  expectMark "<"
  require ((← atName) || (← atWord "const"))
  if (← dialect).markup then
    let _ ← eatWord "const"
    advance
    if ← eatWord "extends" then
      return if ← atMarks ["=", ">", "/"] then .none else .certain
    else return if ← atMarks [",", "="] then .certain else .none
  else return .possible

/-- The guess for what starts at the current place. -/
def arrowGuess : Parser source ArrowGuess := do
  let guess ← ahead do
    let isAsync ← eatWord "async"
    require !(isAsync && (← fresh))
    if ← atMark "(" then guessInParentheses
    else
      require (← typed)
      guessInAngles
  return guess.getD .none

/-- An arrow function up to its arrow. -/
structure ArrowHead (source : List Char) where
  isAsync : Bool
  hasResultType : Bool
  parts : List (Tree source)

/-- An arrow function up to its arrow, which stands on the line of the parameters. -/
def arrowHead (grammar : Grammar source) : Parser source (ArrowHead source) := do
  let isAsync ← eatWord "async"
  within (fun context => { context with allowAwait := context.allowAwait || isAsync }) do
    let types ← typeParameters grammar
    let parameters ← parameters grammar
    let result ← resultAnnotation grammar
    flawIf (← fresh)
    expectMark "=>"
    return ⟨isAsync, !result.isEmpty, types ++ parameters.parts ++ result⟩

/-- The body of an arrow function. -/
def arrowBody (grammar : Grammar source) (isAsync arrowTypes : Bool) :
    Parser source (List (Tree source)) :=
  within (fun context => { context with allowAwait := isAsync, allowYield := false }) do
    if ← atMark "\x7b" then within enclosed (functionBody grammar)
    else return [← grammar (.assignment arrowTypes)]

/-- An arrow function behind its arrow. -/
def arrowFrom (grammar : Grammar source) (start : Nat) (head : ArrowHead source)
    (arrowTypes : Bool) : Parser source (Tree source) := do
  let body ← arrowBody grammar head.isAsync arrowTypes
  construct .function start (head.parts ++ body)

/-- An arrow function with parameters in parentheses, if there is one. Where a colon belongs to a
condition, one with the type of its result counts only if another colon follows. -/
def arrowFunction? (grammar : Grammar source) (arrowTypes : Bool) :
    Parser source (Option (Tree source)) := do
  let before ← state
  let start ← here
  match ← arrowGuess with
  | .none => return none
  | .certain =>
    let head ← arrowHead grammar
    return some (← arrowFrom grammar start head true)
  | .possible =>
    if start ∈ before.notArrow then return none
    else
      match ← attempt (arrowHead grammar) with
      | none =>
        modify (fun state => { state with notArrow := start :: state.notArrow })
        return none
      | some head =>
        let tree ← arrowFrom grammar start head arrowTypes
        if !arrowTypes && head.hasResultType && !(← atMark ":") then
          modify (fun after => { before with notArrow := after.notArrow })
          return none
        else return some tree

/-- An asynchronous arrow function with a name for its parameter starts here. -/
def atAsyncArrow : Parser source Bool :=
  holdsAhead do
    expectWord "async"
    require ((← atName) && !(← fresh))
    advance
    atMark "=>"

/-- An asynchronous arrow function with a name for its parameter. -/
def asyncArrow (grammar : Grammar source) (arrowTypes : Bool) : Parser source (Tree source) := do
  let start ← here
  expectWord "async"
  let parameter ← within (fun context => { context with allowAwait := true }) nameTree
  flawIf (← fresh)
  expectMark "=>"
  arrowFrom grammar start ⟨true, false, [parameter]⟩ arrowTypes

/-- An expression that hands out a value from a generator. -/
def yieldExpression (grammar : Grammar source) : Parser source (Tree source) := do
  let start ← here
  flawIf !(← context).allowYield
  advance
  if ← fresh then construct .unary start []
  else
    let delegates ← eatMark "*"
    let ends := (← atMarks [";", "\x7d", ")", "]", ":", ","]) || (← atFinish) || (← atWord "in")
    if ends && !delegates then construct .unary start []
    else
      let value ← within (fun context => { context with allowYield := true })
        (grammar (.assignment true))
      construct .unary start [value]

/-- An assignment behind its target. A default in a literal is right once the literal is a target.
-/
def assignTo (grammar : Grammar source) (start : Nat) (target : Tree source) (arrowTypes : Bool) :
    Parser source (Tree source) := do
  if ← eatMark "=" then
    match target.val.targetDefaults? with
    | none => fail
    | some places =>
      modify (fun state => { state with
        looseDefaults := state.looseDefaults.filter (fun place => place ∉ places) })
      let value ← grammar (.assignment arrowTypes)
      construct .assignment start [target, value]
  else
    require target.val.isSimpleTarget
    advance
    let value ← grammar (.assignment arrowTypes)
    construct .update start [target, value]

/-- A condition with two outcomes behind its question mark. -/
def conditionalFrom (grammar : Grammar source) (start : Nat) (condition : Tree source)
    (arrowTypes : Bool) : Parser source (Tree source) := do
  let yes ← within (fun context => { context with allowIn := true })
    (grammar (.assignment false))
  expectMark ":"
  let no ← grammar (.assignment arrowTypes)
  construct .conditional start [condition, yes, no]

/-- The node is a name. -/
def isName : Node → Bool
  | .name _ _ => true
  | _ => false

/-- An expression without commas. -/
def assignment (grammar : Grammar source) (arrowTypes : Bool) : Parser source (Tree source) := do
  let start ← here
  if ← atOperationWord "yield" Context.allowYield then yieldExpression grammar
  else
    match ← arrowFunction? grammar arrowTypes with
    | some tree => return tree
    | none =>
      if ← atAsyncArrow then asyncArrow grammar arrowTypes
      else
        let left ← operands grammar 0
        if isName left.val && (← atMark "=>") then
          flawIf (← fresh)
          advance
          arrowFrom grammar start ⟨false, false, [left]⟩ arrowTypes
        else if (← atMark "=") || (← atMarks updateMarks) then
          assignTo grammar start left arrowTypes
        else if ← eatMark "?" then conditionalFrom grammar start left arrowTypes
        else return left

end Grammar

end Script

end ImportAlias
