import ImportAlias.Script.Grammar.Class
import ImportAlias.Script.Grammar.Markup
import ImportAlias.Script.Target

/-!
# Operands

Expressions without operators: literals, names, and what stands in brackets, followed by members,
calls and the rest of a chain; and these with the operators of a single operand.
-/

namespace ImportAlias

namespace Script

variable {source : List Char}

namespace Grammar

open ImportAlias.Script.Parser

/-- Expressions with commas between them. -/
def expression (grammar : Grammar source) : Parser source (Tree source) := do
  let start ← here
  match ← itemsBetween "," (grammar (.assignment true)) with
  | [single] => return single
  | items => construct .sequence start items

/-- An expression in parentheses. -/
def parenthesized (grammar : Grammar source) : Parser source (Tree source) := do
  let start ← here
  expectMark "("
  let inner ← within enclosed (grammar .expression)
  expectMark ")"
  return .parentheses (← spanFrom start) inner

/-- A regular expression, which starts at the current mark. -/
def regex : Parser source (Tree source) := do
  let start ← here
  let cursor := (← state).lexeme.here
  match regexAt? cursor.rest with
  | some length =>
    let behind := cursor.drop length
    enter (lexemeBehind (← dialect).isModule false behind) behind.offset
    construct .leaf start []
  | none => fail

/-- The arguments of an import that is an expression: what is imported, and perhaps options. -/
def importArguments (grammar : Grammar source) (start : Nat) : Parser source (Tree source) := do
  expectMark "("
  let specifier ← within enclosed (grammar (.assignment true))
  let options ← do
    if (← eatMark ",") && !(← atMark ")") then
      let options ← within enclosed (grammar (.assignment true))
      let _ ← eatMark ","
      pure [options]
    else pure []
  expectMark ")"
  return .importCall (← spanFrom start) specifier options

/-- An import that is an expression, or what is known of the module itself. -/
def importExpression (grammar : Grammar source) : Parser source (Tree source) := do
  let start ← here
  expectWord "import"
  if ← eatMark "." then
    if (← eatWord "source") || (← eatWord "defer") then importArguments grammar start
    else
      expectWord "meta"
      construct .leaf start []
  else importArguments grammar start

/-- The part of an object that it inherits; a member or a call has to follow. -/
def inherited : Parser source (Tree source) := do
  let tree ← leaf
  require (← atMarks [".", "(", "["])
  return tree

/-- An expression that starts with a word. -/
def wordOperand (grammar : Grammar source) (text : String) : Parser source (Tree source) := do
  if text ∈ ["this", "null", "true", "false"] then leaf
  else if text = "super" then inherited
  else if text = "new" then grammar .construction
  else if text = "import" then importExpression grammar
  else if text = "class" then
    let (_, tree) ← namedClass grammar []
    return tree
  else if text = "function" || (← atAsyncFunction) then
    let (_, _, tree) ← namedFunction grammar true false
    return tree
  else nameTree

/-- An expression without anything behind it. -/
def primary (grammar : Grammar source) : Parser source (Tree source) := do
  match ← token with
  | .word text false => wordOperand grammar text
  | .word _ true => nameTree
  | .number => leaf
  | .string literal =>
    advance
    return .string literal
  | .template _ _ => template false (within enclosed (grammar .expression))
  | .mark "(" => parenthesized grammar
  | .mark "[" => arrayLiteral grammar
  | .mark "\x7b" => objectLiteral grammar
  | .mark "/" => regex
  | .mark "/=" => regex
  | .mark "<" =>
    require (← dialect).markup
    let inner ← grammar .element
    expectMark ">"
    return inner
  | .mark "@" =>
    let marks ← decorators grammar
    let (_, tree) ← namedClass grammar marks
    return tree
  | _ => fail

/-- An expression with members and calls behind it, and whether one of them is optional. -/
structure Chain (source : List Char) where
  tree : Tree source
  isOptional : Bool

/-- A member with a name. -/
def namedMember (start : Nat) (object : Tree source) : Parser source (Tree source) := do
  match ← token with
  | .privateName _ =>
    advance
    construct .privateMember start [object]
  | _ =>
    let property ← takeWord
    return .member (← spanFrom start) object property

/-- A member in brackets. -/
def indexedMember (grammar : Grammar source) (start : Nat) (object : Tree source) :
    Parser source (Tree source) := do
  expectMark "["
  let index ← within enclosed (grammar .expression)
  expectMark "]"
  construct .index start [object, index]

/-- A call, perhaps with type arguments. -/
def callWith (grammar : Grammar source) (start : Nat) (callee : Tree source)
    (types : List (Tree source)) : Parser source (Tree source) := do
  let values ← arguments grammar
  let call := Tree.call (← spanFrom start) callee values
  if types.isEmpty then return call else construct .instantiation start (call :: types)

/-- A template behind a tag. -/
def taggedTemplate (grammar : Grammar source) (start : Nat) (chain : Chain source)
    (types : List (Tree source)) : Parser source (Chain source) := do
  flawIf chain.isOptional
  let text ← template true (within enclosed (grammar .expression))
  return { chain with tree := ← construct .tagged start (chain.tree :: types ++ [text]) }

/-- What follows the mark of an optional link. -/
def optionalLink (grammar : Grammar source) (calls : Bool) (start : Nat) (object : Tree source) :
    Parser source (Chain source) := do
  if ← atMark "[" then return ⟨← indexedMember grammar start object, true⟩
  else
    let types ← do
      if (← typed) && (← atMarks ["<", "<<"]) then typeArguments grammar else pure []
    if ← atMark "(" then
      require calls
      return ⟨← callWith grammar start object types, true⟩
    else
      require types.isEmpty
      return ⟨← namedMember start object, true⟩

/-- The type arguments of a link with what uses them. -/
def typedLink (grammar : Grammar source) (calls : Bool) (start : Nat) (chain : Chain source) :
    Parser source (Option (Chain source)) := do
  match ← attempt (typeArgumentsInExpression grammar) with
  | none => return none
  | some types =>
    match ← token with
    | .template _ _ => return some (← taggedTemplate grammar start chain types)
    | _ =>
      if calls && (← atMark "(") then
        return some { chain with tree := ← callWith grammar start chain.tree types }
      else
        return some { chain with
          tree := ← construct .instantiation start (chain.tree :: types) }

/-- The next link of a chain, if there is one. -/
def link? (grammar : Grammar source) (calls : Bool) (start : Nat) (chain : Chain source) :
    Parser source (Option (Chain source)) := do
  match ← token with
  | .template _ _ => return some (← taggedTemplate grammar start chain [])
  | .mark "?." =>
    advance
    return some (← optionalLink grammar calls start chain.tree)
  | .mark "." =>
    advance
    return some { chain with tree := ← namedMember start chain.tree }
  | .mark "[" =>
    if (← context).inDecorator then return none
    else return some { chain with tree := ← indexedMember grammar start chain.tree }
  | .mark "(" =>
    if calls then return some { chain with tree := ← callWith grammar start chain.tree [] }
    else return none
  | .mark "!" =>
    if (← typed) && !(← fresh) then
      advance
      return some { chain with tree := ← construct .typed start [chain.tree] }
    else return none
  | .mark mark =>
    if (← typed) && mark ∈ ["<", "<<"] then typedLink grammar calls start chain
    else return none
  | _ => return none

/-- An expression without operators. -/
def leftSide (grammar : Grammar source) : Parser source (Tree source) := do
  let start ← here
  let first ← primary grammar
  let chain ← extend (link? grammar true start) ⟨first, false⟩
  if chain.isOptional then construct .chain start [chain.tree] else return chain.tree

/-- The node is an import that is an expression. -/
def isImport : Node → Bool
  | .importCall _ _ _ => true
  | _ => false

/-- A construction, or the function that a construction calls. -/
def construction (grammar : Grammar source) : Parser source (Tree source) := do
  let start ← here
  expectWord "new"
  if ← eatMark "." then
    expectWord "target"
    construct .leaf start []
  else
    let inner ← here
    let first ← primary grammar
    flawIf (isImport first.val)
    let chain ← extend (link? grammar false inner) ⟨first, false⟩
    flawIf chain.isOptional
    let values ← do
      if ← atMark "(" then arguments grammar else pure []
    construct .construction start (chain.tree :: values)

/-- An operator in front of its operand; a power may not follow. -/
def unaryOperation (grammar : Grammar source) : Parser source (Tree source) := do
  let start ← here
  advance
  let operand ← grammar .unary
  require !(← atMark "**")
  construct .unary start [operand]

/-- A type in angle brackets that is asserted of the operand behind it. -/
def typeAssertion (grammar : Grammar source) : Parser source (Tree source) := do
  let start ← here
  splitOpening
  expectMark "<"
  let types ← do
    if ← eatWord "const" then pure [] else pure [← wholeType grammar]
  expectMark ">"
  let operand ← grammar .unary
  require !(← atMark "**")
  construct .typed start (operand :: types)

/-- The given word starts an operation: it does where it is an operator, and where a word or a
literal stands behind it on its line. -/
def atOperationWord (word : String) (isOperator : Context → Bool) : Parser source Bool := do
  if !(← atWord word) then return false
  else if isOperator (← context) then return true
  else
    holdsAhead do
      advance
      if ← fresh then return false
      else
        match ← token with
        | .word _ _ | .number | .string _ => return true
        | _ => return false

/-- An operand that is waited for. -/
def awaitOperation (grammar : Grammar source) : Parser source (Tree source) := do
  let start ← here
  flawIf !(← context).allowAwait
  advance
  let operand ← within (fun context => { context with allowAwait := true }) (grammar .unary)
  require !(← atMark "**")
  construct .unary start [operand]

/-- An operand that is counted up or down, if the mark for it stands behind it. -/
def postfixOperation (grammar : Grammar source) : Parser source (Tree source) := do
  let start ← here
  let operand ← leftSide grammar
  if (← atMarks ["++", "--"]) && !(← fresh) then
    require operand.val.isSimpleTarget
    advance
    construct .unary start [operand]
  else return operand

/-- An operand with operators of its own. -/
def unary (grammar : Grammar source) : Parser source (Tree source) := do
  let start ← here
  let dialect ← dialect
  if ← atMarks ["++", "--"] then
    advance
    let operand ← grammar .unary
    require operand.val.isSimpleTarget
    construct .unary start [operand]
  else if (← atMarks ["+", "-", "!", "~"]) || (← atWords ["typeof", "void", "delete"]) then
    unaryOperation grammar
  else if dialect.typed && !dialect.markup && (← atMarks ["<", "<<"]) then typeAssertion grammar
  else if ← atOperationWord "await" Context.allowAwait then awaitOperation grammar
  else postfixOperation grammar

end Grammar

end Script

end ImportAlias
