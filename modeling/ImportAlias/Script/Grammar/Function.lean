import ImportAlias.Script.Grammar.Parameter

/-!
# Functions

Functions and methods behind their keywords and names. The body of a function decides on its own
whether `await` and `yield` are operators in it.
-/

namespace ImportAlias

namespace Script

/-- What the modifiers of a function say. -/
structure FunctionKind where
  isAsync : Bool
  isGenerator : Bool

variable {source : List Char}

namespace Grammar

open ImportAlias.Script.Parser

/-- The context of the parameters and the body of a function. -/
def FunctionKind.inside (kind : FunctionKind) (context : Context) : Context :=
  { enclosed context with allowAwait := kind.isAsync, allowYield := kind.isGenerator }

/-- Statements in braces. -/
def statementsInBraces (grammar : Grammar source) : Parser source (List (Tree source)) := do
  expectMark "\x7b"
  let items ← many do
    if ← atMark "\x7d" then return none else return some (← grammar (.statement false))
  expectMark "\x7d"
  return items

/-- The body of a function. -/
def functionBody (grammar : Grammar source) : Parser source (List (Tree source)) :=
  within (fun context => { context with allowReturn := true, ambient := false })
    (statementsInBraces grammar)

/-- What a function has behind its name. -/
structure FunctionParts (source : List Char) where
  parameters : Parameters source
  hasTypeParameters : Bool
  hasResultType : Bool
  hasBody : Bool
  parts : List (Tree source)

/-- The parameters and the body of a function. In a typed source the body may be missing where a
signature may stand for the whole. -/
def functionParts (grammar : Grammar source) (kind : FunctionKind) (needsBody : Bool) :
    Parser source (FunctionParts source) :=
  within (FunctionKind.inside kind) do
    let hasTypeParameters ← atMark "<"
    let types ← typeParameters grammar
    let parameters ← parameters grammar
    let result ← resultAnnotation grammar
    let known : FunctionParts source :=
      ⟨parameters, hasTypeParameters, !result.isEmpty, true, types ++ parameters.parts ++ result⟩
    if ← atMark "\x7b" then
      let body ← functionBody grammar
      return { known with parts := known.parts ++ body }
    else
      require ((← typed) && !needsBody)
      endStatement
      return { known with hasBody := false }

/-- A method behind its name. -/
def method (grammar : Grammar source) (start : Nat) (kind : FunctionKind) (key : List (Tree source))
    (needsBody : Bool) : Parser source (Tree source) := do
  let inner ← functionParts grammar kind needsBody
  construct .method start (key ++ inner.parts)

/-- An accessor behind its name: one that reads takes no parameters, one that writes takes one value.
-/
def accessor (grammar : Grammar source) (start : Nat) (reads : Bool) (key : List (Tree source))
    (needsBody : Bool) : Parser source (Tree source) := do
  let inner ← functionParts grammar ⟨false, false⟩ needsBody
  flawIf (inner.parameters.count ≠ (if reads then 0 else 1) || inner.parameters.takesRest)
  construct .method start (key ++ inner.parts)

/-- An asynchronous function starts here. -/
def atAsyncFunction : Parser source Bool :=
  holdsAhead do
    expectWord "async"
    return (← atWord "function") && !(← fresh)

/-- A function from its keywords on, with the name that it declares. In an expression the name
belongs to the inside of the function. -/
def namedFunction (grammar : Grammar source) (inExpression needsName : Bool) :
    Parser source (List String × FunctionKind × Tree source) := do
  let start ← here
  let isAsync ← eatWord "async"
  expectWord "function"
  let kind : FunctionKind := ⟨isAsync, ← eatMark "*"⟩
  let name ← do
    if ← atName then
      let outside ← context
      let change := if inExpression then FunctionKind.inside kind else fun _ => outside
      pure [← within change takeName]
    else
      require (!needsName)
      pure []
  let inner ← functionParts grammar kind false
  return (name, kind, ← construct .function start inner.parts)

end Grammar

end Script

end ImportAlias
