import ImportAlias.Script.Grammar.Function

/-!
# Object literals

The properties, methods and accessors of an object literal. A name with a default is taken note of:
it is right only if the literal turns out to be a pattern.
-/

namespace ImportAlias

namespace Script

variable {source : List Char}

namespace Grammar

open ImportAlias.Script.Parser

/-- A word that changes what the member behind it is starts here. -/
def atMemberModifier (word : String) : Parser source Bool :=
  holdsAhead do
    expectWord word
    atMemberName

/-- The word that makes a method asynchronous starts here. -/
def atAsyncMember : Parser source Bool :=
  holdsAhead do
    expectWord "async"
    return !(← fresh) && ((← atMemberName) || (← atMark "*"))

/-- A property that is a name alone or a name with a default. -/
def shorthandProperty (grammar : Grammar source) (start : Nat) (key : MemberName source) :
    Parser source (Tree source) := do
  require key.isName
  flawIf (← isOperatorName key.text)
  let name : Tree source := .name (← spanFrom start) (key.text.getD "")
  if ← eatMark "=" then
    let value ← within enclosed (grammar (.assignment true))
    modify (fun state => { state with looseDefaults := start :: state.looseDefaults })
    construct .shorthandDefault start [name, value]
  else construct .shorthand start [name]

/-- A property of an object literal. -/
def objectProperty (grammar : Grammar source) : Parser source (Tree source) := do
  let start ← here
  if ← eatMark "..." then
    let inner ← grammar (.assignment true)
    return .spread (← spanFrom start) inner
  else if (← atMemberModifier "get") || (← atMemberModifier "set") then
    let reads ← atWord "get"
    advance
    let key ← propertyName grammar
    accessor grammar start reads key.parts true
  else
    let isAsync ← atAsyncMember
    if isAsync then advance
    let isGenerator ← eatMark "*"
    let key ← propertyName grammar
    if isAsync || isGenerator || (← atMark "(") || ((← typed) && (← atMark "<")) then
      method grammar start ⟨isAsync, isGenerator⟩ key.parts true
    else if ← eatMark ":" then
      let value ← grammar (.assignment true)
      construct .property start (key.parts ++ [value])
    else shorthandProperty grammar start key

/-- A place of a literal with nothing in it. -/
def hole : Parser source (Tree source) := do
  let place ← here
  return .other .hole ⟨place, place⟩ []

/-- An item of a literal and the comma behind it, if there is one. A comma that follows a spread and
ends the literal leaves a hole, so that the spread is not the last item: the literal is no pattern
then. -/
def literalItem (stop : String) (item : Parser source (Tree source)) :
    Parser source (List (Tree source)) := do
  let isSpread ← atMark "..."
  let tree ← item
  if ← atMark stop then return [tree]
  else
    expectMark ","
    if isSpread && (← atMark stop) then return [tree, ← hole]
    else return [tree]

/-- An object literal. -/
def objectLiteral (grammar : Grammar source) : Parser source (Tree source) := do
  let start ← here
  expectMark "\x7b"
  let properties ← within enclosed (many do
    if ← atMark "\x7d" then return none
    else return some (← literalItem "\x7d" (objectProperty grammar)))
  expectMark "\x7d"
  construct .object start properties.flatten

/-- An item of an array literal or of arguments. -/
def spreadOrItem (grammar : Grammar source) : Parser source (Tree source) := do
  let start ← here
  if ← eatMark "..." then
    let inner ← grammar (.assignment true)
    return .spread (← spanFrom start) inner
  else grammar (.assignment true)

/-- An array literal. A comma with no item before it leaves a hole. -/
def arrayLiteral (grammar : Grammar source) : Parser source (Tree source) := do
  let start ← here
  expectMark "["
  let items ← within enclosed (many do
    if ← atMark "]" then return none
    else if ← atMark "," then
      let place ← hole
      advance
      return some [place]
    else return some (← literalItem "]" (spreadOrItem grammar)))
  expectMark "]"
  construct .array start items.flatten

/-- Arguments in parentheses. -/
def arguments (grammar : Grammar source) : Parser source (List (Tree source)) := do
  expectMark "("
  let items ← within enclosed (itemsUntil ")" (spreadOrItem grammar))
  expectMark ")"
  return items

end Grammar

end Script

end ImportAlias
