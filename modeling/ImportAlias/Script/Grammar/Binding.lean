import ImportAlias.Script.Grammar.Name

/-!
# Bindings

What declares names: a name, or a pattern for the parts of an object or an array, with defaults.
-/

namespace ImportAlias

namespace Script

namespace Node

mutual

/-- The names that a binding declares. -/
def boundNames : Node → List String
  | name _ text => [text]
  | spread _ inner => boundNames inner
  | other .pattern _ parts => allBoundNames parts
  | other .property _ parts => allBoundNames parts
  | other .assignment _ parts =>
    match parts with
    | target :: _ => boundNames target
    | [] => []
  | _ => []

/-- The names that bindings declare. -/
def allBoundNames : List Node → List String
  | [] => []
  | node :: rest => boundNames node ++ allBoundNames rest

end

end Node

variable {source : List Char}

namespace Grammar

open ImportAlias.Script.Parser

/-- A default behind a binding that was read from a place on. -/
def withDefault (grammar : Grammar source) (start : Nat) (target : Tree source) :
    Parser source (Tree source) := do
  if ← eatMark "=" then
    let value ← within enclosed (grammar (.assignment true))
    construct .assignment start [target, value]
  else return target

/-- A binding, perhaps with a default. -/
def bindingWithDefault (grammar : Grammar source) : Parser source (Tree source) := do
  let start ← here
  let target ← grammar .binding
  withDefault grammar start target

/-- The rest of a pattern behind three dots; nothing may follow it. -/
def restBinding (target : Parser source (Tree source)) (stop : String) :
    Parser source (Tree source) := do
  let start ← here
  expectMark "..."
  let inner ← target
  require (← atMark stop)
  return .spread (← spanFrom start) inner

/-- A pattern for an array. -/
def arrayPattern (grammar : Grammar source) : Parser source (Tree source) := do
  let start ← here
  expectMark "["
  let items ← many do
    if ← atMark "]" then return none
    else if ← eatMark "," then return some []
    else if ← atMark "..." then return some [← restBinding (grammar .binding) "]"]
    else
      let item ← bindingWithDefault grammar
      if !(← atMark "]") then expectMark ","
      return some [item]
  expectMark "]"
  construct .pattern start items.flatten

/-- A property of a pattern for an object. -/
def propertyPattern (grammar : Grammar source) : Parser source (Tree source) := do
  let start ← here
  let key ← propertyName grammar
  if ← eatMark ":" then
    let target ← bindingWithDefault grammar
    construct .property start (key.parts ++ [target])
  else
    require key.isName
    flawIf (← isOperatorName key.text)
    let name : Tree source := .name (← spanFrom start) (key.text.getD "")
    withDefault grammar start name

/-- A pattern for an object. -/
def objectPattern (grammar : Grammar source) : Parser source (Tree source) := do
  let start ← here
  expectMark "\x7b"
  let items ← itemsUntil "\x7d" do
    if ← atMark "..." then
      restBinding nameTree "\x7d"
    else propertyPattern grammar
  expectMark "\x7d"
  construct .pattern start items

/-- A binding without a default. -/
def binding (grammar : Grammar source) : Parser source (Tree source) := do
  if ← atMark "[" then arrayPattern grammar
  else if ← atMark "\x7b" then objectPattern grammar
  else nameTree

end Grammar

end Script

end ImportAlias
