import ImportAlias.Script.Grammar.Object
import ImportAlias.Script.Grammar.Type

/-!
# Classes

A class with its heritage and its members: methods, accessors, fields, static blocks and, in a typed
source, index signatures and modifiers.
-/

namespace ImportAlias

namespace Script

/-- The modifiers of members that only a typed source has. -/
def typedModifiers : List String :=
  ["declare", "public", "private", "protected", "abstract", "override", "readonly"]

variable {source : List Char}

namespace Grammar

open ImportAlias.Script.Parser

/-- The modifier of a member at the current place, if there is one. A modifier other than `static`
stands on the line of what it modifies. -/
def memberModifier? : Parser source (Option String) := do
  let isTyped ← typed
  match ← token with
  | .word text false =>
    if text = "static" || text = "accessor" || (isTyped && text ∈ typedModifiers) then
      let modifies ← holdsAhead do
        advance
        let near := text = "static" || !(← fresh)
        return near && ((← atMemberName) || (← atMark "*"))
      return if modifies then some text else none
    else return none
  | _ => return none

/-- The modifiers of a member, none of them twice. -/
def memberModifiers : Parser source (List String) :=
  extend (fun modifiers => do
    match ← memberModifier? with
    | some modifier =>
      if modifier ∈ modifiers then return none
      else
        advance
        return some (modifier :: modifiers)
    | none => return none) []

/-- A static block starts here. -/
def atStaticBlock : Parser source Bool :=
  holdsAhead do
    expectWord "static"
    atMark "\x7b"

/-- A block that runs when the class is made. -/
def staticBlock (grammar : Grammar source) : Parser source (Tree source) := do
  let start ← here
  expectWord "static"
  let items ← within (fun context =>
    { enclosed context with allowAwait := true, allowYield := false }) (statementsInBraces grammar)
  construct .statement start items

/-- The value of a field. -/
def fieldValue (grammar : Grammar source) : Parser source (Tree source) :=
  within (fun context => { enclosed context with allowAwait := false, allowYield := false })
    (grammar (.assignment true))

/-- A field behind its name. -/
def classField (grammar : Grammar source) (start : Nat) (key : List (Tree source)) :
    Parser source (Tree source) := do
  if (← typed) && !(← fresh) then
    let _ ← eatMark "!"
  let types ← typeAnnotation grammar
  let value ← do
    if ← eatMark "=" then pure [← fieldValue grammar] else pure []
  endStatement
  construct .property start (key ++ types ++ value)

/-- A method or a field behind its modifiers. -/
def methodOrField (grammar : Grammar source) (start : Nat) (modifiers : List String)
    (isAsync : Bool) (before : List (Tree source)) : Parser source (Tree source) := do
  let isGenerator ← eatMark "*"
  let key ← memberName grammar
  let isConstructor := key.text = some "constructor" && !key.isPrivate && !modifiers.contains "static"
  flawIf (key.isPrivate && key.text = some "constructor")
  flawIf (key.text = some "prototype" && !key.isPrivate && modifiers.contains "static")
  if ← typed then
    let _ ← eatMark "?"
  let parts := before ++ key.parts
  if isGenerator || (← atMark "(") || ((← typed) && (← atMark "<")) then
    flawIf (isConstructor && (isAsync || isGenerator))
    let inner ← functionParts grammar ⟨isAsync, isGenerator⟩ false
    flawIf (isConstructor && (inner.hasTypeParameters || inner.hasResultType))
    construct .method start (parts ++ inner.parts)
  else
    require (!isAsync)
    flawIf (key.text = some "constructor" && !key.isPrivate)
    classField grammar start parts

/-- A member of a class. -/
def classMember (grammar : Grammar source) : Parser source (Tree source) := do
  let start ← here
  let marks ← decorators grammar
  if ← atStaticBlock then staticBlock grammar
  else
    let modifiers ← memberModifiers
    if (← atMemberModifier "get") || (← atMemberModifier "set") then
      let reads ← atWord "get"
      advance
      let key ← memberName grammar
      flawIf (key.text = some "constructor" && !modifiers.contains "static")
      flawIf (key.text = some "prototype" && !key.isPrivate && modifiers.contains "static")
      accessor grammar start reads (marks ++ key.parts) false
    else if (← typed) && (← atIndexSignature) then
      let types ← indexSignature grammar
      endMember
      construct .property start types
    else
      let isAsync ← atAsyncMember
      if isAsync then advance
      methodOrField grammar start modifiers isAsync marks

/-- What a class extends and implements. -/
def heritage (grammar : Grammar source) : Parser source (List (Tree source)) := do
  let base ← do
    if ← eatWord "extends" then
      let base ← grammar .leftSide
      let types ← do
        if (← typed) && (← atMarks ["<", "<<"]) then typeArguments grammar else pure []
      pure (base :: types)
    else pure []
  let promises ← do
    if (← typed) && (← eatWord "implements") then itemsBetween "," (typeReference grammar)
    else pure []
  return base ++ promises

/-- A class from its keyword on, with its name if it has one. It starts where the decorators in
front of it do. -/
def namedClass (grammar : Grammar source) (before : List (Tree source)) :
    Parser source (List String × Tree source) := do
  let start := (before.head?.map (fun tree => tree.span.start)).getD (← here)
  expectWord "class"
  let name ← do
    if (← atName) && !(← atWord "implements") then pure [← takeName] else pure []
  let types ← typeParameters grammar
  let bases ← heritage grammar
  expectMark "\x7b"
  let members ← within enclosed (many do
    let _ ← many do
      if ← eatMark ";" then return some () else return none
    if ← atMark "\x7d" then return none else return some (← classMember grammar))
  expectMark "\x7d"
  return (name, ← construct .classDefinition start (before ++ types ++ bases ++ members))

end Grammar

end Script

end ImportAlias
