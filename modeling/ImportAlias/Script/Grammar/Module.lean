import ImportAlias.Script.Grammar.Declaration

/-!
# Imports and exports

The declarations that tie modules together. The names that are exported are taken note of, since a
name may be exported only once.
-/

namespace ImportAlias

namespace Script

variable {source : List Char}

namespace Parser

/-- The current token can name an export: a word or a string. -/
def atExportName : Parser source Bool := do
  match ← token with
  | .word _ _ | .string _ => return true
  | _ => return false

/-- Notes names that are exported. -/
def noteExports (names : List String) : Parser source Unit :=
  modify (fun state => { state with exports := names ++ state.exports })

end Parser

namespace Grammar

open ImportAlias.Script.Parser

/-- The name of an export, and whether it is one that a value of the module can have. -/
def exportName : Parser source (String × Bool) := do
  match ← token with
  | .string literal =>
    advance
    return (String.ofList literal.val.value, false)
  | _ =>
    let text ← takeWord
    return (text, text ∉ reservedWords)

/-- A word here says that a name behind it is that of a type. The word may be the name itself, also
where it is renamed. -/
def atTypeName : Parser source Bool :=
  holdsAhead do
    require (← typed)
    expectWord "type"
    if ← eatWord "as" then
      if ← eatWord "as" then atExportName else return !(← atExportName)
    else atExportName

/-- A word here belongs to the whole import: something to import stands behind it. -/
def atImportKind (word : String) (marks : List String) : Parser source Bool :=
  holdsAhead do
    expectWord word
    if ← atMarks marks then return true
    else if ← eatWord "from" then atWord "from"
    else atName

/-- The attributes of a module. -/
def moduleAttributes : Parser source Unit := do
  if (← atWord "with") || ((← atWord "assert") && !(← fresh)) then
    advance
    expectMark "\x7b"
    let _ ← itemsUntil "\x7d" do
      let _ ← exportName
      expectMark ":"
      let _ ← takeString
    expectMark "\x7d"

/-- The module behind `from`. -/
def fromModule : Parser source (StringAt source) := do
  expectWord "from"
  let specifier ← takeString
  moduleAttributes
  endStatement
  return specifier

/-- Takes the word that says that a name is that of a type, if there is one. Where the whole list is
one of types it is an error. -/
def typeMark (ofTypes : Bool) : Parser source Unit := do
  if ← atTypeName then
    flawIf ofTypes
    advance

/-- A name that is imported, perhaps under another one. -/
def importItem (ofTypes : Bool) : Parser source Unit := do
  typeMark ofTypes
  let (_, isName) ← exportName
  if ← eatWord "as" then
    let _ ← takeName
  else require isName

/-- All of a module under one name. -/
def wholeModule : Parser source Unit := do
  expectMark "*"
  expectWord "as"
  let _ ← takeName

/-- What is imported apart from the default. -/
def importItems (ofTypes : Bool) : Parser source Unit := do
  if ← atMark "*" then wholeModule
  else
    expectMark "\x7b"
    let _ ← itemsUntil "\x7d" (importItem ofTypes)
    expectMark "\x7d"

/-- What is imported. -/
def importClause (ofTypes : Bool) : Parser source Unit := do
  if ← atName then
    let _ ← takeName
    if ← eatMark "," then importItems ofTypes
  else importItems ofTypes

/-- A name for a module or for something in a namespace starts here. -/
def atImportAlias : Parser source Bool :=
  holdsAhead do
    require (← typed)
    expectWord "import"
    if ← atWordBeforeName "type" then advance
    let _ ← takeName
    atMark "="

/-- A name for a module or for something in a namespace. -/
def importAlias : Parser source (Tree source) := do
  let start ← here
  expectWord "import"
  if ← atWordBeforeName "type" then advance
  let _ ← takeName
  expectMark "="
  let isModule ← holdsAhead (do expectWord "require"; atMark "(")
  if isModule then
    advance
    advance
    let _ ← takeString
    expectMark ")"
  else
    let _ ← itemsBetween "." takeWord
  endStatement
  construct .statement start []

/-- An import declaration. -/
def importDeclaration : Parser source (Tree source) := do
  if ← atImportAlias then importAlias
  else
    let start ← here
    expectWord "import"
    match ← token with
    | .string specifier =>
      advance
      moduleAttributes
      endStatement
      return .importDeclaration (← spanFrom start) specifier
    | _ =>
      if (← typed) && (← atImportKind "type" ["\x7b", "*"]) then
        advance
        importClause true
      else if ← atImportKind "source" [] then
        advance
        let _ ← takeName
      else if ← holdsAhead (do expectWord "defer"; atMark "*") then
        advance
        wholeModule
      else importClause false
      let specifier ← fromModule
      return .importDeclaration (← spanFrom start) specifier

/-- An export of all of another module, perhaps under one name. -/
def exportAll (start : Nat) : Parser source (Tree source) := do
  expectMark "*"
  if ← eatWord "as" then
    let (name, _) ← exportName
    noteExports [name]
  let specifier ← fromModule
  return .exportAll (← spanFrom start) specifier

/-- A name that is exported, perhaps under another one: the name outside, and whether a value of the
module can have the name inside. -/
def exportItem (ofTypes : Bool) : Parser source (String × Bool) := do
  typeMark ofTypes
  let (inside, isName) ← exportName
  if ← eatWord "as" then
    let (outside, _) ← exportName
    return (outside, isName)
  else return (inside, isName)

/-- An export of names, of the module itself or of another one. -/
def exportItems (start : Nat) (ofTypes : Bool) : Parser source (Tree source) := do
  expectMark "\x7b"
  let items ← itemsUntil "\x7d" (exportItem ofTypes)
  expectMark "\x7d"
  noteExports (items.map (fun item => item.1))
  if ← atWord "from" then
    let specifier ← fromModule
    return .exportFrom (← spanFrom start) specifier
  else
    flawIf (items.any (fun item => !item.2))
    endStatement
    return .exportHere (← spanFrom start) []

/-- The export that a module has by default. -/
def exportDefault (grammar : Grammar source) (start : Nat) (marks : List (Tree source)) :
    Parser source (Tree source) := do
  expectWord "default"
  noteExports ["default"]
  let marks := marks ++ (← decorators grammar)
  if (← atWord "function") || (← atAsyncFunction) then
    let (_, _, tree) ← namedFunction grammar false false
    construct .statement start [tree]
  else if (← atWord "class") || ((← typed) && (← atAbstractClass)) then
    let _ ← eatWord "abstract"
    let declaration ← classDeclaration grammar marks
    construct .statement start [declaration.tree]
  else if (← typed) && (← atWordBeforeName "interface") then
    let tree ← interfaceDeclaration grammar
    construct .statement start [tree]
  else
    let value ← grammar (.assignment true)
    endStatement
    construct .statement start [value]

/-- An export that only a typed source has, if there is one. -/
def typedExport? (grammar : Grammar source) (start : Nat) :
    Parser source (Option (Tree source)) := do
  if !(← typed) then return none
  else if ← eatMark "=" then
    let value ← grammar .expression
    endStatement
    return some (← construct .statement start [value])
  else if ← eatWord "as" then
    expectWord "namespace"
    let _ ← takeName
    endStatement
    return some (← construct .statement start [])
  else if ← atImportAlias then return some (← importAlias)
  else if ← holdsAhead (do expectWord "type"; atMark "\x7b") then
    advance
    return some (← exportItems start true)
  else if ← holdsAhead (do expectWord "type"; atMark "*") then
    advance
    return some (← exportAll start)
  else return none

/-- An export declaration. -/
def exportDeclaration (grammar : Grammar source) (marks : List (Tree source)) :
    Parser source (Tree source) := do
  let start ← here
  expectWord "export"
  if ← atMark "*" then exportAll start
  else if ← atMark "\x7b" then exportItems start false
  else if ← atWord "default" then exportDefault grammar start marks
  else
    match ← typedExport? grammar start with
    | some tree => return tree
    | none =>
      let marks := marks ++ (← decorators grammar)
      match ← declaration? grammar false marks with
      | none => fail
      | some declaration =>
        noteExports declaration.names
        return .exportHere (← spanFrom start) [declaration.tree]

end Grammar

end Script

end ImportAlias
