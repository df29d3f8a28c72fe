import ImportAlias.Script.Token

/-!
# Readers of a source

A reader takes tokens from the current one on and gives a value, or fails. A reading can be tried:
when it fails, the state from before is taken up again, apart from the notes on what is no arrow
function. A flaw is an error behind which the reading goes on; the source is refused all the same.
-/

namespace ImportAlias

namespace Script

/-- The languages of scripts: modules or plain scripts, with types or without, with markup or
without. -/
structure Dialect where
  isModule : Bool
  typed : Bool
  markup : Bool
deriving DecidableEq

/-- What holds at a place of the grammar. -/
structure Context where
  dialect : Dialect
  /-- More than the number of items that any list in the source can have. -/
  bound : Nat
  /-- The operator `in` may be used. -/
  allowIn : Bool
  allowAwait : Bool
  allowYield : Bool
  allowReturn : Bool
  /-- A decorator is read, in which brackets start no member. -/
  inDecorator : Bool
  /-- Conditional types have to be in parentheses. -/
  plainTypes : Bool
  /-- What is declared exists elsewhere. -/
  ambient : Bool

/-- A reading in progress. -/
structure State (source : List Char) where
  lexeme : Lexeme source
  /-- The place behind the token before the current one. -/
  lastStop : Nat
  flawed : Bool
  /-- The places of names with a default in object literals that are no patterns so far. -/
  looseDefaults : List Nat
  /-- The places where an arrow function was looked for in vain. -/
  notArrow : List Nat
  /-- The names that are exported so far. -/
  exports : List String

/-- The outcome of a reader. -/
inductive Outcome (source : List Char) (Value : Type) where
  | done (value : Value) (state : State source)
  | failed (notArrow : List Nat)

/-- A reader of values. -/
def Parser (source : List Char) (Value : Type) : Type :=
  Context → State source → Outcome source Value

variable {source : List Char} {Value : Type}

namespace Parser

instance : Monad (Parser source) where
  pure value := fun _ state => .done value state
  bind first next := fun context state =>
    match first context state with
    | .done value state => next value context state
    | .failed notArrow => .failed notArrow

/-- Fails. -/
def fail : Parser source Value :=
  fun _ state => .failed state.notArrow

/-- The state. -/
def state : Parser source (State source) :=
  fun _ state => .done state state

/-- Changes the state. -/
def modify (change : State source → State source) : Parser source Unit :=
  fun _ state => .done () (change state)

/-- The context. -/
def context : Parser source Context :=
  fun context state => .done context state

/-- Reads in another context. -/
def within (change : Context → Context) (parser : Parser source Value) : Parser source Value :=
  fun context state => parser (change context) state

/-- Notes an error and goes on. -/
def flaw : Parser source Unit :=
  modify (fun state => { state with flawed := true })

/-- Notes an error if there is one. -/
def flawIf (wrong : Bool) : Parser source Unit :=
  if wrong then flaw else pure ()

/-- Fails unless a condition holds. -/
def require (holds : Bool) : Parser source Unit :=
  if holds then pure () else fail

/-- Tries a reader and goes on from before it when it fails. -/
def attempt (parser : Parser source Value) : Parser source (Option Value) :=
  fun context state =>
    match parser context state with
    | .done value state => .done (some value) state
    | .failed notArrow => .done none { state with notArrow := notArrow }

/-- What a reader would give; the reading goes on from before it. -/
def ahead (parser : Parser source Value) : Parser source (Option Value) :=
  fun context state =>
    match parser context state with
    | .done value after => .done (some value) { state with notArrow := after.notArrow }
    | .failed notArrow => .done none { state with notArrow := notArrow }

/-- Whether a condition would be found to hold; the reading goes on from before it. -/
def holdsAhead (parser : Parser source Bool) : Parser source Bool := do
  return (← ahead parser).getD false

/-- The current token. -/
def token : Parser source (Token source) := do
  return (← state).lexeme.token

/-- A line ends before the current token. -/
def fresh : Parser source Bool := do
  return (← state).lexeme.fresh

/-- The place of the current token. -/
def here : Parser source Nat := do
  return (← state).lexeme.here.offset

/-- The range from a place up to the last token. -/
def spanFrom (start : Nat) : Parser source Span := do
  return ⟨start, (← state).lastStop⟩

/-- The languages of the source. -/
def dialect : Parser source Dialect := do
  return (← context).dialect

/-- The source has types. -/
def typed : Parser source Bool := do
  return (← dialect).typed

/-- Makes a lexeme the current one, with the place behind the one before it. -/
def enter (lexeme : Lexeme source) (lastStop : Nat) : Parser source Unit :=
  modify (fun state => { state with lexeme := lexeme, lastStop := lastStop })

/-- Goes on to the next token. -/
def advance : Parser source Unit := do
  let current := (← state).lexeme
  enter (lexemeBehind (← dialect).isModule false current.next) current.next.offset

/-- The current token is the given mark. -/
def atMark (mark : String) : Parser source Bool := do
  match ← token with
  | .mark text => return text = mark
  | _ => return false

/-- The current token is one of the given marks. -/
def atMarks (marks : List String) : Parser source Bool := do
  match ← token with
  | .mark text => return text ∈ marks
  | _ => return false

/-- The current token is the given word, written without escapes. -/
def atWord (word : String) : Parser source Bool := do
  match ← token with
  | .word text escaped => return text = word && !escaped
  | _ => return false

/-- The current token is one of the given words, written without escapes. -/
def atWords (words : List String) : Parser source Bool := do
  match ← token with
  | .word text escaped => return text ∈ words && !escaped
  | _ => return false

/-- Takes a mark if it is the current token. -/
def eatMark (mark : String) : Parser source Bool := do
  if ← atMark mark then
    advance
    return true
  else return false

/-- Takes a word if it is the current token. -/
def eatWord (word : String) : Parser source Bool := do
  if ← atWord word then
    advance
    return true
  else return false

/-- Takes a mark, which has to be the current token. -/
def expectMark (mark : String) : Parser source Unit := do
  if ← atMark mark then advance else fail

/-- Takes a word, which has to be the current token. -/
def expectWord (word : String) : Parser source Unit := do
  if ← atWord word then advance else fail

/-- The source is read to its end. -/
def atFinish : Parser source Bool := do
  match ← token with
  | .finish => return true
  | _ => return false

/-- Takes the end of a statement: a semicolon, or a place where it may be left out. -/
def endStatement : Parser source Unit := do
  if ← eatMark ";" then return
  if (← atMark "\x7d") || (← atFinish) || (← fresh) then return
  fail

/-- Takes values for as long as there are any. The argument bounds their number. -/
def manyUpTo (item : Parser source (Option Value)) : Nat → Parser source (List Value)
  | 0 => fail
  | fuel + 1 => do
    match ← item with
    | none => return []
    | some value => return value :: (← manyUpTo item fuel)

/-- Takes values for as long as there are any. -/
def many (item : Parser source (Option Value)) : Parser source (List Value) := do
  manyUpTo item (← context).bound

/-- Goes on from a value for as long as there is more. The argument bounds the number of steps. -/
def extendUpTo (step : Value → Parser source (Option Value)) : Nat → Value → Parser source Value
  | 0, _ => fail
  | fuel + 1, value => do
    match ← step value with
    | none => return value
    | some longer => extendUpTo step fuel longer

/-- Goes on from a value for as long as there is more. -/
def extend (step : Value → Parser source (Option Value)) (value : Value) :
    Parser source Value := do
  extendUpTo step (← context).bound value

/-- Takes items up to a closing mark, which is left; commas stand between them. -/
def itemsUntil (stop : String) (item : Parser source Value) : Parser source (List Value) :=
  many do
    if ← atMark stop then return none
    else
      let value ← item
      if !(← atMark stop) then expectMark ","
      return some value

/-- Takes one item or more with a mark between them. -/
def itemsBetween (mark : String) (item : Parser source Value) : Parser source (List Value) := do
  let first ← item
  let rest ← many do
    if ← eatMark mark then return some (← item) else return none
  return first :: rest

/-- Takes a closing angle bracket for all the marks that start with it, so that the current token
becomes the longest of them. -/
def joinClosing : Parser source Unit := do
  let lexeme := (← state).lexeme
  match lexeme.token with
  | .mark ">" =>
    match closingMarks.find? (fun mark => mark.toList.isPrefixOf lexeme.here.rest) with
    | some mark =>
      modify (fun state => { state with
        lexeme := { lexeme with
          token := .mark mark, next := lexeme.here.drop mark.toList.length } })
    | none => return
  | _ => return

/-- Splits a mark of two opening angle brackets, so that the current token becomes the first one. -/
def splitOpening : Parser source Unit := do
  let lexeme := (← state).lexeme
  match lexeme.token with
  | .mark "<<" =>
    modify (fun state => { state with
      lexeme := { lexeme with token := .mark "<", next := lexeme.here.drop 1 } })
  | .mark "<<=" =>
    modify (fun state => { state with
      lexeme := { lexeme with token := .mark "<", next := lexeme.here.drop 1 } })
  | _ => return

end Parser

/-- The places of the grammar that are read again inside themselves. -/
inductive Goal where
  /-- An expression with commas. -/
  | expression
  /-- An expression without commas; the flag tells that an arrow function may give its type before a
  colon. -/
  | assignment (arrowTypes : Bool)
  /-- Operands with operators that bind tighter than a level. -/
  | operands (level : Nat)
  | unary
  /-- An expression without operators: members and calls. -/
  | leftSide
  /-- A construction, at its keyword. -/
  | construction
  /-- A statement that is a branch or body of another one, or an item of a list. -/
  | statement (single : Bool)
  | binding
  | type
  /-- A type with type operators in front of it. -/
  | typeOperand
  /-- An element of markup, at its opening bracket. -/
  | element
deriving DecidableEq

/-- How the places of the grammar are read. -/
abbrev Grammar (source : List Char) := Goal → Parser source (Tree source)

end Script

end ImportAlias
