import ImportAlias.Script.Grammar.Statement

/-!
# Programs

The places of the grammar are tied together, and a whole source is read. A source is refused when it
cannot be read to its end, when an error was noted on the way, when an object literal has a default
and is no pattern, and, without types, when a name is exported twice.
-/

namespace ImportAlias

namespace Script

variable {source : List Char}

/-- How a place of the grammar is read, given how the places inside it are read. -/
def Grammar.place (grammar : Grammar source) : Grammar source
  | .expression => expression grammar
  | .assignment arrowTypes => assignment grammar arrowTypes
  | .operands level => operands grammar level
  | .unary => unary grammar
  | .leftSide => leftSide grammar
  | .construction => construction grammar
  | .statement single => statement grammar single
  | .binding => binding grammar
  | .type => type grammar
  | .typeOperand => typeOperand grammar
  | .element => element grammar

/-- The grammar up to a depth of places inside each other. -/
def Grammar.upTo : Nat → Grammar source
  | 0 => fun _ => Parser.fail
  | depth + 1 => place (upTo depth)

/-- More than the depth of places inside each other that a source can have. -/
def depthBound (source : List Char) : Nat :=
  16 * source.length + 64

/-- What holds at the start of a source. -/
def Context.initial (dialect : Dialect) (source : List Char) : Context where
  dialect := dialect
  bound := source.length + 2
  allowIn := true
  allowAwait := dialect.isModule
  allowYield := false
  allowReturn := false
  inDecorator := false
  plainTypes := false
  ambient := false

/-- A reading at its start. -/
def State.initial (dialect : Dialect) (source : List Char) : State source where
  lexeme := lexemeBehind dialect.isModule true (skipHashbang (Cursor.start source))
  lastStop := 0
  flawed := false
  looseDefaults := []
  notArrow := []
  exports := []

/-- Takes all statements of a source. -/
def statements (grammar : Grammar source) : Parser source (Tree source) := do
  let items ← Parser.many do
    if ← Parser.atFinish then return none else return some (← grammar (.statement false))
  return .other .program ⟨0, byteLength source⟩ items

/-- Some text occurs twice. -/
def hasRepeats : List String → Bool
  | [] => false
  | text :: rest => text ∈ rest || hasRepeats rest

/-- The syntax tree of a source, if the source is right. -/
def program? (dialect : Dialect) (source : List Char) : Option (Tree source) :=
  let reader := statements (Grammar.upTo (depthBound source))
  match reader (Context.initial dialect source) (State.initial dialect source) with
  | .failed _ => none
  | .done tree state =>
    if state.flawed || !state.looseDefaults.isEmpty || (!dialect.typed && hasRepeats state.exports)
    then none else some tree

end Script

end ImportAlias
