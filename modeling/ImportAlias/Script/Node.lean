import ImportAlias.Script.Cursor
import ImportAlias.Script.Literal

/-!
# Syntax trees

A tree keeps apart the forms that can hold a module specifier or lead to one: literals, names,
parentheses, sums, members, calls, imports and exports. Every other construct is a node with its
form and with the nodes inside it in the order of the source. Types have no nodes, apart from the
expressions in them.
-/

namespace ImportAlias

namespace Script

/-- A range of bytes of the source. -/
structure Span where
  start : Nat
  stop : Nat
deriving DecidableEq, Inhabited

/-- A string literal: where it stands, its quote, and the text that it stands for. -/
structure StringLiteral where
  span : Span
  quote : Char
  value : List Char
deriving DecidableEq, Inhabited

/-- A part of a template: its contents with unified line ends, and the text that it stands for,
which is missing when an escape is not valid. -/
structure Chunk where
  raw : List Char
  cooked : Option (List Char)
deriving DecidableEq, Inhabited

/-- The forms of constructs that need no closer look. -/
inductive Form where
  /-- A number, a keyword with a value, a regular expression, a computed name, and whatever else has
  nothing of its own. -/
  | leaf
  | array
  /-- A place of an array literal with nothing in it. -/
  | hole
  | object
  /-- A property of an object literal or a pattern: its key if that is computed, and its value. -/
  | property
  /-- A property that is a name alone. -/
  | shorthand
  /-- A property that is a name with a default, which only a pattern may have. -/
  | shorthandDefault
  /-- A method or an accessor. -/
  | method
  | assignment
  /-- An assignment with an operator. -/
  | update
  /-- A member with a computed name. -/
  | index
  /-- A member with a private name. -/
  | privateMember
  /-- A chain with optional links. -/
  | chain
  /-- An operator in front of its operand or behind it. -/
  | unary
  | binary
  | logicalOr
  | logicalAnd
  | coalescing
  | conditional
  | sequence
  /-- An expression with a type that is asserted of it. -/
  | typed
  /-- An expression with type arguments behind it. -/
  | instantiation
  /-- A template with a tag. -/
  | tagged
  | construction
  | function
  | classDefinition
  | markup
  | type
  | pattern
  | statement
  | program
deriving DecidableEq, Inhabited

/-- A node of a syntax tree. -/
inductive Node where
  | name (span : Span) (text : String)
  | string (literal : StringLiteral)
  /-- A template: the part before the first substitution, and the substitutions. -/
  | template (span : Span) (head : Chunk) (substitutions : List Node)
  | parentheses (span : Span) (inner : Node)
  | sum (span : Span) (left right : Node)
  | member (span : Span) (object : Node) (property : String)
  | spread (span : Span) (inner : Node)
  | call (span : Span) (callee : Node) (arguments : List Node)
  /-- An import that is an expression: what is imported, and options if there are any. -/
  | importCall (span : Span) (specifier : Node) (options : List Node)
  | importDeclaration (span : Span) (specifier : StringLiteral)
  /-- An export of names: from another module, or of what is declared in it. -/
  | exportNames (span : Span) (specifier : Option StringLiteral) (declaration : List Node)
  /-- An export of everything in another module. -/
  | exportAll (span : Span) (specifier : StringLiteral)
  | other (form : Form) (span : Span) (parts : List Node)
deriving Inhabited

namespace Node

/-- Where a node stands. -/
def span : Node → Span
  | name span _ => span
  | string literal => literal.span
  | template span _ _ => span
  | parentheses span _ => span
  | sum span _ _ => span
  | member span _ _ => span
  | spread span _ => span
  | call span _ _ => span
  | importCall span _ _ => span
  | importDeclaration span _ => span
  | exportNames span _ _ => span
  | exportAll span _ => span
  | other _ span _ => span

/-- The nodes directly inside a node, in the order of the source. -/
def children : Node → List Node
  | name _ _ | string _ | importDeclaration _ _ | exportAll _ _ => []
  | template _ _ substitutions => substitutions
  | parentheses _ inner => [inner]
  | sum _ left right => [left, right]
  | member _ object _ => [object]
  | spread _ inner => [inner]
  | call _ callee arguments => callee :: arguments
  | importCall _ specifier options => specifier :: options
  | exportNames _ _ declaration => declaration
  | other _ _ parts => parts

/-- The form of a node that needs no closer look. -/
def form? : Node → Option Form
  | other form _ _ => some form
  | _ => none

end Node

/-- The literal is what the source has at its place: its contents stand between two double quotes or
two single ones and have its value. -/
def StringLiteral.StandsIn (literal : StringLiteral) (source : List Char) : Prop :=
  (literal.quote = '"' ∨ literal.quote = '\'') ∧
  ∃ before body after,
    source = before ++ literal.quote :: (body ++ literal.quote :: after) ∧
    stringBody? literal.quote (body ++ literal.quote :: after) = some (body, after) ∧
    stringText? body = some literal.value ∧
    literal.span.start = byteLength before ∧
    literal.span.stop = byteLength before + byteLength body + 2

/-- The part of a template is what the source has between a backtick at the given place and the
first substitution or the closing backtick. -/
def Chunk.HeadsAt (chunk : Chunk) (start : Nat) (source : List Char) : Prop :=
  ∃ before body stop after,
    source = before ++ '\x60' :: (body ++ ChunkEnd.chars stop ++ after) ∧
    chunkBody? (body ++ ChunkEnd.chars stop ++ after) = some (body, stop, after) ∧
    start = byteLength before ∧
    chunk.raw = unifyLineEnds body ∧
    chunk.cooked = chunkText? body

namespace Node

mutual

/-- All literals in the tree are what the source has at their places. -/
def StandsIn (source : List Char) : Node → Prop
  | name _ _ => True
  | string literal => literal.StandsIn source
  | template span head substitutions =>
    head.HeadsAt span.start source ∧ AllStandIn source substitutions
  | parentheses _ inner => StandsIn source inner
  | sum _ left right => StandsIn source left ∧ StandsIn source right
  | member _ object _ => StandsIn source object
  | spread _ inner => StandsIn source inner
  | call _ callee arguments => StandsIn source callee ∧ AllStandIn source arguments
  | importCall _ specifier options => StandsIn source specifier ∧ AllStandIn source options
  | importDeclaration _ specifier => specifier.StandsIn source
  | exportNames _ specifier declaration =>
    (∀ literal, specifier = some literal → literal.StandsIn source) ∧
      AllStandIn source declaration
  | exportAll _ specifier => specifier.StandsIn source
  | other _ _ parts => AllStandIn source parts

/-- All literals in the trees are what the source has at their places. -/
def AllStandIn (source : List Char) : List Node → Prop
  | [] => True
  | node :: rest => StandsIn source node ∧ AllStandIn source rest

end

theorem allStandIn_iff {source : List Char} {nodes : List Node} :
    AllStandIn source nodes ↔ ∀ node ∈ nodes, node.StandsIn source := by
  induction nodes with
  | nil => simp [AllStandIn]
  | cons node rest ih => simp [AllStandIn, ih]

end Node

end Script

end ImportAlias
