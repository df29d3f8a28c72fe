import ImportAlias.Script.Node

/-!
# Trees of a source

A tree of a source is a syntax tree all of whose literals are what the source has at their places.
The reader of scripts builds its trees with the functions of this file alone, so that every tree it
gives comes with this evidence.
-/

namespace ImportAlias

namespace Script

/-- A string literal of a source. -/
abbrev StringAt (source : List Char) := { literal : StringLiteral // literal.StandsIn source }

/-- The part of a template of a source that stands behind its backtick. -/
structure HeadAt (source : List Char) where
  start : Nat
  chunk : Chunk
  stands : chunk.HeadsAt start source

/-- A syntax tree of a source. -/
abbrev Tree (source : List Char) := { node : Node // node.StandsIn source }

namespace Tree

variable {source : List Char}

/-- The nodes of trees. -/
def nodes (trees : List (Tree source)) : List Node :=
  trees.map Subtype.val

theorem allStandIn_nodes (trees : List (Tree source)) : Node.AllStandIn source (nodes trees) := by
  rw [Node.allStandIn_iff]
  intro node member
  obtain ⟨tree, _, rfl⟩ := List.mem_map.1 member
  exact tree.property

/-- Where a tree stands. -/
def span (tree : Tree source) : Span :=
  tree.val.span

/-- A name. -/
def name (span : Span) (text : String) : Tree source :=
  ⟨.name span text, trivial⟩

/-- A string literal. -/
def string (literal : StringAt source) : Tree source :=
  ⟨.string literal.val, literal.property⟩

/-- A template with its substitutions. -/
def template (head : HeadAt source) (stop : Nat) (substitutions : List (Tree source)) :
    Tree source :=
  ⟨.template ⟨head.start, stop⟩ head.chunk (nodes substitutions),
    head.stands, allStandIn_nodes substitutions⟩

/-- A tree in parentheses. -/
def parentheses (span : Span) (inner : Tree source) : Tree source :=
  ⟨.parentheses span inner.val, inner.property⟩

/-- A sum. -/
def sum (span : Span) (left right : Tree source) : Tree source :=
  ⟨.sum span left.val right.val, left.property, right.property⟩

/-- A member with a name. -/
def member (span : Span) (object : Tree source) (property : String) : Tree source :=
  ⟨.member span object.val property, object.property⟩

/-- A spread. -/
def spread (span : Span) (inner : Tree source) : Tree source :=
  ⟨.spread span inner.val, inner.property⟩

/-- A call. -/
def call (span : Span) (callee : Tree source) (arguments : List (Tree source)) : Tree source :=
  ⟨.call span callee.val (nodes arguments), callee.property, allStandIn_nodes arguments⟩

/-- An import that is an expression. -/
def importCall (span : Span) (specifier : Tree source) (options : List (Tree source)) :
    Tree source :=
  ⟨.importCall span specifier.val (nodes options), specifier.property, allStandIn_nodes options⟩

/-- An import declaration. -/
def importDeclaration (span : Span) (specifier : StringAt source) : Tree source :=
  ⟨.importDeclaration span specifier.val, specifier.property⟩

/-- An export of names from another module. -/
def exportFrom (span : Span) (specifier : StringAt source) : Tree source :=
  ⟨.exportNames span (some specifier.val) [],
    by simpa [Node.StandsIn, Node.AllStandIn] using specifier.property⟩

/-- An export of names that are declared in the module, perhaps here. -/
def exportHere (span : Span) (declaration : List (Tree source)) : Tree source :=
  ⟨.exportNames span none (nodes declaration),
    by simpa [Node.StandsIn] using allStandIn_nodes declaration⟩

/-- An export of everything in another module. -/
def exportAll (span : Span) (specifier : StringAt source) : Tree source :=
  ⟨.exportAll span specifier.val, specifier.property⟩

/-- A construct of another form. -/
def other (form : Form) (span : Span) (parts : List (Tree source)) : Tree source :=
  ⟨.other form span (nodes parts), allStandIn_nodes parts⟩

end Tree

end Script

end ImportAlias
