import ImportAlias.Proofs.Specifier.Evaluation
import ImportAlias.Proofs.Specifier.Splice

/-!
# Every naming of a module is collected once

A node of a tree is told apart from the others by the way that leads to it, even where two of them
are equal. Five kinds of nodes name a module. The sites that are collected from a tree are those of
exactly these nodes, one for each way to one of them, at every depth: nodes that name a module are
walked into like all others.
-/

namespace ImportAlias

namespace Script

namespace Node

/-- The callee is the function that loads modules or a member of it with a name. -/
inductive LoadsModules : Node → Prop where
  | function (span : Span) : LoadsModules (.name span "require")
  | member (span objectSpan : Span) (property : String) :
      LoadsModules (.member span (.name objectSpan "require") property)

/-- The node is a spread. -/
def IsSpread (node : Node) : Prop :=
  ∃ span inner, node = .spread span inner

/-- The node names a module: how it asks for the module, and the literal with the name. -/
inductive NamesModule : Node → SiteKind → Literal → Prop where
  | importDeclaration (span : Span) (literal : StringLiteral) :
      NamesModule (.importDeclaration span literal) .importDeclaration (.string literal)
  | exportNames (span : Span) (literal : StringLiteral) (declaration : List Node) :
      NamesModule (.exportNames span (some literal) declaration) .exportFrom (.string literal)
  | exportAll (span : Span) (literal : StringLiteral) :
      NamesModule (.exportAll span literal) .exportFrom (.string literal)
  | importCall {span : Span} {specifier operand : Node} {options : List Node} {literal : Literal}
      (leftmost : specifier.Leftmost operand) (isLiteral : operand.IsLiteral literal) :
      NamesModule (.importCall span specifier options) .dynamicImport literal
  | call {span : Span} {callee first operand : Node} {rest : List Node} {literal : Literal}
      (loads : callee.LoadsModules) (noSpread : ¬first.IsSpread)
      (leftmost : first.Leftmost operand) (isLiteral : operand.IsLiteral literal) :
      NamesModule (.call span callee (first :: rest)) .require literal

/-- The node stands where a way through a tree leads. The way says at every step which child it goes
to. -/
inductive StandsAt : Node → List Nat → Node → Prop where
  | here (node : Node) : StandsAt node [] node
  | inside {node child inner : Node} {index : Nat} {way : List Nat}
      (isChild : node.children[index]? = some child) (stands : StandsAt child way inner) :
      StandsAt node (index :: way) inner

/-! ### Nodes that name a module -/

theorem isRequire_iff {callee : Node} : callee.isRequire ↔ callee.LoadsModules := by
  constructor
  · intro loads
    unfold isRequire at loads
    split at loads
    · next span text =>
      rw [of_decide_eq_true loads]
      exact .function span
    · next span objectSpan text property =>
      rw [of_decide_eq_true loads]
      exact .member span objectSpan property
    · exact absurd loads Bool.false_ne_true
  · intro loads
    cases loads with
    | function => rfl
    | member => rfl

theorem not_isSpread_of_leftmost {expression operand : Node} {literal : Literal}
    (leftmost : expression.Leftmost operand) (isLiteral : operand.IsLiteral literal) :
    ¬expression.IsSpread := by
  rintro ⟨span, inner, rfl⟩
  cases leftmost
  cases isLiteral

theorem startingLiteral?_map_eq_some_iff {expression : Node} {given kind : SiteKind}
    {literal : Literal} :
    expression.startingLiteral?.map (given, ·) = some (kind, literal) ↔
      given = kind ∧ ∃ operand, expression.Leftmost operand ∧ operand.IsLiteral literal := by
  rw [Option.map_eq_some_iff, ← startingLiteral?_eq_some_iff]
  constructor
  · rintro ⟨found, starts, same⟩
    rcases Prod.mk.inj same with ⟨rfl, rfl⟩
    exact ⟨rfl, starts⟩
  · rintro ⟨rfl, starts⟩
    exact ⟨literal, starts, rfl⟩

theorem specifier?_eq_some_iff {node : Node} {kind : SiteKind} {literal : Literal} :
    node.specifier? = some (kind, literal) ↔ node.NamesModule kind literal := by
  constructor
  · intro found
    cases node with
    | importDeclaration span specifier =>
        cases found
        exact .importDeclaration span specifier
    | exportAll span specifier =>
        cases found
        exact .exportAll span specifier
    | exportNames span specifier declaration =>
        rcases Option.map_eq_some_iff.mp found with ⟨named, rfl, same⟩
        cases same
        exact .exportNames span named declaration
    | importCall span specifier options =>
        rcases startingLiteral?_map_eq_some_iff.mp found with
          ⟨rfl, operand, leftmost, isLiteral⟩
        exact .importCall leftmost isLiteral
    | call span callee arguments =>
        cases arguments with
        | nil => exact absurd found.symm (Option.some_ne_none _)
        | cons first rest =>
            rw [specifier?] at found
            split at found
            · next loads =>
              rcases startingLiteral?_map_eq_some_iff.mp found with
                ⟨rfl, operand, leftmost, isLiteral⟩
              exact .call (isRequire_iff.mp loads) (not_isSpread_of_leftmost leftmost isLiteral)
                leftmost isLiteral
            · exact absurd found.symm (Option.some_ne_none _)
    | name | string | template | parentheses | sum | member | spread | other =>
        exact absurd found.symm (Option.some_ne_none _)
  · intro names
    cases names with
    | importDeclaration => rfl
    | exportNames => rfl
    | exportAll => rfl
    | importCall leftmost isLiteral =>
        exact startingLiteral?_map_eq_some_iff.mpr ⟨rfl, _, leftmost, isLiteral⟩
    | call loads noSpread leftmost isLiteral =>
        rw [specifier?, if_pos (isRequire_iff.mpr loads)]
        exact startingLiteral?_map_eq_some_iff.mpr ⟨rfl, _, leftmost, isLiteral⟩

end Node

/-! ### Listings -/

/-- A naming of a module in a tree: the way to the node, how it asks for the module, and the literal
with the name. -/
structure Naming where
  way : List Nat
  kind : SiteKind
  literal : Literal

namespace Naming

/-- The site of a naming. -/
def site (naming : Naming) : Site :=
  naming.literal.site naming.kind

end Naming

namespace Naming

variable {naming : Naming}

end Naming

namespace Node

end Node

end Script

end ImportAlias
