import ImportAlias.Script.Node

/-!
# Sites of specifiers

A site is the text between the delimiters of a literal that names a module. Imports and exports name
a module by a string. What is imported by an expression, and the first argument of `require` and of
its members, names one if it starts with a string or a template: behind parentheses, and on the far
left of a sum.
-/

namespace ImportAlias

/-- How a module is asked for. -/
inductive SiteKind where
  | importDeclaration
  | exportFrom
  | dynamicImport
  | require
deriving DecidableEq, Inhabited

/-- The name of a kind. -/
def SiteKind.name : SiteKind → String
  | importDeclaration => "import"
  | exportFrom => "export-from"
  | dynamicImport => "dynamic-import"
  | require => "require"

/-- What a literal stands between. -/
inductive Delimiter where
  | quote (char : Char)
  | backtick
deriving DecidableEq, Inhabited

/-- The character of a delimiter. -/
def Delimiter.char : Delimiter → Char
  | quote char => char
  | backtick => '\x60'

/-- The text of a literal that names a module: what it stands for, and where it stands between its
delimiters, counted in bytes. -/
structure Site where
  kind : SiteKind
  value : String
  start : Nat
  stop : Nat
  delimiter : Delimiter
deriving DecidableEq, Inhabited

namespace Script

/-- A literal that an expression can start with: a string, or the first part of a template. -/
inductive Literal where
  | string (literal : StringLiteral)
  | template (start : Nat) (head : Chunk)
deriving DecidableEq

/-- The site of a literal. That of a template goes on for as many bytes as its first part has with
unified line ends. -/
def Literal.site (kind : SiteKind) : Literal → Site
  | string literal =>
    { kind
      value := String.ofList literal.value
      start := literal.span.start + 1
      stop := literal.span.stop - 1
      delimiter := .quote literal.quote }
  | template start head =>
    { kind
      value := String.ofList (head.cooked.getD head.raw)
      start := start + 1
      stop := start + 1 + byteLength head.raw
      delimiter := .backtick }

namespace Node

/-- The literal that an expression starts with. -/
def startingLiteral? : Node → Option Literal
  | string literal => some (.string literal)
  | template span head _ => some (.template span.start head)
  | parentheses _ inner => inner.startingLiteral?
  | sum _ left _ => left.startingLiteral?
  | _ => none

/-- The function that loads modules, or a member of it. -/
def isRequire : Node → Bool
  | name _ text => text = "require"
  | member _ (name _ text) _ => text = "require"
  | _ => false

/-- The literal that a node names a module by, and how it asks for the module. -/
def specifier? : Node → Option (SiteKind × Literal)
  | importDeclaration _ specifier => some (.importDeclaration, .string specifier)
  | exportNames _ specifier _ => specifier.map (fun specifier => (.exportFrom, .string specifier))
  | exportAll _ specifier => some (.exportFrom, .string specifier)
  | importCall _ specifier _ => specifier.startingLiteral?.map (.dynamicImport, ·)
  | call _ callee (first :: _) =>
    if callee.isRequire then first.startingLiteral?.map (.require, ·) else none
  | _ => none

/-- The site of a node itself. -/
def ownSite? (node : Node) : Option Site :=
  node.specifier?.map (fun found => found.2.site found.1)

mutual

/-- The sites in a tree, each one before those inside it. -/
def sites : Node → List Site
  | name span text => (name span text).ownSite?.toList
  | string literal => (string literal).ownSite?.toList
  | template span head parts => (template span head parts).ownSite?.toList ++ allSites parts
  | parentheses span inner => (parentheses span inner).ownSite?.toList ++ sites inner
  | sum span left right => (sum span left right).ownSite?.toList ++ sites left ++ sites right
  | member span object property =>
    (member span object property).ownSite?.toList ++ sites object
  | spread span inner => (spread span inner).ownSite?.toList ++ sites inner
  | call span callee arguments =>
    (call span callee arguments).ownSite?.toList ++ sites callee ++ allSites arguments
  | importCall span specifier options =>
    (importCall span specifier options).ownSite?.toList ++ sites specifier ++ allSites options
  | importDeclaration span specifier => (importDeclaration span specifier).ownSite?.toList
  | exportNames span specifier declaration =>
    (exportNames span specifier declaration).ownSite?.toList ++ allSites declaration
  | exportAll span specifier => (exportAll span specifier).ownSite?.toList
  | other form span parts => (other form span parts).ownSite?.toList ++ allSites parts

/-- The sites in trees, one tree after the other. -/
def allSites : List Node → List Site
  | [] => []
  | node :: rest => sites node ++ allSites rest

end

/-- The sites in a tree are its own one and those of the trees inside it. -/
theorem sites_eq (node : Node) :
    node.sites = node.ownSite?.toList ++ allSites node.children := by
  cases node <;> simp [sites, allSites, children]

end Node

end Script

namespace Site

/-- Sites in the order of their places; those with one place keep their order. -/
def sorted (sites : List Site) : List Site :=
  sites.mergeSort (fun first second => first.start ≤ second.start)

end Site

/-- The sites in a tree in the order of the source. -/
def Script.Node.sortedSites (node : Script.Node) : List Site :=
  Site.sorted node.sites

end ImportAlias
