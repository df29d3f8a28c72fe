import ImportAlias.Alias.Template
import ImportAlias.Config.Basic
import ImportAlias.Config.Error
import ImportAlias.Json.Basic
import ImportAlias.Regex.Search
import ImportAlias.Segment

/-!
# The alias table

A table has literal aliases and patterns. A literal key applies to a specifier that is the key or
goes on behind it with a slash, and the longest such key wins; the empty key applies to every
specifier. Only when no key applies are the patterns tried, in their order.
-/

namespace ImportAlias

/-- A pattern alias: what the pattern matches in a specifier, and what a match stands for. -/
structure PatternRule where
  pattern : String
  search? : String → Option (Nat → Option String)
  template : Template
  external : Bool

/-- What a lookup finds. -/
inductive AliasTable.Match where
  /-- A literal key, its target, and the rest of the specifier behind the key. -/
  | literal (key : String) (target : Target) (rest : String)
  /-- A pattern, and what its template stands for. -/
  | pattern (expanded : String) (external : Bool)
deriving DecidableEq

/-- A table of aliases; a literal key occurs at most once. -/
structure AliasTable where
  literals : List (String × Target)
  patterns : List PatternRule

namespace PatternRule

/-- The alias of a pattern, if the pattern is valid. -/
def ofPattern (pattern template : String) (external : Bool) : Except ConfigError PatternRule :=
  match Regex.ofPattern? pattern with
  | some regex => .ok ⟨pattern, regex.search?, .ofText template, external⟩
  | none => .error (.invalidPattern pattern)

/-- What the alias makes of a specifier, if its pattern matches somewhere in it. -/
def match? (entry : PatternRule) (specifier : String) : Option AliasTable.Match :=
  (entry.search? specifier).map (fun captures =>
    .pattern (entry.template.expand captures) entry.external)

end PatternRule

namespace AliasTable

/-- The patterns among aliases, or the first one that is not valid. -/
def patternsOf : List Alias → Except ConfigError (List PatternRule)
  | [] => .ok []
  | .literal .. :: rest => patternsOf rest
  | .pattern pattern template external :: rest => do
    let entry ← PatternRule.ofPattern pattern template external
    return entry :: (← patternsOf rest)

/-- The table of a configuration. -/
def ofConfig (config : Config) : Except ConfigError AliasTable := do
  let patterns ← patternsOf config.aliases
  return ⟨fieldsOf config.literals, patterns⟩

/-- The number of aliases. -/
def size (table : AliasTable) : Nat :=
  table.literals.length + table.patterns.length

/-- The target at a literal key. -/
def literal? (table : AliasTable) (key : String) : Option Target :=
  fieldAt? key table.literals

/-- The cuts of a specifier into a head and a rest, for heads that end where the specifier ends or
before a slash: the longest head first. -/
def cuts : List Char → List (List Char × List Char)
  | [] => [([], [])]
  | char :: rest =>
    let longer := (cuts rest).map (fun cut => (char :: cut.1, cut.2))
    if char = '/' then longer ++ [([], char :: rest)] else longer

/-- The literal alias at one of the cuts. -/
def literalAt? (table : AliasTable) (cut : List Char × List Char) : Option AliasTable.Match :=
  let key := String.ofList cut.1
  (table.literal? key).map (fun target => .literal key target (String.ofList cut.2))

/-- The literal alias of a specifier: the one with the longest key that applies, the empty key last
of all. -/
def lookupKey? (table : AliasTable) (specifier : String) : Option AliasTable.Match :=
  match (cuts specifier.toList).findSome? table.literalAt? with
  | some found => some found
  | none => table.literalAt? ([], specifier.toList)

/-- The alias of a specifier. -/
def lookup? (table : AliasTable) (specifier : String) : Option AliasTable.Match :=
  if specifier = "" then none
  else
    match table.lookupKey? specifier with
    | some found => some found
    | none => table.patterns.findSome? (fun entry => entry.match? specifier)

end AliasTable

end ImportAlias
