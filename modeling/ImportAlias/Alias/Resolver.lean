import ImportAlias.Alias.Table
import ImportAlias.Config.Environment
import ImportAlias.Path.Reference

/-!
# Resolving specifiers

A resolver looks a specifier up and writes what it stands for: a package by its name, and a path as
a reference from the directory of the importing file. A slash at the end of the specifier is kept.
-/

namespace ImportAlias

/-- What becomes of a specifier. -/
inductive Resolution where
  /-- No alias applies. -/
  | noMatch
  | replacement (text : String)
deriving DecidableEq

/-- The replacement, if there is one. -/
def Resolution.text? : Resolution → Option String
  | noMatch => none
  | replacement text => some text

/-- The notation of a resolution. -/
def Resolution.shown : Resolution → String
  | noMatch => "NoMatch"
  | replacement text => "Replacement(" ++ text ++ ")"

/-- A table with the directory that expanded patterns start from and the one that the names of
importing files start from. -/
structure Resolver where
  table : AliasTable
  cwd : Path
  workingDir : Path

namespace Resolver

/-- The resolver of a configuration. -/
def ofConfig (config : Config) (environment : Environment) : Except ConfigError Resolver := do
  let table ← AliasTable.ofConfig config
  return ⟨table, config.cwd, environment.workingDir⟩

/-- The specifier ends with a slash. -/
def endsWithSlash (text : String) : Bool :=
  text.toList.getLast? = some '/'

/-- The replacement with a slash at its end if the specifier has one. -/
def withSlashOf (specifier resolved : String) : String :=
  if endsWithSlash specifier && !endsWithSlash resolved then resolved ++ "/" else resolved

/-- What a match stands for in a file. -/
def expand (resolver : Resolver) (file : Path) : AliasTable.Match → String
  | .literal key target rest =>
    let rest := if key = "" then "/" ++ rest else rest
    match target with
    | .package name => name ++ rest
    | .path path => Path.reference resolver.workingDir file ⟨path.text ++ rest⟩
  | .pattern expanded true => expanded
  | .pattern expanded false =>
    Path.reference resolver.workingDir file (Path.cleanFrom resolver.cwd ⟨expanded⟩)

/-- What becomes of a specifier in a file. -/
def resolve (resolver : Resolver) (specifier : String) (file : Path) : Resolution :=
  match resolver.table.lookup? specifier with
  | none => .noMatch
  | some found => .replacement (withSlashOf specifier (resolver.expand file found))

end Resolver

end ImportAlias
