import ImportAlias.Path.Basic

/-!
# Configurations

A configuration is what options come down to once the disk was looked at: a directory, roots, and
aliases with absolute targets. The literal aliases come first and the patterns behind them.
-/

namespace ImportAlias

/-- What a literal alias stands for. -/
inductive Target where
  /-- A path of the disk. -/
  | path (path : Path)
  /-- A package, which stays as it is. -/
  | package (name : String)
deriving DecidableEq

/-- An alias: a literal key, or a pattern with a template for what it matches. -/
inductive Alias where
  | literal (key : String) (target : Target)
  | pattern (pattern : String) (template : String) (external : Bool)
deriving DecidableEq

/-- A configuration. -/
structure Config where
  cwd : Path
  roots : List Path
  aliases : List Alias
  extensions : List String
deriving DecidableEq

namespace Config

/-- The literal aliases. -/
def literals (config : Config) : List (String × Target) :=
  config.aliases.filterMap (fun entry =>
    match entry with
    | .literal key target => some (key, target)
    | .pattern .. => none)

/-- The extension without the dots in front of it. -/
def bareExtension (extension : String) : List Char :=
  extension.toList.dropWhile (· = '.')

/-- The path names a source file: it has one of the configured extensions. -/
def isSourceFile (config : Config) (path : Path) : Bool :=
  match path.extension? with
  | none => false
  | some extension => config.extensions.any (fun configured =>
      bareExtension configured = extension)

end Config

end ImportAlias
