import ImportAlias.Config.Basic
import ImportAlias.Config.Environment
import ImportAlias.Config.ProjectFile
import ImportAlias.Config.Roots
import ImportAlias.Json.Basic
import ImportAlias.Options.Basic

/-!
# From options to a configuration

The disk is asked three times: for the nearest project file, for the directories that match the
roots, and for the root in which a relative target exists. What comes out is plain data.
-/

namespace ImportAlias

namespace Options

/-- The mark of a target that is a package and no path. -/
def packageMark : String := "npm:"

/-- The extensions when the options name none. -/
def defaultExtensions : List String :=
  [".js", ".jsx", ".es", ".es6"]

/-- A key is a pattern when it is tied to one of the ends of the specifier. -/
def isPattern (key : String) : Bool :=
  key.toList.head? = some '^' || key.toList.getLast? = some '$'

/-- A key without the slashes at its end. -/
def trimKey (key : String) : String :=
  String.ofList (key.toList.reverse.dropWhile (· = '/')).reverse

/-- The name behind the mark of a package, if the mark is there. -/
def packageName? (value : String) : Option String :=
  if packageMark.toList.isPrefixOf value.toList then
    some (String.ofList (value.toList.drop packageMark.toList.length))
  else none

/-- A warning about options that are still understood. -/
inductive Warning where
  /-- The mark of a package is going to be dropped. -/
  | packageMark
deriving DecidableEq

/-- The wording of a warning. -/
def Warning.message : Warning → String
  | packageMark =>
    "The \"npm:\" prefix in an alias is deprecated and will be removed in the next major version " ++
      "release."

/-- A candidate for a target exists, as it is or with one of the extensions behind it. -/
def candidateExists (disk : Disk) (extensions : List String) (candidate : Path) : Bool :=
  disk.pathExists candidate ||
    extensions.any (fun extension => disk.isFile ⟨candidate.text ++ extension⟩)

/-- The directory that a relative target starts from: the first root in which it exists, or else the
first root, or the directory of the configuration when there are no roots. -/
def targetBase (disk : Disk) (cwd : Path) (roots : List Path) (extensions : List String)
    (value : Path) : Path :=
  match roots with
  | [] => cwd
  | first :: _ =>
    (roots.find? (fun root => candidateExists disk extensions (root.join value))).getD first

/-- The target of a literal alias. -/
def targetOf (disk : Disk) (cwd : Path) (roots : List Path) (extensions : List String)
    (value : String) : Target :=
  match packageName? value with
  | some name => .package name
  | none =>
    let path : Path := ⟨value⟩
    if path.isAbsolute then .path path.clean
    else .path ((targetBase disk cwd roots extensions path).cleanFrom path)

/-- The literal alias of an entry. -/
def literalOf (disk : Disk) (cwd : Path) (roots : List Path) (extensions : List String)
    (entry : String × String) : String × Target :=
  (trimKey entry.1, targetOf disk cwd roots extensions entry.2)

/-- The pattern alias of an entry. -/
def patternOf (entry : String × String) : Alias :=
  match packageName? entry.2 with
  | some template => .pattern entry.1 template true
  | none => .pattern entry.1 entry.2 false

/-- Literal aliases, every key once, and then patterns. -/
def aliasesOf (literals : List (String × Target)) (patterns : List Alias) : List Alias :=
  (fieldsOf literals).map (fun literal => .literal literal.1 literal.2) ++ patterns

/-- The directory of a configuration. -/
def cwdOf (disk : Disk) (environment : Environment) (file : Option Path) :
    Option Anchor → Path
  | none => environment.workingDir
  | some (.path path) => environment.locate path
  | some .projectFile =>
    let start :=
      match file with
      | some file => ((environment.locate file).parent?).getD environment.workingDir
      | none => environment.workingDir
    (ProjectFile.nearestDir? disk start).getD environment.workingDir

/-- The entries of the options: a name and what it stands for. -/
def entries : Options → List (String × String)
  | records list => list.map (fun record => (record.expose, record.src))
  | settings form => form.aliases

/-- The warnings of options: one about the mark of packages, however often it occurs. -/
def warnings (options : Options) : List Warning :=
  if options.entries.any (fun entry => (packageName? entry.2).isSome) then [.packageMark] else []

/-- The configuration of the list form; all of its keys are literal. -/
def configureRecords (disk : Disk) (environment : Environment) (records : List ExposeRecord) :
    Config :=
  let cwd := environment.workingDir
  let literals := records.map (fun record =>
    literalOf disk cwd [] defaultExtensions (record.expose, record.src))
  ⟨cwd, [], aliasesOf literals [], defaultExtensions⟩

/-- The configuration of the map form. -/
def configureSettings (disk : Disk) (environment : Environment) (file : Option Path)
    (settings : Settings) : Except ConfigError Config := do
  let cwd := cwdOf disk environment file settings.cwd
  let roots ← Roots.expand disk cwd settings.roots
  let extensions := settings.extensions.getD defaultExtensions
  let literals := (settings.aliases.filter (fun entry => !isPattern entry.1)).map
    (literalOf disk cwd roots extensions)
  let patterns := (settings.aliases.filter (fun entry => isPattern entry.1)).map patternOf
  return ⟨cwd, roots, aliasesOf literals patterns, extensions⟩

/-- The configuration that options come down to, for a file if it is known. -/
def configure (disk : Disk) (environment : Environment) (file : Option Path) :
    Options → Except ConfigError Config
  | records list => .ok (configureRecords disk environment list)
  | settings form => configureSettings disk environment file form

end Options

end ImportAlias
