import ImportAlias.Disk.Basic
import ImportAlias.Json.Reader

/-!
# Project files

The nearest project file is looked for in a directory and then in the directories above it. A
directory has one if one of the file names is there, or a package manifest with a certain field. A
manifest that cannot be read counts as one without the field.
-/

namespace ImportAlias

namespace ProjectFile

/-- The names of project files, the first one found counts. -/
def names : List String :=
  [".babelrc", ".babelrc.json", ".babelrc.js", ".babelrc.cjs", ".babelrc.mjs",
    "babel.config.js", "babel.config.json", "babel.config.cjs", "babel.config.mjs"]

/-- The name of the package manifest. -/
def manifestName : String := "package.json"

/-- The field that makes a manifest a project file. -/
def manifestField : String := "babel"

/-- The text is a manifest with the field, and the field is not null. -/
def isMarkedManifest (text : String) : Bool :=
  match (Json.read? text).bind (Json.field? manifestField) with
  | none => false
  | some .null => false
  | some _ => true

/-- The manifest of a directory is a project file. -/
def hasManifest (disk : Disk) (directory : Path) : Bool :=
  let manifest := directory.join ⟨manifestName⟩
  disk.isFile manifest && (disk.text? manifest).any isMarkedManifest

/-- The project file of one directory. -/
def inDirectory? (disk : Disk) (directory : Path) : Option Path :=
  match (names.map (fun name => directory.join ⟨name⟩)).find? disk.isFile with
  | some file => some file
  | none =>
    if hasManifest disk directory then some (directory.join ⟨manifestName⟩) else none

/-- The nearest project file of a directory and the directories above it. -/
def nearest? (disk : Disk) (start : Path) : Option Path :=
  start.ancestors.findSome? (inDirectory? disk)

/-- The directory of the nearest project file. -/
def nearestDir? (disk : Disk) (start : Path) : Option Path :=
  (nearest? disk start).bind Path.parent?

end ProjectFile

end ImportAlias
