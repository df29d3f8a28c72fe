import ImportAlias.Disk.Basic
import ImportAlias.Glob.Pattern

/-!
# Paths that match a pattern

The matches of a pattern come depth first with the entries of a directory in the order of their
names. A link to a directory is walked into. A directory that trailing wildcards for directories
match comes before its contents. Two stars do not yield the directory that they start from. In place
of the matches in a directory that the disk does not read, there is a word about that.
-/

namespace ImportAlias

namespace Glob

/-- A directory that the disk does not read. -/
structure Unread where
  directory : Path
  failure : DiskFailure
deriving DecidableEq

/-- What a walk comes to: a match, or a directory that it cannot go through. -/
abbrev Finding := Except Unread Path

/-- The path of an entry; entries of the single dot are written without it. -/
def entryOf (directory : Path) (name : List Char) : Path :=
  if directory = ⟨"."⟩ then Path.ofChars name else directory.join (Path.ofChars name)

/-- The components from the first one that is not any directories. -/
def dropDirectories : List Step → List Step
  | .directories :: rest => dropDirectories rest
  | steps => steps

/-- The wildcards ask for a leading dot, which lets them match the dot entries too. -/
def leadsWithDot : List Token → Bool
  | .exact '.' :: _ => true
  | _ => false

/-- What a search among the names in a directory comes to; the names are in their order. -/
def amongNames (disk : Disk) (path : Path) (search : List String → List Finding) : List Finding :=
  if disk.isDirectory path then
    match disk.names path with
    | .error failure => [.error ⟨path, failure⟩]
    | .ok names => search (names.mergeSort (fun first second => !(second < first)))
  else []

mutual

/-- The matches of the components below a path. -/
def below (disk : Disk) : Nat → List Step → Path → List Finding
  | 0, _, _ => []
  | _, [], path => [.ok path]
  | fuel + 1, .name text :: rest, path =>
    let next := entryOf path text
    let special := text = ['.'] ∨ text = ['.', '.']
    let present :=
      if special then disk.isDirectory path
      else disk.pathExists next || (disk.entry next).isOk
    if present then below disk fuel rest next else []
  | fuel + 1, step :: rest, path =>
    amongNames disk path (fun names =>
      let special : List Finding :=
        match step with
        | .wild tokens =>
          if leadsWithDot tokens then
            [['.', '.'], ['.']].flatMap (fun dots =>
              if matchesName tokens dots then
                below disk fuel rest (path.join (Path.ofChars dots))
              else [])
          else []
        | _ => []
      special ++ names.flatMap (fun name =>
        entry disk fuel (step :: rest) (entryOf path name.toList)))

/-- The matches of the components at an entry of a directory and below it. -/
def entry (disk : Disk) : Nat → List Step → Path → List Finding
  | 0, _, _ => []
  | _, [], _ => []
  | fuel + 1, .directories :: rest, path =>
    match dropDirectories rest with
    | [] =>
      if disk.isDirectory path then .ok path :: below disk fuel [.directories] path else []
    | step :: more =>
      let inside :=
        if disk.isDirectory path then below disk fuel (.directories :: step :: more) path else []
      named disk fuel step more path ++ inside
  | fuel + 1, step :: rest, path => named disk fuel step rest path

/-- The matches at an entry that has to match one component by its name. -/
def named (disk : Disk) : Nat → Step → List Step → Path → List Finding
  | 0, _, _, _ => []
  | fuel + 1, step, rest, path =>
    let fits : Bool :=
      match path.fileName?, step with
      | some name, .name text => name = text
      | some name, .wild tokens => matchesName tokens name
      | _, _ => false
    if fits then below disk fuel rest path else []

end

/-- The length of a path that no disk goes beyond. -/
def pathLimit : Nat := 4096

/-- What the walk for a pattern comes to, or the first fault of the pattern. The whole pattern is
checked before its components are. -/
def findings (disk : Disk) (pattern : Path) : Except Fault (List Finding) := do
  let _ ← tokens pattern.chars
  let steps := pattern.components.filterMap (fun component =>
    match component with
    | .root => none
    | step => some step.chars)
  let steps ← steps.mapM tokens
  let start : Path := if pattern.isAbsolute then ⟨"/"⟩ else ⟨"."⟩
  let steps := steps.map Step.ofTokens
  return below disk (3 * (pathLimit + steps.length)) steps start

end Glob

end ImportAlias
