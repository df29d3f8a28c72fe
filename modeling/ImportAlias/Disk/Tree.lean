import ImportAlias.Disk.Basic
import ImportAlias.Json.Basic

/-!
# Trees of files

A tree of named entries gives a disk. A path is walked step by step from the root: a link is
replaced by the steps of its target, a double dot leads to the directory above the one reached, and
a path leads nowhere when it needs more links than the limit.
-/

namespace ImportAlias

/-- A file with its text, a directory with its entries, or a link with the path it stands for. -/
inductive Tree where
  | file (text : String)
  | directory (entries : List (String × Tree))
  | link (target : Path)
deriving Inhabited

namespace Tree

/-- The kind of the entry. -/
def kind : Tree → EntryKind
  | file _ => .file
  | directory _ => .directory
  | link _ => .link

/-- The names from the root down to an entry. -/
abbrev Location := List String

/-- The entry at a location. -/
def at? : Tree → Location → Option Tree
  | tree, [] => some tree
  | directory entries, name :: rest => (fieldAt? name entries).bind (fun entry => entry.at? rest)
  | _, _ :: _ => none

/-- The tree with another entry at a location; missing directories on the way are made. -/
def put (entry : Tree) : Location → Tree → Tree
  | [], _ => entry
  | name :: rest, directory entries =>
    let below := (fieldAt? name entries).getD (directory [])
    directory (putField name (put entry rest below) entries)
  | _ :: _, tree => tree

/-- One walk along the segments of a path from a location, up to the first link; there the walk goes
on in another way. A link at the end is followed only on demand. -/
def walk (root : Tree) (followLast : Bool)
    (onLink : Location → List (List Char) → Option Location) :
    Location → List (List Char) → Option Location
  | location, [] => some location
  | location, segment :: rest =>
    match root.at? location with
    | some (directory entries) =>
      if segment = [] ∨ segment = ['.'] then walk root followLast onLink location rest
      else if segment = ['.', '.'] then walk root followLast onLink location.dropLast rest
      else
        match fieldAt? (String.ofList segment) entries with
        | none => none
        | some (link target) =>
          if rest = [] ∧ !followLast then some (location ++ [String.ofList segment])
          else
            onLink (if target.isAbsolute then [] else location)
              (segments '/' target.chars ++ rest)
        | some _ => walk root followLast onLink (location ++ [String.ofList segment]) rest
    | _ => none

/-- The greatest number of links on one way. -/
def linkLimit : Nat := 40

/-- The location that a walk with at most the given number of links reaches. -/
def walkLinks (root : Tree) (followLast : Bool) :
    Nat → Location → List (List Char) → Option Location
  | 0 => walk root followLast (fun _ _ => none)
  | links + 1 => walk root followLast (walkLinks root followLast links)

/-- The location that an absolute path leads to. -/
def locate? (root : Tree) (followLast : Bool) (path : Path) : Option Location :=
  if path.isAbsolute then
    root.walkLinks followLast linkLimit [] (segments '/' path.chars)
  else none

/-- The entry that an absolute path leads to. -/
def find? (root : Tree) (followLast : Bool) (path : Path) : Option Tree :=
  (root.locate? followLast path).bind root.at?

/-- The answers of a disk that holds the tree. Whatever cannot be found is missing. -/
def disk (root : Tree) : Disk where
  target? path := (root.find? true path).map kind
  entry path :=
    match root.find? false path with
    | some tree => .ok tree.kind
    | none => .error .missing
  text? path :=
    match root.find? true path with
    | some (file text) => some text
    | _ => none
  names path :=
    match root.find? true path with
    | some (directory entries) => .ok (entries.map (·.1))
    | some _ => .error .notDirectory
    | none => .error .missing

/-- The tree with a new entry at a path; missing directories above it are made and links on the way
are followed. -/
def create (entry : Tree) (path : Path) (root : Tree) : Tree :=
  let steps := (segments '/' path.chars).filter (fun segment => segment ≠ [] ∧ segment ≠ ['.'])
  let descend (state : Tree × Location) (step : List Char) : Tree × Location :=
    let (tree, location) := state
    let here := location ++ [String.ofList step]
    match tree.at? here with
    | none => (put (directory []) here tree, here)
    | some _ => (tree, (tree.walkLinks true linkLimit location [step]).getD here)
  match steps.getLast? with
  | none => root
  | some last =>
    let (tree, above) := steps.dropLast.foldl descend (root, [])
    let here := above ++ [String.ofList last]
    let place :=
      match entry with
      | file _ => (tree.walkLinks true linkLimit above [last]).getD here
      | _ => here
    match entry, tree.at? place with
    | directory _, some _ => tree
    | _, _ => put entry place tree

/-- The absolute path of a location. -/
def pathOf (location : Location) : Path :=
  Path.ofComponents (.root :: location.map (fun name => .name name.toList))

/-- The tree with nothing in it. -/
def empty : Tree :=
  directory []

end Tree

end ImportAlias
