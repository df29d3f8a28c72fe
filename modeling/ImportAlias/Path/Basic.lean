import ImportAlias.Segment

/-!
# Paths

A path is kept exactly as it was written, since the text of an unclean path can show in an answer.
Its reading is a list of components: the root, the names between slashes, and the two dot entries.
Repeated slashes, a trailing slash and a single dot after the first component carry no component.
-/

namespace ImportAlias

/-- A slash-separated path, exactly as written. -/
structure Path where
  text : String
deriving DecidableEq, Inhabited

namespace Path

/-- One step of a path. -/
inductive Component where
  /-- The root directory, only ever the first step. -/
  | root
  /-- The single dot, only ever the first step of a relative path. -/
  | current
  /-- The double dot. -/
  | parent
  /-- An entry of a directory. -/
  | name (text : List Char)
deriving DecidableEq

namespace Component

/-- The step that a non-empty segment stands for. -/
def ofSegment (segment : List Char) : Component :=
  if segment = ['.'] then .current
  else if segment = ['.', '.'] then .parent
  else .name segment

/-- The step that a segment after the first one stands for, if it stands for any. -/
def ofInner? (segment : List Char) : Option Component :=
  if segment = [] ∨ segment = ['.'] then none
  else some (ofSegment segment)

/-- The way a step is written between slashes. -/
def chars : Component → List Char
  | root => []
  | current => ['.']
  | parent => ['.', '.']
  | name text => text

end Component

/-- The characters of a path. -/
def chars (path : Path) : List Char :=
  path.text.toList

/-- The path written with the given characters. -/
def ofChars (chars : List Char) : Path :=
  ⟨String.ofList chars⟩

@[simp]
theorem chars_ofChars (text : List Char) : (ofChars text).chars = text := by
  simp [chars, ofChars]

/-- A path is absolute when it starts at the root. -/
def isAbsolute (path : Path) : Bool :=
  path.chars.head? = some '/'

/-- The steps of a path, first one first. -/
def components (path : Path) : List Component :=
  match segments '/' path.chars with
  | [] => []
  | first :: rest =>
    let inner := rest.filterMap Component.ofInner?
    if first ≠ [] then Component.ofSegment first :: inner
    else if rest = [] then []
    else .root :: inner

/-- The path that writes the given steps with one slash between each two. -/
def ofComponents : List Component → Path
  | .root :: rest => ofChars ('/' :: joinSegments '/' (rest.map Component.chars))
  | steps => ofChars (joinSegments '/' (steps.map Component.chars))

/-- The path of an entry seen from a directory; an absolute entry stays where it is. -/
def join (directory entry : Path) : Path :=
  if entry.isAbsolute then entry
  else if directory.chars = [] then entry
  else if directory.chars.getLast? = some '/' then ofChars (directory.chars ++ entry.chars)
  else ofChars (directory.chars ++ '/' :: entry.chars)

/-- One step of cleaning, on the cleaned steps so far with the last one first: a dot goes, and a
double dot takes a name with it, goes at the root, and stays elsewhere. -/
def Component.cleanStep (cleaned : List Component) : Component → List Component
  | .current => cleaned
  | .parent =>
    match cleaned with
    | .name _ :: before => before
    | .root :: _ => cleaned
    | _ => .parent :: cleaned
  | step => step :: cleaned

/-- The steps that are left of a path when its dot entries are resolved in the text alone. -/
def cleanComponents (path : Path) : List Component :=
  (path.components.foldl Component.cleanStep []).reverse

/-- The path with its dot entries resolved in the text alone; an empty result is the single dot. -/
def clean (path : Path) : Path :=
  match path.cleanComponents with
  | [] => ⟨"."⟩
  | steps => ofComponents steps

/-- The path of an entry seen from a directory, cleaned. -/
def cleanFrom (directory entry : Path) : Path :=
  (directory.join entry).clean

/-- A segment that carries no step behind the first one. -/
def isIdleSegment (segment : List Char) : Bool :=
  segment = [] ∨ segment = ['.']

/-- The path without its last step, written as it was up to there; none for the root and for the
empty path. -/
def parent? (path : Path) : Option Path :=
  match segments '/' path.chars with
  | [] => none
  | first :: rest =>
    match rest.reverse.dropWhile isIdleSegment with
    | [] => if first = [] then none else some ⟨""⟩
    | _ :: before =>
      let kept := (before.dropWhile isIdleSegment).reverse
      if first = [] ∧ kept = [] then some ⟨"/"⟩
      else some (ofChars (joinSegments '/' (first :: kept)))

/-- The steps up to the root: the path itself, then its parents from the nearest one on. The
argument bounds their number. -/
def ancestorsUpTo : Nat → Path → List Path
  | 0, path => [path]
  | bound + 1, path =>
    match path.parent? with
    | none => [path]
    | some above => path :: ancestorsUpTo bound above

/-- The path itself and then its parents from the nearest one on. A parent is shorter than its
path, so the length of the text bounds their number. -/
def ancestors (path : Path) : List Path :=
  path.ancestorsUpTo path.chars.length

/-- The last step of a path, if it is a name. -/
def fileName? (path : Path) : Option (List Char) :=
  match path.components.getLast? with
  | some (.name text) => some text
  | _ => none

/-- The part of a file name after its last dot, if there is a dot behind its first character. -/
def extensionOfName? (name : List Char) : Option (List Char) :=
  match (segments '.' name).reverse with
  | last :: before :: more => if before = [] ∧ more = [] then none else some last
  | _ => none

/-- The extension of the last step of a path. -/
def extension? (path : Path) : Option (List Char) :=
  path.fileName?.bind extensionOfName?

end Path

end ImportAlias
