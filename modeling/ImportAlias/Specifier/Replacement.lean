import ImportAlias.Alias.Resolver
import ImportAlias.Specifier.Site

/-!
# Replacing specifiers

A site whose value is bare and has a replacement other than itself is cut out of the source, and the
replacement is put in its place, written so that the delimiters around it still delimit it. Whatever
is outside these sites stays as it is.
-/

namespace ImportAlias

/-- The characters of a text up to a place, counted in bytes. -/
def charsBefore : Nat → List Char → List Char
  | 0, _ => []
  | _, [] => []
  | count, char :: rest => char :: charsBefore (count - char.utf8Size) rest

/-- The characters of a text from a place on, counted in bytes. -/
def charsFrom : Nat → List Char → List Char
  | 0, text => text
  | _, [] => []
  | count, char :: rest => charsFrom (count - char.utf8Size) rest

/-- Whatever the place, no character is lost and none is doubled. -/
theorem charsBefore_append_charsFrom (count : Nat) (text : List Char) :
    charsBefore count text ++ charsFrom count text = text := by
  fun_induction charsBefore count text with
  | case1 => simp [charsFrom]
  | case2 count => cases count <;> simp [charsFrom]
  | case3 count char rest positive ih =>
    cases count with
    | zero => exact absurd rfl positive
    | succ count => simpa [charsFrom] using ih

namespace Delimiter

/-- How a character is written in a literal, given the character behind it. A substitution must not
start in a template, and a line must not end in a string. -/
def escapeChar (delimiter : Delimiter) (char : Char) (next : Option Char) : List Char :=
  match delimiter with
  | quote mark =>
    if char = '\\' then ['\\', '\\']
    else if char = '\n' then ['\\', 'n']
    else if char = mark then ['\\', char]
    else [char]
  | backtick =>
    if char = '\\' then ['\\', '\\']
    else if char = '\x60' then ['\\', char]
    else if char = '$' ∧ next = some '\x7b' then ['\\', char]
    else [char]

/-- A text as it is written between delimiters. -/
def escape (delimiter : Delimiter) : List Char → List Char
  | [] => []
  | char :: rest => delimiter.escapeChar char rest.head? ++ delimiter.escape rest

end Delimiter

/-- A specifier names a package or an alias: it is neither a path from the root nor one from the
directory of the importing file. -/
def Specifier.isBare (specifier : String) : Bool :=
  match specifier.toList with
  | [] => false
  | first :: _ => first ≠ '.' && first ≠ '/'

/-- What takes the place of a site in a file, if anything does. -/
def Resolver.replacement? (resolver : Resolver) (file : Path) (site : Site) : Option String :=
  if Specifier.isBare site.value then
    (resolver.resolve site.value file).text?.filter (fun text => text ≠ site.value)
  else none

/-- A specifier that was replaced: what it was, what is in its place, and where it started in the
source. -/
structure ReplacedSpecifier where
  kind : SiteKind
  value : String
  replacement : String
  start : Nat
deriving DecidableEq

/-- A source with its specifiers replaced. -/
structure Transformed where
  code : String
  replaced : List ReplacedSpecifier
deriving DecidableEq

/-- Something was replaced. -/
def Transformed.isChanged (transformed : Transformed) : Bool :=
  !transformed.replaced.isEmpty

/-- A site and the text that takes its place. -/
structure Edit where
  site : Site
  replacement : String
deriving DecidableEq

namespace Edit

/-- The text that is written in place of the site. -/
def written (edit : Edit) : List Char :=
  edit.site.delimiter.escape edit.replacement.toList

/-- The specifier that an edit replaces. -/
def replaced (edit : Edit) : ReplacedSpecifier :=
  ⟨edit.site.kind, edit.site.value, edit.replacement, edit.site.start⟩

end Edit

/-- The text from a place on with its edits made, which come in the order of their places. -/
def spliceFrom (place : Nat) (text : List Char) : List Edit → List Char
  | [] => text
  | edit :: rest =>
    charsBefore (edit.site.start - place) text ++ edit.written ++
      spliceFrom edit.site.stop (charsFrom (edit.site.stop - place) text) rest

namespace Resolver

/-- The edits that sites in a file call for, in the order of the sites. -/
def edits (resolver : Resolver) (file : Path) (sites : List Site) : List Edit :=
  sites.filterMap (fun site => (resolver.replacement? file site).map (⟨site, ·⟩))

/-- The source of a file with the given sites replaced. -/
def replaceSites (resolver : Resolver) (file : Path) (source : List Char) (sites : List Site) :
    Transformed :=
  let edits := resolver.edits file (Site.sorted sites)
  ⟨String.ofList (spliceFrom 0 source edits), edits.map Edit.replaced⟩

end Resolver

end ImportAlias
