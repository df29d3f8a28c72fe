import ImportAlias.Disk.Tree
import ImportAlias.Proofs.Config.Normalization
import Mathlib.Data.List.Find
import Mathlib.Data.List.Infix

/-!
# The nearest project file

A search for a project file goes up from one directory to the next and stops at the first one that has
any. So it finds the nearest one, and it depends on the disk through the files of ten names in the
directories that it passes and in the one where it stops. Nothing above that one matters and nothing
beside the way up does. A manifest that cannot be read or that lacks the field stops no search.
-/

namespace ImportAlias

open ImportAlias.Path

namespace ProjectFile

variable {disk other : Disk} {directory start : Path} {name : String}

/-! ### One directory -/

/-- The entry of that name makes the directory one with a project file: it is a file with one of the
names, or a manifest that reads as a value with the field, and the field is not null. -/
inductive IsProjectFile (disk : Disk) (directory : Path) : String → Prop where
  | named {name : String} (member : name ∈ names) (isFile : disk.isFile (directory.join ⟨name⟩)) :
      IsProjectFile disk directory name
  | manifest {text : String} {value field : Json}
      (isFile : disk.isFile (directory.join ⟨manifestName⟩))
      (hasText : disk.text? (directory.join ⟨manifestName⟩) = some text)
      (reads : Json.read? text = some value) (hasField : value.field? manifestField = some field)
      (notNull : field ≠ .null) : IsProjectFile disk directory manifestName

/-- The name is the first one of a project file of the directory, in the order of the names. -/
def IsFirst (disk : Disk) (directory : Path) (name : String) : Prop :=
  ∃ before after, names ++ [manifestName] = before ++ name :: after ∧
    IsProjectFile disk directory name ∧ ∀ earlier ∈ before, ¬IsProjectFile disk directory earlier

theorem manifestName_not_mem_names : manifestName ∉ names := by
  decide

theorem isProjectFile_iff_of_mem (member : name ∈ names) :
    IsProjectFile disk directory name ↔ disk.isFile (directory.join ⟨name⟩) := by
  refine ⟨?_, .named member⟩
  intro isProjectFile
  cases isProjectFile with
  | named _ isFile => exact isFile
  | manifest => exact absurd member manifestName_not_mem_names

theorem isMarkedManifest_iff {text : String} :
    isMarkedManifest text ↔
      ∃ value field, Json.read? text = some value ∧ value.field? manifestField = some field ∧
        field ≠ .null := by
  unfold isMarkedManifest
  cases read : Json.read? text with
  | none => simp
  | some value =>
      cases found : value.field? manifestField with
      | none => simp [found]
      | some field => cases field <;> simp [found]

theorem isProjectFile_manifestName_iff :
    IsProjectFile disk directory manifestName ↔ hasManifest disk directory := by
  simp only [hasManifest, Bool.and_eq_true, Option.any_eq_true, isMarkedManifest_iff]
  constructor
  · intro isProjectFile
    cases isProjectFile with
    | named member => exact absurd member manifestName_not_mem_names
    | manifest isFile hasText reads hasField notNull =>
        exact ⟨isFile, _, hasText, _, _, reads, hasField, notNull⟩
  · rintro ⟨isFile, text, hasText, value, field, reads, hasField, notNull⟩
    exact .manifest isFile hasText reads hasField notNull

theorem mem_names_of_isProjectFile (isProjectFile : IsProjectFile disk directory name) :
    name ∈ manifestName :: names := by
  cases isProjectFile with
  | named member => exact List.mem_cons_of_mem _ member
  | manifest => exact List.mem_cons_self

/-- The project file of a directory is the first one in the order of the names. -/
theorem inDirectory?_cases (disk : Disk) (directory : Path) :
    (∃ name, inDirectory? disk directory = some (directory.join ⟨name⟩) ∧
        IsFirst disk directory name) ∨
      (inDirectory? disk directory = none ∧ ∀ name, ¬IsProjectFile disk directory name) := by
  unfold inDirectory?
  rw [List.find?_map]
  cases found : names.find? (disk.isFile ∘ fun name => directory.join ⟨name⟩) with
  | some name =>
      rcases List.find?_eq_some_iff_append.mp found with ⟨isFile, before, after, split, earlier⟩
      refine Or.inl ⟨name, rfl, before, after ++ [manifestName], ?_, ?_, ?_⟩
      · rw [split, List.append_assoc, List.cons_append]
      · exact .named (split ▸ List.mem_append_right _ List.mem_cons_self) isFile
      · intro other member
        rw [isProjectFile_iff_of_mem (split ▸ List.mem_append_left _ member)]
        simpa using earlier other member
  | none =>
      have noneNamed : ∀ name ∈ names, ¬IsProjectFile disk directory name := by
        intro name member
        rw [isProjectFile_iff_of_mem member]
        exact List.find?_eq_none.mp found name member
      simp only [Option.map_none]
      by_cases marked : hasManifest disk directory
      · rw [if_pos marked]
        exact Or.inl ⟨manifestName, rfl, names, [], rfl, isProjectFile_manifestName_iff.mpr marked,
          noneNamed⟩
      · rw [if_neg marked]
        refine Or.inr ⟨rfl, ?_⟩
        intro name isProjectFile
        rcases List.mem_cons.mp (mem_names_of_isProjectFile isProjectFile) with rfl | member
        · exact marked (isProjectFile_manifestName_iff.mp isProjectFile)
        · exact noneNamed name member isProjectFile

/-! ### Two disks -/

/-- Two disks have the same files of the ten names in a directory, with the same text of the manifest
if it is one of them. -/
structure AgreeIn (disk other : Disk) (directory : Path) : Prop where
  files : ∀ name ∈ manifestName :: names,
    disk.isFile (directory.join ⟨name⟩) = other.isFile (directory.join ⟨name⟩)
  manifest : disk.isFile (directory.join ⟨manifestName⟩) →
    disk.text? (directory.join ⟨manifestName⟩) = other.text? (directory.join ⟨manifestName⟩)

theorem AgreeIn.inDirectory?_eq (agree : AgreeIn disk other directory) :
    inDirectory? disk directory = inDirectory? other directory := by
  have sameNamed : names.find? (disk.isFile ∘ fun name => directory.join ⟨name⟩) =
      names.find? (other.isFile ∘ fun name => directory.join ⟨name⟩) :=
    List.find?_congr (fun name member => agree.files name (List.mem_cons_of_mem _ member))
  have sameManifest : hasManifest disk directory = hasManifest other directory := by
    simp only [hasManifest, ← agree.files manifestName List.mem_cons_self]
    cases isFile : disk.isFile (directory.join ⟨manifestName⟩) with
    | false => rfl
    | true => rw [agree.manifest isFile]
  simp only [inDirectory?, List.find?_map, sameNamed, sameManifest]

/-! ### The search -/

/-- A directory and the name of an entry of it. -/
structure Place where
  directory : Path
  name : String

/-- The path of the entry. -/
def Place.file (place : Place) : Path :=
  place.directory.join ⟨place.name⟩

/-- The place of the nearest project file: the directories that are passed on the way up to it have
none. -/
structure IsNearest (disk : Disk) (start : Path) (place : Place) : Prop where
  above : place.directory.IsAbove start
  first : IsFirst disk place.directory place.name
  passed : ∀ between : Path, between.IsAbove start → place.directory.IsAbove between →
    between ≠ place.directory → ∀ name, ¬IsProjectFile disk between name

/-- What a search has to find: the place of the nearest project file, or nothing if no directory on the
way up has one. -/
inductive Finds (disk : Disk) (start : Path) : Option Place → Prop where
  | place {place : Place} (nearest : IsNearest disk start place) : Finds disk start (some place)
  | nowhere (nothing : ∀ above : Path, above.IsAbove start → ∀ name, ¬IsProjectFile disk above name) :
      Finds disk start none

/-- The search goes on in the parent if a directory has no project file. -/
theorem nearest?_eq (disk : Disk) (normal : start.IsNormal) :
    nearest? disk start = (inDirectory? disk start).or (start.parent?.bind (nearest? disk)) := by
  cases parent : start.parent? with
  | none =>
      rw [nearest?, ancestors_of_parent?_eq_none parent, List.findSome?_singleton, Option.bind_none,
        Option.or_none]
  | some above =>
      rw [nearest?, normal.ancestors_of_parent?_eq_some parent, List.findSome?_cons, Option.bind_some,
        nearest?]
      cases inDirectory? disk start <;> rfl

theorem finds_of_isFirst (normal : start.IsNormal) (first : IsFirst disk start name) :
    Finds disk start (some ⟨start, name⟩) := by
  refine .place ⟨normal.isAbove_self, first, ?_⟩
  intro between lower upper apart
  exact absurd (lower.antisymm upper) apart

/-- A directory without a project file makes no difference to what has to be found above it. -/
theorem Finds.of_parent {above : Path} {result : Option Place} (normal : start.IsNormal)
    (parent : start.parent? = some above) (noneHere : ∀ name, ¬IsProjectFile disk start name)
    (finds : Finds disk above result) : Finds disk start result := by
  have higher {between : Path} (isAbove : between.IsAbove start) (apart : between ≠ start) :
      between.IsAbove above := by
    rcases isAbove.eq_or_exists_parent normal with here | ⟨next, found, isAbove⟩
    · exact absurd here apart
    · rwa [Option.some.inj (parent.symm.trans found)]
  cases finds with
  | @place place nearest =>
      refine .place ⟨nearest.above.trans (normal.isAbove_of_parent?_eq_some parent),
        nearest.first, ?_⟩
      intro between lower upper apart
      by_cases here : between = start
      · exact here ▸ noneHere
      · exact nearest.passed between (higher lower here) upper apart
  | nowhere nothing =>
      refine .nowhere ?_
      intro between lower
      by_cases here : between = start
      · exact here ▸ noneHere
      · exact nothing between (higher lower here)

/-- The directory lies on the way from the start up to where the search ends. -/
def IsVisited (start : Path) (result : Option Place) (directory : Path) : Prop :=
  directory.IsAbove start ∧ ∀ place ∈ result, place.directory.IsAbove directory

theorem Finds.above {result : Option Place} (finds : Finds disk start result) :
    ∀ place ∈ result, place.directory.IsAbove start := by
  cases finds with
  | place nearest => simpa using nearest.above
  | nowhere => simp

/-- The search from a directory finds what it has to, and on a disk that agrees in the directories up to
where it ends, it finds the same. -/
structure EndsWith (disk : Disk) (start : Path) (result : Option Place) : Prop where
  finds : Finds disk start result
  nearest : nearest? disk start = result.map Place.file
  alike : ∀ other, (∀ directory, IsVisited start result directory → AgreeIn disk other directory) →
    nearest? other start = nearest? disk start

theorem endsWith_of_isFirst (normal : start.IsNormal) (first : IsFirst disk start name)
    (here : inDirectory? disk start = some (start.join ⟨name⟩)) :
    EndsWith disk start (some ⟨start, name⟩) where
  finds := finds_of_isFirst normal first
  nearest := by
    rw [nearest?_eq disk normal, here]
    rfl
  alike := by
    intro other agree
    have startVisited : IsVisited start (some ⟨start, name⟩) start :=
      ⟨normal.isAbove_self, by simpa using normal.isAbove_self⟩
    have sameHere := (agree start startVisited).inDirectory?_eq
    rw [nearest?_eq disk normal, nearest?_eq other normal, ← sameHere, here, Option.some_or,
      Option.some_or]

theorem endsWith_none (normal : start.IsNormal) (top : start.parent? = none)
    (noneHere : inDirectory? disk start = none)
    (noProjectFile : ∀ name, ¬IsProjectFile disk start name) : EndsWith disk start none where
  finds := by
    refine .nowhere ?_
    intro above isAbove
    rcases isAbove.eq_or_exists_parent normal with here | ⟨next, found, _⟩
    · exact here ▸ noProjectFile
    · exact absurd (top.symm.trans found).symm (Option.some_ne_none next)
  nearest := by
    rw [nearest?_eq disk normal, noneHere, top]
    rfl
  alike := by
    intro other agree
    have sameHere := (agree start ⟨normal.isAbove_self, by simp⟩).inDirectory?_eq
    rw [nearest?_eq disk normal, nearest?_eq other normal, ← sameHere, top, Option.bind_none,
      Option.bind_none]

/-- A search that goes on in the parent ends with what the search from there ends with. -/
theorem EndsWith.of_parent {above : Path} {result : Option Place} (normal : start.IsNormal)
    (parent : start.parent? = some above) (noneHere : inDirectory? disk start = none)
    (noProjectFile : ∀ name, ¬IsProjectFile disk start name)
    (endsWith : EndsWith disk above result) : EndsWith disk start result where
  finds := endsWith.finds.of_parent normal parent noProjectFile
  nearest := by
    rw [nearest?_eq disk normal, noneHere, parent]
    exact endsWith.nearest
  alike := by
    intro other agree
    have isAbove := normal.isAbove_of_parent?_eq_some parent
    have startVisited : IsVisited start result start :=
      ⟨normal.isAbove_self, fun place member => (endsWith.finds.above place member).trans isAbove⟩
    have sameHere := (agree start startVisited).inDirectory?_eq
    have sameAbove := endsWith.alike other (fun directory visited =>
      agree directory ⟨visited.1.trans isAbove, visited.2⟩)
    rw [nearest?_eq disk normal, nearest?_eq other normal, ← sameHere, parent, Option.bind_some,
      Option.bind_some, sameAbove]

theorem exists_endsWith (disk : Disk) (normal : start.IsNormal) :
    ∃ result, EndsWith disk start result := by
  -- One directory ends the search or leaves it to the parent.
  refine normal.induction_from_root (motive := fun start => ∃ result, EndsWith disk start result) ?_
  intro start normal ih
  rcases inDirectory?_cases disk start with ⟨name, here, first⟩ | ⟨noneHere, noProjectFile⟩
  · exact ⟨_, endsWith_of_isFirst normal first here⟩
  · cases parent : start.parent? with
    | none => exact ⟨none, endsWith_none normal parent noneHere noProjectFile⟩
    | some above =>
        rcases ih above parent with ⟨result, endsWith⟩
        exact ⟨result, endsWith.of_parent normal parent noneHere noProjectFile⟩

theorem nearestDir?_eq {result : Option Place}
    (finds : Finds disk start result) (nearest : nearest? disk start = result.map Place.file) :
    nearestDir? disk start = result.map Place.directory := by
  rw [nearestDir?, nearest]
  cases finds with
  | nowhere => rfl
  | @place place isNearest =>
      rcases isNearest.first with ⟨_, _, _, isProjectFile, _⟩
      exact isNearest.above.normal.parent?_join
        (isName_of_mem_names _ (mem_names_of_isProjectFile isProjectFile))

/-- A directory is passed if none of the names is a file in it and its manifest cannot be read, is no
JSON text, lacks the field or has null there. -/
theorem nearest?_of_passed (disk : Disk) (normal : directory.IsNormal)
    (unnamed : ∀ name ∈ names, disk.isFile (directory.join ⟨name⟩) = false)
    (unmarked : ∀ text value field, disk.text? (directory.join ⟨manifestName⟩) = some text →
      Json.read? text = some value → value.field? manifestField = some field → field = .null) :
    nearest? disk directory = directory.parent?.bind (nearest? disk) := by
  have noProjectFile : ∀ name, ¬IsProjectFile disk directory name := by
    intro name isProjectFile
    cases isProjectFile with
    | named member isFile => simp [unnamed name member] at isFile
    | manifest _ hasText reads hasField notNull =>
        exact notNull (unmarked _ _ _ hasText reads hasField)
  rcases inDirectory?_cases disk directory with ⟨name, _, _, _, _, isProjectFile, _⟩ | ⟨noneHere, _⟩
  · exact absurd isProjectFile (noProjectFile name)
  · rw [nearest?_eq disk normal, noneHere, Option.none_or]

end ProjectFile

open ProjectFile

theorem Environment.locate_ofDir {dir : Path} (absolute : dir.isAbsolute) (file : Path) :
    (Environment.ofDir dir).locate file = dir.cleanFrom file := by
  have cleanAbsolute := isAbsolute_clean absolute
  apply (clean_eq_clean_iff (isAbsolute_join cleanAbsolute file) (isAbsolute_join absolute file)).mpr
  cases fileAbsolute : file.isAbsolute with
  | true => rw [join_of_isAbsolute fileAbsolute, join_of_isAbsolute fileAbsolute]
  | false =>
      rw [names_join cleanAbsolute fileAbsolute, names_join absolute fileAbsolute,
        names_clean absolute]

namespace Options

variable {disk : Disk} {dir file directory : Path}

/-- Options that ask for the directory of the nearest project file come down to what they come down to
with the given directory, which is then the directory of the configuration. -/
def Discovers (disk : Disk) (dir file directory : Path) : Prop :=
  ∀ form : Settings, form.cwd = some .projectFile →
    configure disk (.ofDir dir) (some file) (.settings form) =
      configure disk (.ofDir dir) (some file)
        (.settings { form with cwd := some (.path directory) }) ∧
    ∀ config, configure disk (.ofDir dir) (some file) (.settings form) = .ok config →
      config.cwd = directory

theorem discovers_of_cwdOf_eq (absolute : dir.isAbsolute) (normal : directory.IsNormal)
    (found : cwdOf disk (.ofDir dir) (some file) (some .projectFile) = directory) :
    Discovers disk dir file directory := by
  have given : cwdOf disk (.ofDir dir) (some file) (some (.path directory)) = directory := by
    rw [cwdOf, Environment.locate_ofDir absolute, cleanFrom, join_of_isAbsolute normal.absolute,
      normal.cleaned]
  intro form asks
  have sameForm : configure disk (.ofDir dir) (some file) (.settings form) =
      configure disk (.ofDir dir) (some file)
        (.settings { form with cwd := some (.path directory) }) := by
    simp only [configure, configureSettings, asks, found, given]
  refine ⟨sameForm, ?_⟩
  intro config ok
  rcases exists_of_bind_eq_ok ok with ⟨roots, _, made⟩
  cases made
  rw [asks, found]

theorem cwdOf_projectFile (absolute : dir.isAbsolute) (below : dir.cleanFrom file ≠ ⟨"/"⟩)
    {result : Option Place}
    (found : nearestDir? disk (dir.cleanFrom file).enclosing = result.map Place.directory) :
    cwdOf disk (.ofDir dir) (some file) (some .projectFile) =
      (result.map Place.directory).getD dir.clean := by
  have normal := isNormal_cleanFrom absolute file
  simp only [cwdOf, Environment.locate_ofDir absolute, normal.parent?_eq_enclosing below,
    Option.getD_some, found]
  rfl

/-- From an absolute working directory, and for a file that does not lead to the root, options that ask
for it take the directory of the nearest project file on the way up from the directory of the file, or
the working directory if there is none, and the search gives the first project file of that directory.
A disk that agrees in the directories up to there leads to the same, whatever else is on it. A
directory where only the manifest is there, without the field, stops no search. -/
theorem discovers_nearest (disk : Disk) (absolute : dir.isAbsolute)
    (below : dir.cleanFrom file ≠ ⟨"/"⟩) :
    (∃ result, Finds disk (dir.cleanFrom file).enclosing result ∧
      nearest? disk (dir.cleanFrom file).enclosing = result.map Place.file ∧
      Discovers disk dir file ((result.map Place.directory).getD dir.clean) ∧
      ∀ other, (∀ directory, IsVisited (dir.cleanFrom file).enclosing result directory →
          AgreeIn disk other directory) →
        nearest? other (dir.cleanFrom file).enclosing = result.map Place.file ∧
        Discovers other dir file ((result.map Place.directory).getD dir.clean)) ∧
    ∀ directory : Path, directory.IsNormal →
      (∀ name ∈ ProjectFile.names, disk.isFile (directory.join ⟨name⟩) = false) →
      (∀ text value field, disk.text? (directory.join ⟨manifestName⟩) = some text →
        Json.read? text = some value → value.field? manifestField = some field → field = .null) →
      nearest? disk directory = directory.parent?.bind (nearest? disk) := by
  refine ⟨?_, fun _ => nearest?_of_passed disk⟩
  rcases exists_endsWith disk (isNormal_enclosing (dir.cleanFrom file)) with
    ⟨result, finds, nearest, sameNearest⟩
  have found := nearestDir?_eq finds nearest
  have resultNormal : ((result.map Place.directory).getD dir.clean).IsNormal := by
    cases result with
    | none => exact isNormal_clean absolute
    | some place => exact (finds.above place rfl).normal
  refine ⟨result, finds, nearest,
    discovers_of_cwdOf_eq absolute resultNormal (cwdOf_projectFile absolute below found), ?_⟩
  intro other agree
  have otherNearest := sameNearest other agree
  have otherFound : nearestDir? other (dir.cleanFrom file).enclosing =
      result.map Place.directory := by
    rw [← found, nearestDir?, otherNearest, nearestDir?]
  exact ⟨otherNearest.trans nearest,
    discovers_of_cwdOf_eq absolute resultNormal (cwdOf_projectFile absolute below otherFound)⟩

/-- A package below a project file, with manifests that do not count and a directory that has the name
of a project file, and with further entries of the root and of a directory beside the way up. -/
def packageTree (atRoot beside : List (String × Tree)) : Tree :=
  .directory (("p", .directory [
    ("package.json", .file "\x7b\"babel\": 1\x7d"), (".babelrc.js", .file ""),
    ("pkg", .directory [
      ("package.json", .file "\x7b\"babel\": null\x7d"),
      ("src", .directory [(".babelrc", .directory []), ("package.json", .file "\x7b")]),
      ("lib", .directory beside)])]) :: atRoot)

/-- Project files of the root and beside the way up make no difference. -/
theorem discovers_nearest_of_package :
    Path.isAbsolute ⟨"/p/./lib/.."⟩ ∧ Path.cleanFrom ⟨"/p/./lib/.."⟩ ⟨"pkg/src/x/../a.js"⟩ ≠ ⟨"/"⟩ ∧
      (∀ directory : Path, directory.IsAbove ⟨"/p/pkg/src"⟩ → Path.IsAbove ⟨"/p"⟩ directory →
        AgreeIn (packageTree [] []).disk
          (packageTree [(".babelrc", .file "")] [(".babelrc", .file "")]).disk directory) ∧
      Discovers (packageTree [] []).disk ⟨"/p/./lib/.."⟩ ⟨"pkg/src/x/../a.js"⟩ ⟨"/p"⟩ ∧
      Discovers (packageTree [(".babelrc", .file "")] [(".babelrc", .file "")]).disk ⟨"/p/./lib/.."⟩
        ⟨"pkg/src/x/../a.js"⟩ ⟨"/p"⟩ := by
  have absolute : Path.isAbsolute ⟨"/p/./lib/.."⟩ := by decide
  have below : Path.cleanFrom ⟨"/p/./lib/.."⟩ ⟨"pkg/src/x/../a.js"⟩ ≠ ⟨"/"⟩ := by decide +kernel
  have start : (Path.cleanFrom ⟨"/p/./lib/.."⟩ ⟨"pkg/src/x/../a.js"⟩).enclosing = ⟨"/p/pkg/src"⟩ := by
    decide +kernel
  have agree : ∀ directory : Path, directory.IsAbove ⟨"/p/pkg/src"⟩ →
      Path.IsAbove ⟨"/p"⟩ directory → AgreeIn (packageTree [] []).disk
        (packageTree [(".babelrc", .file "")] [(".babelrc", .file "")]).disk directory := by
    rintro directory ⟨normal, leads⟩ ⟨_, upper⟩
    have startNames : Path.names ⟨"/p/pkg/src"⟩ = ["p".toList, "pkg".toList, "src".toList] := by decide
    have topNames : Path.names ⟨"/p"⟩ = ["p".toList] := by decide
    rw [startNames, ← List.mem_inits] at leads
    rw [topNames] at upper
    simp only [List.inits, List.map_cons, List.map_nil, List.mem_cons, List.not_mem_nil,
      or_false] at leads
    rw [normal.eq_ofNames]
    rcases leads with names | names | names | names <;> rw [names] at upper ⊢
    · exact absurd upper (by decide)
    · exact ⟨by decide +kernel, by decide +kernel⟩
    · exact ⟨by decide +kernel, by decide +kernel⟩
    · exact ⟨by decide +kernel, by decide +kernel⟩
  rcases (discovers_nearest (packageTree [] []).disk absolute below).1 with
    ⟨result, finds, nearest, discovers, sameOn⟩
  rw [start] at finds nearest sameOn
  have found : result.map Place.directory = some ⟨"/p"⟩ := by
    rw [← nearestDir?_eq finds nearest]
    decide +kernel
  rw [found] at discovers sameOn
  refine ⟨absolute, below, agree, discovers, (sameOn _ ?_).2⟩
  rintro directory ⟨lower, upper⟩
  rcases Option.map_eq_some_iff.mp found with ⟨place, isResult, atTop⟩
  exact agree directory lower (atTop ▸ upper place isResult)

end Options

end ImportAlias
