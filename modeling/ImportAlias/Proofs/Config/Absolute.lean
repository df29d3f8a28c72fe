import ImportAlias.Alias.Table
import ImportAlias.Config.OfOptions
import ImportAlias.Proofs.Fields
import ImportAlias.Proofs.Path.Location

/-!
# Configurations are absolute

From an absolute working directory, options come down to absolute paths only, whatever the disk
answers: a path that is found above an absolute path, below it, or from it as an entry is absolute.
So the directory of a configuration, its roots and its targets do not depend on a working directory
any more.
-/

namespace ImportAlias

/-- A first step that does not fail, and what the second step makes of its result. -/
theorem exists_of_bind_eq_ok {ε α β : Type} {first : Except ε α} {second : α → Except ε β}
    {result : β} (ok : (first >>= second) = .ok result) :
    ∃ value, first = .ok value ∧ second value = .ok result := by
  cases first with
  | error fault => simp [bind, Except.bind] at ok
  | ok value => exact ⟨value, rfl, ok⟩

namespace Path

theorem isAbsolute_of_parent?_eq_some {path above : Path} (absolute : path.isAbsolute)
    (found : path.parent? = some above) : above.isAbsolute := by
  rcases isAbsolute_iff.mp absolute with ⟨rest, chars⟩
  simp only [parent?, chars, segments_separator_cons] at found
  split at found
  · simp at found
  · simp only [true_and] at found
    split at found <;> rw [Option.some.injEq] at found <;> subst found
    · rfl
    · next kept =>
      rw [isAbsolute_iff, chars_ofChars]
      revert kept
      generalize (List.dropWhile isIdleSegment _).reverse = pieces
      cases pieces <;> simp

theorem isAbsolute_of_mem_ancestorsUpTo {bound : Nat} {path above : Path}
    (absolute : path.isAbsolute) (member : above ∈ path.ancestorsUpTo bound) :
    above.isAbsolute := by
  induction bound generalizing path with
  | zero =>
      rw [ancestorsUpTo, List.mem_singleton] at member
      exact member ▸ absolute
  | succ bound ih =>
      rw [ancestorsUpTo] at member
      split at member
      · rw [List.mem_singleton] at member
        exact member ▸ absolute
      · next next found =>
        rcases List.mem_cons.mp member with here | higher
        · exact here ▸ absolute
        · exact ih (isAbsolute_of_parent?_eq_some absolute found) higher

end Path

open ImportAlias.Path

theorem ProjectFile.isAbsolute_of_inDirectory?_eq_some {disk : Disk} {directory file : Path}
    (absolute : directory.isAbsolute) (found : inDirectory? disk directory = some file) :
    file.isAbsolute := by
  unfold inDirectory? at found
  split at found
  · next named =>
    rw [Option.some.injEq] at found
    rcases List.mem_map.mp (List.mem_of_find?_eq_some named) with ⟨name, _, rfl⟩
    exact found ▸ isAbsolute_join absolute _
  · split at found
    · rw [Option.some.injEq] at found
      exact found ▸ isAbsolute_join absolute _
    · simp at found

theorem ProjectFile.isAbsolute_of_nearestDir?_eq_some {disk : Disk} {start directory : Path}
    (absolute : start.isAbsolute) (found : nearestDir? disk start = some directory) :
    directory.isAbsolute := by
  rcases Option.bind_eq_some_iff.mp found with ⟨file, nearest, parent⟩
  rcases List.exists_of_findSome?_eq_some nearest with ⟨above, member, inAbove⟩
  have aboveAbsolute : above.isAbsolute := isAbsolute_of_mem_ancestorsUpTo absolute member
  exact isAbsolute_of_parent?_eq_some
    (isAbsolute_of_inDirectory?_eq_some aboveAbsolute inAbove) parent

namespace Glob

theorem isAbsolute_entryOf {directory : Path} (absolute : directory.isAbsolute)
    (name : List Char) : (entryOf directory name).isAbsolute := by
  unfold entryOf
  split
  · next here =>
    subst here
    exact absurd absolute (by decide)
  · exact isAbsolute_join absolute _

/-- A match in a directory comes from the search among its names. -/
theorem exists_names_of_mem_amongNames {disk : Disk} {path found : Path}
    {search : List String → List Finding} (member : .ok found ∈ amongNames disk path search) :
    ∃ names, .ok found ∈ search names := by
  unfold amongNames at member
  have read := (List.mem_ite_nil_right.mp member).2
  split at read
  · simp at read
  · exact ⟨_, read⟩

/-- A walk that starts from an absolute path finds absolute paths. The three readers call each other
with less fuel, so the induction on the fuel is about all of them. -/
theorem isAbsolute_of_mem (disk : Disk) (fuel : Nat) :
    (∀ steps path, path.isAbsolute →
      ∀ found, .ok found ∈ below disk fuel steps path → found.isAbsolute) ∧
    (∀ steps path, path.isAbsolute →
      ∀ found, .ok found ∈ entry disk fuel steps path → found.isAbsolute) ∧
    (∀ step steps path, path.isAbsolute →
      ∀ found, .ok found ∈ named disk fuel step steps path → found.isAbsolute) := by
  induction fuel with
  | zero =>
      refine ⟨?_, ?_, ?_⟩
      · exact fun _ _ _ _ member => absurd member List.not_mem_nil
      · exact fun _ _ _ _ member => absurd member List.not_mem_nil
      · exact fun _ _ _ _ _ member => absurd member List.not_mem_nil
  | succ fuel ih =>
      rcases ih with ⟨ihBelow, ihEntry, ihNamed⟩
      refine ⟨?_, ?_, ?_⟩
      · intro steps path absolute found member
        have atNames (steps : List Step) (names : List String)
            (inside : .ok found ∈ names.flatMap
              (fun name => entry disk fuel steps (entryOf path name.toList))) :
            found.isAbsolute := by
          rcases List.mem_flatMap.mp inside with ⟨name, _, atName⟩
          exact ihEntry _ _ (isAbsolute_entryOf absolute _) found atName
        match steps with
        | [] =>
            cases List.mem_singleton.mp member
            exact absolute
        | .name text :: rest =>
            have present := (List.mem_ite_nil_right.mp member).2
            exact ihBelow _ _ (isAbsolute_entryOf absolute text) found present
        | .directories :: rest =>
            rcases exists_names_of_mem_amongNames member with ⟨names, inside⟩
            exact atNames _ names inside
        | .wild tokens :: rest =>
            rcases exists_names_of_mem_amongNames member with ⟨names, inside⟩
            rcases List.mem_append.mp inside with dots | inside
            · rcases List.mem_flatMap.mp (List.mem_ite_nil_right.mp dots).2 with ⟨text, _, atDots⟩
              have matching := (List.mem_ite_nil_right.mp atDots).2
              exact ihBelow _ _ (isAbsolute_join absolute _) found matching
            · exact atNames _ names inside
      · intro steps path absolute found member
        match steps with
        | [] => exact absurd member List.not_mem_nil
        | .name text :: rest => exact ihNamed _ _ _ absolute found member
        | .wild tokens :: rest => exact ihNamed _ _ _ absolute found member
        | .directories :: rest =>
            rw [entry] at member
            split at member
            · rcases List.mem_cons.mp (List.mem_ite_nil_right.mp member).2 with here | inside
              · cases here
                exact absolute
              · exact ihBelow _ _ absolute found inside
            · rcases List.mem_append.mp member with here | inside
              · exact ihNamed _ _ _ absolute found here
              · exact ihBelow _ _ absolute found (List.mem_ite_nil_right.mp inside).2
      · intro step steps path absolute found member
        exact ihBelow _ _ absolute found (List.mem_ite_nil_right.mp member).2

theorem isAbsolute_of_findings_eq_ok {disk : Disk} {pattern : Path} {findings : List Finding}
    (absolute : pattern.isAbsolute) (ok : Glob.findings disk pattern = .ok findings) :
    ∀ path, .ok path ∈ findings → path.isAbsolute := by
  rcases exists_of_bind_eq_ok ok with ⟨_, _, ok⟩
  rcases exists_of_bind_eq_ok ok with ⟨steps, _, ok⟩
  rw [if_pos absolute] at ok
  intro path member
  cases ok
  exact (isAbsolute_of_mem disk _).1 _ _ rfl path member

end Glob

/-- Directories come out exactly if the walk went through every directory and the disk tells what each
match is; then they are the matches that are directories. -/
theorem Roots.directories_eq_ok_iff {disk : Disk} {findings : List Glob.Finding}
    {paths : List Path} :
    directories disk findings = .ok paths ↔ ∃ found : List Path, findings = found.map .ok ∧
      (∀ path ∈ found, ∃ kind, disk.entry path = .ok kind) ∧
      paths = found.filter (fun path => disk.entry path = .ok .directory) := by
  induction findings generalizing paths with
  | nil =>
      constructor
      · intro ok
        cases ok
        exact ⟨[], rfl, by simp, rfl⟩
      · rintro ⟨found, same, _, rfl⟩
        rw [List.map_eq_nil_iff.mp same.symm]
        rfl
  | cons finding rest ih =>
      cases finding with
      | error unread =>
          constructor
          · intro ok
            simp [directories] at ok
          · rintro ⟨found, same, _⟩
            rcases List.map_eq_cons_iff.mp same.symm with ⟨_, _, _, impossible, _⟩
            simp at impossible
      | ok path =>
          constructor
          · intro ok
            cases answer : disk.entry path with
            | error failure => simp [directories, answer] at ok
            | ok kind =>
                simp only [directories, answer] at ok
                rcases exists_of_bind_eq_ok ok with ⟨more, others, ok⟩
                rcases ih.mp others with ⟨found, rfl, told, rfl⟩
                refine ⟨path :: found, rfl, ?_, ?_⟩
                · exact List.forall_mem_cons.mpr ⟨⟨kind, answer⟩, told⟩
                · by_cases isDirectory : kind = .directory
                  all_goals
                    cases ok
                    simp [answer, isDirectory]
          · rintro ⟨found, same, told, rfl⟩
            rcases List.map_eq_cons_iff.mp same.symm with ⟨first, others, rfl, isPath, rfl⟩
            cases isPath
            rcases List.forall_mem_cons.mp told with ⟨⟨kind, answer⟩, behind⟩
            have kept := ih.mpr ⟨others, rfl, behind, rfl⟩
            simp only [directories, answer, kept, bind, Except.bind, pure, Except.pure]
            by_cases isDirectory : kind = .directory <;> simp [answer, isDirectory]

/-- A directory that may not be read refuses the pattern. -/
example : Roots.expandEntry
    { Disk.empty with
      target? := fun _ => some .directory
      names := fun _ => .error ⟨"Permission denied (os error 13)"⟩ } ⟨"/project"⟩ "lib/*" =
      .error (.rootExpansion ⟨"/project/lib"⟩ ⟨"Permission denied (os error 13)"⟩) :=
  rfl

theorem Roots.isAbsolute_of_expand_eq_ok {disk : Disk} {cwd : Path} {entries : List String}
    {roots : List Path} (absolute : cwd.isAbsolute)
    (ok : Roots.expand disk cwd entries = .ok roots) :
    ∀ root ∈ roots, root.isAbsolute := by
  induction entries generalizing roots with
  | nil =>
      cases ok
      exact fun root member => absurd member List.not_mem_nil
  | cons entry rest ih =>
      rcases exists_of_bind_eq_ok ok with ⟨paths, expanded, ok⟩
      rcases exists_of_bind_eq_ok ok with ⟨more, others, ok⟩
      cases ok
      intro root member
      rcases List.mem_append.mp member with first | behind
      · have entryAbsolute := isAbsolute_cleanFrom absolute ⟨entry⟩
        unfold Roots.expandEntry at expanded
        dsimp only at expanded
        split at expanded
        · split at expanded
          · next findings walked =>
            rcases directories_eq_ok_iff.mp expanded with ⟨found, rfl, _, rfl⟩
            exact Glob.isAbsolute_of_findings_eq_ok entryAbsolute walked root
              (List.mem_map_of_mem (List.mem_of_mem_filter first))
          · simp at expanded
        · cases expanded
          exact List.mem_singleton.mp first ▸ entryAbsolute
      · exact ih others root behind

namespace Options

theorem isAbsolute_cwdOf (disk : Disk) {environment : Environment}
    (absolute : environment.workingDir.isAbsolute) (file : Option Path)
    (anchor : Option Anchor) : (cwdOf disk environment file anchor).isAbsolute := by
  match anchor with
  | none => exact absolute
  | some (.path path) => exact isAbsolute_cleanFrom absolute path
  | some .projectFile =>
      have fromStart (start : Path) (startAbsolute : start.isAbsolute) :
          ((ProjectFile.nearestDir? disk start).getD environment.workingDir).isAbsolute := by
        cases nearest : ProjectFile.nearestDir? disk start with
        | none => exact absolute
        | some directory =>
            exact ProjectFile.isAbsolute_of_nearestDir?_eq_some startAbsolute nearest
      cases file with
      | none => exact fromStart environment.workingDir absolute
      | some file =>
          have cwdEq : cwdOf disk environment (some file) (some .projectFile) =
              (ProjectFile.nearestDir? disk ((environment.locate file).parent?.getD
                environment.workingDir)).getD environment.workingDir := rfl
          have located : (environment.locate file).isAbsolute := isAbsolute_cleanFrom absolute file
          have startAbsolute :
              ((environment.locate file).parent?.getD environment.workingDir).isAbsolute := by
            cases parent : (environment.locate file).parent? with
            | none => exact absolute
            | some above => exact isAbsolute_of_parent?_eq_some located parent
          rw [cwdEq]
          exact fromStart _ startAbsolute

theorem isAbsolute_targetBase {cwd : Path} {roots : List Path} (cwdAbsolute : cwd.isAbsolute)
    (rootsAbsolute : ∀ root ∈ roots, root.isAbsolute) (disk : Disk) (extensions : List String)
    (value : Path) : (targetBase disk cwd roots extensions value).isAbsolute := by
  unfold targetBase
  split
  · exact cwdAbsolute
  · next first rest =>
    cases chosen : (first :: rest).find?
        (fun root => candidateExists disk extensions (root.join value)) with
    | none => exact rootsAbsolute first List.mem_cons_self
    | some root => exact rootsAbsolute root (List.mem_of_find?_eq_some chosen)

/-- A path that a literal alias stands for is absolute. -/
theorem isAbsolute_of_targetOf_eq_path {disk : Disk} {cwd : Path} {roots : List Path}
    {extensions : List String} {value : String} {path : Path} (cwdAbsolute : cwd.isAbsolute)
    (rootsAbsolute : ∀ root ∈ roots, root.isAbsolute)
    (target : targetOf disk cwd roots extensions value = .path path) : path.isAbsolute := by
  have baseAbsolute := isAbsolute_targetBase cwdAbsolute rootsAbsolute disk extensions ⟨value⟩
  unfold targetOf at target
  split at target
  · simp at target
  · dsimp only at target
    split at target <;> cases target
    · next valueAbsolute => exact isAbsolute_clean valueAbsolute
    · exact isAbsolute_cleanFrom baseAbsolute _

end Options

/-- The directory, the roots and the paths of literal aliases are absolute. -/
structure Config.IsAbsolute (config : Config) : Prop where
  cwd : config.cwd.isAbsolute
  roots : ∀ root ∈ config.roots, root.isAbsolute
  targets : ∀ key path, (key, Target.path path) ∈ config.literals → path.isAbsolute

namespace Options

variable {disk : Disk} {environment : Environment}

theorem patternOf_eq_pattern (entry : String × String) :
    ∃ template external, patternOf entry = .pattern entry.1 template external := by
  unfold patternOf
  split <;> exact ⟨_, _, rfl⟩

/-- The literal aliases of a configuration are those that it was made of, every key once. -/
theorem literals_aliasesOf (cwd : Path) (roots : List Path) (extensions : List String)
    (literals : List (String × Target)) (entries : List (String × String)) :
    Config.literals ⟨cwd, roots, aliasesOf literals (entries.map patternOf), extensions⟩ =
      fieldsOf literals := by
  rw [Config.literals, aliasesOf, List.filterMap_append, List.filterMap_map]
  have noLiterals : ∀ fromAlias : Alias → Option (String × Target),
      (∀ pattern template external, fromAlias (.pattern pattern template external) = none) →
        (entries.map patternOf).filterMap fromAlias = [] := by
    intro fromAlias nonePattern
    rw [List.filterMap_eq_nil_iff]
    intro made member
    rcases List.mem_map.mp member with ⟨entry, _, rfl⟩
    rcases patternOf_eq_pattern entry with ⟨template, external, isPattern⟩
    rw [isPattern, nonePattern]
  rw [noLiterals _ (fun _ _ _ => rfl), List.append_nil]
  exact List.filterMap_some

/-- So the list form has a literal alias for each of its records. -/
theorem literals_configureRecords (disk : Disk) (environment : Environment)
    (list : List ExposeRecord) :
    (configureRecords disk environment list).literals =
      fieldsOf (list.map (fun record =>
        literalOf disk environment.workingDir [] defaultExtensions (record.expose, record.src))) :=
  literals_aliasesOf environment.workingDir [] defaultExtensions _ []

/-- Literal aliases stand for absolute paths when their directory and roots are absolute. -/
theorem isAbsolute_of_mem_fieldsOf_literalOf {cwd : Path} {roots : List Path}
    {extensions : List String} {entries : List (String × String)} (cwdAbsolute : cwd.isAbsolute)
    (rootsAbsolute : ∀ root ∈ roots, root.isAbsolute) :
    ∀ key path, (key, Target.path path) ∈
      fieldsOf (entries.map (literalOf disk cwd roots extensions)) → path.isAbsolute := by
  intro key path member
  rcases List.mem_map.mp (mem_of_mem_fieldsOf member) with ⟨entry, _, made⟩
  exact isAbsolute_of_targetOf_eq_path cwdAbsolute rootsAbsolute (Prod.mk.inj made).2

/-- In the map form, an absolute directory is enough, wherever it comes from. -/
theorem isAbsolute_of_configureSettings_eq_ok {file : Option Path} {form : Settings}
    {config : Config} (cwdAbsolute : (cwdOf disk environment file form.cwd).isAbsolute)
    (ok : configureSettings disk environment file form = .ok config) : config.IsAbsolute := by
  rcases exists_of_bind_eq_ok ok with ⟨roots, expanded, made⟩
  have rootsAbsolute := Roots.isAbsolute_of_expand_eq_ok cwdAbsolute expanded
  cases made
  refine ⟨cwdAbsolute, rootsAbsolute, ?_⟩
  rw [literals_aliasesOf]
  exact isAbsolute_of_mem_fieldsOf_literalOf cwdAbsolute rootsAbsolute

theorem isAbsolute_of_configure_eq_ok {file : Option Path} {options : Options} {config : Config}
    (absolute : environment.workingDir.isAbsolute)
    (ok : options.configure disk environment file = .ok config) : config.IsAbsolute := by
  cases options with
  | records records =>
      cases ok
      have noRoots : ∀ root ∈ ([] : List Path), root.isAbsolute :=
        fun root member => absurd member List.not_mem_nil
      refine ⟨absolute, noRoots, ?_⟩
      have pairs : records.map (fun record => literalOf disk environment.workingDir []
          defaultExtensions (record.expose, record.src)) =
            (records.map (fun record => (record.expose, record.src))).map
              (literalOf disk environment.workingDir [] defaultExtensions) := by
        rw [List.map_map]
        rfl
      rw [literals_configureRecords, pairs]
      exact isAbsolute_of_mem_fieldsOf_literalOf absolute noRoots
  | settings form =>
      exact isAbsolute_of_configureSettings_eq_ok (isAbsolute_cwdOf disk absolute file form.cwd) ok

end Options

end ImportAlias
