import ImportAlias.Alias.Resolver
import ImportAlias.Proofs.Alias.Lookup
import ImportAlias.Proofs.Config.Absolute
import ImportAlias.Proofs.Path.Reference

/-!
# What a resolved specifier denotes

A match that stands for no package denotes a path. The resolver writes that path as a reference from
the directory of the importing file: reading the reference from there leads to the path again, and a
slash at its end is the one of the specifier, or says that the path is the directory itself.
-/

namespace ImportAlias

/-- The path that a match denotes, unless it stands for a package. -/
def AliasTable.Match.denoted? (cwd : Path) : AliasTable.Match → Option Path
  | .literal key (.path target) rest =>
    some (Path.clean ⟨target.text ++ (if key = "" then "/" ++ rest else rest)⟩)
  | .literal _ (.package _) _ => none
  | .pattern expanded external => if external then none else some (cwd.cleanFrom ⟨expanded⟩)

open ImportAlias.Path

theorem AliasTable.isAbsolute_of_ofConfig_eq_ok {config : Config} {table : AliasTable}
    (configAbsolute : config.IsAbsolute) (made : AliasTable.ofConfig config = .ok table) :
    ∀ key path, table.literal? key = some (.path path) → path.isAbsolute := by
  rcases exists_of_bind_eq_ok made with ⟨patterns, _, ok⟩
  cases ok
  intro key path present
  apply configAbsolute.targets key path
  exact mem_of_mem_fieldsOf (mem_of_fieldAt?_eq_some present)

namespace Resolver

theorem endsWithSlash_iff (text : String) :
    endsWithSlash text = true ↔ text.toList.getLast? = some '/' :=
  decide_eq_true_iff

/-- The slash of a specifier is added to a text that has none. -/
theorem toList_withSlashOf (specifier resolved : String) :
    (withSlashOf specifier resolved).toList = resolved.toList ∨
      (withSlashOf specifier resolved).toList = resolved.toList ++ ['/'] := by
  unfold withSlashOf
  split
  · exact Or.inr (String.toList_append ..)
  · exact Or.inl rfl

theorem endsWithSlash_withSlashOf (specifier resolved : String) :
    endsWithSlash (withSlashOf specifier resolved) ↔
      endsWithSlash specifier ∨ endsWithSlash resolved := by
  unfold withSlashOf
  split
  · next both =>
    rw [Bool.and_eq_true] at both
    have ends : endsWithSlash (resolved ++ "/") = true := by simp [endsWithSlash]
    simp [ends, both.1]
  · next notBoth =>
    rw [Bool.and_eq_true, Bool.not_eq_true'] at notBoth
    constructor
    · exact Or.inr
    · rintro (slash | slash)
      · cases ends : endsWithSlash resolved with
        | true => rfl
        | false => exact absurd ⟨slash, ends⟩ notBoth
      · exact slash

/-- What a resolver takes from its table and its directories is absolute. -/
structure IsAbsolute (resolver : Resolver) : Prop where
  cwd : resolver.cwd.isAbsolute
  workingDir : resolver.workingDir.isAbsolute
  targets : ∀ key path, resolver.table.literal? key = some (.path path) → path.isAbsolute

theorem isAbsolute_of_ofConfig_eq_ok {config : Config} {environment : Environment}
    {resolver : Resolver} (absolute : environment.workingDir.isAbsolute)
    (configAbsolute : config.IsAbsolute) (built : ofConfig config environment = .ok resolver) :
    resolver.IsAbsolute := by
  rcases exists_of_bind_eq_ok built with ⟨table, made, ok⟩
  cases ok
  exact ⟨configAbsolute.cwd, absolute, AliasTable.isAbsolute_of_ofConfig_eq_ok configAbsolute made⟩

theorem directories_of_ofConfig_eq_ok {config : Config} {environment : Environment}
    {resolver : Resolver} (built : ofConfig config environment = .ok resolver) :
    resolver.cwd = config.cwd ∧ resolver.workingDir = environment.workingDir := by
  rcases exists_of_bind_eq_ok built with ⟨table, _, ok⟩
  cases ok
  exact ⟨rfl, rfl⟩

/-- A match that denotes a path is expanded to the reference to it. -/
theorem expand_of_denoted? {resolver : Resolver} (absolute : resolver.IsAbsolute)
    {specifier : String} {found : AliasTable.Match} {denoted : Path} (file : Path)
    (looked : resolver.table.lookup? specifier = some found)
    (denotes : found.denoted? resolver.cwd = some denoted) :
    denoted = ofNames denoted.names ∧ (resolver.expand file found).toList =
      referenceChars (directoryOf resolver.workingDir file).names denoted.names := by
  have clean (path : Path) (pathAbsolute : path.isAbsolute) :
      path.clean = ofNames path.clean.names := by
    rw [names_clean pathAbsolute, clean_of_isAbsolute pathAbsolute]
  have chosen := resolver.table.chooses_lookup? specifier
  rw [looked] at chosen
  cases chosen with
  | @literal key rest target longest =>
      cases target with
      | package name => exact absurd denotes.symm (Option.some_ne_none denoted)
      | path target =>
          have targetAbsolute := isAbsolute_append
            (absolute.targets key target longest.present) (if key = "" then "/" ++ rest else rest)
          have isDenoted := Option.some.inj denotes
          subst isDenoted
          refine ⟨clean _ targetAbsolute, ?_⟩
          rw [names_clean targetAbsolute]
          exact reference_toList_of_isAbsolute absolute.workingDir targetAbsolute file
  | @pattern earlier later rule captures nonempty noKey order unmatched hit =>
      have expandedAbsolute := isAbsolute_cleanFrom absolute.cwd ⟨rule.template.expand captures⟩
      rw [AliasTable.Match.denoted?] at denotes
      split at denotes
      · exact absurd denotes.symm (Option.some_ne_none denoted)
      · next external =>
        rw [Bool.not_eq_true] at external
        have isDenoted := Option.some.inj denotes
        subst isDenoted
        refine ⟨clean _ (isAbsolute_join absolute.cwd _), ?_⟩
        rw [external]
        exact reference_toList_of_isAbsolute absolute.workingDir expandedAbsolute file

/-- From an absolute working directory, a match that stands for no package is replaced by a
reference to the path that it denotes. -/
theorem resolve_denotes {disk : Disk} {environment : Environment} {options : Options}
    {configured : Option Path} {config : Config} {resolver : Resolver} {specifier : String}
    {found : AliasTable.Match} {denoted : Path} (absolute : environment.workingDir.isAbsolute)
    (accepted : options.configure disk environment configured = .ok config)
    (built : ofConfig config environment = .ok resolver)
    (looked : resolver.table.lookup? specifier = some found)
    (denotes : found.denoted? config.cwd = some denoted) (file : Path) :
    (∀ key target rest, found = .literal key target rest → key ++ rest = specifier) ∧
      ∃ reference, resolver.resolve specifier file = .replacement reference ∧
        (reference.toList = ['.', '.'] ∨ ['.', '/'] <+: reference.toList ∨
          ['.', '.', '/'] <+: reference.toList) ∧
        (directoryOf environment.workingDir file).cleanFrom ⟨reference⟩ = denoted ∧
        (endsWithSlash reference ↔
          endsWithSlash specifier ∨ denoted = directoryOf environment.workingDir file) := by
  have resolverAbsolute := isAbsolute_of_ofConfig_eq_ok absolute
    (Options.isAbsolute_of_configure_eq_ok absolute accepted) built
  rcases directories_of_ofConfig_eq_ok built with ⟨cwdEq, workingDirEq⟩
  rw [← cwdEq] at denotes
  rcases expand_of_denoted? resolverAbsolute file looked denotes with ⟨denotedEq, expanded⟩
  rw [workingDirEq] at expanded
  have directoryAbsolute := isAbsolute_directoryOf absolute file
  have directoryEq := directoryOf_eq_ofNames absolute file
  generalize directoryOf environment.workingDir file = directory at *
  have written := toList_withSlashOf specifier (resolver.expand file found)
  rw [expanded] at written
  refine ⟨?_, withSlashOf specifier (resolver.expand file found), ?_, ?_, ?_, ?_⟩
  · rintro key target rest rfl
    have chosen := resolver.table.chooses_lookup? specifier
    rw [looked] at chosen
    cases chosen with
    | literal longest => exact longest.split
  · rw [resolve, looked]
  · exact cases_of_toList_eq_referenceChars written
  · rw [cleanFrom_of_toList_eq_referenceChars directoryAbsolute isName_of_mem_names written,
      ← denotedEq]
  · rw [endsWithSlash_withSlashOf, endsWithSlash_iff (resolver.expand file found), expanded,
      getLast?_referenceChars isName_of_mem_names]
    apply or_congr_right
    constructor
    · intro sameNames
      rw [denotedEq, ← sameNames, ← directoryEq]
    · rintro rfl
      rfl

/-- Two roots and two aliases in a project on an empty disk. -/
def exampleOptions : Options :=
  .settings ⟨some (.path ⟨"app"⟩), ["src", "./lib/"], [("utils/", "./x/../utils"), ("", "/vendor")],
    none⟩

def exampleConfig : Config where
  cwd := ⟨"/project/app"⟩
  roots := [⟨"/project/app/src"⟩, ⟨"/project/app/lib"⟩]
  aliases := [.literal "utils" (.path ⟨"/project/app/src/utils"⟩), .literal "" (.path ⟨"/vendor"⟩)]
  extensions := Options.defaultExtensions

def exampleResolver : Resolver where
  table := ⟨[("utils", .path ⟨"/project/app/src/utils"⟩), ("", .path ⟨"/vendor"⟩)], []⟩
  cwd := ⟨"/project/app"⟩
  workingDir := ⟨"/project"⟩

set_option maxRecDepth 10000 in
theorem resolve_denotes_dotted_rest :
    (∀ key target rest,
        AliasTable.Match.literal "utils" (.path ⟨"/project/app/src/utils"⟩) "/a/../b/" =
          .literal key target rest → key ++ rest = "utils/a/../b/") ∧
      ∃ reference, exampleResolver.resolve "utils/a/../b/" ⟨"app/src/./pages/index.js"⟩ =
          .replacement reference ∧
        (reference.toList = ['.', '.'] ∨ ['.', '/'] <+: reference.toList ∨
          ['.', '.', '/'] <+: reference.toList) ∧
        (directoryOf ⟨"/project"⟩ ⟨"app/src/./pages/index.js"⟩).cleanFrom ⟨reference⟩ =
          ⟨"/project/app/src/utils/b"⟩ ∧
        (endsWithSlash reference ↔ endsWithSlash "utils/a/../b/" ∨
          (⟨"/project/app/src/utils/b"⟩ : Path) =
            directoryOf ⟨"/project"⟩ ⟨"app/src/./pages/index.js"⟩) := by
  have accepted : exampleOptions.configure Disk.empty ⟨⟨"/project"⟩⟩ none = .ok exampleConfig := rfl
  have built : ofConfig exampleConfig ⟨⟨"/project"⟩⟩ = .ok exampleResolver := rfl
  exact resolve_denotes (by decide) accepted built (by decide) (by decide) _

end Resolver

end ImportAlias
