import ImportAlias.Proofs.Config.Literals
import ImportAlias.Proofs.Config.Spelling
import ImportAlias.Proofs.Path.Ancestors
import Mathlib.Data.List.Forall2

/-!
# What a configuration is made of

From an absolute working directory, options come down to clean absolute paths. One pass over the
entries sorts them: a literal alias keeps the place of the first entry with its key and takes the target
of the last one, a pattern goes behind the patterns before it, and the first mark of a package gives the
only warning. A table holds exactly the aliases of a configuration, provided that its patterns can be
read.
-/

namespace ImportAlias

open ImportAlias.Path

/-! ### The directory -/

namespace ProjectFile

theorem isName_of_mem_names : ∀ name ∈ manifestName :: names, IsName name.toList := by
  decide

/-- A project file of a clean directory is an entry of it. -/
theorem parent?_of_inDirectory?_eq_some {disk : Disk} {directory file : Path}
    (normal : directory.IsNormal) (found : inDirectory? disk directory = some file) :
    file.parent? = some directory := by
  unfold inDirectory? at found
  split at found
  · next named =>
    rw [Option.some.injEq] at found
    rcases List.mem_map.mp (List.mem_of_find?_eq_some named) with ⟨name, member, rfl⟩
    rw [← found]
    exact normal.parent?_join (isName_of_mem_names name (List.mem_cons_of_mem _ member))
  · split at found
    · rw [Option.some.injEq] at found
      rw [← found]
      exact normal.parent?_join (isName_of_mem_names _ List.mem_cons_self)
    · simp at found

theorem isNormal_of_nearestDir?_eq_some {disk : Disk} {start directory : Path}
    (normal : start.IsNormal) (found : nearestDir? disk start = some directory) :
    directory.IsNormal := by
  rcases Option.bind_eq_some_iff.mp found with ⟨file, nearest, parent⟩
  rcases List.exists_of_findSome?_eq_some nearest with ⟨above, member, inAbove⟩
  have aboveNormal : above.IsNormal := normal.of_mem_ancestorsUpTo member
  rw [parent?_of_inDirectory?_eq_some aboveNormal inAbove, Option.some.injEq] at parent
  exact parent ▸ aboveNormal

end ProjectFile

namespace Options

variable {disk : Disk} {environment : Environment}

theorem isNormal_cwdOf (disk : Disk) (normal : environment.workingDir.IsNormal)
    (file : Option Path) (anchor : Option Anchor) :
    (cwdOf disk environment file anchor).IsNormal := by
  have fromStart {start : Path} (startNormal : start.IsNormal) :
      ((ProjectFile.nearestDir? disk start).getD environment.workingDir).IsNormal := by
    cases nearest : ProjectFile.nearestDir? disk start with
    | none => exact normal
    | some directory => exact ProjectFile.isNormal_of_nearestDir?_eq_some startNormal nearest
  match anchor, file with
  | none, _ => exact normal
  | some (.path path), _ => exact isNormal_cleanFrom normal.absolute path
  | some .projectFile, none => exact fromStart normal
  | some .projectFile, some file =>
      have located : (environment.locate file).IsNormal := isNormal_cleanFrom normal.absolute file
      have startNormal : ((environment.locate file).parent?.getD environment.workingDir).IsNormal := by
        cases parent : (environment.locate file).parent? with
        | none => exact normal
        | some above => exact (located.exists_of_parent?_eq_some parent).1
      have cwdEq : cwdOf disk environment (some file) (some .projectFile) =
          (ProjectFile.nearestDir? disk ((environment.locate file).parent?.getD
            environment.workingDir)).getD environment.workingDir := rfl
      rw [cwdEq]
      exact fromStart startNormal

/-! ### One pass over the entries -/

/-- What a pass over entries has put together. -/
structure Pass where
  literals : List (String × Target)
  patterns : List Alias
  warnings : List Warning

/-- The pass before the first entry. -/
def Pass.empty : Pass :=
  ⟨[], [], []⟩

/-- The pass behind one more entry. -/
def Pass.add (isPatternKey : String → Bool) (target : String → Target) (pass : Pass)
    (entry : String × String) : Pass where
  literals :=
    if isPatternKey entry.1 then pass.literals
    else putField (trimKey entry.1) (target entry.2) pass.literals
  patterns :=
    if isPatternKey entry.1 then pass.patterns ++ [patternOf entry] else pass.patterns
  warnings :=
    if (packageName? entry.2).isSome && pass.warnings.isEmpty then
      pass.warnings ++ [.packageMark]
    else pass.warnings

/-- Which keys are patterns; the list form has none. -/
def isPatternKey : Options → String → Bool
  | records _, _ => false
  | settings _, key => isPattern key

/-- The pass over the entries of options, with the directories of a configuration. -/
def pass (disk : Disk) (config : Config) (options : Options) : Pass :=
  options.entries.foldl (Pass.add options.isPatternKey
    (targetOf disk config.cwd config.roots config.extensions)) .empty

/-- The entries that are patterns, in their order. -/
def patternValues (options : Options) : List (String × String) :=
  options.entries.filter (fun entry => options.isPatternKey entry.1)

theorem literalValues_eq (options : Options) :
    options.literalValues =
      (options.entries.filter (fun entry => !options.isPatternKey entry.1)).map
        (fun entry => (trimKey entry.1, entry.2)) := by
  cases options with
  | records list =>
      have allLiteral : (records list).entries.filter
          (fun entry => !(records list).isPatternKey entry.1) = (records list).entries :=
        List.filter_eq_self.mpr (fun _ _ => rfl)
      rw [allLiteral, literalValues, entries, List.map_map]
      rfl
  | settings form => rfl

/-- However many entries there are, a pass over them has the fields of the literal ones, the patterns
one behind the other, and at most one warning. -/
theorem foldl_add (isPatternKey : String → Bool) (target : String → Target)
    (entries : List (String × String)) :
    entries.foldl (Pass.add isPatternKey target) .empty =
      ⟨fieldsOf ((entries.filter (fun entry => !isPatternKey entry.1)).map
          (fun entry => (trimKey entry.1, target entry.2))),
        (entries.filter (fun entry => isPatternKey entry.1)).map patternOf,
        if entries.any (fun entry => (packageName? entry.2).isSome) then [.packageMark] else []⟩ := by
  induction entries using List.reverseRecOn with
  | nil => rfl
  | append_singleton entries entry ih =>
      rw [List.foldl_append, ih, List.foldl_cons, List.foldl_nil, Pass.add, Pass.mk.injEq]
      refine ⟨?_, ?_, ?_⟩
      · cases kind : isPatternKey entry.1 <;> simp [kind, fieldsOf_concat]
      · cases kind : isPatternKey entry.1 <;> simp [kind]
      · cases marked : packageName? entry.2 <;>
          cases before : entries.any (fun entry => (packageName? entry.2).isSome) <;>
            simp [marked, before]

/-- The aliases that a pass has put together: the literal ones, and then the patterns. -/
def Pass.aliases (pass : Pass) : List Alias :=
  pass.literals.map (fun literal => .literal literal.1 literal.2) ++ pass.patterns

theorem warnings_eq_pass (disk : Disk) (config : Config) (options : Options) :
    options.warnings = (options.pass disk config).warnings := by
  rw [pass, foldl_add, warnings]

theorem pass_literals (disk : Disk) (config : Config) (options : Options) :
    (options.pass disk config).literals = fieldsOf (options.literalValues.map (fun entry =>
      (entry.1, targetOf disk config.cwd config.roots config.extensions entry.2))) := by
  rw [pass, foldl_add, literalValues_eq, List.map_map]
  rfl

theorem pass_patterns (disk : Disk) (config : Config) (options : Options) :
    (options.pass disk config).patterns = options.patternValues.map patternOf := by
  rw [pass, foldl_add, patternValues]

/-- The aliases of a configuration are those of one pass over the entries. -/
theorem aliases_of_configure_eq_ok {file : Option Path} {options : Options} {config : Config}
    (ok : options.configure disk environment file = .ok config) :
    config.aliases = (options.pass disk config).aliases := by
  rw [Pass.aliases, pass_literals, pass_patterns]
  cases options with
  | records list =>
      have noPatterns : (records list).patternValues = [] :=
        List.filter_eq_nil_iff.mpr (fun _ _ => Bool.false_ne_true)
      cases ok
      rw [noPatterns, literalValues, List.map_map]
      rfl
  | settings form =>
      rcases exists_of_bind_eq_ok ok with ⟨roots, _, made⟩
      cases made
      rw [literalValues, literalEntries, List.map_map]
      rfl

theorem literals_of_aliases_eq_pass {config : Config} {options : Options}
    (aliases : config.aliases = (options.pass disk config).aliases) :
    config.literals = (options.pass disk config).literals := by
  have made := literals_aliasesOf config.cwd config.roots config.extensions
    (options.pass disk config).literals options.patternValues
  have fields : fieldsOf (options.pass disk config).literals =
      (options.pass disk config).literals := by
    rw [pass_literals, fieldsOf_of_nodup (nodup_keys_fieldsOf _)]
  rw [aliasesOf, fields, ← pass_patterns disk config, ← Pass.aliases, ← aliases] at made
  exact made

/-! ### The mark of a package -/

/-- What a value stands for, and whether that is a package: the mark is taken off once, and a value
without it stays as it is. -/
inductive Reads (value : String) : String → Bool → Prop where
  | package {name : String} (marked : value = packageMark ++ name) : Reads value name true
  | own (unmarked : ∀ name, value ≠ packageMark ++ name) : Reads value value false

theorem packageName?_eq_some_iff {value name : String} :
    packageName? value = some name ↔ value = packageMark ++ name := by
  unfold packageName?
  constructor
  · intro found
    split at found
    · next marked =>
      rcases List.isPrefixOf_iff_prefix.mp marked with ⟨rest, split⟩
      rw [← split, List.drop_left, Option.some.injEq] at found
      rw [← found, ← String.toList_inj, ← split, String.toList_append, String.toList_ofList]
    · simp at found
  · rintro rfl
    have marked : packageMark.toList.isPrefixOf (packageMark ++ name).toList := by
      rw [List.isPrefixOf_iff_prefix, String.toList_append]
      exact List.prefix_append _ _
    rw [if_pos marked, String.toList_append, List.drop_left, String.ofList_toList]

theorem reads_package_iff {value name : String} :
    Reads value name true ↔ packageName? value = some name := by
  rw [packageName?_eq_some_iff]
  constructor
  · rintro ⟨marked⟩
    exact marked
  · exact .package

theorem reads_own_iff {value : String} : Reads value value false ↔ packageName? value = none := by
  rw [Option.eq_none_iff_forall_ne_some]
  simp only [ne_eq, packageName?_eq_some_iff]
  constructor
  · rintro ⟨⟩
    assumption
  · exact .own

/-- What a value of a literal alias stands for: a package, or a path from one of the roots. -/
inductive StandsFor (disk : Disk) (config : Config) (value : String) : Target → Prop where
  | package {name : String} (reads : Reads value name true) :
      StandsFor disk config value (.package name)
  | path (reads : Reads value value false) :
      StandsFor disk config value (.path ((targetBase disk config.cwd config.roots
        config.extensions ⟨value⟩).cleanFrom ⟨value⟩))

theorem standsFor_iff {disk : Disk} {config : Config} {value : String} {target : Target} :
    StandsFor disk config value target ↔
      targetOf disk config.cwd config.roots config.extensions value = target := by
  have absoluteStays (absolute : Path.isAbsolute ⟨value⟩) (base : Path) :
      base.cleanFrom ⟨value⟩ = Path.clean ⟨value⟩ := by
    rw [cleanFrom, join_of_isAbsolute absolute]
  constructor
  · rintro (reads | reads)
    · rw [targetOf, reads_package_iff.mp reads]
    · rw [targetOf, reads_own_iff.mp reads]
      dsimp only
      split
      · next absolute => rw [absoluteStays absolute]
      · rfl
  · rintro rfl
    rw [targetOf]
    split
    · next name marked => exact .package (reads_package_iff.mpr marked)
    · next unmarked =>
      have stands : StandsFor disk config value _ := .path (reads_own_iff.mpr unmarked)
      dsimp only
      split
      · next absolute =>
        rwa [absoluteStays absolute] at stands
      · exact stands

/-- The alias of a pattern, with what its value reads as for a template. -/
inductive IsPatternOf (entry : String × String) : Alias → Prop where
  | reads {template : String} {external : Bool} (reads : Reads entry.2 template external) :
      IsPatternOf entry (.pattern entry.1 template external)

theorem isPatternOf_patternOf (entry : String × String) : IsPatternOf entry (patternOf entry) := by
  unfold patternOf
  split
  · next template marked => exact .reads (reads_package_iff.mpr marked)
  · next unmarked => exact .reads (reads_own_iff.mpr unmarked)

/-- What holds of a configuration that options come down to. -/
structure IsNormalized (disk : Disk) (options : Options) (config : Config) : Prop where
  cwd : config.cwd.IsNormal
  targets : ∀ key path, Alias.literal key (.path path) ∈ config.aliases → path.IsNormal
  /-- The literal aliases stand first, and every pattern entry gives one of the others. -/
  arranged : ∃ patterns,
    config.aliases = config.literals.map (fun literal => .literal literal.1 literal.2) ++ patterns ∧
      List.Forall₂ IsPatternOf options.patternValues patterns
  keys : InFirstOrder (options.literalValues.map Prod.fst) (config.literals.map Prod.fst)
  distinct : (config.literals.map Prod.fst).Nodup
  trimmed : ∀ literal ∈ config.literals, literal.1.toList.getLast? ≠ some '/'
  /-- A key has the target of the last entry for it. -/
  values : ∀ key target, (key, target) ∈ config.literals ↔
    ∃ value, (∃ before after, options.literalValues = before ++ (key, value) :: after ∧
      ∀ later ∈ after, later.1 ≠ key) ∧ StandsFor disk config value target
  /-- The aliases and the warnings are those of one pass over the entries. -/
  onePass : config.aliases = (options.pass disk config).aliases ∧
    options.warnings = (options.pass disk config).warnings
  /-- A warning is given exactly if a value has the mark of a package, and then it is the only one. -/
  warned : ((∃ entry ∈ options.entries, ∃ name, entry.2 = packageMark ++ name) ∧
      options.warnings = [.packageMark]) ∨
    ((∀ entry ∈ options.entries, ∀ name, entry.2 ≠ packageMark ++ name) ∧ options.warnings = [])
  /-- If every pattern can be read, there is a table, which has the aliases and nothing else. -/
  table : (∀ pattern template external, Alias.pattern pattern template external ∈ config.aliases →
      (Regex.ofPattern? pattern).isSome) →
    ∃ table, AliasTable.ofConfig config = .ok table ∧ table.size = config.aliases.length ∧
      ∀ key target, table.literal? key = some target ↔ Alias.literal key target ∈ config.aliases

theorem mem_literals_iff {config : Config} {key : String} {target : Target} :
    (key, target) ∈ config.literals ↔ Alias.literal key target ∈ config.aliases := by
  rw [Config.literals, List.mem_filterMap]
  constructor
  · rintro ⟨entry, member, found⟩
    cases entry with
    | literal =>
        cases found
        exact member
    | pattern => cases found
  · exact fun member => ⟨_, member, rfl⟩

end Options

namespace AliasTable

/-- Patterns that can be read have one rule each, so there are as many rules and literal aliases as
aliases. -/
theorem exists_patternsOf_eq_ok {aliases : List Alias}
    (readable : ∀ pattern template external, Alias.pattern pattern template external ∈ aliases →
      (Regex.ofPattern? pattern).isSome) :
    ∃ rules, patternsOf aliases = .ok rules ∧
      ∀ cwd roots extensions,
        (Config.literals ⟨cwd, roots, aliases, extensions⟩).length + rules.length =
          aliases.length := by
  induction aliases with
  | nil => exact ⟨[], rfl, fun _ _ _ => rfl⟩
  | cons entry rest ih =>
      rcases ih (fun pattern template external member =>
        readable pattern template external (List.mem_cons_of_mem _ member)) with ⟨rules, made, count⟩
      cases entry with
      | literal key target =>
          refine ⟨rules, made, fun cwd roots extensions => ?_⟩
          have one : Config.literals ⟨cwd, roots, .literal key target :: rest, extensions⟩ =
              (key, target) :: Config.literals ⟨cwd, roots, rest, extensions⟩ := rfl
          rw [one, List.length_cons, List.length_cons, ← count cwd roots extensions]
          omega
      | pattern pattern template external =>
          rcases Option.isSome_iff_exists.mp (readable _ _ _ List.mem_cons_self) with ⟨regex, valid⟩
          refine ⟨⟨pattern, regex.search?, .ofText template, external⟩ :: rules, ?_, ?_⟩
          · rw [patternsOf, PatternRule.ofPattern, valid, made]
            rfl
          · intro cwd roots extensions
            have none : Config.literals
                ⟨cwd, roots, .pattern pattern template external :: rest, extensions⟩ =
                  Config.literals ⟨cwd, roots, rest, extensions⟩ := rfl
            rw [none, List.length_cons, List.length_cons, ← count cwd roots extensions]
            omega

/-- A configuration with distinct literal keys and with patterns that can be read makes a table with
its aliases. -/
theorem exists_ofConfig_eq_ok {config : Config}
    (distinct : (config.literals.map Prod.fst).Nodup)
    (readable : ∀ pattern template external,
      Alias.pattern pattern template external ∈ config.aliases →
        (Regex.ofPattern? pattern).isSome) :
    ∃ table, ofConfig config = .ok table ∧ table.size = config.aliases.length ∧
      ∀ key target, table.literal? key = some target ↔ Alias.literal key target ∈ config.aliases := by
  rcases exists_patternsOf_eq_ok readable with ⟨rules, made, count⟩
  refine ⟨⟨config.literals, rules⟩, ?_, count config.cwd config.roots config.extensions, ?_⟩
  · rw [ofConfig, made, fieldsOf_of_nodup distinct]
    rfl
  · intro key target
    rw [literal?, fieldAt?_eq_some_iff_mem distinct, Options.mem_literals_iff]

end AliasTable

namespace Options

theorem warnings_cases (options : Options) :
    ((∃ entry ∈ options.entries, ∃ name, entry.2 = packageMark ++ name) ∧
        options.warnings = [.packageMark]) ∨
      ((∀ entry ∈ options.entries, ∀ name, entry.2 ≠ packageMark ++ name) ∧
        options.warnings = []) := by
  unfold warnings
  split
  · next marked =>
    rcases List.any_eq_true.mp marked with ⟨entry, member, isPackage⟩
    rcases Option.isSome_iff_exists.mp isPackage with ⟨name, found⟩
    exact Or.inl ⟨⟨entry, member, name, packageName?_eq_some_iff.mp found⟩, rfl⟩
  · next unmarked =>
    refine Or.inr ⟨fun entry member name marked => unmarked ?_, rfl⟩
    refine List.any_eq_true.mpr ⟨entry, member, ?_⟩
    rw [packageName?_eq_some_iff.mpr marked, Option.isSome_some]

/-- From an absolute working directory, whatever the disk has and whatever the options say, a
configuration that they come down to is clean, sorted and complete. -/
theorem isNormalized_of_configure_eq_ok {disk : Disk} {dir : Path} (absolute : dir.isAbsolute)
    {file : Option Path} {options : Options} {config : Config}
    (ok : options.configure disk (.ofDir dir) file = .ok config) :
    IsNormalized disk options config := by
  have dirNormal : (Environment.ofDir dir).workingDir.IsNormal := isNormal_clean absolute
  have configAbsolute := isAbsolute_of_configure_eq_ok dirNormal.absolute ok
  have aliases := aliases_of_configure_eq_ok ok
  have passed := literals_of_aliases_eq_pass aliases
  have literals := passed.trans (pass_literals disk config options)
  have distinct : (config.literals.map Prod.fst).Nodup := literals ▸ nodup_keys_fieldsOf _
  have values : ∀ key target, (key, target) ∈ config.literals ↔
      ∃ value, (∃ before after, options.literalValues = before ++ (key, value) :: after ∧
        ∀ later ∈ after, later.1 ≠ key) ∧ StandsFor disk config value target := by
    intro key target
    rw [literals, mem_fieldsOf_map_iff]
    simp only [mem_fieldsOf_iff, standsFor_iff]
  refine ⟨?cwd, ?targets, ?arranged, ?keys, distinct, ?trimmed, values,
    ⟨aliases, warnings_eq_pass disk config options⟩, options.warnings_cases,
    AliasTable.exists_ofConfig_eq_ok distinct⟩
  case cwd =>
    cases options with
    | records =>
        cases ok
        exact dirNormal
    | settings form =>
        rcases exists_of_bind_eq_ok ok with ⟨roots, _, made⟩
        cases made
        exact isNormal_cwdOf disk dirNormal file form.cwd
  case targets =>
    intro key path member
    rcases (values key _).mp (mem_literals_iff.mpr member) with ⟨value, _, stands⟩
    cases stands
    exact isNormal_cleanFrom (isAbsolute_targetBase configAbsolute.cwd configAbsolute.roots disk
      config.extensions ⟨value⟩) _
  case arranged =>
    refine ⟨options.patternValues.map patternOf, ?_, ?_⟩
    · rw [aliases, Pass.aliases, passed, pass_patterns]
    · rw [List.forall₂_map_right_iff, List.forall₂_same]
      exact fun entry _ => isPatternOf_patternOf entry
  case keys =>
    have inOrder := inFirstOrder_keys_fieldsOf (options.literalValues.map (fun entry =>
      (entry.1, targetOf disk config.cwd config.roots config.extensions entry.2)))
    rw [List.map_map, ← literals] at inOrder
    exact inOrder
  case trimmed =>
    intro literal member
    rcases (values literal.1 literal.2).mp member with ⟨value, ⟨before, after, split, _⟩, _⟩
    have entry : (literal.1, value) ∈ options.literalValues := by
      rw [split]
      exact List.mem_append_right _ List.mem_cons_self
    exact getLast?_ne_of_mem_literalValues entry

/-- Two entries of one key around a pattern and the empty key, below a project file. -/
def sortedOptions : Options :=
  .settings ⟨some .projectFile, [],
    [("utils/", "npm:lodash"), ("^x/(.*)", "npm:npm:y/\\1"), ("", "/v/../w"), ("utils", "./u/")],
    none⟩

def sortedConfig : Config where
  cwd := ⟨"/project/lib"⟩
  roots := []
  aliases := [.literal "utils" (.path ⟨"/project/lib/u"⟩), .literal "" (.path ⟨"/w"⟩),
    .pattern "^x/(.*)" "npm:y/\\1" true]
  extensions := defaultExtensions

theorem isNormalized_of_configure_eq_ok_of_mixed_entries :
    Path.isAbsolute ⟨"/project/./src/.."⟩ ∧
      sortedOptions.configure projectDisk (.ofDir ⟨"/project/./src/.."⟩) (some ⟨"lib/x/../a.js"⟩) =
        .ok sortedConfig ∧
      IsNormalized projectDisk sortedOptions sortedConfig ∧
      ∃ table, AliasTable.ofConfig sortedConfig = .ok table ∧ table.size = 3 ∧
        table.literal? "utils" = some (.path ⟨"/project/lib/u"⟩) := by
  have absolute : Path.isAbsolute ⟨"/project/./src/.."⟩ := by decide
  have accepted : sortedOptions.configure projectDisk (.ofDir ⟨"/project/./src/.."⟩)
      (some ⟨"lib/x/../a.js"⟩) = .ok sortedConfig := rfl
  have normalized := isNormalized_of_configure_eq_ok absolute accepted
  have readable : ∀ pattern template external,
      Alias.pattern pattern template external ∈ sortedConfig.aliases →
        (Regex.ofPattern? pattern).isSome := by
    intro pattern template external member
    have only : pattern = "^x/(.*)" := by
      simp only [sortedConfig, List.mem_cons, Alias.pattern.injEq, List.not_mem_nil, reduceCtorEq,
        false_or, or_false] at member
      exact member.1
    rw [only]
    decide +kernel
  rcases normalized.table readable with ⟨table, made, size, literals⟩
  have present : Alias.literal "utils" (.path ⟨"/project/lib/u"⟩) ∈ sortedConfig.aliases := by decide
  exact ⟨absolute, accepted, normalized, table, made, size, (literals _ _).mpr present⟩

end Options

end ImportAlias
