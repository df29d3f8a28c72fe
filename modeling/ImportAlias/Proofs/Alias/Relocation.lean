import ImportAlias.Proofs.Alias.Prefix
import ImportAlias.Proofs.Config.Literals
import ImportAlias.Proofs.Path.Relative

/-!
# Relative working directories

A target is joined to the working directory when options are configured, and again when a reference
is written. An absolute directory makes the target absolute at once, and the second join changes
nothing. Below a relative directory the target is still relative, and the second join puts it below
the names of the directory once more. So a relative working directory has the references of the
absolute directory that it names only when it is the dot, and even the dot itself is then written
differently as soon as there is a way out to it.
-/

namespace ImportAlias

open ImportAlias.Path

namespace Options

/-- Targets start from the working directory: the options name no other directory. -/
def FromWorkingDir : Options → Prop
  | records _ => True
  | settings form => form.cwd = none ∧ form.roots = []

/-- The rules of the patterns, or the first pattern that is not valid. -/
def patternRules : Options → Except ConfigError (List PatternRule)
  | records _ => .ok []
  | settings form => AliasTable.patternsOf ((patternEntries form.aliases).map patternOf)

/-- The path that stands for a specifier, seen from the working directory: the value of a literal
alias with the rest of the specifier behind it, or what a pattern is expanded to. -/
def substituted? (options : Options) (table : AliasTable) (specifier : String) : Option Path :=
  match table.lookup? specifier with
  | some (.literal key (.path _) rest) =>
    (options.valueAt? key).map (fun value => Path.join ⟨value⟩ ⟨"./" ++ rest⟩)
  | some (.pattern expanded false) => some ⟨expanded⟩
  | _ => none

/-- The resolver of options that start from a working directory. -/
def resolverIn (options : Options) (disk : Disk) (patterns : List PatternRule)
    (workingDir : Path) : Resolver :=
  ⟨⟨fieldsOf (options.literalValues.map (fun entry =>
    (entry.1, targetOf disk workingDir [] defaultExtensions entry.2))), patterns⟩,
    workingDir, workingDir⟩

theorem literal?_resolverIn (options : Options) (disk : Disk) (patterns : List PatternRule)
    (workingDir : Path) (key : String) :
    (options.resolverIn disk patterns workingDir).table.literal? key =
      (options.valueAt? key).map (targetOf disk workingDir [] defaultExtensions) := by
  rw [AliasTable.literal?, resolverIn, fieldAt?_fieldsOf, ← List.map_reverse, fieldAt?_map,
    valueAt?]

end Options

namespace Resolver

variable {disk : Disk} {configured : Option Path} {options : Options}

theorem ofOptions_of_fromWorkingDir (fromWorkingDir : options.FromWorkingDir)
    (environment : Environment) :
    ofOptions disk environment configured options =
      options.patternRules.map (fun patterns =>
        options.resolverIn disk patterns environment.workingDir) := by
  cases options with
  | records list =>
      have made : AliasTable.ofConfig (Options.configureRecords disk environment list) =
          .ok ((Options.records list).resolverIn disk [] environment.workingDir).table := by
        unfold AliasTable.ofConfig
        rw [Options.literals_configureRecords_eq_literalValues,
          fieldsOf_of_nodup (nodup_keys_fieldsOf _), Options.configureRecords,
          AliasTable.patternsOf_aliasesOf]
        rfl
      change ofConfig _ environment = _
      rw [ofConfig, made]
      rfl
  | settings form =>
      rcases fromWorkingDir with ⟨noCwd, noRoots⟩
      rw [ofOptions_settings, noCwd, noRoots]
      change (AliasTable.patternsOf _ >>= _) = Except.map _ (AliasTable.patternsOf _)
      cases AliasTable.patternsOf
          ((Options.patternEntries form.aliases).map Options.patternOf) with
      | error fault => rfl
      | ok patterns => rfl

/-! ### References -/

section Reference

variable {workingDir file entry : Path} {specifier rest : String}

/-- Below a relative directory, a target is joined to the directory twice. -/
theorem reference_of_staysBelow (workingDirStays : workingDir.StaysBelow)
    (fileStays : file.StaysBelow) (entryStays : entry.StaysBelow)
    (behind : rest = "" ∨ rest.toList.head? = some '/')
    (onward : Component.parent ∉ cleanOnto (stackOf entry.names) rest.toList) :
    (reference workingDir file ⟨(workingDir.cleanFrom entry).text ++ rest⟩).toList =
      referenceBelowChars (workingDir.names ++ (file.parent?.getD ⟨""⟩).names)
        (workingDir.names ++ (workingDir.names ++ walk entry.names rest.toList)) := by
  rcases entryStays.append behind onward workingDirStays with ⟨targetStays, names⟩
  rw [reference_toList_of_staysBelow workingDirStays fileStays targetStays, names]

/-- Below an absolute directory, the directory makes no difference. -/
theorem reference_of_isAbsolute (absolute : workingDir.isAbsolute) (fileStays : file.StaysBelow)
    (entryStays : entry.StaysBelow) (behind : rest = "" ∨ rest.toList.head? = some '/')
    (onward : Component.parent ∉ cleanOnto (stackOf entry.names) rest.toList) :
    (reference workingDir file ⟨(workingDir.cleanFrom entry).text ++ rest⟩).toList =
      referenceChars (file.parent?.getD ⟨""⟩).names (walk entry.names rest.toList) := by
  have targetAbsolute := isAbsolute_append (isAbsolute_cleanFrom absolute entry) rest
  have directoryNames : (directoryOf workingDir file).names =
      workingDir.names ++ (file.parent?.getD ⟨""⟩).names := by
    rw [directoryOf, cleanFrom, names_clean (isAbsolute_join absolute _),
      names_join absolute fileStays.parent.1, fileStays.parent.walk_eq]
  have entryNames : (workingDir.cleanFrom entry).names = workingDir.names ++ entry.names := by
    rw [cleanFrom, names_clean (isAbsolute_join absolute entry),
      names_join absolute entryStays.1, entryStays.walk_eq]
  have targetNames : Path.names ⟨(workingDir.cleanFrom entry).text ++ rest⟩ =
      workingDir.names ++ walk entry.names rest.toList := by
    have walked : Path.names ⟨(workingDir.cleanFrom entry).text ++ rest⟩ =
        walk (workingDir.cleanFrom entry).names rest.toList := by
      rw [Path.names, chars_append]
      rcases behind with rfl | slash
      · rw [String.toList_empty, List.append_nil, walk_nil, Path.names]
      · rw [walk_append_of_slash (Or.inr slash), Path.names]
    rw [walked, entryNames]
    exact (cleanOnto_stackOf onward workingDir.names).2
  rw [reference_toList_of_isAbsolute absolute targetAbsolute, directoryNames, targetNames,
    referenceChars_append]

/-- The names of the directory, written twice, and the dot at the end of a way out both show. -/
theorem withSlashOf_eq_iff {start directory target : List (List Char)} {first second : String}
    (startNames : ∀ name ∈ start, IsName name) (targetNames : ∀ name ∈ target, IsName name)
    (firstWritten : first.toList = referenceBelowChars (start ++ directory)
      (start ++ (start ++ target)))
    (secondWritten : second.toList = referenceChars directory target) :
    withSlashOf specifier first = withSlashOf specifier second ↔
      start = [] ∧ (target = [] → directory = []) := by
  have firstCases := toList_withSlashOf specifier first
  have secondCases := toList_withSlashOf specifier second
  by_cases dotted : start ++ (start ++ target) = [] ∧ start ++ directory ≠ []
  · rcases dotted with ⟨nothing, nonempty⟩
    rcases List.append_eq_nil_iff.mp nothing with ⟨rfl, _⟩
    have targetEmpty : target = [] := nothing
    subst targetEmpty
    rw [referenceBelowChars, if_pos ⟨rfl, nonempty⟩] at firstWritten
    constructor
    · intro same
      -- The dot takes two characters, and a slash of the specifier takes only one.
      rw [same, firstWritten] at firstCases
      rw [secondWritten] at secondCases
      have firstLengths := firstCases.imp (congrArg List.length) (congrArg List.length)
      have secondLengths := secondCases.imp (congrArg List.length) (congrArg List.length)
      simp only [List.nil_append, List.length_append, List.length_cons, List.length_nil]
        at firstLengths secondLengths
      omega
    · rintro ⟨_, atDirectory⟩
      exact absurd (atDirectory rfl) nonempty
  · rw [referenceBelowChars, if_neg dotted, referenceChars_append] at firstWritten
    constructor
    · intro same
      have bothNames : ∀ name ∈ start ++ target, IsName name :=
        List.forall_mem_append.mpr ⟨startNames, targetNames⟩
      rw [firstWritten] at firstCases
      rw [secondWritten] at secondCases
      have leads := walk_of_toList_eq_referenceChars bothNames firstCases
      rw [same, walk_of_toList_eq_referenceChars targetNames secondCases] at leads
      have startEmpty : start = [] := List.self_eq_append_left.mp leads
      subst startEmpty
      refine ⟨rfl, ?_⟩
      intro targetEmpty
      by_contra nonempty
      exact dotted ⟨targetEmpty, nonempty⟩
    · rintro ⟨rfl, _⟩
      have sameText : first = second := String.toList_inj.mp (firstWritten.trans secondWritten.symm)
      rw [sameText]

theorem withSlashOf_reference_eq_iff {located : Path} (workingDirStays : workingDir.StaysBelow)
    (absolute : located.isAbsolute) (fileStays : file.StaysBelow) (entryStays : entry.StaysBelow)
    (behind : rest = "" ∨ rest.toList.head? = some '/')
    (onward : Component.parent ∉ cleanOnto (stackOf entry.names) rest.toList) :
    withSlashOf specifier
        (reference workingDir file ⟨(workingDir.cleanFrom entry).text ++ rest⟩) =
      withSlashOf specifier (reference located file ⟨(located.cleanFrom entry).text ++ rest⟩) ↔
        workingDir.names = [] ∧
          (walk entry.names rest.toList = [] → (file.parent?.getD ⟨""⟩).names = []) := by
  apply withSlashOf_eq_iff isName_of_mem_names (isName_of_mem_walk isName_of_mem_names)
  · exact reference_of_staysBelow workingDirStays fileStays entryStays behind onward
  · exact reference_of_isAbsolute absolute fileStays entryStays behind onward

end Reference

theorem eq_empty_or_slash_of_longestKey {table : AliasTable} {specifier key rest : String}
    {target : Target} (longest : table.LongestKey specifier key target rest) :
    (if key = "" then "/" ++ rest else rest) = "" ∨
      (if key = "" then "/" ++ rest else rest).toList.head? = some '/' := by
  rcases longest.rest_eq with rfl | rfl | ⟨behind, rfl⟩
  · right
    simp
  · split <;> simp
  · right
    split <;> simp

theorem steps_behind (key rest : String) :
    (∀ stack, cleanOnto stack ("./" ++ rest).toList =
        cleanOnto stack (if key = "" then "/" ++ rest else rest).toList) ∧
      ∀ names, walk names ("./" ++ rest).toList =
        walk names (if key = "" then "/" ++ rest else rest).toList := by
  have dot : ("./" ++ rest).toList = ['.'] ++ '/' :: rest.toList := String.toList_append ..
  have slash : ("/" ++ rest).toList = '/' :: rest.toList := String.toList_append ..
  constructor
  · intro stack
    have stays : cleanOnto stack ['.'] = stack := rfl
    rw [dot, cleanOnto_append, stays]
    split
    · rw [slash, cleanOnto_slash_cons]
    · rfl
  · intro names
    have stays : walk names ['.'] = names := rfl
    rw [dot, walk_append, stays]
    split
    · rw [slash, walk_slash_cons]
    · rfl

theorem staysBelow_of_join_rest {value rest : String} (key : String)
    (stays : (Path.join ⟨value⟩ ⟨"./" ++ rest⟩).StaysBelow) :
    Path.StaysBelow ⟨value⟩ ∧
      Component.parent ∉ cleanOnto (stackOf (Path.names ⟨value⟩))
        (if key = "" then "/" ++ rest else rest).toList ∧
      (Path.join ⟨value⟩ ⟨"./" ++ rest⟩).names =
        walk (Path.names ⟨value⟩) (if key = "" then "/" ++ rest else rest).toList := by
  have relative : Path.isAbsolute ⟨"./" ++ rest⟩ = false := by simp [isAbsolute, chars]
  rcases steps_behind key rest with ⟨cleaned, walked⟩
  rw [← cleaned, ← walked]
  exact stays.of_join relative

section Resolve

variable {workingDir located file : Path} {specifier : String}

theorem resolve_resolverIn_eq_iff (patterns : List PatternRule)
    (workingDirStays : workingDir.StaysBelow) (absolute : located.isAbsolute)
    (fileStays : file.StaysBelow) (inside : ∀ path ∈ options.substituted?
      (options.resolverIn disk patterns workingDir).table specifier, path.StaysBelow) :
    (options.resolverIn disk patterns workingDir).resolve specifier file =
        (options.resolverIn disk patterns located).resolve specifier file ↔
      ∀ path ∈ options.substituted? (options.resolverIn disk patterns workingDir).table specifier,
        workingDir.names = [] ∧ (path.names = [] → (file.parent?.getD ⟨""⟩).names = []) := by
  have samePatterns : (options.resolverIn disk patterns workingDir).table.patterns =
      (options.resolverIn disk patterns located).table.patterns := rfl
  have alike := AliasTable.findAlike_lookup? samePatterns
    (options.literal?_resolverIn disk patterns workingDir)
    (options.literal?_resolverIn disk patterns located) specifier
  unfold Options.substituted? at inside ⊢
  unfold resolve
  generalize looked : (options.resolverIn disk patterns workingDir).table.lookup? specifier = found
    at alike inside
  generalize (options.resolverIn disk patterns located).table.lookup? specifier = other at alike
  -- Both tables find the same alias, and only a path depends on where it is seen from.
  cases alike with
  | nothing => simp
  | pattern expanded external =>
      cases external with
      | true => simp [expand]
      | false =>
          have sameIff := @withSlashOf_reference_eq_iff workingDir file ⟨expanded⟩ specifier ""
            located workingDirStays absolute fileStays (inside ⟨expanded⟩ rfl) (Or.inl rfl)
            (parent_not_mem_stackOf _)
          simp only [String.append_empty, String.toList_empty, walk_nil] at sameIff
          simpa [expand, Options.resolverIn] using sameIff
  | @literal key value present rest =>
      have longest := AliasTable.longestKey_of_lookup?_eq_some looked
      cases package : Options.packageName? value with
      | some name => simp [Options.targetOf, package, expand]
      | none =>
          have target (directory : Path) : Options.targetOf disk directory []
              Options.defaultExtensions value = .path (directory.cleanFrom ⟨value⟩) :=
            Options.targetOf_of_packageName?_eq_none package
          simp only [target, present, Option.map_some] at inside ⊢
          rcases staysBelow_of_join_rest key (inside _ rfl) with ⟨entryStays, onward, names⟩
          have sameIff := @withSlashOf_reference_eq_iff workingDir file ⟨value⟩ specifier _ located
            workingDirStays absolute fileStays entryStays
            (eq_empty_or_slash_of_longestKey longest) onward
          rw [← names] at sameIff
          simpa [expand, Options.resolverIn] using sameIff

end Resolve

/-- A resolver for a relative working directory, and the one for the absolute directory that it
names: specifiers without a path get the same answers. A path gets the same reference exactly if the
working directory is the dot and the path is not the dot itself, seen from a directory below it. -/
theorem resolve_eq_resolve_located_iff (disk : Disk) (configured : Option Path) {options : Options}
    {parent workingDir : Path} {relative : Resolver} (parentAbsolute : parent.isAbsolute)
    (workingDirStays : workingDir.StaysBelow) (fromWorkingDir : options.FromWorkingDir)
    (built : ofOptions disk (.ofDir workingDir) configured options = .ok relative) :
    ∃ located, ofOptions disk (.ofDir (parent.join workingDir)) configured options = .ok located ∧
      ∀ specifier file, file.StaysBelow →
        (∀ path ∈ options.substituted? relative.table specifier, path.StaysBelow) →
        (relative.resolve specifier file = located.resolve specifier file ↔
          ∀ path ∈ options.substituted? relative.table specifier,
            workingDir.clean = ⟨"."⟩ ∧
              (path.clean = ⟨"."⟩ → (file.parent?.getD ⟨""⟩).clean = ⟨"."⟩)) := by
  rw [ofOptions_of_fromWorkingDir fromWorkingDir] at built
  cases rules : options.patternRules with
  | error fault =>
      rw [rules] at built
      cases built
  | ok patterns =>
      rw [rules] at built
      cases built
      refine ⟨options.resolverIn disk patterns (parent.join workingDir).clean, ?_, ?_⟩
      · rw [ofOptions_of_fromWorkingDir fromWorkingDir, rules]
        rfl
      · intro specifier file fileStays inside
        rcases workingDirStays.clean with ⟨cleanStays, cleanNames⟩
        have absolute := isAbsolute_clean (isAbsolute_join parentAbsolute workingDir)
        rw [Environment.ofDir] at inside ⊢
        rw [resolve_resolverIn_eq_iff patterns cleanStays absolute fileStays inside]
        apply forall₂_congr
        intro path member
        rw [cleanNames, workingDirStays.clean_eq_dot_iff, (inside path member).clean_eq_dot_iff,
          fileStays.parent.clean_eq_dot_iff]

/-- One alias for a directory, and one for the working directory itself. -/
def selfOptions : Options :=
  .records [⟨"utils", "./src/utils"⟩, ⟨"self", "."⟩]

def selfResolver (utils workingDir : Path) : Resolver :=
  ⟨⟨[("utils", .path utils), ("self", .path workingDir)], []⟩, workingDir, workingDir⟩

/-- From a subdirectory of the dot, the directory is written alike, and the dot is not. -/
theorem resolve_eq_resolve_located_iff_of_subdirectory :
    ∃ relative located,
      ofOptions Disk.empty (.ofDir ⟨"./"⟩) none selfOptions = .ok relative ∧
      ofOptions Disk.empty (.ofDir (Path.join ⟨"/project"⟩ ⟨"./"⟩)) none selfOptions = .ok located ∧
      located.resolve "utils/a" ⟨"pages/index.js"⟩ = .replacement "../src/utils/a" ∧
      relative.resolve "self" ⟨"pages/index.js"⟩ ≠ located.resolve "self" ⟨"pages/index.js"⟩ := by
  have built : ofOptions Disk.empty (.ofDir ⟨"./"⟩) none selfOptions =
      .ok (selfResolver ⟨"src/utils"⟩ ⟨"."⟩) := rfl
  have dotStays : Path.StaysBelow ⟨"./"⟩ := by decide
  have fileStays : Path.StaysBelow ⟨"pages/index.js"⟩ := by decide
  rcases @resolve_eq_resolve_located_iff Disk.empty none selfOptions ⟨"/project"⟩ _ _ (by decide)
    dotStays trivial built with ⟨located, alsoBuilt, sameIff⟩
  refine ⟨_, located, built, alsoBuilt, ?_, ?_⟩
  · have same := (sameIff "utils/a" ⟨"pages/index.js"⟩ fileStays (by decide)).mpr (by decide)
    rw [← same]
    decide
  · rw [ne_eq, sameIff "self" ⟨"pages/index.js"⟩ fileStays (by decide)]
    decide

/-- Below a relative directory with a name, the name shows twice. -/
theorem resolve_ne_resolve_located :
    Path.StaysBelow ⟨"sub"⟩ ∧ Path.StaysBelow ⟨"index.js"⟩ ∧ ∃ relative located,
      ofOptions Disk.empty (.ofDir ⟨"sub"⟩) none selfOptions = .ok relative ∧
      ofOptions Disk.empty (.ofDir (Path.join ⟨"/project"⟩ ⟨"sub"⟩)) none selfOptions =
        .ok located ∧
      (∀ path ∈ selfOptions.substituted? relative.table "utils", path.StaysBelow) ∧
      relative.resolve "utils" ⟨"index.js"⟩ = .replacement "./sub/src/utils" ∧
      located.resolve "utils" ⟨"index.js"⟩ = .replacement "./src/utils" := by
  refine ⟨by decide, by decide, selfResolver ⟨"sub/src/utils"⟩ ⟨"sub"⟩,
    selfResolver ⟨"/project/sub/src/utils"⟩ ⟨"/project/sub"⟩, rfl, rfl, ?_, ?_, ?_⟩
  · decide
  · decide
  · decide

end Resolver

end ImportAlias
