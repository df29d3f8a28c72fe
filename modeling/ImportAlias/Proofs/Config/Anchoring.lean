import ImportAlias.Proofs.Alias.Resolution
import ImportAlias.Proofs.Options.MapForm
import ImportAlias.Specifier.Transform
import Mathlib.Data.List.TakeWhile

/-!
# Options that are anchored to a directory

In the map form, an absolute path at the key of the directory takes the place of the working
directory: roots and targets start from it, and so does what patterns stand for. What is left to the
working directory is the name of the importing file, which an absolute name keeps from it. So two
environments cannot be told apart by a configuration, by what becomes of a specifier, or by the
source that comes out.
-/

namespace ImportAlias

open ImportAlias.Path

namespace Path

theorem cleanFrom_of_isAbsolute {entry : Path} (absolute : entry.isAbsolute) (directory : Path) :
    directory.cleanFrom entry = entry.clean := by
  rw [cleanFrom, join_of_isAbsolute absolute]

/-- An absolute path with a step behind the root has a parent. -/
theorem exists_parent_of_isAbsolute {path : Path} (absolute : path.isAbsolute)
    (below : 1 < path.components.length) : ∃ above, path.parent? = some above := by
  rcases isAbsolute_iff.mp absolute with ⟨rest, chars⟩
  have busy : (segments '/' rest).reverse.dropWhile isIdleSegment ≠ [] := by
    intro allIdle
    have noStep : (segments '/' rest).filterMap Component.ofInner? = [] := by
      rw [List.filterMap_eq_nil_iff]
      intro segment member
      have idle := List.dropWhile_eq_nil_iff.mp allIdle segment (List.mem_reverse.mpr member)
      simp only [isIdleSegment, decide_eq_true_eq] at idle
      rw [Component.ofInner?, if_pos idle]
    rw [components_of_chars chars, noStep] at below
    simp at below
  rw [parent?, chars, segments_separator_cons]
  dsimp only
  split
  · next allIdle => exact absurd allIdle busy
  · split
    · exact ⟨_, rfl⟩
    · exact ⟨_, rfl⟩

theorem directoryOf_eq_of_isAbsolute {file : Path} (absolute : file.isAbsolute)
    (below : 1 < file.components.length) (first second : Path) :
    directoryOf first file = directoryOf second file := by
  rcases exists_parent_of_isAbsolute absolute below with ⟨above, parent⟩
  have aboveAbsolute := isAbsolute_of_parent?_eq_some absolute parent
  rw [directoryOf, directoryOf, parent, Option.getD_some, cleanFrom_of_isAbsolute aboveAbsolute,
    cleanFrom_of_isAbsolute aboveAbsolute]

/-- A reference from an absolute file to an absolute target is the same in every working
directory. -/
theorem reference_eq_of_isAbsolute {file target : Path} (absolute : file.isAbsolute)
    (below : 1 < file.components.length) (targetAbsolute : target.isAbsolute)
    (first second : Path) : reference first file target = reference second file target := by
  have directories := directoryOf_eq_of_isAbsolute absolute below first second
  simp only [directoryOf] at directories
  simp only [reference, cleanFrom_of_isAbsolute targetAbsolute, directories]

end Path

/-! ### Configurations -/

/-- The options are a map form with an absolute directory. -/
def Options.IsAnchored : Options → Prop
  | .records _ => False
  | .settings form => ∃ cwd, form.cwd = some (.path cwd) ∧ cwd.isAbsolute

namespace Options

variable {disk : Disk} {options : Options}

theorem cwdOf_eq_of_isAbsolute {cwd : Path} (absolute : cwd.isAbsolute) (disk : Disk)
    (environment : Environment) (file : Option Path) :
    cwdOf disk environment file (some (.path cwd)) = cwd.clean :=
  cleanFrom_of_isAbsolute absolute environment.workingDir

/-- Of anchored options, the working directory is not asked for anything. -/
theorem IsAnchored.configure_eq (anchored : options.IsAnchored) (disk : Disk)
    (first second : Environment) (file : Option Path) :
    options.configure disk first file = options.configure disk second file := by
  cases options with
  | records records => exact anchored.elim
  | settings form =>
      rcases anchored with ⟨cwd, present, absolute⟩
      simp only [configure, configureSettings, present, cwdOf_eq_of_isAbsolute absolute]

theorem IsAnchored.isAbsolute_of_configure_eq_ok {environment : Environment} {file : Option Path}
    {config : Config} (anchored : options.IsAnchored)
    (ok : options.configure disk environment file = .ok config) : config.IsAbsolute := by
  cases options with
  | records records => exact anchored.elim
  | settings form =>
      rcases anchored with ⟨cwd, present, absolute⟩
      apply isAbsolute_of_configureSettings_eq_ok _ ok
      rw [present, cwdOf_eq_of_isAbsolute absolute]
      exact isAbsolute_clean absolute

end Options

/-! ### Resolvers -/

namespace Resolver

variable {table : AliasTable} {cwd file : Path}

/-- A match is expanded in the same way in every working directory when all that it starts from is
absolute. -/
theorem expand_eq_of_isAbsolute {specifier : String} {found : AliasTable.Match}
    (targets : ∀ key path, table.literal? key = some (.path path) → path.isAbsolute)
    (cwdAbsolute : cwd.isAbsolute) (absolute : file.isAbsolute)
    (below : 1 < file.components.length) (looked : table.lookup? specifier = some found)
    (first second : Path) :
    expand ⟨table, cwd, first⟩ file found = expand ⟨table, cwd, second⟩ file found := by
  have chosen := table.chooses_lookup? specifier
  rw [looked] at chosen
  cases chosen with
  | @literal key rest target longest =>
      cases target with
      | package name => rfl
      | path target =>
          apply reference_eq_of_isAbsolute absolute below
          exact isAbsolute_append (targets key target longest.present) _
  | @pattern earlier later rule captures nonempty noKey order unmatched hit =>
      cases rule.external with
      | true => rfl
      | false =>
          apply reference_eq_of_isAbsolute absolute below
          exact isAbsolute_cleanFrom cwdAbsolute _

theorem resolve_eq_of_isAbsolute
    (targets : ∀ key path, table.literal? key = some (.path path) → path.isAbsolute)
    (cwdAbsolute : cwd.isAbsolute) (absolute : file.isAbsolute)
    (below : 1 < file.components.length) (first second : Path) (specifier : String) :
    resolve ⟨table, cwd, first⟩ specifier file = resolve ⟨table, cwd, second⟩ specifier file := by
  unfold resolve
  cases looked : table.lookup? specifier with
  | none => rfl
  | some found =>
      have expanded :=
        expand_eq_of_isAbsolute targets cwdAbsolute absolute below looked first second
      simp only [expanded]

/-- A configuration is refused in every environment, or its table is that of all its resolvers. -/
theorem ofConfig_cases (config : Config) :
    (∃ fault, ∀ environment, ofConfig config environment = .error fault) ∨
      ∃ table, AliasTable.ofConfig config = .ok table ∧
        ∀ environment : Environment,
          ofConfig config environment = .ok ⟨table, config.cwd, environment.workingDir⟩ := by
  unfold ofConfig
  cases made : AliasTable.ofConfig config with
  | error fault => exact Or.inl ⟨fault, fun environment => rfl⟩
  | ok table => exact Or.inr ⟨table, rfl, fun environment => rfl⟩

/-- What becomes of a source depends on a resolver only through what becomes of specifiers. -/
theorem transform_eq_of_resolve_eq {first second : Resolver} {file : Path}
    (same : ∀ specifier, first.resolve specifier file = second.resolve specifier file)
    (source : String) : first.transform source file = second.transform source file := by
  have replacements : first.replacement? file = second.replacement? file := by
    funext site
    rw [replacement?, replacement?, same]
  have edits : first.edits file = second.edits file := by
    funext sites
    rw [Resolver.edits, Resolver.edits, replacements]
  unfold transform replaceSites
  rw [edits]

end Resolver

/-! ### Options as they come -/

/-- The value is a text that writes an absolute path. -/
def Json.IsAbsolutePath (value : Json) : Prop :=
  ∃ text, value = .string text ∧ Path.isAbsolute ⟨text⟩

/-- The value is an object for the map form with an absolute directory. -/
def Json.IsAnchored : Json → Prop
  | .object fields =>
    Options.isRecord fields = false ∧ (∃ value, ("cwd", value) ∈ fields) ∧
      ∀ value, ("cwd", value) ∈ fields → value.IsAbsolutePath
  | _ => False

namespace Options

/-- A field of the map form changes the directory exactly if it is the field for it. -/
theorem Draft.cwd_of_addField_eq_ok {draft next : Draft} {field : String × Json}
    (ok : draft.addField field = .ok next) :
    (field.1 = "cwd" ∧ readText field.2 = .ok next.cwd) ∨
      (field.1 ≠ "cwd" ∧ next.cwd = draft.cwd) := by
  rcases field with ⟨key, value⟩
  have taken := (addField_eq_ok_iff.mp ok).cwd
  by_cases isCwd : key = "cwd"
  · rw [Passes, fieldAt?, if_pos isCwd] at taken
    exact Or.inl ⟨isCwd, taken⟩
  · rw [Passes, fieldAt?, if_neg isCwd] at taken
    exact Or.inr ⟨isCwd, (Except.ok.inj taken).symm⟩

/-- All fields together leave an absolute directory when every field for it is one, and there is one
or the directory was absolute before. -/
theorem Draft.exists_cwd_of_addFields_eq_ok {draft final : Draft} {fields : List (String × Json)}
    (absolute : ∀ value, ("cwd", value) ∈ fields → value.IsAbsolutePath)
    (present : (∃ text, draft.cwd = some text ∧ Path.isAbsolute ⟨text⟩) ∨
      ∃ value, ("cwd", value) ∈ fields)
    (ok : draft.addFields fields = .ok final) :
    ∃ text, final.cwd = some text ∧ Path.isAbsolute ⟨text⟩ := by
  induction fields generalizing draft with
  | nil =>
      cases ok
      rcases present with before | ⟨value, nowhere⟩
      · exact before
      · exact absurd nowhere List.not_mem_nil
  | cons field rest ih =>
      rcases exists_of_bind_eq_ok ok with ⟨next, added, more⟩
      apply ih (fun value member => absolute value (List.mem_cons_of_mem field member)) _ more
      rcases cwd_of_addField_eq_ok added with ⟨isCwd, read⟩ | ⟨notCwd, kept⟩
      · rcases absolute field.2 (isCwd ▸ List.mem_cons_self) with ⟨text, isText, textAbsolute⟩
        rw [isText, readText, Except.ok.injEq] at read
        exact Or.inl ⟨text, read.symm, textAbsolute⟩
      · rcases present with before | ⟨value, member⟩
        · exact Or.inl (kept ▸ before)
        · rcases List.mem_cons.mp member with here | behind
          · exact absurd (congrArg Prod.fst here).symm notCwd
          · exact Or.inr ⟨value, behind⟩

/-- An absolute path is none of the words that ask for the project file. -/
theorem ofText_of_isAbsolute {text : String} (absolute : Path.isAbsolute ⟨text⟩) :
    Anchor.ofText text = .path ⟨text⟩ := by
  apply if_neg
  intro member
  have words : ∀ word ∈ projectFileWords, Path.isAbsolute ⟨word⟩ = false := by decide
  rw [words text member] at absolute
  exact Bool.false_ne_true absolute

theorem isAnchored_of_ofJson_eq_ok {value : Json} {options : Options} (anchored : value.IsAnchored)
    (ok : ofJson value = .ok options) : options.IsAnchored := by
  cases value with
  | object fields =>
      rcases anchored with ⟨noRecord, present, absolute⟩
      rw [ofJson, noRecord] at ok
      rcases exists_of_bind_eq_ok ok with ⟨form, read, made⟩
      cases made
      rcases exists_of_bind_eq_ok read with ⟨draft, drafted, aliased⟩
      rcases exists_of_bind_eq_ok aliased with ⟨aliases, _, made⟩
      cases made
      rcases Draft.exists_cwd_of_addFields_eq_ok absolute (Or.inr present)
        (mapError_eq_ok_iff.mp drafted) with ⟨text, isCwd, textAbsolute⟩
      refine ⟨⟨text⟩, ?_, textAbsolute⟩
      rw [isCwd, Option.map_some, ofText_of_isAbsolute textAbsolute]
  | null | bool | number | string | array => exact anchored.elim

end Options

/-! ### Two environments -/

/-- With anchored options and an absolute file, two environments have the same configuration or the
same error, the same answer to every specifier, and the same source or the same error. -/
theorem results_eq_of_anchored (disk : Disk) (first second : Environment) {file : Path}
    (absolute : file.isAbsolute) (below : 1 < file.components.length) :
    (∀ options : Options, options.IsAnchored → ∀ configured,
      options.configure disk first configured = options.configure disk second configured ∧
        ∀ config, options.configure disk first configured = .ok config → ∀ specifier,
          (Resolver.ofConfig config first).map (fun resolver => resolver.resolve specifier file) =
            (Resolver.ofConfig config second).map
              (fun resolver => resolver.resolve specifier file)) ∧
      ∀ value : Json, value.IsAnchored → ∀ source,
        transformFile disk first value source file =
          transformFile disk second value source file := by
  constructor
  · intro options anchored configured
    refine ⟨anchored.configure_eq disk first second configured, ?_⟩
    intro config ok specifier
    have configAbsolute := anchored.isAbsolute_of_configure_eq_ok ok
    rcases Resolver.ofConfig_cases config with ⟨fault, refused⟩ | ⟨table, made, built⟩
    · rw [refused first, refused second]
    · rw [built first, built second]
      apply congrArg Except.ok
      exact Resolver.resolve_eq_of_isAbsolute
        (AliasTable.isAbsolute_of_ofConfig_eq_ok configAbsolute made) configAbsolute.cwd absolute
        below _ _ specifier
  · intro value anchored source
    unfold transformFile
    cases read : Options.ofJson value with
    | error fault => rfl
    | ok options =>
        have optionsAnchored := Options.isAnchored_of_ofJson_eq_ok anchored read
        have same := optionsAnchored.configure_eq disk first second (some file)
        cases configured : options.configure disk first (some file) with
        | error fault =>
            rw [configured] at same
            simp [← same, configured, bind, Except.bind, Except.mapError]
        | ok config =>
            have configAbsolute := optionsAnchored.isAbsolute_of_configure_eq_ok configured
            rw [configured] at same
            rcases Resolver.ofConfig_cases config with ⟨fault, refused⟩ | ⟨table, made, built⟩
            · simp [← same, configured, refused, bind, Except.bind, Except.mapError]
            · simp only [← same, configured, built, bind, Except.bind, Except.mapError]
              apply Resolver.transform_eq_of_resolve_eq
              exact Resolver.resolve_eq_of_isAbsolute
                (AliasTable.isAbsolute_of_ofConfig_eq_ok configAbsolute made) configAbsolute.cwd
                absolute below _ _

/-- A map form with an absolute directory, a root, a target below it and a pattern. -/
def anchoredValue : Json :=
  .object [("root", .string "src"), ("cwd", .string "/app/./web"),
    ("alias", .object [("utils", .string "./u"), ("^lib/(.*)$", .string "lib/\\1")])]

def anchoredOptions : Options :=
  .settings ⟨some (.path ⟨"/app/./web"⟩), ["src"], [("utils", "./u"), ("^lib/(.*)$", "lib/\\1")],
    none⟩

def anchoredConfig : Config where
  cwd := ⟨"/app/web"⟩
  roots := [⟨"/app/web/src"⟩]
  aliases := [.literal "utils" (.path ⟨"/app/web/src/u"⟩), .pattern "^lib/(.*)$" "lib/\\1" false]
  extensions := Options.defaultExtensions

/-- An absolute working directory and a relative one. -/
theorem results_eq_of_anchored_in_two_directories :
    anchoredOptions.configure Disk.empty ⟨⟨"/home/./user"⟩⟩ none = .ok anchoredConfig ∧
      anchoredOptions.configure Disk.empty ⟨⟨"work"⟩⟩ none = .ok anchoredConfig ∧
      (∀ specifier,
        (Resolver.ofConfig anchoredConfig ⟨⟨"/home/./user"⟩⟩).map
            (fun resolver => resolver.resolve specifier ⟨"/app/../b.js"⟩) =
          (Resolver.ofConfig anchoredConfig ⟨⟨"work"⟩⟩).map
            (fun resolver => resolver.resolve specifier ⟨"/app/../b.js"⟩)) ∧
      ∀ source,
        transformFile Disk.empty ⟨⟨"/home/./user"⟩⟩ anchoredValue source ⟨"/app/../b.js"⟩ =
          transformFile Disk.empty ⟨⟨"work"⟩⟩ anchoredValue source ⟨"/app/../b.js"⟩ := by
  have absolute : Path.isAbsolute ⟨"/app/../b.js"⟩ := by decide
  have below : 1 < (Path.components ⟨"/app/../b.js"⟩).length := by decide
  have optionsAnchored : anchoredOptions.IsAnchored := ⟨⟨"/app/./web"⟩, rfl, by decide⟩
  have valueAnchored : anchoredValue.IsAnchored := by
    refine ⟨by decide, ⟨.string "/app/./web", by simp⟩, ?_⟩
    intro value member
    refine ⟨"/app/./web", ?_, by decide⟩
    simpa using member
  have configured : anchoredOptions.configure Disk.empty ⟨⟨"/home/./user"⟩⟩ none =
      .ok anchoredConfig := rfl
  rcases results_eq_of_anchored Disk.empty ⟨⟨"/home/./user"⟩⟩ ⟨⟨"work"⟩⟩ absolute below with
    ⟨ofOptions, ofValue⟩
  rcases ofOptions anchoredOptions optionsAnchored none with ⟨same, resolved⟩
  exact ⟨configured, same.symm.trans configured, resolved anchoredConfig configured,
    ofValue anchoredValue valueAnchored⟩

end ImportAlias
