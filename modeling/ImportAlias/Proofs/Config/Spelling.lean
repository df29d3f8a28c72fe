import ImportAlias.Alias.Resolver
import ImportAlias.Config.OfOptions
import ImportAlias.Proofs.Path.Parent

/-!
# The spelling of a file

A file may be named from the root or from the working directory, with dots and repeated slashes on
the way. Two names that end with the name of an entry and lead to one place are names of one file:
options come down to the same configuration for both, even if the nearest project file is looked
for, and every specifier becomes the same in both.
-/

namespace ImportAlias

open ImportAlias.Path

/-! ### Configurations -/

namespace Options

variable {environment : Environment} {first second : Path}

/-- The directory of a configuration depends on the file through the place that it leads to. -/
theorem cwdOf_eq_of_locate_eq (same : environment.locate first = environment.locate second)
    (disk : Disk) (anchor : Option Anchor) :
    cwdOf disk environment (some first) anchor = cwdOf disk environment (some second) anchor := by
  match anchor with
  | none => rfl
  | some (.path path) => rfl
  | some .projectFile => simp only [cwdOf, same]

theorem configure_eq_of_locate_eq (same : environment.locate first = environment.locate second)
    (disk : Disk) (options : Options) :
    options.configure disk environment (some first) =
      options.configure disk environment (some second) := by
  cases options with
  | records records => rfl
  | settings form =>
      simp only [configure, configureSettings, cwdOf_eq_of_locate_eq same disk form.cwd]

end Options

/-! ### Resolutions -/

theorem Path.reference_eq_of_directoryOf_eq {workingDir first second : Path}
    (same : directoryOf workingDir first = directoryOf workingDir second) (target : Path) :
    reference workingDir first target = reference workingDir second target := by
  simp only [directoryOf] at same
  simp only [reference, same]

namespace Resolver

variable {resolver : Resolver} {first second : Path}

/-- What becomes of a specifier depends on the file through its directory. -/
theorem resolve_eq_of_directoryOf_eq
    (same : directoryOf resolver.workingDir first = directoryOf resolver.workingDir second)
    (specifier : String) :
    resolver.resolve specifier first = resolver.resolve specifier second := by
  have expanded (found : AliasTable.Match) :
      resolver.expand first found = resolver.expand second found := by
    cases found with
    | literal key target rest =>
        cases target with
        | package name => rfl
        | path path => exact reference_eq_of_directoryOf_eq same _
    | pattern expansion external =>
        cases external with
        | true => rfl
        | false => exact reference_eq_of_directoryOf_eq same _
  unfold resolve
  simp only [expanded]

end Resolver

/-- From an absolute working directory, two names of one file have the same configuration for all
options, and a resolver gives the same answer to every specifier in both. -/
theorem results_eq_of_located {environment : Environment}
    (absolute : environment.workingDir.isAbsolute) {first second : Path}
    (firstNamed : first.fileName?.isSome) (secondNamed : second.fileName?.isSome)
    (same : environment.locate first = environment.locate second) :
    (∀ disk options, Options.configure disk environment (some first) options =
      Options.configure disk environment (some second) options) ∧
    ∀ resolver : Resolver, resolver.workingDir = environment.workingDir → ∀ specifier,
      resolver.resolve specifier first = resolver.resolve specifier second := by
  refine ⟨Options.configure_eq_of_locate_eq same, ?_⟩
  intro resolver workingDir specifier
  apply Resolver.resolve_eq_of_directoryOf_eq
  rw [workingDir]
  exact directoryOf_eq_of_cleanFrom_eq absolute firstNamed secondNamed same

/-- A disk with one project file. -/
def projectDisk : Disk :=
  { Disk.empty with
    target? := fun path => if path = ⟨"/project/lib/.babelrc"⟩ then some .file else none }

/-- A target below the directory of the project file. -/
def projectOptions : Options :=
  .settings ⟨some .projectFile, [], [("utils", "./u")], none⟩

def projectConfig : Config where
  cwd := ⟨"/project/lib"⟩
  roots := []
  aliases := [.literal "utils" (.path ⟨"/project/lib/u"⟩)]
  extensions := Options.defaultExtensions

def projectResolver : Resolver where
  table := ⟨[("utils", .path ⟨"/project/lib/u"⟩)], []⟩
  cwd := ⟨"/project/lib"⟩
  workingDir := ⟨"/project"⟩

/-- A relative name with both dots and a repeated slash, and the clean absolute one. -/
theorem results_eq_of_located_in_library :
    projectOptions.configure projectDisk ⟨⟨"/project"⟩⟩ (some ⟨"src/../lib/x/.//a.js"⟩) =
        .ok projectConfig ∧
      projectOptions.configure projectDisk ⟨⟨"/project"⟩⟩ (some ⟨"/project/lib/x/a.js"⟩) =
        .ok projectConfig ∧
      projectResolver.resolve "utils/b" ⟨"src/../lib/x/.//a.js"⟩ = .replacement "../u/b" ∧
      projectResolver.resolve "utils/b" ⟨"/project/lib/x/a.js"⟩ = .replacement "../u/b" := by
  have located : Environment.locate ⟨⟨"/project"⟩⟩ ⟨"src/../lib/x/.//a.js"⟩ =
      Environment.locate ⟨⟨"/project"⟩⟩ ⟨"/project/lib/x/a.js"⟩ := by decide +kernel
  have configured : projectOptions.configure projectDisk ⟨⟨"/project"⟩⟩
      (some ⟨"/project/lib/x/a.js"⟩) = .ok projectConfig := rfl
  have resolved : projectResolver.resolve "utils/b" ⟨"/project/lib/x/a.js"⟩ =
      .replacement "../u/b" := by decide +kernel
  rcases @results_eq_of_located ⟨⟨"/project"⟩⟩ (by decide +kernel) _ _ (by decide +kernel)
    (by decide +kernel) located with ⟨sameConfig, sameAnswers⟩
  exact ⟨(sameConfig projectDisk projectOptions).trans configured, configured,
    (sameAnswers projectResolver rfl "utils/b").trans resolved, resolved⟩

end ImportAlias
