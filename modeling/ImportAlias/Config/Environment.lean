import ImportAlias.Config.Error

/-!
# The environment

Relative paths are taken from a working directory that is fixed once, so that what happens to the
working directory of the process later on makes no difference.
-/

namespace ImportAlias

/-- The working directory, cleaned. -/
structure Environment where
  workingDir : Path
deriving DecidableEq

namespace Environment

/-- The environment with a working directory; a relative one is taken as it is. -/
def ofDir (workingDir : Path) : Environment :=
  ⟨workingDir.clean⟩

/-- The environment of a process: the directory that the shell names, if that is absolute, and else
the working directory of the process, which may be gone. -/
def ofProcess (shellDir processDir : Option Path) : Except ConfigError Environment :=
  match shellDir.filter Path.isAbsolute, processDir with
  | some dir, _ => .ok (ofDir dir)
  | none, some dir => .ok (ofDir dir)
  | none, none => .error .noWorkingDir

/-- The path seen from the working directory, cleaned. -/
def locate (environment : Environment) (path : Path) : Path :=
  environment.workingDir.cleanFrom path

end Environment

end ImportAlias
