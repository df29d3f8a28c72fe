import ImportAlias.Config.Error
import ImportAlias.Glob.Walk

/-!
# Roots

An entry of the roots is a directory or a pattern for directories. A pattern stands for the
directories that match it, links to directories left out, and it is refused when the disk does not
let itself be searched for them; anything else is kept whether it exists or not.
-/

namespace ImportAlias

namespace Roots

/-- The text has a character with a meaning in patterns. -/
def hasWildcard (text : String) : Bool :=
  text.toList.any (fun char => char = '*' || char = '?' || char = '[')

/-- The directories among what a walk came to, if the disk never failed. -/
def directories (disk : Disk) : List Glob.Finding → Except ConfigError (List Path)
  | [] => .ok []
  | .error unread :: _ => .error (.rootExpansion unread.directory unread.failure)
  | .ok path :: rest =>
    match disk.entry path with
    | .error failure => .error (.rootExpansion path failure)
    | .ok kind => do
      let more ← directories disk rest
      return if kind = .directory then path :: more else more

/-- The directories that one entry stands for. -/
def expandEntry (disk : Disk) (cwd : Path) (entry : String) : Except ConfigError (List Path) :=
  let path := cwd.cleanFrom ⟨entry⟩
  if hasWildcard path.text then
    match Glob.findings disk path with
    | .ok findings => directories disk findings
    | .error fault => .error (.invalidRootPattern path fault)
  else .ok [path]

/-- The directories that the entries stand for, in the order of the entries. -/
def expand (disk : Disk) (cwd : Path) : List String → Except ConfigError (List Path)
  | [] => .ok []
  | entry :: rest => do
    let paths ← expandEntry disk cwd entry
    let more ← expand disk cwd rest
    return paths ++ more

end Roots

end ImportAlias
