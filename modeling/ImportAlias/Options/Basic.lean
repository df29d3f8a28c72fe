import ImportAlias.Path.Basic

/-!
# Plugin options

Options come in two forms. The list form has one record for every alias, the map form has an object
of aliases with a directory to start from, roots and extensions.
-/

namespace ImportAlias

/-- A record of the list form: a name and what it stands for. -/
structure ExposeRecord where
  expose : String
  src : String
deriving DecidableEq

/-- Where relative targets start from. -/
inductive Anchor where
  | path (path : Path)
  /-- The directory of the nearest project file. -/
  | projectFile
deriving DecidableEq

/-- The map form. -/
structure Settings where
  cwd : Option Anchor
  roots : List String
  /-- The targets of the aliases, in the order of the configuration. -/
  aliases : List (String × String)
  extensions : Option (List String)
deriving DecidableEq

/-- The map form with nothing in it. -/
def Settings.empty : Settings :=
  ⟨none, [], [], none⟩

/-- Plugin options. -/
inductive Options where
  | records (records : List ExposeRecord)
  | settings (settings : Settings)
deriving DecidableEq

namespace Options

/-- The spellings that ask for the directory of the nearest project file. -/
def projectFileWords : List String :=
  ["fromProjectConfig", "babelrc"]

end Options

/-- Where a text of the configuration starts relative targets from. -/
def Anchor.ofText (text : String) : Anchor :=
  if text ∈ Options.projectFileWords then .projectFile else .path ⟨text⟩

end ImportAlias
