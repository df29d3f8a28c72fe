import ImportAlias.Config.OfOptions
import ImportAlias.Options.Reader
import ImportAlias.Script.Program
import ImportAlias.Specifier.Replacement

/-!
# Transforming files

The extension of a file tells its language. A file is read, its specifiers are replaced, and it is
refused when its source is not right or, before that, when the options are not.
-/

namespace ImportAlias

/-- Modules without types and with markup. -/
def Script.Dialect.moduleWithMarkup : Script.Dialect :=
  ⟨true, false, true⟩

/-- The language of a file. Sources without types may have markup whatever their extension. -/
def Script.Dialect.ofFile (file : Path) : Script.Dialect :=
  match file.extension?.map String.ofList with
  | some "cjs" => ⟨false, false, true⟩
  | some "ts" => ⟨true, true, false⟩
  | some "mts" => ⟨true, true, false⟩
  | some "cts" => ⟨false, true, false⟩
  | some "tsx" => ⟨true, true, true⟩
  | _ => .moduleWithMarkup

/-- Why a file is not transformed. -/
inductive FileError where
  | config (error : ConfigError)
  /-- The source is not right. -/
  | source (file : Path)

/-- The wording of what is wrong with the configuration of a file. -/
def ConfigError.messageInFile (error : ConfigError) : String :=
  "invalid alias configuration: " ++ error.message

/-- The sites of the specifiers in a source in their order, if the source is right. -/
def specifierSites? (dialect : Script.Dialect) (source : String) : Option (List Site) :=
  (Script.program? dialect source.toList).map (fun tree => tree.val.sortedSites)

/-- The source of a file with its specifiers replaced. -/
def Resolver.transform (resolver : Resolver) (source : String) (file : Path) :
    Except FileError Transformed :=
  match Script.program? (.ofFile file) source.toList with
  | none => .error (.source file)
  | some tree => .ok (resolver.replaceSites file source.toList tree.val.sites)

/-- The source of a file with its specifiers replaced as the options say. -/
def transformFile (disk : Disk) (environment : Environment) (options : Json) (source : String)
    (file : Path) : Except FileError Transformed := do
  let resolver ← Except.mapError FileError.config do
    let options ← Options.ofJson options
    let config ← options.configure disk environment (some file)
    Resolver.ofConfig config environment
  resolver.transform source file

end ImportAlias
