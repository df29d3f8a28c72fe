import ImportAlias.Disk.Basic
import ImportAlias.Glob.Pattern
import ImportAlias.Text.Quoted

/-!
# Errors of a configuration

The causes for which a configuration is refused, and their wording.
-/

namespace ImportAlias

/-- The fields of a record of the list form. -/
inductive RecordField where
  | expose
  | src
deriving DecidableEq

/-- The name of a field. -/
def RecordField.name : RecordField → String
  | expose => "expose"
  | src => "src"

/-- What should have been a string: the value of an alias or a field of a record. -/
inductive StringPlace where
  | aliasValue (key : String)
  | recordField (index : Nat) (field : RecordField)
deriving DecidableEq

/-- The wording of a place. -/
def StringPlace.text : StringPlace → String
  | aliasValue key => key
  | recordField index field => field.name ++ " (entry #" ++ toString index ++ ")"

/-- The shapes that a field of the map form may need. -/
inductive Shape where
  | string
  | map
  | sequence
deriving DecidableEq

/-- The wording of a shape. -/
def Shape.text : Shape → String
  | string => "a string"
  | map => "a map"
  | sequence => "a sequence"

/-- What is wrong with a field of the map form. -/
inductive FieldFault where
  | wrongShape (got : Json) (wanted : Shape)
  /-- The roots are neither a string nor a list of strings. -/
  | noRoots

/-- What a value is, in a message about its shape. -/
def Json.shapeText : Json → String
  | null => "null"
  | bool true => "boolean `true`"
  | bool false => "boolean `false`"
  | number (.integer value) => "integer `" ++ toString value ++ "`"
  | number (.binary value) => "floating point `" ++ String.ofList value.chars ++ "`"
  | string text => "string " ++ shownText text
  | array _ => "sequence"
  | object _ => "map"

/-- The wording of a fault. -/
def FieldFault.message : FieldFault → String
  | wrongShape got wanted => "invalid type: " ++ got.shapeText ++ ", expected " ++ wanted.text
  | noRoots => "data did not match any variant of untagged enum OneOrMany"

/-- Why a configuration is refused. -/
inductive ConfigError where
  /-- The options, or an item of their list form, are no record. -/
  | shape (got : Json)
  | missingField (index : Nat) (field : RecordField)
  | notAString (place : StringPlace) (got : Json)
  | faultyField (fault : FieldFault)
  | invalidPattern (key : String)
  | invalidRootPattern (pattern : Path) (fault : Glob.Fault)
  /-- The disk gave no answer about a path that a root pattern led to. -/
  | rootExpansion (path : Path) (failure : DiskFailure)
  /-- The working directory of the process is gone. -/
  | noWorkingDir

/-- The wording of an error; a faulty pattern is told by its key alone. -/
def ConfigError.message : ConfigError → String
  | shape got =>
    "invalid plugin options: expected a list of \x7bexpose, src\x7d records or an options object, got "
      ++ got.print
  | missingField index field =>
    "alias entry #" ++ toString index ++ " is missing required field `" ++ field.name ++ "`"
  | notAString place got => "alias `" ++ place.text ++ "` must map to a string, got " ++ got.print
  | faultyField fault => "invalid config value for `options`: " ++ fault.message
  | invalidPattern key => "alias pattern `" ++ key ++ "` is not a valid regular expression"
  | invalidRootPattern pattern fault =>
    "root pattern `" ++ pattern.text ++ "` is invalid: " ++ fault.message
  | rootExpansion path failure =>
    "failed to expand root directory " ++ path.text ++ ": " ++ failure.message
  | noWorkingDir => "I/O error: " ++ DiskFailure.missing.message

end ImportAlias
