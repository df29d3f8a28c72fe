import ImportAlias.Config.Error
import ImportAlias.Options.Basic

/-!
# Reading options

Options are read from a JSON value. A list is read item by item, and the first faulty item is
reported. In the map form the known fields are checked in the order in which they stand; the targets
of the aliases are looked at only when all of them have the right shape.
-/

namespace ImportAlias

namespace Options

/-- A field of a record, which has to be a string. -/
def readRecordField (index : Nat) (field : RecordField) (fields : List (String × Json)) :
    Except ConfigError String :=
  match fieldAt? field.name fields with
  | none => .error (.missingField index field)
  | some .null => .error (.missingField index field)
  | some (.string text) => .ok text
  | some other => .error (.notAString (.recordField index field) other)

/-- A record of the list form. -/
def readRecord (index : Nat) : Json → Except ConfigError ExposeRecord
  | .object fields => do
    let expose ← readRecordField index .expose fields
    let src ← readRecordField index .src fields
    return ⟨expose, src⟩
  | item => .error (.shape item)

/-- The records of the list form, from an index on. -/
def readRecords : Nat → List Json → Except ConfigError (List ExposeRecord)
  | _, [] => .ok []
  | index, item :: rest => do
    let record ← readRecord index item
    let records ← readRecords (index + 1) rest
    return record :: records

/-- A field that has to be a string when it is there. -/
def readText : Json → Except FieldFault (Option String)
  | .null => .ok none
  | .string text => .ok (some text)
  | other => .error (.wrongShape other .string)

/-- The strings of a list. -/
def readTexts : List Json → Except FieldFault (List String)
  | [] => .ok []
  | .string text :: rest => do return text :: (← readTexts rest)
  | other :: _ => .error (.wrongShape other .string)

/-- A field that has to be a list of strings when it is there. -/
def readTextList : Json → Except FieldFault (Option (List String))
  | .null => .ok none
  | .array items => do return some (← readTexts items)
  | other => .error (.wrongShape other .sequence)

/-- The roots: one of them or a list of them. -/
def readRoots : Json → Except FieldFault (List String)
  | .null => .ok []
  | .string root => .ok [root]
  | .array items => (readTexts items).mapError (fun _ => .noRoots)
  | _ => .error .noRoots

/-- A field that has to be an object when it is there. -/
def readMap : Json → Except FieldFault (List (String × Json))
  | .null => .ok []
  | .object fields => .ok fields
  | other => .error (.wrongShape other .map)

/-- The map form with the targets of the aliases as they came. -/
structure Draft where
  cwd : Option String
  roots : List String
  aliases : List (String × Json)
  extensions : Option (List String)

/-- The map form with nothing in it. -/
def Draft.empty : Draft :=
  ⟨none, [], [], none⟩

/-- The map form with one more field; unknown fields make no difference. -/
def Draft.addField (draft : Draft) : String × Json → Except FieldFault Draft
  | ("cwd", value) => do return { draft with cwd := ← readText value }
  | ("root", value) => do return { draft with roots := ← readRoots value }
  | ("alias", value) => do return { draft with aliases := ← readMap value }
  | ("extensions", value) => do return { draft with extensions := ← readTextList value }
  | _ => .ok draft

/-- The map form with all fields of an object. -/
def Draft.addFields : Draft → List (String × Json) → Except FieldFault Draft
  | draft, [] => .ok draft
  | draft, field :: rest => do addFields (← draft.addField field) rest

/-- The targets of the aliases, which have to be strings. -/
def readAliases : List (String × Json) → Except ConfigError (List (String × String))
  | [] => .ok []
  | (key, .string target) :: rest => do return (key, target) :: (← readAliases rest)
  | (key, other) :: _ => .error (.notAString (.aliasValue key) other)

/-- The map form. -/
def readSettings (fields : List (String × Json)) : Except ConfigError Settings := do
  let draft ← (Draft.empty.addFields fields).mapError .faultyField
  let aliases ← readAliases draft.aliases
  return ⟨draft.cwd.map .ofText, draft.roots, aliases, draft.extensions⟩

/-- The object is a record, so it stands for a list with it alone. -/
def isRecord (fields : List (String × Json)) : Bool :=
  (fieldAt? "expose" fields).isSome || (fieldAt? "src" fields).isSome

/-- The options that a value stands for. -/
def ofJson : Json → Except ConfigError Options
  | .null => .ok (.settings .empty)
  | .array items => do return .records (← readRecords 0 items)
  | .object fields =>
    if isRecord fields then do return .records [← readRecord 0 (.object fields)]
    else do return .settings (← readSettings fields)
  | other => .error (.shape other)

end Options

end ImportAlias
