import ImportAlias.Decimal.Notation

/-!
# JSON values

Plugin options arrive as JSON values. The order of the fields of an object matters, so an object is
a list of fields; numbers are integers of 64 bits or numbers of double precision.
-/

namespace ImportAlias

/-- A number as JSON values hold it. -/
inductive Number where
  /-- An integer that fits 64 bits, with or without a sign. -/
  | integer (value : Int)
  | binary (value : Binary)
deriving DecidableEq, Inhabited

/-- A JSON value; objects keep the order of their fields. -/
inductive Json where
  | null
  | bool (value : Bool)
  | number (value : Number)
  | string (text : String)
  | array (items : List Json)
  | object (fields : List (String × Json))
deriving Inhabited

/-- Puts a value at a key: at the place of the key if it is there, behind all keys otherwise. -/
def putField {Value : Type} (key : String) (value : Value) :
    List (String × Value) → List (String × Value)
  | [] => [(key, value)]
  | (present, old) :: rest =>
    if present = key then (key, value) :: rest else (present, old) :: putField key value rest

/-- The fields of a list of pairs: every key once, at its first place and with its last value. -/
def fieldsOf {Value : Type} (pairs : List (String × Value)) : List (String × Value) :=
  pairs.foldl (fun fields pair => putField pair.1 pair.2 fields) []

/-- The value at a key of a list of fields. -/
def fieldAt? {Value : Type} (key : String) : List (String × Value) → Option Value
  | [] => none
  | (present, value) :: rest => if present = key then some value else fieldAt? key rest

namespace Json

/-- The value of a field; only objects have fields. -/
def field? (key : String) : Json → Option Json
  | object fields => fieldAt? key fields
  | _ => none

/-- The text of a string. -/
def string? : Json → Option String
  | string text => some text
  | _ => none

end Json

end ImportAlias
