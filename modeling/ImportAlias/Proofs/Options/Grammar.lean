import ImportAlias.Proofs.Options.MapForm

/-!
# The grammar of options

Options are read from exactly those JSON values that state them: null, a list of records, one record,
or an object with the fields of the map form. Any other value is refused for its first fault.
-/

namespace ImportAlias

namespace Options

/-- The fields are those of the map form: none of them belongs to a record. -/
def IsMapForm (fields : List (String × Json)) : Prop :=
  ∀ field ∈ fields, field.1 ≠ "expose" ∧ field.1 ≠ "src"

/-- The options that a value states. -/
inductive States : Json → Options → Prop where
  | nothing : States .null (.settings .empty)
  | list {items : List Json} {records : List ExposeRecord}
      (each : List.Forall₂ StatesRecord items records) : States (.array items) (.records records)
  | record {fields : List (String × Json)} {record : ExposeRecord}
      (states : StatesRecord (.object fields) record) : States (.object fields) (.records [record])
  | settings {fields : List (String × Json)} {cwd : Option String} {roots : List String}
      {aliases : List (String × String)} {extensions : Option (List String)}
      (mapForm : IsMapForm fields)
      (cwdShown : Shows DenotesText none (fieldAt? "cwd" fields) cwd)
      (rootsShown : Shows DenotesRoots [] (fieldAt? "root" fields) roots)
      (aliasesShown : Shows DenotesAliases [] (fieldAt? "alias" fields) aliases)
      (extensionsShown : Shows DenotesTexts none (fieldAt? "extensions" fields) extensions) :
      States (.object fields) (.settings ⟨cwd.map .ofText, roots, aliases, extensions⟩)

/-- The error that a value is refused with. -/
inductive Refused : Json → ConfigError → Prop where
  | shape {value : Json} (present : value ≠ .null) (noList : ∀ items, value ≠ .array items)
      (noObject : ∀ fields, value ≠ .object fields) : Refused value (.shape value)
  /-- The first item that is no record. -/
  | item {before after : List Json} {item : Json} {error : ConfigError}
      (sound : ∀ earlier ∈ before, ∃ record, StatesRecord earlier record)
      (faulty : RecordError before.length item error) :
      Refused (.array (before ++ item :: after)) error
  | record {fields : List (String × Json)} {error : ConfigError} (isRecord : ¬IsMapForm fields)
      (faulty : RecordError 0 (.object fields) error) : Refused (.object fields) error
  /-- The first field of the map form without its shape. -/
  | field {before after : List (String × Json)} {field : String × Json} {fault : FieldFault}
      (mapForm : IsMapForm (before ++ field :: after))
      (sound : ∀ earlier ∈ before, WellShaped earlier) (faulty : ShapeFault field fault) :
      Refused (.object (before ++ field :: after)) (.faultyField fault)
  /-- The first alias without a string, when all fields have their shapes. -/
  | target {fields before after : List (String × Json)} {key : String} {value : Json}
      (mapForm : IsMapForm fields) (shaped : ∀ field ∈ fields, WellShaped field)
      (aliases : fieldAt? "alias" fields = some (.object (before ++ (key, value) :: after)))
      (sound : ∀ earlier ∈ before, IsText earlier.2) (noText : ¬IsText value) :
      Refused (.object fields) (.notAString (.aliasValue key) value)

/-! ### Records and the map form -/

/-- Fields are those of the map form exactly if they are not for a record. -/
theorem isRecord_eq_false_iff {fields : List (String × Json)} :
    isRecord fields = false ↔ IsMapForm fields := by
  rw [isRecord, Bool.or_eq_false_iff, Option.isSome_eq_false_iff, Option.isSome_eq_false_iff,
    Option.isNone_iff_eq_none, Option.isNone_iff_eq_none, fieldAt?_eq_none_iff, fieldAt?_eq_none_iff]
  exact ⟨fun noName field member => ⟨noName.1 field member, noName.2 field member⟩,
    fun mapForm => ⟨fun field member => (mapForm field member).1,
      fun field member => (mapForm field member).2⟩⟩

theorem not_isMapForm_of_statesRecord {fields : List (String × Json)} {record : ExposeRecord}
    (states : StatesRecord (.object fields) record) : ¬IsMapForm fields := by
  rcases states with ⟨_, ⟨rfl⟩, exposed, _⟩
  exact fun mapForm => (mapForm _ (mem_of_fieldAt?_eq_some exposed)).1 rfl

theorem ofJson_object {fields : List (String × Json)} (mapForm : IsMapForm fields) :
    ofJson (.object fields) = (readSettings fields >>= fun settings => .ok (.settings settings)) := by
  rw [ofJson, isRecord_eq_false_iff.mpr mapForm]
  rfl

theorem ofJson_object_of_not_isMapForm {fields : List (String × Json)} (isRecord : ¬IsMapForm fields) :
    ofJson (.object fields) =
      (readRecord 0 (.object fields) >>= fun record => .ok (.records [record])) := by
  rw [← isRecord_eq_false_iff, Bool.not_eq_false] at isRecord
  rw [ofJson, isRecord]
  rfl

/-! ### Values -/

/-- Options are read from a value exactly if it states them. -/
theorem ofJson_eq_ok_iff {value : Json} {options : Options}
    (distinct : ∀ fields, value = .object fields → (fields.map Prod.fst).Nodup) :
    ofJson value = .ok options ↔ States value options := by
  cases value with
  | null =>
      constructor
      · rintro ⟨⟩
        exact .nothing
      · rintro ⟨⟩
        rfl
  | array items =>
      rw [ofJson, bind_eq_ok_iff]
      simp only [readRecords_eq_ok_iff]
      constructor
      · rintro ⟨records, each, ⟨⟩⟩
        exact .list each
      · rintro (_ | each)
        exact ⟨_, each, rfl⟩
  | object fields =>
      by_cases mapForm : IsMapForm fields
      · rw [ofJson_object mapForm, bind_eq_ok_iff]
        simp only [readSettings_eq_ok_iff (distinct fields rfl)]
        constructor
        · rintro ⟨⟨_, roots, aliases, extensions⟩,
            ⟨cwd, rfl, cwdShown, rootsShown, aliasesShown, extensionsShown⟩, ⟨⟩⟩
          exact .settings mapForm cwdShown rootsShown aliasesShown extensionsShown
        · rintro (_ | _ | states | ⟨_, cwdShown, rootsShown, aliasesShown, extensionsShown⟩)
          · exact absurd mapForm (not_isMapForm_of_statesRecord states)
          · exact ⟨_, ⟨_, rfl, cwdShown, rootsShown, aliasesShown, extensionsShown⟩, rfl⟩
      · rw [ofJson_object_of_not_isMapForm mapForm, bind_eq_ok_iff]
        simp only [readRecord_eq_ok_iff]
        constructor
        · rintro ⟨record, states, ⟨⟩⟩
          exact .record states
        · rintro (_ | _ | states | isMapForm)
          · exact ⟨_, states, rfl⟩
          · exact absurd isMapForm mapForm
  | bool | number | string => constructor <;> nofun

/-- A value is refused for its first fault. -/
theorem ofJson_eq_error_iff {value : Json} {error : ConfigError}
    (distinct : ∀ fields, value = .object fields → (fields.map Prod.fst).Nodup) :
    ofJson value = .error error ↔ Refused value error := by
  cases value with
  | null => constructor <;> nofun
  | array items =>
      rw [ofJson, bind_eq_error_iff]
      simp only [readRecords_eq_error_iff]
      constructor
      · rintro (⟨before, item, after, rfl, sound, faulty⟩ | ⟨_, _, ⟨⟩⟩)
        exact .item sound faulty
      · rintro (⟨_, noList, _⟩ | ⟨sound, faulty⟩)
        · exact absurd rfl (noList items)
        · exact Or.inl ⟨_, _, _, rfl, sound, faulty⟩
  | object fields =>
      by_cases mapForm : IsMapForm fields
      · rw [ofJson_object mapForm, bind_eq_error_iff, readSettings_eq_error_iff (distinct fields rfl)]
        constructor
        · rintro ((⟨before, field, after, fault, rfl, sound, faulty, rfl⟩ |
            ⟨shaped, before, key, value, after, found, sound, noText, rfl⟩) | ⟨_, _, ⟨⟩⟩)
          · exact .field mapForm sound faulty
          · exact .target mapForm shaped found sound noText
        · rintro (⟨_, _, noObject⟩ | _ | ⟨isRecord, _⟩ | ⟨_, sound, faulty⟩ |
            ⟨_, shaped, found, sound, noText⟩)
          · exact absurd rfl (noObject fields)
          · exact absurd mapForm isRecord
          · exact Or.inl (Or.inl ⟨_, _, _, _, rfl, sound, faulty, rfl⟩)
          · exact Or.inl (Or.inr ⟨shaped, _, _, _, _, found, sound, noText, rfl⟩)
      · rw [ofJson_object_of_not_isMapForm mapForm, bind_eq_error_iff, readRecord_eq_error_iff]
        constructor
        · rintro (faulty | ⟨_, _, ⟨⟩⟩)
          exact .record mapForm faulty
        · rintro (⟨_, _, noObject⟩ | _ | ⟨_, faulty⟩ | ⟨isMapForm, _⟩ | ⟨isMapForm, _⟩)
          · exact absurd rfl (noObject fields)
          · exact Or.inl faulty
          · exact absurd isMapForm mapForm
          · exact absurd isMapForm mapForm
  | bool | number | string =>
      constructor
      · rintro ⟨⟩
        exact .shape nofun nofun nofun
      · rintro ⟨⟩
        rfl

/-- From an object with distinct keys, and from any other value, options are read exactly if the value
states them. Every other value is refused for its first fault. -/
theorem ofJson_reads_what_is_stated {value : Json}
    (distinct : ∀ fields, value = .object fields → (fields.map Prod.fst).Nodup) :
    (∀ options, ofJson value = .ok options ↔ States value options) ∧
      ∀ error, ofJson value = .error error ↔ Refused value error :=
  ⟨fun _ => ofJson_eq_ok_iff distinct, fun _ => ofJson_eq_error_iff distinct⟩

/-- The faults are an extension that is no text, a target that is none, and a directory that is none. -/
def threeFaults : Json :=
  .object [("extensions", .array [.string "ts", .null]), ("alias", .object [("utils", .bool true)]),
    ("cwd", .number (.integer 42))]

theorem ofJson_reads_what_is_stated_of_three_faults :
    Refused threeFaults (.faultyField (.wrongShape .null .string)) ∧
      ∀ options, ¬States threeFaults options := by
  have distinct : ∀ fields, threeFaults = .object fields → (fields.map Prod.fst).Nodup := by
    rintro fields ⟨⟩
    decide
  rcases ofJson_reads_what_is_stated distinct with ⟨reads, refuses⟩
  refine ⟨(refuses _).mp rfl, fun options states => ?_⟩
  have read := (reads options).mpr states
  cases read

/-- The error for a field of the map form does not tell which field it is. -/
theorem faultyField_of_two_fields :
    ofJson (.object [("cwd", .number (.integer 42))]) =
        .error (.faultyField (.wrongShape (.number (.integer 42)) .string)) ∧
      ofJson (.object [("extensions", .array [.number (.integer 42)])]) =
        .error (.faultyField (.wrongShape (.number (.integer 42)) .string)) ∧
      (ConfigError.faultyField (.wrongShape (.number (.integer 42)) .string)).message =
        "invalid config value for `options`: invalid type: integer `42`, expected a string" :=
  ⟨rfl, rfl, by decide⟩

end Options

end ImportAlias
