import ImportAlias.Proofs.Options.Lists
import ImportAlias.Specifier.Transform

/-!
# The list form and the map form

A list of records says the same as the map form with one alias for each of them, as long as the
object of the aliases can hold them all and none of them is a pattern there. Both forms come down to
one configuration, also where keys become equal once their slashes are trimmed, and so a file is
transformed in the same way.
-/

namespace ImportAlias

namespace Options

/-- A record as an object. -/
def recordValue (record : ExposeRecord) : Json :=
  .object [("expose", .string record.expose), ("src", .string record.src)]

/-- The list form of records. -/
def listForm (records : List ExposeRecord) : Json :=
  .array (records.map recordValue)

/-- What records say about names, in their order. -/
def recordEntries (records : List ExposeRecord) : List (String × String) :=
  records.map (fun record => (record.expose, record.src))

/-- The map form of records: an object of aliases, which holds every key once. -/
def mapForm (records : List ExposeRecord) : Json :=
  .object [("alias", .object (fieldsOf ((recordEntries records).map (fun entry =>
    (entry.1, .string entry.2)))))]

/-! ### Reading both forms -/

theorem ofJson_listForm (records : List ExposeRecord) :
    ofJson (listForm records) = .ok (.records records) := by
  have stated : List.Forall₂ StatesRecord (records.map recordValue) records := by
    rw [List.forall₂_map_left_iff, List.forall₂_same]
    exact fun record _ => ⟨_, rfl, rfl, rfl⟩
  rw [listForm, ofJson, readRecords_eq_ok_iff.mpr stated]
  rfl

variable {records : List ExposeRecord}

/-- An object holds one alias for each record when their names are distinct. -/
theorem ofJson_mapForm (distinct : (records.map ExposeRecord.expose).Nodup) :
    ofJson (mapForm records) = .ok (.settings ⟨none, [], recordEntries records, none⟩) := by
  have keys : ((recordEntries records).map (fun entry =>
      (entry.1, Json.string entry.2))).map Prod.fst = records.map ExposeRecord.expose := by
    rw [recordEntries, List.map_map, List.map_map]
    rfl
  have read : readAliases ((recordEntries records).map (fun entry =>
      (entry.1, .string entry.2))) = .ok (recordEntries records) :=
    readAliases_eq_ok_iff.mpr rfl
  rw [mapForm, fieldsOf_of_nodup (keys ▸ distinct)]
  change (readAliases _ >>= fun aliases => _) >>= _ = _
  rw [read]
  rfl

/-! ### One configuration -/

/-- Without patterns among their names, records are configured as the map form is. -/
theorem configureSettings_recordEntries
    (literal : ∀ record ∈ records, isPattern record.expose = false) (disk : Disk)
    (environment : Environment) (file : Option Path) :
    configureSettings disk environment file ⟨none, [], recordEntries records, none⟩ =
      .ok (configureRecords disk environment records) := by
  have entryLiteral : ∀ entry ∈ recordEntries records, isPattern entry.1 = false := by
    intro entry member
    rcases List.mem_map.mp member with ⟨record, inside, rfl⟩
    exact literal record inside
  have literals : (recordEntries records).filter (fun entry => !isPattern entry.1) =
      recordEntries records := by
    rw [List.filter_eq_self]
    intro entry member
    rw [entryLiteral entry member]
    rfl
  have patterns : (recordEntries records).filter (fun entry => isPattern entry.1) = [] := by
    rw [List.filter_eq_nil_iff]
    intro entry member
    rw [entryLiteral entry member]
    exact Bool.false_ne_true
  have targets (cwd : Path) (extensions : List String) :
      (recordEntries records).map (literalOf disk cwd [] extensions) =
        records.map (fun record =>
          literalOf disk cwd [] extensions (record.expose, record.src)) := by
    rw [recordEntries, List.map_map]
    rfl
  rw [configureRecords, ← targets]
  simp only [configureSettings, literals, patterns]
  rfl

theorem transformFile_eq_of_configure_eq {first second : Json}
    {firstOptions secondOptions : Options} {disk : Disk} {environment : Environment} {file : Path}
    (firstRead : ofJson first = .ok firstOptions) (secondRead : ofJson second = .ok secondOptions)
    (configured : firstOptions.configure disk environment (some file) =
      secondOptions.configure disk environment (some file)) (source : String) :
    transformFile disk environment first source file =
      transformFile disk environment second source file := by
  unfold transformFile
  rw [firstRead, secondRead]
  simp only [bind, Except.bind, configured]

/-- The list form of records with distinct names, none of them a pattern, and the map form with the
same entries in the same order have the same warnings and come down to the same configuration, and
every file is transformed in the same way. -/
theorem listForm_agrees_with_mapForm (distinct : (records.map ExposeRecord.expose).Nodup)
    (literal : ∀ record ∈ records, isPattern record.expose = false) :
    ofJson (listForm records) = .ok (.records records) ∧
      ∃ form, ofJson (mapForm records) = .ok (.settings form) ∧
        (settings form).warnings = (Options.records records).warnings ∧
        (∀ disk environment file, (settings form).configure disk environment file =
          (Options.records records).configure disk environment file) ∧
        ∀ list, ofJson list = .ok (.records records) → ∀ disk environment source file,
          transformFile disk environment (mapForm records) source file =
            transformFile disk environment list source file := by
  have configured (disk : Disk) (environment : Environment) (file : Option Path) :=
    configureSettings_recordEntries literal disk environment file
  refine ⟨ofJson_listForm records, _, ofJson_mapForm distinct, rfl, configured, ?_⟩
  intro list listed disk environment source file
  exact transformFile_eq_of_configure_eq (ofJson_mapForm distinct) listed
    (configured disk environment (some file)) source

/-- Two names that are equal once trimmed, and the empty one; a package takes the place of a
path. -/
def slashedRecords : List ExposeRecord :=
  [⟨"utils/", "./u"⟩, ⟨"utils", "npm:lodash"⟩, ⟨"", "../v"⟩]

def slashedConfig : Config where
  cwd := ⟨"/project"⟩
  roots := []
  aliases := [.literal "utils" (.package "lodash"), .literal "" (.path ⟨"/v"⟩)]
  extensions := defaultExtensions

theorem listForm_agrees_with_mapForm_of_slashed_names :
    ∃ form, ofJson (mapForm slashedRecords) = .ok (.settings form) ∧
      (settings form).warnings = [.packageMark] ∧
      (settings form).configure Disk.empty ⟨⟨"/project"⟩⟩ (some ⟨"a.js"⟩) = .ok slashedConfig ∧
      ∀ source,
        transformFile Disk.empty ⟨⟨"/project"⟩⟩ (mapForm slashedRecords) source ⟨"a.js"⟩ =
          transformFile Disk.empty ⟨⟨"/project"⟩⟩ (listForm slashedRecords) source ⟨"a.js"⟩ := by
  have distinct : (slashedRecords.map ExposeRecord.expose).Nodup := by decide
  have literal : ∀ record ∈ slashedRecords, isPattern record.expose = false := by decide
  rcases listForm_agrees_with_mapForm distinct literal with
    ⟨listed, form, read, warned, configured, transformed⟩
  have warning : (Options.records slashedRecords).warnings = [.packageMark] := by decide
  have config : (Options.records slashedRecords).configure Disk.empty ⟨⟨"/project"⟩⟩
      (some ⟨"a.js"⟩) = .ok slashedConfig := rfl
  exact ⟨form, read, warned.trans warning, (configured _ _ _).trans config,
    fun source => transformed _ listed _ _ source _⟩

end Options

end ImportAlias
