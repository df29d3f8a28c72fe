import ImportAlias.Proofs.Options.Lists
import Mathlib.Tactic.MkIffOfInductiveProp

/-!
# The map form of options

Each field of the map form states a component of its own: nothing if it is absent or null, and else
what its value denotes. The fields are looked at in the order of the object, and the first one without
its shape is reported; the targets of the aliases are looked at only once every field has its shape. The
error for a field has the value that was found and the shape that was wanted, but not the name of the
field.
-/

namespace ImportAlias

namespace Options

/-! ### What a field states -/

/-- What a field states: nothing if it is absent or null, and else what its value denotes. -/
inductive Shows {α : Type} (Denotes : Json → α → Prop) (nothing : α) : Option Json → α → Prop where
  | absent : Shows Denotes nothing none nothing
  | null : Shows Denotes nothing (some .null) nothing
  | value {value : Json} {result : α} (denotes : Denotes value result) :
      Shows Denotes nothing (some value) result

/-- A string denotes its text. -/
inductive DenotesText : Json → Option String → Prop where
  | text (text : String) : DenotesText (.string text) (some text)

/-- A string is one root, and a list of strings is as many roots. -/
inductive DenotesRoots : Json → List String → Prop where
  | one (root : String) : DenotesRoots (.string root) [root]
  | many (roots : List String) : DenotesRoots (.array (roots.map .string)) roots

/-- An object has its fields, whatever their values are. -/
inductive DenotesFields : Json → List (String × Json) → Prop where
  | fields (fields : List (String × Json)) : DenotesFields (.object fields) fields

/-- An object of strings has one alias for each of them. -/
inductive DenotesAliases : Json → List (String × String) → Prop where
  | aliases (aliases : List (String × String)) :
      DenotesAliases (.object (aliases.map (fun entry => (entry.1, .string entry.2)))) aliases

/-- A list of strings denotes its texts. -/
inductive DenotesTexts : Json → Option (List String) → Prop where
  | texts (texts : List String) : DenotesTexts (.array (texts.map .string)) (some texts)

/-! ### What is wrong with a field -/

/-- A field that the map form knows has the shape that it needs. -/
@[mk_iff]
structure WellShaped (field : String × Json) : Prop where
  cwd : field.1 = "cwd" → ∃ text, Shows DenotesText none (some field.2) text
  roots : field.1 = "root" → ∃ roots, Shows DenotesRoots [] (some field.2) roots
  aliases : field.1 = "alias" → ∃ fields, Shows DenotesFields [] (some field.2) fields
  extensions : field.1 = "extensions" → ∃ texts, Shows DenotesTexts none (some field.2) texts

/-- What is wrong with the shape of a field of the map form. -/
inductive ShapeFault : String × Json → FieldFault → Prop where
  | cwd {value : Json} (present : value ≠ .null) (noText : ¬IsText value) :
      ShapeFault ("cwd", value) (.wrongShape value .string)
  | roots {value : Json} (noRoots : ∀ roots, ¬Shows DenotesRoots [] (some value) roots) :
      ShapeFault ("root", value) .noRoots
  | aliases {value : Json} (present : value ≠ .null) (noObject : ∀ fields, value ≠ .object fields) :
      ShapeFault ("alias", value) (.wrongShape value .map)
  | extensions {value : Json} (present : value ≠ .null) (noList : ∀ items, value ≠ .array items) :
      ShapeFault ("extensions", value) (.wrongShape value .sequence)
  | extension {before after : List Json} {item : Json} (sound : ∀ earlier ∈ before, IsText earlier)
      (noText : ¬IsText item) :
      ShapeFault ("extensions", .array (before ++ item :: after)) (.wrongShape item .string)

/-! ### One field -/

theorem readText_eq_ok_iff {value : Json} {text : Option String} :
    readText value = .ok text ↔ Shows DenotesText none (some value) text := by
  constructor
  · intro ok
    cases value with
    | null =>
        cases ok
        exact .null
    | string =>
        cases ok
        exact .value (.text _)
    | bool | number | array | object => cases ok
  · rintro (_ | _ | ⟨⟨⟩⟩) <;> rfl

theorem readText_eq_error_iff {value : Json} {fault : FieldFault} :
    readText value = .error fault ↔
      value ≠ .null ∧ ¬IsText value ∧ fault = .wrongShape value .string := by
  cases value <;> simp [readText, IsText, eq_comm]

theorem readRoots_eq_ok_iff {value : Json} {roots : List String} :
    readRoots value = .ok roots ↔ Shows DenotesRoots [] (some value) roots := by
  constructor
  · intro ok
    cases value with
    | null =>
        cases ok
        exact .null
    | string =>
        cases ok
        exact .value (.one _)
    | array items =>
        rw [readRoots, mapError_eq_ok_iff, readTexts_eq_ok_iff] at ok
        exact ok ▸ .value (.many roots)
    | bool | number | object => cases ok
  · rintro (_ | _ | ⟨_ | _⟩)
    · rfl
    · rfl
    · rw [readRoots, mapError_eq_ok_iff, readTexts_eq_ok_iff]

theorem readRoots_eq_error_iff {value : Json} {fault : FieldFault} :
    readRoots value = .error fault ↔
      (∀ roots, ¬Shows DenotesRoots [] (some value) roots) ∧ fault = .noRoots := by
  simp only [← readRoots_eq_ok_iff]
  have onlyFault : ∀ other, readRoots value = .error other → other = .noRoots := by
    intro other failed
    cases value with
    | array items => exact (mapError_eq_error_iff.mp failed).choose_spec.2
    | null | string => cases failed
    | bool | number | object =>
        cases failed
        rfl
  constructor
  · intro failed
    refine ⟨fun roots ok => ?_, onlyFault fault failed⟩
    rw [failed] at ok
    cases ok
  · rintro ⟨noRoots, rfl⟩
    cases read : readRoots value with
    | ok roots => exact absurd read (noRoots roots)
    | error other => rw [onlyFault other read]

theorem readMap_eq_ok_iff {value : Json} {fields : List (String × Json)} :
    readMap value = .ok fields ↔ Shows DenotesFields [] (some value) fields := by
  constructor
  · intro ok
    cases value with
    | null =>
        cases ok
        exact .null
    | object =>
        cases ok
        exact .value (.fields _)
    | bool | number | string | array => cases ok
  · rintro (_ | _ | ⟨⟨⟩⟩) <;> rfl

theorem readMap_eq_error_iff {value : Json} {fault : FieldFault} :
    readMap value = .error fault ↔
      value ≠ .null ∧ (∀ fields, value ≠ .object fields) ∧ fault = .wrongShape value .map := by
  cases value <;> simp [readMap, eq_comm]

theorem readTextList_eq_ok_iff {value : Json} {texts : Option (List String)} :
    readTextList value = .ok texts ↔ Shows DenotesTexts none (some value) texts := by
  constructor
  · intro ok
    cases value with
    | null =>
        cases ok
        exact .null
    | array items =>
        rw [readTextList, bind_eq_ok_iff] at ok
        rcases ok with ⟨texts, read, made⟩
        cases made
        rw [readTexts_eq_ok_iff.mp read]
        exact .value (.texts _)
    | bool | number | string | object => cases ok
  · rintro (_ | _ | ⟨⟨texts⟩⟩)
    · rfl
    · rw [readTextList, readTexts_eq_ok_iff.mpr rfl]
      rfl

theorem readTextList_eq_error_iff {value : Json} {fault : FieldFault} :
    readTextList value = .error fault ↔
      (value ≠ .null ∧ (∀ items, value ≠ .array items) ∧ fault = .wrongShape value .sequence) ∨
        ∃ items, value = .array items ∧ readTexts items = .error fault := by
  cases value with
  | array items =>
      rw [readTextList, bind_eq_error_iff]
      simp [pure, Except.pure]
  | null | bool | number | string | object => simp [readTextList, eq_comm]

/-! ### All fields -/

/-- A component of a draft that is read from a field if that is there, and kept if not. -/
def Passes {γ : Type} (readField : Json → Except FieldFault γ) (before : γ) (value : Option Json)
    (after : γ) : Prop :=
  value.elim (.ok before) readField = .ok after

section

variable {γ : Type} {readField : Json → Except FieldFault γ} {before after nothing : γ}
  {key : String} {field : String × Json} {rest : List (String × Json)}
  {Denotes : Json → γ → Prop}

/-- A field is there before the others or is one of them, when no two have one key. -/
theorem passes_cons_iff (distinct : ((field :: rest).map Prod.fst).Nodup) :
    Passes readField before (fieldAt? key (field :: rest)) after ↔
      ∃ middle, Passes readField before (fieldAt? key [field]) middle ∧
        Passes readField middle (fieldAt? key rest) after := by
  rw [List.map_cons, List.nodup_cons] at distinct
  simp only [Passes]
  -- If this is the field for the component, the others keep it.
  by_cases same : field.1 = key
  · have absent : fieldAt? key rest = none := by
      rw [fieldAt?_eq_none_iff]
      intro other member again
      exact distinct.1 (List.mem_map.mpr ⟨other, member, again.trans same.symm⟩)
    simp [fieldAt?, same, absent]
  · simp [fieldAt?, same]

theorem exists_passes_singleton_iff (before : γ) :
    (∃ after, Passes readField before (fieldAt? key [field]) after) ↔
      (field.1 = key → ∃ after, readField field.2 = .ok after) := by
  by_cases same : field.1 = key <;> simp [Passes, fieldAt?, same]

theorem passes_iff_shows
    (readsField : ∀ value result,
      readField value = .ok result ↔ Shows Denotes nothing (some value) result)
    {value : Option Json} :
    Passes readField nothing value after ↔ Shows Denotes nothing value after := by
  cases value with
  | none =>
      constructor
      · rintro ⟨⟩
        exact .absent
      · rintro ⟨⟩
        rfl
  | some value => exact readsField value after

end

/-- A draft takes the fields of an object, and ends as another one. -/
@[mk_iff]
structure Draft.Takes (draft : Draft) (fields : List (String × Json)) (final : Draft) : Prop where
  cwd : Passes readText draft.cwd (fieldAt? "cwd" fields) final.cwd
  roots : Passes readRoots draft.roots (fieldAt? "root" fields) final.roots
  aliases : Passes readMap draft.aliases (fieldAt? "alias" fields) final.aliases
  extensions : Passes readTextList draft.extensions (fieldAt? "extensions" fields) final.extensions

namespace Draft

variable {draft final : Draft} {field : String × Json} {fields : List (String × Json)}
  {fault : FieldFault}

theorem takes_nil_iff : draft.Takes [] final ↔ draft = final := by
  rcases draft with ⟨cwd, roots, aliases, extensions⟩
  rcases final with ⟨finalCwd, finalRoots, finalAliases, finalExtensions⟩
  simp [takes_iff, Passes, fieldAt?]

theorem takes_cons_iff (distinct : ((field :: fields).map Prod.fst).Nodup) :
    draft.Takes (field :: fields) final ↔
      ∃ next, draft.Takes [field] next ∧ next.Takes fields final := by
  constructor
  · rintro ⟨cwd, roots, aliases, extensions⟩
    rw [passes_cons_iff distinct] at cwd roots aliases extensions
    rcases cwd with ⟨cwd, cwdFirst, cwdRest⟩
    rcases roots with ⟨roots, rootsFirst, rootsRest⟩
    rcases aliases with ⟨aliases, aliasesFirst, aliasesRest⟩
    rcases extensions with ⟨extensions, extensionsFirst, extensionsRest⟩
    exact ⟨⟨cwd, roots, aliases, extensions⟩,
      ⟨cwdFirst, rootsFirst, aliasesFirst, extensionsFirst⟩,
      ⟨cwdRest, rootsRest, aliasesRest, extensionsRest⟩⟩
  · rintro ⟨next, first, rest⟩
    exact ⟨(passes_cons_iff distinct).mpr ⟨_, first.cwd, rest.cwd⟩,
      (passes_cons_iff distinct).mpr ⟨_, first.roots, rest.roots⟩,
      (passes_cons_iff distinct).mpr ⟨_, first.aliases, rest.aliases⟩,
      (passes_cons_iff distinct).mpr ⟨_, first.extensions, rest.extensions⟩⟩

theorem addField_eq_ok_iff : draft.addField field = .ok final ↔ draft.Takes [field] final := by
  rcases draft with ⟨cwd, roots, aliases, extensions⟩
  rcases final with ⟨finalCwd, finalRoots, finalAliases, finalExtensions⟩
  unfold addField
  split
  -- A field that the map form does not know is at none of the four keys.
  case h_5 other noCwd noRoot noAlias noExtensions =>
    have absent {key : String} (noField : ∀ value, field = (key, value) → False) :
        fieldAt? key [field] = none := by
      rw [fieldAt?_eq_none_iff, List.forall_mem_singleton]
      exact fun same => noField field.2 (Prod.ext same rfl)
    simp [takes_iff, Passes, absent noCwd, absent noRoot, absent noAlias, absent noExtensions]
  all_goals
    rw [bind_eq_ok_iff]
    simp [takes_iff, Passes, fieldAt?, pure, Except.pure, and_left_comm]

/-- A field can be added exactly if it has its shape. -/
theorem exists_addField_eq_ok_iff (draft : Draft) :
    (∃ next, draft.addField field = .ok next) ↔ WellShaped field := by
  rw [wellShaped_iff]
  simp only [← readText_eq_ok_iff, ← readRoots_eq_ok_iff, ← readMap_eq_ok_iff,
    ← readTextList_eq_ok_iff]
  rw [← exists_passes_singleton_iff draft.cwd, ← exists_passes_singleton_iff draft.roots,
    ← exists_passes_singleton_iff draft.aliases, ← exists_passes_singleton_iff draft.extensions]
  simp only [addField_eq_ok_iff]
  constructor
  · rintro ⟨next, takes⟩
    exact ⟨⟨_, takes.cwd⟩, ⟨_, takes.roots⟩, ⟨_, takes.aliases⟩, ⟨_, takes.extensions⟩⟩
  · rintro ⟨⟨_, cwd⟩, ⟨_, roots⟩, ⟨_, aliases⟩, ⟨_, extensions⟩⟩
    exact ⟨⟨_, _, _, _⟩, ⟨cwd, roots, aliases, extensions⟩⟩

theorem shapeFault_of_addField_eq_error (failed : draft.addField field = .error fault) :
    ShapeFault field fault := by
  unfold addField at failed
  split at failed
  · rcases bind_eq_error_iff.mp failed with refused | ⟨_, _, ⟨⟩⟩
    rcases readText_eq_error_iff.mp refused with ⟨present, noText, rfl⟩
    exact .cwd present noText
  · rcases bind_eq_error_iff.mp failed with refused | ⟨_, _, ⟨⟩⟩
    rcases readRoots_eq_error_iff.mp refused with ⟨noRoots, rfl⟩
    exact .roots noRoots
  · rcases bind_eq_error_iff.mp failed with refused | ⟨_, _, ⟨⟩⟩
    rcases readMap_eq_error_iff.mp refused with ⟨present, noObject, rfl⟩
    exact .aliases present noObject
  · rcases bind_eq_error_iff.mp failed with refused | ⟨_, _, ⟨⟩⟩
    rcases readTextList_eq_error_iff.mp refused with ⟨present, noList, rfl⟩ | ⟨_, rfl, faulty⟩
    · exact .extensions present noList
    · rcases readTexts_eq_error_iff.mp faulty with ⟨_, _, _, rfl, sound, noText, rfl⟩
      exact .extension sound noText
  · cases failed

theorem addField_eq_error_iff : draft.addField field = .error fault ↔ ShapeFault field fault := by
  refine ⟨shapeFault_of_addField_eq_error, ?_⟩
  rintro (⟨present, noText⟩ | noRoots | ⟨present, noObject⟩ | ⟨present, noList⟩ | ⟨sound, noText⟩)
  · rw [addField, readText_eq_error_iff.mpr ⟨present, noText, rfl⟩]
    rfl
  · rw [addField, readRoots_eq_error_iff.mpr ⟨noRoots, rfl⟩]
    rfl
  · rw [addField, readMap_eq_error_iff.mpr ⟨present, noObject, rfl⟩]
    rfl
  · rw [addField, readTextList_eq_error_iff.mpr (Or.inl ⟨present, noList, rfl⟩)]
    rfl
  · rw [addField, readTextList_eq_error_iff.mpr (Or.inr ⟨_, rfl,
      readTexts_eq_error_iff.mpr ⟨_, _, _, rfl, sound, noText, rfl⟩⟩)]
    rfl

theorem addFields_eq_ok_iff (distinct : (fields.map Prod.fst).Nodup) :
    draft.addFields fields = .ok final ↔ draft.Takes fields final := by
  induction fields generalizing draft with
  | nil => rw [addFields, Except.ok.injEq, takes_nil_iff]
  | cons field rest ih =>
      have restDistinct : (rest.map Prod.fst).Nodup := (List.nodup_cons.mp distinct).2
      rw [addFields, bind_eq_ok_iff, takes_cons_iff distinct]
      simp only [addField_eq_ok_iff, ih restDistinct]

theorem exists_addFields_eq_ok_iff (draft : Draft) :
    (∃ final, draft.addFields fields = .ok final) ↔ ∀ field ∈ fields, WellShaped field := by
  induction fields generalizing draft with
  | nil => simp [addFields]
  | cons field rest ih =>
      simp only [addFields, bind_eq_ok_iff]
      rw [List.forall_mem_cons, ← exists_addField_eq_ok_iff draft]
      constructor
      · rintro ⟨final, next, added, more⟩
        exact ⟨⟨next, added⟩, (ih next).mp ⟨final, more⟩⟩
      · rintro ⟨⟨next, added⟩, shaped⟩
        rcases (ih next).mpr shaped with ⟨final, more⟩
        exact ⟨final, next, added, more⟩

theorem addFields_eq_error_iff :
    draft.addFields fields = .error fault ↔
      ∃ before field after, fields = before ++ field :: after ∧
        (∀ earlier ∈ before, WellShaped earlier) ∧ ShapeFault field fault := by
  have first : draft.addFields fields = .error fault ↔
      FirstFault WellShaped (fun _ => ShapeFault) 0 fields fault := by
    -- Neither the shape of a field nor what is wrong with it depends on the draft before it.
    generalize 0 = index
    induction fields generalizing draft index with
    | nil => constructor <;> nofun
    | cons field rest ih =>
        rw [addFields, bind_eq_error_iff, firstFault_cons_iff, addField_eq_error_iff,
          ← exists_addField_eq_ok_iff draft]
        simp only [ih (index + 1), exists_and_right]
  rw [first, firstFault_iff_split]

end Draft

/-! ### Settings -/

section

variable {fields : List (String × Json)} {settings : Settings} {error : ConfigError}

/-- The aliases of a field are the aliases of its object. -/
theorem shows_aliases_iff {value : Option Json} {aliases : List (String × String)} :
    (∃ entries, Shows DenotesFields [] value entries ∧ readAliases entries = .ok aliases) ↔
      Shows DenotesAliases [] value aliases := by
  constructor
  · rintro ⟨entries, _ | _ | ⟨⟨⟩⟩, read⟩
    · cases read
      exact .absent
    · cases read
      exact .null
    · rw [readAliases_eq_ok_iff] at read
      exact read ▸ .value (.aliases aliases)
  · rintro (_ | _ | ⟨⟨⟩⟩)
    · exact ⟨[], .absent, rfl⟩
    · exact ⟨[], .null, rfl⟩
    · exact ⟨_, .value (.fields _), readAliases_eq_ok_iff.mpr rfl⟩

theorem eq_some_object_of_shows {value : Option Json} (nonempty : fields ≠ [])
    (shown : Shows DenotesFields [] value fields) : value = some (.object fields) := by
  rcases shown with _ | _ | ⟨⟨⟩⟩
  · exact absurd rfl nonempty
  · exact absurd rfl nonempty
  · rfl

theorem eq_of_shows_object {entries : List (String × Json)}
    (shown : Shows DenotesFields [] (some (.object fields)) entries) : entries = fields := by
  rcases shown with _ | _ | ⟨⟨⟩⟩
  rfl

theorem Draft.empty_takes_iff {final : Draft} :
    Draft.empty.Takes fields final ↔
      Shows DenotesText none (fieldAt? "cwd" fields) final.cwd ∧
        Shows DenotesRoots [] (fieldAt? "root" fields) final.roots ∧
        Shows DenotesFields [] (fieldAt? "alias" fields) final.aliases ∧
        Shows DenotesTexts none (fieldAt? "extensions" fields) final.extensions := by
  simp only [takes_iff, empty, passes_iff_shows (fun _ _ => readText_eq_ok_iff),
    passes_iff_shows (fun _ _ => readRoots_eq_ok_iff),
    passes_iff_shows (fun _ _ => readMap_eq_ok_iff),
    passes_iff_shows (fun _ _ => readTextList_eq_ok_iff)]

theorem readSettings_eq_ok_iff (distinct : (fields.map Prod.fst).Nodup) :
    readSettings fields = .ok settings ↔
      ∃ cwd, settings.cwd = cwd.map .ofText ∧
        Shows DenotesText none (fieldAt? "cwd" fields) cwd ∧
        Shows DenotesRoots [] (fieldAt? "root" fields) settings.roots ∧
        Shows DenotesAliases [] (fieldAt? "alias" fields) settings.aliases ∧
        Shows DenotesTexts none (fieldAt? "extensions" fields) settings.extensions := by
  simp only [← shows_aliases_iff]
  rw [readSettings, bind_eq_ok_iff]
  simp only [bind_eq_ok_iff, mapError_eq_ok_iff, Draft.addFields_eq_ok_iff distinct,
    Draft.empty_takes_iff]
  constructor
  · rintro ⟨draft, ⟨cwd, roots, entries, extensions⟩, aliases, read, made⟩
    cases made
    exact ⟨draft.cwd, rfl, cwd, roots, ⟨_, entries, read⟩, extensions⟩
  · rintro ⟨cwd, isCwd, cwdShown, roots, ⟨entries, entriesShown, read⟩, extensions⟩
    rcases settings with ⟨_, _, _, _⟩
    cases isCwd
    exact ⟨⟨cwd, _, entries, _⟩, ⟨cwdShown, roots, entriesShown, extensions⟩, _, read, rfl⟩

theorem readSettings_eq_error_iff (distinct : (fields.map Prod.fst).Nodup) :
    readSettings fields = .error error ↔
      (∃ before field after fault, fields = before ++ field :: after ∧
        (∀ earlier ∈ before, WellShaped earlier) ∧ ShapeFault field fault ∧
          error = .faultyField fault) ∨
      ((∀ field ∈ fields, WellShaped field) ∧
        ∃ before key value after,
          fieldAt? "alias" fields = some (.object (before ++ (key, value) :: after)) ∧
            (∀ earlier ∈ before, IsText earlier.2) ∧ ¬IsText value ∧
              error = .notAString (.aliasValue key) value) := by
  rw [readSettings, bind_eq_error_iff, mapError_eq_error_iff]
  refine or_congr ?_ ?_
  · simp only [Draft.addFields_eq_error_iff]
    constructor
    · rintro ⟨fault, ⟨before, field, after, split, sound, faulty⟩, isError⟩
      exact ⟨before, field, after, fault, split, sound, faulty, isError⟩
    · rintro ⟨before, field, after, fault, split, sound, faulty, isError⟩
      exact ⟨fault, ⟨before, field, after, split, sound, faulty⟩, isError⟩
  · simp only [bind_eq_error_iff, mapError_eq_ok_iff]
    constructor
    · rintro ⟨draft, added, failed | ⟨_, _, ⟨⟩⟩⟩
      refine ⟨(Draft.exists_addFields_eq_ok_iff _).mp ⟨draft, added⟩, ?_⟩
      rcases readAliases_eq_error_iff.mp failed with
        ⟨before, key, value, after, split, sound, noText, isError⟩
      rw [Draft.addFields_eq_ok_iff distinct, Draft.empty_takes_iff, split] at added
      have found := eq_some_object_of_shows (by simp) added.2.2.1
      exact ⟨before, key, value, after, found, sound, noText, isError⟩
    · rintro ⟨shaped, before, key, value, after, found, sound, noText, isError⟩
      rcases (Draft.exists_addFields_eq_ok_iff .empty).mpr shaped with ⟨draft, added⟩
      refine ⟨draft, added, Or.inl ?_⟩
      rw [Draft.addFields_eq_ok_iff distinct, Draft.empty_takes_iff, found] at added
      rw [eq_of_shows_object added.2.2.1, readAliases_eq_error_iff]
      exact ⟨before, key, value, after, rfl, sound, noText, isError⟩

end

end Options

end ImportAlias
