import ImportAlias.Options.Reader
import ImportAlias.Proofs.Config.Absolute
import Mathlib.Data.List.Forall2

/-!
# Lists of options

Records, extensions and roots are lists, and the aliases are the fields of an object: each of them is
read item by item. What comes out is what each item states, in their order, and a list is refused for
its first faulty item. For a record that is the item itself, if it is no object, or else one of its two
names, the exposed one first.
-/

namespace ImportAlias

namespace Options

/-! ### Results -/

section

variable {α β ε δ : Type}

theorem bind_eq_ok_iff {first : Except ε α} {second : α → Except ε β} {result : β} :
    (first >>= second) = .ok result ↔
      ∃ value, first = .ok value ∧ second value = .ok result := by
  refine ⟨exists_of_bind_eq_ok, ?_⟩
  rintro ⟨value, rfl, made⟩
  exact made

theorem bind_eq_error_iff {first : Except ε α} {second : α → Except ε β} {error : ε} :
    (first >>= second) = .error error ↔
      first = .error error ∨ ∃ value, first = .ok value ∧ second value = .error error := by
  cases first <;> simp [bind, Except.bind]

theorem mapError_eq_ok_iff {result : Except ε α} {toOther : ε → δ} {value : α} :
    result.mapError toOther = .ok value ↔ result = .ok value := by
  cases result <;> simp [Except.mapError]

theorem mapError_eq_error_iff {result : Except ε α} {toOther : ε → δ} {other : δ} :
    result.mapError toOther = .error other ↔
      ∃ error, result = .error error ∧ other = toOther error := by
  cases result <;> simp [Except.mapError, eq_comm]

end

/-! ### First faults -/

section

variable {α β ε : Type} {Sound : α → Prop} {Faulty : Nat → α → ε → Prop} {items : List α}
  {error : ε} {index : Nat}

/-- The error of the first faulty item of a list whose items are counted from an index. -/
inductive FirstFault (Sound : α → Prop) (Faulty : Nat → α → ε → Prop) :
    Nat → List α → ε → Prop where
  | here {index : Nat} {item : α} {rest : List α} {error : ε} (faulty : Faulty index item error) :
      FirstFault Sound Faulty index (item :: rest) error
  | behind {index : Nat} {item : α} {rest : List α} {error : ε} (sound : Sound item)
      (later : FirstFault Sound Faulty (index + 1) rest error) :
      FirstFault Sound Faulty index (item :: rest) error

theorem firstFault_cons_iff {item : α} {rest : List α} :
    FirstFault Sound Faulty index (item :: rest) error ↔
      Faulty index item error ∨ (Sound item ∧ FirstFault Sound Faulty (index + 1) rest error) := by
  constructor
  · rintro (faulty | ⟨sound, later⟩)
    · exact Or.inl faulty
    · exact Or.inr ⟨sound, later⟩
  · rintro (faulty | ⟨sound, later⟩)
    · exact .here faulty
    · exact .behind sound later

theorem firstFault_iff_split :
    FirstFault Sound Faulty index items error ↔
      ∃ before item after, items = before ++ item :: after ∧ (∀ earlier ∈ before, Sound earlier) ∧
        Faulty (index + before.length) item error := by
  constructor
  · intro first
    induction first with
    | here faulty => exact ⟨[], _, _, rfl, fun _ none => absurd none List.not_mem_nil, faulty⟩
    | @behind index item rest error sound _ ih =>
        rcases ih with ⟨before, faultyItem, after, rfl, allSound, faulty⟩
        refine ⟨item :: before, faultyItem, after, rfl, ?_, ?_⟩
        · exact List.forall_mem_cons.mpr ⟨sound, allSound⟩
        · rwa [List.length_cons, Nat.add_comm before.length, ← Nat.add_assoc]
  · rintro ⟨before, item, after, rfl, allSound, faulty⟩
    induction before generalizing index with
    | nil => exact .here faulty
    | cons earlier before ih =>
        rw [List.forall_mem_cons] at allSound
        refine .behind allSound.1 (ih allSound.2 ?_)
        rwa [List.length_cons, Nat.add_comm before.length, ← Nat.add_assoc] at faulty

/-! ### Lists that are read item by item -/

variable {readOne : Nat → α → Except ε β} {read : Nat → List α → Except ε (List β)}
  {Makes : α → β → Prop} {results : List β}

/-- The list is read one item after the other. -/
structure ReadsEach (readOne : Nat → α → Except ε β) (read : Nat → List α → Except ε (List β)) :
    Prop where
  nil : ∀ index, read index [] = .ok []
  cons : ∀ index item rest, read index (item :: rest) =
    readOne index item >>= fun result => read (index + 1) rest >>= fun results =>
      .ok (result :: results)

namespace ReadsEach

theorem eq_ok_iff (each : ReadsEach readOne read)
    (makes : ∀ index item result, readOne index item = .ok result ↔ Makes item result)
    (index : Nat) :
    read index items = .ok results ↔ List.Forall₂ Makes items results := by
  induction items generalizing index results with
  | nil => rw [each.nil, Except.ok.injEq, List.forall₂_nil_left_iff, eq_comm]
  | cons item rest ih =>
      rw [each.cons, bind_eq_ok_iff]
      simp only [bind_eq_ok_iff, makes, ih, Except.ok.injEq, List.forall₂_cons_left_iff]
      constructor
      · rintro ⟨result, made, others, madeOthers, rfl⟩
        exact ⟨result, others, made, madeOthers, rfl⟩
      · rintro ⟨result, others, made, madeOthers, rfl⟩
        exact ⟨result, made, others, madeOthers, rfl⟩

theorem eq_error_iff (each : ReadsEach readOne read)
    (makes : ∀ index item result, readOne index item = .ok result ↔ Makes item result)
    (fails : ∀ index item error, readOne index item = .error error ↔ Faulty index item error)
    (index : Nat) :
    read index items = .error error ↔
      FirstFault (fun item => ∃ result, Makes item result) Faulty index items error := by
  induction items generalizing index with
  | nil =>
      rw [each.nil]
      constructor <;> nofun
  | cons item rest ih =>
      rw [each.cons, bind_eq_error_iff, fails, firstFault_cons_iff, ← ih]
      simp only [bind_eq_error_iff, makes, reduceCtorEq, and_false, exists_const, or_false,
        exists_and_right]

end ReadsEach

end

/-! ### Strings -/

/-- The value is a string. -/
def IsText (value : Json) : Prop :=
  ∃ text, value = .string text

/-- The text of a value that has to be a string. -/
def textOf : Json → Except FieldFault String
  | .string text => .ok text
  | other => .error (.wrongShape other .string)

theorem textOf_eq_ok_iff {value : Json} {text : String} :
    textOf value = .ok text ↔ value = .string text := by
  cases value <;> simp [textOf]

theorem textOf_eq_error_iff {value : Json} {fault : FieldFault} :
    textOf value = .error fault ↔ ¬IsText value ∧ fault = .wrongShape value .string := by
  cases value <;> simp [textOf, IsText, eq_comm]

theorem readsEach_readTexts : ReadsEach (fun _ => textOf) (fun _ => readTexts) where
  nil _ := rfl
  cons _ item _ := by cases item <;> rfl

theorem readTexts_eq_ok_iff {items : List Json} {texts : List String} :
    readTexts items = .ok texts ↔ items = texts.map .string := by
  rw [← List.forall₂_eq_eq_eq, List.forall₂_map_right_iff]
  exact readsEach_readTexts.eq_ok_iff (fun _ _ _ => textOf_eq_ok_iff) 0

theorem readTexts_eq_error_iff {items : List Json} {fault : FieldFault} :
    readTexts items = .error fault ↔
      ∃ before item after, items = before ++ item :: after ∧ (∀ earlier ∈ before, IsText earlier) ∧
        ¬IsText item ∧ fault = .wrongShape item .string := by
  have each : readTexts items = .error fault ↔ FirstFault IsText
      (fun _ item fault => ¬IsText item ∧ fault = .wrongShape item .string) 0 items fault :=
    readsEach_readTexts.eq_error_iff (fun _ _ _ => textOf_eq_ok_iff)
      (fun _ _ _ => textOf_eq_error_iff) 0
  rw [each, firstFault_iff_split]

/-- The alias of a field whose value has to be a string. -/
def aliasOf : String × Json → Except ConfigError (String × String)
  | (key, .string target) => .ok (key, target)
  | (key, other) => .error (.notAString (.aliasValue key) other)

theorem aliasOf_eq_ok_iff {entry : String × Json} {result : String × String} :
    aliasOf entry = .ok result ↔ entry = (result.1, .string result.2) := by
  rcases entry with ⟨key, value⟩
  cases value <;> simp [aliasOf, Prod.ext_iff]

theorem aliasOf_eq_error_iff {entry : String × Json} {error : ConfigError} :
    aliasOf entry = .error error ↔
      ¬IsText entry.2 ∧ error = .notAString (.aliasValue entry.1) entry.2 := by
  rcases entry with ⟨key, value⟩
  cases value <;> simp [aliasOf, IsText, eq_comm]

theorem readsEach_readAliases : ReadsEach (fun _ => aliasOf) (fun _ => readAliases) where
  nil _ := rfl
  cons _ entry _ := by
    rcases entry with ⟨key, value⟩
    cases value <;> rfl

theorem readAliases_eq_ok_iff {entries : List (String × Json)}
    {aliases : List (String × String)} :
    readAliases entries = .ok aliases ↔
      entries = aliases.map (fun entry => (entry.1, .string entry.2)) := by
  rw [← List.forall₂_eq_eq_eq, List.forall₂_map_right_iff]
  exact readsEach_readAliases.eq_ok_iff (fun _ _ _ => aliasOf_eq_ok_iff) 0

theorem readAliases_eq_error_iff {entries : List (String × Json)} {error : ConfigError} :
    readAliases entries = .error error ↔
      ∃ before key value after, entries = before ++ (key, value) :: after ∧
        (∀ earlier ∈ before, IsText earlier.2) ∧ ¬IsText value ∧
          error = .notAString (.aliasValue key) value := by
  have isText (entry : String × Json) :
      (∃ result : String × String, entry = (result.1, .string result.2)) ↔ IsText entry.2 := by
    rcases entry with ⟨key, value⟩
    simp [IsText]
  have each : readAliases entries = .error error ↔ FirstFault
      (fun entry => ∃ result : String × String, entry = (result.1, .string result.2))
      (fun _ entry error => ¬IsText entry.2 ∧ error = .notAString (.aliasValue entry.1) entry.2)
      0 entries error :=
    readsEach_readAliases.eq_error_iff (fun _ _ _ => aliasOf_eq_ok_iff)
      (fun _ _ _ => aliasOf_eq_error_iff) 0
  simp only [each, firstFault_iff_split, isText, Prod.exists]

/-! ### Records -/

/-- An object with both names of a record as strings. -/
def StatesRecord (item : Json) (record : ExposeRecord) : Prop :=
  ∃ fields, item = .object fields ∧ fieldAt? "expose" fields = some (.string record.expose) ∧
    fieldAt? "src" fields = some (.string record.src)

/-- What is wrong with the value of a name in a record, which is the one at an index of the list. -/
inductive NameError (index : Nat) (field : RecordField) : Option Json → ConfigError → Prop where
  | absent : NameError index field none (.missingField index field)
  | null : NameError index field (some .null) (.missingField index field)
  | noText {value : Json} (present : value ≠ .null) (noText : ¬IsText value) :
      NameError index field (some value) (.notAString (.recordField index field) value)

/-- What is wrong with an item as a record: it is no object, or else one of the names, the exposed one
first. -/
inductive RecordError (index : Nat) : Json → ConfigError → Prop where
  | shape {item : Json} (noObject : ∀ fields, item ≠ .object fields) :
      RecordError index item (.shape item)
  | expose {fields : List (String × Json)} {error : ConfigError}
      (faulty : NameError index .expose (fieldAt? "expose" fields) error) :
      RecordError index (.object fields) error
  | src {fields : List (String × Json)} {name : String} {error : ConfigError}
      (sound : fieldAt? "expose" fields = some (.string name))
      (faulty : NameError index .src (fieldAt? "src" fields) error) :
      RecordError index (.object fields) error

theorem readRecordField_eq_ok_iff {field : RecordField} {fields : List (String × Json)}
    {index : Nat} {text : String} :
    readRecordField index field fields = .ok text ↔
      fieldAt? field.name fields = some (.string text) := by
  unfold readRecordField
  split <;> simp_all

theorem readRecordField_eq_error_iff {field : RecordField} {fields : List (String × Json)}
    {index : Nat} {error : ConfigError} :
    readRecordField index field fields = .error error ↔
      NameError index field (fieldAt? field.name fields) error := by
  unfold readRecordField
  generalize fieldAt? field.name fields = found
  constructor
  · intro failed
    split at failed
    · cases failed
      exact .absent
    · cases failed
      exact .null
    · cases failed
    · next value present noText =>
      cases failed
      refine .noText present ?_
      rintro ⟨text, rfl⟩
      exact noText text rfl
  · rintro (_ | _ | ⟨present, noText⟩)
    · rfl
    · rfl
    · split
      · next absent => cases absent
      · next isNull => exact absurd (Option.some.inj isNull) present
      · next text isText => exact absurd ⟨text, Option.some.inj isText⟩ noText
      · next same =>
        cases same
        rfl

theorem readRecord_eq_ok_iff {item : Json} {index : Nat} {record : ExposeRecord} :
    readRecord index item = .ok record ↔ StatesRecord item record := by
  cases item with
  | object fields =>
      rw [readRecord, bind_eq_ok_iff]
      simp only [bind_eq_ok_iff, readRecordField_eq_ok_iff]
      constructor
      · rintro ⟨expose, exposed, src, sourced, made⟩
        cases made
        exact ⟨fields, rfl, exposed, sourced⟩
      · rintro ⟨_, ⟨rfl⟩, exposed, sourced⟩
        exact ⟨_, exposed, _, sourced, rfl⟩
  | null | bool | number | string | array => constructor <;> nofun

theorem readRecord_eq_error_iff {item : Json} {index : Nat} {error : ConfigError} :
    readRecord index item = .error error ↔ RecordError index item error := by
  cases item with
  | object fields =>
      rw [readRecord, bind_eq_error_iff]
      simp only [bind_eq_error_iff, readRecordField_eq_ok_iff, readRecordField_eq_error_iff]
      constructor
      · rintro (faulty | ⟨expose, exposed, faulty | ⟨src, _, failed⟩⟩)
        · exact .expose faulty
        · exact .src exposed faulty
        · cases failed
      · rintro (noObject | faulty | ⟨sound, faulty⟩)
        · exact absurd rfl (noObject fields)
        · exact Or.inl faulty
        · exact Or.inr ⟨_, sound, Or.inl faulty⟩
  | null | bool | number | string | array =>
      constructor
      · rintro ⟨⟩
        exact .shape nofun
      · rintro ⟨⟩
        rfl

theorem readsEach_readRecords : ReadsEach readRecord readRecords where
  nil _ := rfl
  cons _ _ _ := rfl

theorem readRecords_eq_ok_iff {items : List Json} {records : List ExposeRecord} :
    readRecords 0 items = .ok records ↔ List.Forall₂ StatesRecord items records :=
  readsEach_readRecords.eq_ok_iff (fun _ _ _ => readRecord_eq_ok_iff) 0

theorem readRecords_eq_error_iff {items : List Json} {error : ConfigError} :
    readRecords 0 items = .error error ↔
      ∃ before item after, items = before ++ item :: after ∧
        (∀ earlier ∈ before, ∃ record, StatesRecord earlier record) ∧
          RecordError before.length item error := by
  have each : readRecords 0 items = .error error ↔
      FirstFault (fun item => ∃ record, StatesRecord item record) RecordError 0 items error :=
    readsEach_readRecords.eq_error_iff (fun _ _ _ => readRecord_eq_ok_iff)
      (fun _ _ _ => readRecord_eq_error_iff) 0
  simp only [each, firstFault_iff_split, Nat.zero_add]

end Options

end ImportAlias
