import ImportAlias.Proofs.Alias.Locality
import ImportAlias.Proofs.Alias.Lookup
import ImportAlias.Proofs.Config.Absolute

/-!
# The literal aliases of options

A table holds one target for each literal key of the options, and the value at the key is the last
one that the options have for it. No key of a table ends with a slash. Two tables that make their
targets of the same values find the same key for a specifier, each with its own target.
-/

namespace ImportAlias

namespace Options

/-- The literal entries of options, with the keys that end up in the table. -/
def literalValues : Options → List (String × String)
  | records list => list.map (fun record => (trimKey record.expose, record.src))
  | settings form => literalEntries form.aliases

/-- The value that options have for a key of the table. -/
def valueAt? (options : Options) (key : String) : Option String :=
  fieldAt? key options.literalValues.reverse

theorem getLast?_trimKey_ne (key : String) : (trimKey key).toList.getLast? ≠ some '/' := by
  rw [trimKey, String.toList_ofList, List.getLast?_reverse]
  intro slash
  have notSlash := List.head?_dropWhile_not (· = '/') key.toList.reverse
  rw [slash] at notSlash
  simp at notSlash

theorem getLast?_ne_of_mem_literalValues {options : Options} {entry : String × String}
    (member : entry ∈ options.literalValues) : entry.1.toList.getLast? ≠ some '/' := by
  cases options with
  | records list =>
      rcases List.mem_map.mp member with ⟨record, _, rfl⟩
      exact getLast?_trimKey_ne record.expose
  | settings form =>
      rcases List.mem_map.mp member with ⟨entry, _, rfl⟩
      exact getLast?_trimKey_ne entry.1

variable {disk : Disk} {environment : Environment} {file : Option Path}

theorem literals_configureRecords_eq_literalValues (disk : Disk) (environment : Environment)
    (list : List ExposeRecord) :
    (configureRecords disk environment list).literals =
      fieldsOf ((records list).literalValues.map (fun entry =>
        (entry.1, targetOf disk environment.workingDir [] defaultExtensions entry.2))) := by
  rw [literals_configureRecords, literalValues, List.map_map]
  rfl

theorem literals_of_configure_eq_ok {options : Options} {config : Config}
    (ok : options.configure disk environment file = .ok config) :
    ∃ roots extensions, config.literals = fieldsOf (options.literalValues.map (fun entry =>
      (entry.1, targetOf disk config.cwd roots extensions entry.2))) := by
  cases options with
  | records list =>
      cases ok
      exact ⟨[], defaultExtensions, literals_configureRecords_eq_literalValues disk environment list⟩
  | settings form =>
      rcases exists_of_bind_eq_ok ok with ⟨roots, _, made⟩
      cases made
      refine ⟨roots, form.extensions.getD defaultExtensions, ?_⟩
      rw [literals_aliasesOf, literalValues, literalEntries, List.map_map]
      rfl

end Options

/-! ### Tables -/

namespace AliasTable

theorem getLast?_ne_of_literal?_eq_some {disk : Disk} {environment : Environment}
    {file : Option Path} {options : Options} {config : Config} {table : AliasTable}
    (accepted : options.configure disk environment file = .ok config)
    (made : AliasTable.ofConfig config = .ok table) {key : String} {target : Target}
    (present : table.literal? key = some target) : key.toList.getLast? ≠ some '/' := by
  rcases Options.literals_of_configure_eq_ok accepted with ⟨roots, extensions, literals⟩
  rcases exists_of_bind_eq_ok made with ⟨patterns, _, ok⟩
  cases ok
  have member := mem_of_mem_fieldsOf (mem_of_fieldAt?_eq_some present)
  rw [literals] at member
  rcases List.mem_map.mp (mem_of_mem_fieldsOf member) with ⟨entry, inside, same⟩
  have sameKey : entry.1 = key := (Prod.mk.inj same).1
  exact sameKey ▸ Options.getLast?_ne_of_mem_literalValues inside

variable {first second : AliasTable} {valueAt? : String → Option String}
  {toFirst toSecond : String → Target}

theorem HasKey.of_values (ofFirst : ∀ key, first.literal? key = (valueAt? key).map toFirst)
    (ofSecond : ∀ key, second.literal? key = (valueAt? key).map toSecond) {key : String}
    (hasKey : second.HasKey key) : first.HasKey key := by
  rw [hasKey_iff] at hasKey ⊢
  rcases hasKey with ⟨target, present⟩
  rw [ofSecond, Option.map_eq_some_iff] at present
  rcases present with ⟨value, found, _⟩
  exact ⟨toFirst value, by rw [ofFirst, found, Option.map_some]⟩

theorem LongestKey.of_values (ofFirst : ∀ key, first.literal? key = (valueAt? key).map toFirst)
    (ofSecond : ∀ key, second.literal? key = (valueAt? key).map toSecond)
    {specifier key rest : String} {target : Target}
    (longest : first.LongestKey specifier key target rest) :
    ∃ value, valueAt? key = some value ∧ target = toFirst value ∧
      second.LongestKey specifier key (toSecond value) rest := by
  have present := longest.present
  rw [ofFirst, Option.map_eq_some_iff] at present
  rcases present with ⟨value, found, rfl⟩
  refine ⟨value, found, rfl, ?_, longest.applies, ?_, longest.split⟩
  · rw [ofSecond, found, Option.map_some]
  · intro other hasOther applies
    exact longest.longest other (hasOther.of_values ofFirst ofSecond) applies

/-- What two tables with one list of patterns find, whose targets are made of the same values. -/
inductive FindAlike (valueAt? : String → Option String) (toFirst toSecond : String → Target) :
    Option AliasTable.Match → Option AliasTable.Match → Prop where
  | nothing : FindAlike valueAt? toFirst toSecond none none
  | pattern (expanded : String) (external : Bool) :
      FindAlike valueAt? toFirst toSecond (some (.pattern expanded external))
        (some (.pattern expanded external))
  | literal {key value : String} (present : valueAt? key = some value) (rest : String) :
      FindAlike valueAt? toFirst toSecond (some (.literal key (toFirst value) rest))
        (some (.literal key (toSecond value) rest))

theorem findAlike_lookup? (patterns : first.patterns = second.patterns)
    (ofFirst : ∀ key, first.literal? key = (valueAt? key).map toFirst)
    (ofSecond : ∀ key, second.literal? key = (valueAt? key).map toSecond) (specifier : String) :
    FindAlike valueAt? toFirst toSecond (first.lookup? specifier) (second.lookup? specifier) := by
  have noKeyOf (noKey : ∀ key, first.HasKey key → ¬Applies key specifier) :
      ∀ key, second.HasKey key → ¬Applies key specifier := by
    intro key hasKey
    exact noKey key (hasKey.of_values ofFirst ofSecond)
  have chosen := first.chooses_lookup? specifier
  generalize first.lookup? specifier = found at chosen
  cases chosen with
  | literal longest =>
      rcases longest.of_values ofFirst ofSecond with ⟨value, present, rfl, alsoLongest⟩
      rw [lookup?_eq_of_chooses (.literal alsoLongest)]
      exact .literal present _
  | pattern nonempty noKey order unmatched hit =>
      rw [lookup?_eq_of_chooses
        (.pattern nonempty (noKeyOf noKey) (patterns ▸ order) unmatched hit)]
      exact .pattern _ _
  | nothing noKey unmatched =>
      rw [lookup?_eq_of_chooses (.nothing (noKeyOf noKey) (patterns ▸ unmatched))]
      exact .nothing
  | empty empty =>
      rw [lookup?_eq_of_chooses (.empty empty)]
      exact .nothing

end AliasTable

end ImportAlias
