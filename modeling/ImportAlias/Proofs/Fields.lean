import ImportAlias.Json.Basic
import Mathlib.Data.List.Basic
import Mathlib.Data.List.Induction

/-!
# Fields by their keys

The value at a key is one of the fields with that key, there is one as soon as there is such a
field, and the fields of a list of pairs are pairs of that list: each key once, with the last value
that the list has for it. So neither the order of fields nor fields with other keys make a difference to
the value at a key.
-/

namespace ImportAlias

variable {Value : Type} {key : String}

theorem mem_of_fieldAt?_eq_some {fields : List (String × Value)} {value : Value}
    (found : fieldAt? key fields = some value) : (key, value) ∈ fields := by
  induction fields with
  | nil => simp [fieldAt?] at found
  | cons field rest ih =>
      rcases field with ⟨present, old⟩
      rw [fieldAt?] at found
      split at found
      · next same =>
        rw [Option.some.injEq] at found
        rw [same, found]
        exact List.mem_cons_self
      · exact List.mem_cons_of_mem _ (ih found)

theorem fieldAt?_eq_none_iff {fields : List (String × Value)} :
    fieldAt? key fields = none ↔ ∀ field ∈ fields, field.1 ≠ key := by
  induction fields with
  | nil => simp [fieldAt?]
  | cons field rest ih =>
      rcases field with ⟨present, old⟩
      rw [fieldAt?, List.forall_mem_cons, ← ih]
      by_cases same : present = key <;> simp [same]

theorem mem_of_mem_putField {fields : List (String × Value)} {value : Value}
    {field : String × Value} (member : field ∈ putField key value fields) :
    field = (key, value) ∨ field ∈ fields := by
  induction fields with
  | nil => exact Or.inl (List.mem_singleton.mp member)
  | cons first rest ih =>
      rcases first with ⟨present, old⟩
      rw [putField] at member
      split at member
      · rcases List.mem_cons.mp member with same | behind
        · exact Or.inl same
        · exact Or.inr (List.mem_cons_of_mem _ behind)
      · rcases List.mem_cons.mp member with same | behind
        · exact Or.inr (same ▸ List.mem_cons_self)
        · exact (ih behind).imp id (List.mem_cons_of_mem _)

/-- Every field of a list of pairs is one of the pairs. -/
theorem mem_of_mem_fieldsOf {pairs : List (String × Value)} {field : String × Value}
    (member : field ∈ fieldsOf pairs) : field ∈ pairs := by
  have fromStart : ∀ fields : List (String × Value),
      field ∈ pairs.foldl (fun fields pair => putField pair.1 pair.2 fields) fields →
        field ∈ fields ∨ field ∈ pairs := by
    clear member
    induction pairs with
    | nil => exact fun fields inside => Or.inl inside
    | cons pair rest ih =>
        intro fields inside
        rcases ih _ inside with put | behind
        · rcases mem_of_mem_putField put with same | before
          · exact Or.inr (same ▸ List.mem_cons_self)
          · exact Or.inl before
        · exact Or.inr (List.mem_cons_of_mem _ behind)
  rcases fromStart [] member with nowhere | inside
  · exact absurd nowhere List.not_mem_nil
  · exact inside

/-! ### Keys -/

theorem keys_putField (value : Value) (fields : List (String × Value)) :
    (putField key value fields).map Prod.fst =
      if key ∈ fields.map Prod.fst then fields.map Prod.fst else fields.map Prod.fst ++ [key] := by
  induction fields with
  | nil => simp [putField]
  | cons field rest ih =>
      rcases field with ⟨present, old⟩
      rw [putField]
      by_cases same : present = key
      · simp [same]
      · rw [if_neg same, List.map_cons, ih, List.map_cons]
        by_cases behind : key ∈ rest.map Prod.fst
        · rw [if_pos behind, if_pos (List.mem_cons_of_mem _ behind)]
        · rw [if_neg behind, if_neg (List.not_mem_cons_of_ne_of_not_mem (Ne.symm same) behind),
            List.cons_append]

theorem nodup_keys_putField {fields : List (String × Value)}
    (distinct : (fields.map Prod.fst).Nodup) (value : Value) :
    ((putField key value fields).map Prod.fst).Nodup := by
  rw [keys_putField]
  split
  · exact distinct
  · next absent =>
    refine List.nodup_append.mpr ⟨distinct, List.pairwise_singleton _ key, ?_⟩
    intro other member last isLast same
    rw [List.mem_singleton.mp isLast] at same
    exact absent (same ▸ member)

/-- No two fields of a list of pairs have one key. -/
theorem nodup_keys_fieldsOf (pairs : List (String × Value)) :
    ((fieldsOf pairs).map Prod.fst).Nodup := by
  have fromStart : ∀ fields : List (String × Value), (fields.map Prod.fst).Nodup →
      ((pairs.foldl (fun fields pair => putField pair.1 pair.2 fields) fields).map
        Prod.fst).Nodup := by
    induction pairs with
    | nil => exact fun fields distinct => distinct
    | cons pair rest ih => exact fun fields distinct => ih _ (nodup_keys_putField distinct pair.2)
  exact fromStart [] List.nodup_nil

theorem putField_of_not_mem {fields : List (String × Value)} (absent : key ∉ fields.map Prod.fst)
    (value : Value) : putField key value fields = fields ++ [(key, value)] := by
  induction fields with
  | nil => rfl
  | cons field rest ih =>
      rcases field with ⟨present, old⟩
      rw [List.map_cons, List.mem_cons, not_or] at absent
      rw [putField, if_neg (Ne.symm absent.1), ih absent.2, List.cons_append]

/-- Pairs with distinct keys are fields already. -/
theorem fieldsOf_of_nodup {pairs : List (String × Value)}
    (distinct : (pairs.map Prod.fst).Nodup) : fieldsOf pairs = pairs := by
  have fromStart : ∀ fields : List (String × Value), ((fields ++ pairs).map Prod.fst).Nodup →
      pairs.foldl (fun fields pair => putField pair.1 pair.2 fields) fields = fields ++ pairs := by
    clear distinct
    induction pairs with
    | nil => exact fun fields _ => (List.append_nil fields).symm
    | cons pair rest ih =>
        intro fields distinct
        have absent : pair.1 ∉ fields.map Prod.fst := by
          rw [List.map_append, List.nodup_append] at distinct
          intro member
          exact distinct.2.2 _ member _ List.mem_cons_self rfl
        have put := putField_of_not_mem absent pair.2
        rw [List.foldl_cons, put, ih, List.append_assoc, List.singleton_append]
        rw [List.append_assoc, List.singleton_append]
        exact distinct
  exact fromStart [] distinct

/-! ### Values -/

theorem fieldAt?_append (first second : List (String × Value)) :
    fieldAt? key (first ++ second) = (fieldAt? key first).or (fieldAt? key second) := by
  induction first with
  | nil => rfl
  | cons field rest ih =>
      rcases field with ⟨present, old⟩
      rw [List.cons_append, fieldAt?, fieldAt?, ih]
      split <;> rfl

theorem fieldAt?_map {Other : Type} (toOther : Value → Other) (fields : List (String × Value)) :
    fieldAt? key (fields.map (fun field => (field.1, toOther field.2))) =
      (fieldAt? key fields).map toOther := by
  induction fields with
  | nil => rfl
  | cons field rest ih =>
      rcases field with ⟨present, old⟩
      rw [List.map_cons, fieldAt?, fieldAt?, ih]
      split <;> rfl

theorem fieldAt?_putField {other : String} (value : Value) (fields : List (String × Value)) :
    fieldAt? key (putField other value fields) =
      if other = key then some value else fieldAt? key fields := by
  induction fields with
  | nil => rfl
  | cons field rest ih =>
      rcases field with ⟨present, old⟩
      rw [putField]
      by_cases here : present = other
      · subst here
        rw [if_pos rfl, fieldAt?, fieldAt?]
        split <;> rfl
      · rw [if_neg here, fieldAt?, fieldAt?, ih]
        by_cases same : present = key
        · rw [if_pos same, if_pos same, if_neg (fun equal => here (same.trans equal.symm))]
        · rw [if_neg same, if_neg same]

/-- The field at a key has the last value that the pairs have for it. -/
theorem fieldAt?_fieldsOf (pairs : List (String × Value)) :
    fieldAt? key (fieldsOf pairs) = fieldAt? key pairs.reverse := by
  have fromStart : ∀ fields : List (String × Value),
      fieldAt? key (pairs.foldl (fun fields pair => putField pair.1 pair.2 fields) fields) =
        (fieldAt? key pairs.reverse).or (fieldAt? key fields) := by
    induction pairs with
    | nil => exact fun fields => rfl
    | cons pair rest ih =>
        rcases pair with ⟨other, value⟩
        intro fields
        rw [List.foldl_cons, ih, fieldAt?_putField, List.reverse_cons, fieldAt?_append,
          Option.or_assoc, fieldAt?, fieldAt?]
        split <;> rfl
  rw [fieldsOf, fromStart, fieldAt?, Option.or_none]

theorem fieldAt?_eq_some_iff_mem {fields : List (String × Value)} {value : Value}
    (distinct : (fields.map Prod.fst).Nodup) :
    fieldAt? key fields = some value ↔ (key, value) ∈ fields := by
  refine ⟨mem_of_fieldAt?_eq_some, fun member => ?_⟩
  induction fields with
  | nil => exact absurd member List.not_mem_nil
  | cons field rest ih =>
      rw [List.map_cons, List.nodup_cons] at distinct
      rcases List.mem_cons.mp member with rfl | behind
      · rw [fieldAt?, if_pos rfl]
      · have other : field.1 ≠ key := by
          intro same
          exact distinct.1 (same ▸ List.mem_map_of_mem behind)
        rw [fieldAt?, if_neg other, ih distinct.2 behind]

/-- The order of fields with distinct keys makes no difference to the value at a key. -/
theorem fieldAt?_eq_of_perm {first second : List (String × Value)} (perm : first.Perm second)
    (distinct : (first.map Prod.fst).Nodup) : fieldAt? key first = fieldAt? key second := by
  have alsoDistinct := (perm.map Prod.fst).nodup distinct
  ext value
  rw [fieldAt?_eq_some_iff_mem distinct, fieldAt?_eq_some_iff_mem alsoDistinct, perm.mem_iff]

theorem fieldAt?_reverse {fields : List (String × Value)}
    (distinct : (fields.map Prod.fst).Nodup) :
    fieldAt? key fields.reverse = fieldAt? key fields :=
  (fieldAt?_eq_of_perm (List.reverse_perm fields).symm distinct).symm

/-! ### First places and last values -/

theorem fieldAt?_eq_some_iff_split {fields : List (String × Value)} {value : Value} :
    fieldAt? key fields = some value ↔
      ∃ before after, fields = before ++ (key, value) :: after ∧
        ∀ earlier ∈ before, earlier.1 ≠ key := by
  constructor
  · intro found
    induction fields with
    | nil => simp [fieldAt?] at found
    | cons field rest ih =>
        rcases field with ⟨present, old⟩
        rw [fieldAt?] at found
        split at found
        · next same =>
          cases found
          exact ⟨[], rest, by rw [same, List.nil_append], fun _ none => absurd none List.not_mem_nil⟩
        · next other =>
          rcases ih found with ⟨before, after, rfl, earlier⟩
          exact ⟨(present, old) :: before, after, rfl, List.forall_mem_cons.mpr ⟨other, earlier⟩⟩
  · rintro ⟨before, after, rfl, earlier⟩
    rw [fieldAt?_append, fieldAt?_eq_none_iff.mpr earlier, fieldAt?, if_pos rfl, Option.none_or]

/-- A field is the last of the pairs with its key. -/
theorem mem_fieldsOf_iff {pairs : List (String × Value)} {value : Value} :
    (key, value) ∈ fieldsOf pairs ↔
      ∃ before after, pairs = before ++ (key, value) :: after ∧ ∀ later ∈ after, later.1 ≠ key := by
  rw [← fieldAt?_eq_some_iff_mem (nodup_keys_fieldsOf pairs), fieldAt?_fieldsOf,
    fieldAt?_eq_some_iff_split]
  constructor
  · rintro ⟨after, before, split, later⟩
    refine ⟨before.reverse, after.reverse, ?_, ?_⟩
    · rw [← List.reverse_reverse pairs, split]
      simp
    · simpa using later
  · rintro ⟨before, after, rfl, later⟩
    refine ⟨after.reverse, before.reverse, by simp, ?_⟩
    simpa using later

/-- Values that are made of others are the last ones of a key where those are. -/
theorem mem_fieldsOf_map_iff {Other : Type} {toOther : Value → Other}
    {pairs : List (String × Value)} {other : Other} :
    (key, other) ∈ fieldsOf (pairs.map (fun pair => (pair.1, toOther pair.2))) ↔
      ∃ value, (key, value) ∈ fieldsOf pairs ∧ toOther value = other := by
  rw [← fieldAt?_eq_some_iff_mem (nodup_keys_fieldsOf _), fieldAt?_fieldsOf, ← List.map_reverse,
    fieldAt?_map, Option.map_eq_some_iff]
  simp only [← fieldAt?_eq_some_iff_mem (nodup_keys_fieldsOf pairs), fieldAt?_fieldsOf]

/-- The keys are those that occur, one after the other as they first occur. -/
structure InFirstOrder (occurring keys : List String) : Prop where
  same : ∀ key, key ∈ keys ↔ key ∈ occurring
  order : keys.Pairwise (fun first second => occurring.idxOf first < occurring.idxOf second)

/-- One more occurrence makes no difference to a key that is there, and puts a new one behind the
others. -/
theorem InFirstOrder.concat {occurring keys : List String} (inOrder : InFirstOrder occurring keys)
    (key : String) :
    InFirstOrder (occurring ++ [key]) (if key ∈ keys then keys else keys ++ [key]) := by
  rcases inOrder with ⟨same, order⟩
  have place {other : String} (member : other ∈ keys) :
      (occurring ++ [key]).idxOf other = occurring.idxOf other :=
    List.idxOf_append_of_mem ((same other).mp member)
  have keepsOrder : keys.Pairwise (fun first second =>
      (occurring ++ [key]).idxOf first < (occurring ++ [key]).idxOf second) := by
    refine order.imp_of_mem ?_
    intro first second inFirst inSecond before
    rwa [place inFirst, place inSecond]
  split
  · next present =>
    refine ⟨fun other => ?_, keepsOrder⟩
    rw [List.mem_append, same, List.mem_singleton, or_iff_left_of_imp]
    rintro rfl
    exact (same _).mp present
  · next absent =>
    refine ⟨fun other => ?_, List.pairwise_append.mpr ⟨keepsOrder, List.pairwise_singleton _ _, ?_⟩⟩
    · rw [List.mem_append, List.mem_append, same]
    · intro other member last isLast
      have notOccurring : key ∉ occurring := fun occurs => absent ((same key).mpr occurs)
      rw [List.mem_singleton.mp isLast, place member, List.idxOf_append_of_notMem notOccurring]
      exact Nat.lt_add_right _ (List.idxOf_lt_length_iff.mpr ((same other).mp member))

theorem fieldsOf_concat (pairs : List (String × Value)) (pair : String × Value) :
    fieldsOf (pairs ++ [pair]) = putField pair.1 pair.2 (fieldsOf pairs) := by
  rw [fieldsOf, List.foldl_append]
  rfl

/-- Fields stand in the order in which their keys first occur. -/
theorem inFirstOrder_keys_fieldsOf (pairs : List (String × Value)) :
    InFirstOrder (pairs.map Prod.fst) ((fieldsOf pairs).map Prod.fst) := by
  induction pairs using List.reverseRecOn with
  | nil => exact ⟨fun _ => Iff.rfl, .nil⟩
  | append_singleton pairs pair ih =>
      rw [fieldsOf_concat, keys_putField, List.map_append]
      exact ih.concat pair.1

end ImportAlias
