import ImportAlias.Proofs.Path.Reference
import Mathlib.Order.Bounds.Basic

/-!
# Canonical references

A directory and a target part where the longest list of names ends that both start with. The
reference goes up as often as the directory has names behind that place and down the names that the
target has behind it. Every step along a text changes the place by one name at most, so no other
steps from the directory to the target are as few. A reference tells its target apart from all
others, and read from its own directory it is written in the same way again.
-/

namespace ImportAlias

namespace Path

/-! ### The longest common start -/

theorem length_le_sharedLength {start first second : List (List Char)} (inFirst : start <+: first)
    (inSecond : start <+: second) : start.length ≤ sharedLength first second := by
  induction start generalizing first second with
  | nil => exact Nat.zero_le _
  | cons name rest ih =>
      rcases inFirst with ⟨firstMore, rfl⟩
      rcases inSecond with ⟨secondMore, rfl⟩
      simp only [List.cons_append, sharedLength, if_true, List.length_cons]
      apply Nat.succ_le_succ
      exact ih (List.prefix_append rest firstMore) (List.prefix_append rest secondMore)

theorem isGreatest_sharedLength (first second : List (List Char)) :
    IsGreatest {length | ∃ start, start <+: first ∧ start <+: second ∧ start.length = length}
      (sharedLength first second) := by
  constructor
  · refine ⟨first.take (sharedLength first second), List.take_prefix _ _, ?_, ?_⟩
    · rw [take_sharedLength]
      exact List.take_prefix _ _
    · rw [List.length_take]
      exact Nat.min_eq_left (sharedLength_le_length first second)
  · rintro length ⟨start, inFirst, inSecond, rfl⟩
    exact length_le_sharedLength inFirst inSecond

theorem sharedLength_append (start first second : List (List Char)) :
    sharedLength (start ++ first) (start ++ second) = start.length + sharedLength first second := by
  induction start with
  | nil => simp
  | cons name rest ih =>
      simp only [List.cons_append, sharedLength, if_true, ih, List.length_cons]
      omega

/-- One more name is shared only if the target goes on with it. -/
theorem sharedLength_concat_of_apart {names target : List (List Char)} {name : List Char}
    (apart : ¬names ++ [name] <+: target) :
    sharedLength (names ++ [name]) target = sharedLength names target := by
  induction names generalizing target with
  | nil =>
      cases target with
      | nil => rfl
      | cons first rest =>
          have differ : name ≠ first := by
            rintro rfl
            exact apart ⟨rest, rfl⟩
          simp [sharedLength, differ]
  | cons first rest ih =>
      cases target with
      | nil => rfl
      | cons other more =>
          simp only [List.cons_append, sharedLength]
          split
          · next same =>
            subst same
            rw [ih]
            intro longer
            apply apart
            rw [List.cons_append, List.cons_prefix_cons]
            exact ⟨rfl, longer⟩
          · rfl

/-! ### The fewest steps -/

theorem way_self (names : List (List Char)) : way names names = [] := by
  simp [way, sharedLength_self]

/-- A name nearer to the target, the way is shorter by that name. -/
theorem way_of_nearer {names target : List (List Char)} {name : List Char}
    (nearer : names ++ [name] <+: target) :
    way names target = name :: way (names ++ [name]) target := by
  rcases nearer with ⟨rest, rfl⟩
  have atNames := sharedLength_append names [] ([name] ++ rest)
  have atName := sharedLength_append (names ++ [name]) [] rest
  simp only [List.append_nil, sharedLength, Nat.add_zero] at atNames atName
  rw [way, way, atName, List.append_assoc, atNames]
  simp

/-- Away from the target, a name is left again by the first step. -/
theorem way_concat_of_apart {names target : List (List Char)} {name : List Char}
    (apart : ¬names ++ [name] <+: target) :
    way (names ++ [name]) target = ['.', '.'] :: way names target := by
  have shared := sharedLength_le_length names target
  have count : (names ++ [name]).length - sharedLength names target =
      names.length - sharedLength names target + 1 := by
    rw [List.length_append, List.length_singleton]
    omega
  rw [way, way, sharedLength_concat_of_apart apart, count, List.replicate_succ,
    List.cons_append]

/-- No other steps from a directory to a target are as few as those of the way. -/
theorem way_shortest {directory target steps : List (List Char)}
    (leads : steps.foldl enter directory = target) :
    (way directory target).length ≤ steps.length ∧
      (steps.length = (way directory target).length → steps = way directory target) := by
  induction steps generalizing directory with
  | nil =>
      have here : directory = target := leads
      rw [here, way_self]
      exact ⟨Nat.le_refl _, fun _ => rfl⟩
  | cons step rest ih =>
      have behind := ih leads
      rw [List.length_cons]
      -- A step that stays is one too many.
      have ofStay (stays : enter directory step = directory) :
          (way directory target).length ≤ rest.length + 1 ∧
            (rest.length + 1 = (way directory target).length →
              step :: rest = way directory target) := by
        rw [stays] at behind
        refine ⟨by omega, ?_⟩
        intro equal
        omega
      by_cases idle : isIdleSegment step = true
      · apply ofStay
        rw [enter, if_pos idle]
      by_cases up : step = ['.', '.']
      · subst up
        have above : enter directory ['.', '.'] = directory.dropLast := rfl
        rcases List.eq_nil_or_concat directory with rfl | ⟨names, name, rfl⟩
        · exact ofStay rfl
        · rw [List.concat_eq_append] at above behind ⊢
          rw [above, List.dropLast_concat] at behind
          by_cases nearer : names ++ [name] <+: target
          · rw [way_of_nearer nearer, List.length_cons] at behind
            refine ⟨by omega, ?_⟩
            intro equal
            omega
          · rw [way_concat_of_apart nearer, List.length_cons]
            refine ⟨by omega, ?_⟩
            intro equal
            rw [behind.2 (by omega)]
      · have below : enter directory step = directory ++ [step] := by
          rw [enter, if_neg idle, if_neg up]
        rw [below] at behind
        by_cases nearer : directory ++ [step] <+: target
        · rw [way_of_nearer nearer, List.length_cons]
          refine ⟨by omega, ?_⟩
          intro equal
          rw [behind.2 (by omega)]
        · rw [way_concat_of_apart nearer, List.length_cons] at behind
          refine ⟨by omega, ?_⟩
          intro equal
          omega

/-! ### The canonical form -/

/-- How the reference to a target is written: the target shares its first names with the directory,
as many as there are, and no other steps from one to the other are as few. -/
structure IsCanonical (directory target : List (List Char)) (shared : Nat) (text : List Char) :
    Prop where
  longest : IsGreatest
    {length | ∃ start, start <+: directory ∧ start <+: target ∧ start.length = length} shared
  written : text =
    if directory = target then ['.', '/']
    else if shared = directory.length then '.' :: '/' :: joinSegments '/' (target.drop shared)
    else joinSegments '/'
      (List.replicate (directory.length - shared) ['.', '.'] ++ target.drop shared)
  shortest : ∀ steps : List (List Char), steps.foldl enter directory = target →
    directory.length - shared + (target.length - shared) ≤ steps.length ∧
      (steps.length = directory.length - shared + (target.length - shared) →
        steps = List.replicate (directory.length - shared) ['.', '.'] ++ target.drop shared)

theorem isCanonical_referenceChars (directory target : List (List Char)) :
    IsCanonical directory target (sharedLength directory target)
      (referenceChars directory target) := by
  refine ⟨isGreatest_sharedLength directory target, ?_, ?_⟩
  · by_cases same : directory = target
    · subst same
      rw [referenceChars, if_pos (sharedLength_self directory), way_self, if_pos rfl,
        joinSegments_nil]
    · rw [if_neg same]
      unfold referenceChars
      split
      · next below => rw [way_of_below below]
      · rfl
  · intro steps leads
    have count : (way directory target).length =
        directory.length - sharedLength directory target +
          (target.length - sharedLength directory target) := by
      rw [way, List.length_append, List.length_replicate, List.length_drop]
    rw [← count]
    exact way_shortest leads

/-- The reference to a target from an absolute working directory is written in the canonical way
between the two clean places. So references in one file are equal exactly if their targets are
cleaned to one path, and a reference that is read from the directory of the file is written in the
same way for every file of that directory. -/
theorem reference_canonical {workingDir : Path} (absolute : workingDir.isAbsolute)
    (file target : Path) :
    (∃ directoryNames targetNames shared,
      (directoryOf workingDir file).components = .root :: directoryNames.map .name ∧
      (workingDir.cleanFrom target).components = .root :: targetNames.map .name ∧
      IsCanonical directoryNames targetNames shared (reference workingDir file target).toList) ∧
    (∀ other, reference workingDir file other = reference workingDir file target ↔
      workingDir.cleanFrom other = workingDir.cleanFrom target) ∧
    ∀ sibling, directoryOf (directoryOf workingDir file) sibling = directoryOf workingDir file →
      reference (directoryOf workingDir file) sibling ⟨reference workingDir file target⟩ =
        reference workingDir file target := by
  have directoryAbsolute := isAbsolute_directoryOf absolute file
  have written := reference_toList absolute file
  refine ⟨?_, ?_, ?_⟩
  · refine ⟨(directoryOf workingDir file).names, (workingDir.join target).names, _, ?_, ?_,
      written target ▸ isCanonical_referenceChars _ _⟩
    · rw [← components_ofNames isName_of_mem_names, ← directoryOf_eq_ofNames absolute file]
    · rw [cleanFrom, clean_of_isAbsolute (isAbsolute_join absolute target),
        components_ofNames isName_of_mem_names]
  · intro other
    rw [cleanFrom, cleanFrom,
      clean_eq_clean_iff (isAbsolute_join absolute other) (isAbsolute_join absolute target),
      ← String.toList_inj, written, written]
    constructor
    · intro same
      have leads := congrArg (walk (directoryOf workingDir file).names) same
      rwa [walk_referenceChars isName_of_mem_names,
        walk_referenceChars isName_of_mem_names] at leads
    · intro same
      rw [same]
  · intro sibling inDirectory
    have back := cleanFrom_of_toList_eq_referenceChars directoryAbsolute isName_of_mem_names
      (Or.inl (written target))
    have names : ((directoryOf workingDir file).join ⟨reference workingDir file target⟩).names =
        (workingDir.join target).names := by
      rw [← names_clean (isAbsolute_join directoryAbsolute _)]
      rw [cleanFrom] at back
      rw [back, names_ofNames isName_of_mem_names]
    rw [← String.toList_inj, reference_toList directoryAbsolute, inDirectory, names, written]

/-- Names that start with dots, a detour in the target, and a sibling of the file. -/
theorem reference_canonical_of_dotted_names :
    (∃ directoryNames targetNames shared,
      (directoryOf ⟨"/p"⟩ ⟨"src/.hidden/a.js"⟩).components = .root :: directoryNames.map .name ∧
      (cleanFrom ⟨"/p"⟩ ⟨"x/../src/..x/./b"⟩).components = .root :: targetNames.map .name ∧
      IsCanonical directoryNames targetNames shared "../..x/b".toList) ∧
    reference ⟨"/p"⟩ ⟨"src/.hidden/a.js"⟩ ⟨"/../p/src/..x/b/"⟩ = "../..x/b" ∧
    reference ⟨"/p/src/.hidden"⟩ ⟨"b.js"⟩ ⟨"../..x/b"⟩ = "../..x/b" := by
  have written : reference ⟨"/p"⟩ ⟨"src/.hidden/a.js"⟩ ⟨"x/../src/..x/./b"⟩ = "../..x/b" := by
    decide
  have directory : directoryOf ⟨"/p"⟩ ⟨"src/.hidden/a.js"⟩ = ⟨"/p/src/.hidden"⟩ := by decide
  rcases @reference_canonical ⟨"/p"⟩ (by decide) ⟨"src/.hidden/a.js"⟩ ⟨"x/../src/..x/./b"⟩ with
    ⟨canonical, sameIff, stable⟩
  rw [written] at canonical sameIff stable
  rw [directory] at stable
  exact ⟨canonical, (sameIff ⟨"/../p/src/..x/b/"⟩).mpr (by decide), stable ⟨"b.js"⟩ (by decide)⟩

end Path

end ImportAlias
