import ImportAlias.Path.Reference
import ImportAlias.Proofs.Path.Location

/-!
# What a reference says

From an absolute working directory, the reference to a target drops the names that the directory and
the target share, goes up as many times as the directory has names left, and goes down the names
that are left of the target. Walking along it from the directory leads to the target, and it ends
with a slash only when the target is the directory itself.
-/

namespace ImportAlias

namespace Path

/-- The number of names that two lists of names start with in common. -/
def sharedLength : List (List Char) → List (List Char) → Nat
  | first :: rest, second :: more => if first = second then sharedLength rest more + 1 else 0
  | _, _ => 0

/-- The segments of the way from a directory to a target. -/
def way (directory target : List (List Char)) : List (List Char) :=
  List.replicate (directory.length - sharedLength directory target) ['.', '.'] ++
    target.drop (sharedLength directory target)

/-- The reference from a directory to a target. A way that does not go up starts with a dot. -/
def referenceChars (directory target : List (List Char)) : List Char :=
  if sharedLength directory target = directory.length then
    '.' :: '/' :: joinSegments '/' (way directory target)
  else joinSegments '/' (way directory target)

/-- The directory that references in a file start from. -/
def directoryOf (workingDir file : Path) : Path :=
  workingDir.cleanFrom (file.parent?.getD ⟨""⟩)

/-! ### Shared names -/

theorem sharedLength_le_length (first second : List (List Char)) :
    sharedLength first second ≤ first.length := by
  fun_induction sharedLength first second with
  | case1 name rest more ih =>
      rw [List.length_cons]
      omega
  | case2 => exact Nat.zero_le _
  | case3 => exact Nat.zero_le _

theorem take_sharedLength (first second : List (List Char)) :
    first.take (sharedLength first second) = second.take (sharedLength first second) := by
  fun_induction sharedLength first second with
  | case1 name rest more ih => rw [List.take_succ_cons, List.take_succ_cons, ih]
  | case2 => rfl
  | case3 => rw [List.take_zero, List.take_zero]

theorem sharedLength_self (names : List (List Char)) : sharedLength names names = names.length := by
  induction names with
  | nil => rfl
  | cons name rest ih => rw [sharedLength, if_pos rfl, ih, List.length_cons]

/-- A directory whose names are all shared is one from which the target only goes down. -/
theorem append_drop_of_sharedLength {directory target : List (List Char)}
    (below : sharedLength directory target = directory.length) :
    directory ++ target.drop (sharedLength directory target) = target := by
  have start := take_sharedLength directory target
  rw [below, List.take_length] at start
  rw [below, start, List.length_take]
  by_cases long : directory.length ≤ target.length
  · rw [Nat.min_eq_left long, List.take_append_drop]
  · have whole : target.take directory.length = target := List.take_of_length_le (by omega)
    rw [whole] at start ⊢
    rw [List.drop_of_length_le (by omega), List.append_nil]

/-! ### The way -/

theorem slash_not_mem_of_mem_way {directory target : List (List Char)}
    (targetNames : ∀ name ∈ target, IsName name) : ∀ piece ∈ way directory target, '/' ∉ piece := by
  intro piece member
  rcases List.mem_append.mp member with up | down
  · rw [List.eq_of_mem_replicate up]
    decide
  · exact (targetNames piece (List.mem_of_mem_drop down)).slash_not_mem

theorem walk_joinSegments {names pieces : List (List Char)}
    (plain : ∀ piece ∈ pieces, '/' ∉ piece) :
    walk names (joinSegments '/' pieces) = pieces.foldl enter names := by
  by_cases empty : pieces = []
  · subst empty
    rfl
  · rw [walk, segments_joinSegments empty plain]

/-- The way from a directory to a target leads there. -/
theorem walk_joinSegments_way {directory target : List (List Char)}
    (targetNames : ∀ name ∈ target, IsName name) :
    walk directory (joinSegments '/' (way directory target)) = target := by
  have shared := sharedLength_le_length directory target
  have downNames : ∀ name ∈ target.drop (sharedLength directory target), IsName name :=
    fun name member => targetNames name (List.mem_of_mem_drop member)
  rw [walk_joinSegments (slash_not_mem_of_mem_way targetNames), way, List.foldl_append,
    foldl_enter_replicate, foldl_enter_of_isName downNames, Nat.sub_sub_self shared,
    take_sharedLength, List.take_append_drop]

theorem stepsBetween?_nil (written : Bool) (base : List (List Char)) :
    stepsBetween? written [] (base.map Component.name) =
      some (List.replicate base.length Component.parent) := by
  induction base generalizing written with
  | nil => rfl
  | cons name rest ih =>
      rw [List.map_cons, stepsBetween?, ih, Option.map_some, List.length_cons, List.replicate_succ]

/-- Between names, the steps go up from what is not shared and down to the target. -/
theorem stepsBetween?_names (target directory : List (List Char)) :
    stepsBetween? false (target.map Component.name) (directory.map Component.name) =
      some (List.replicate (directory.length - sharedLength directory target) .parent ++
        (target.drop (sharedLength directory target)).map Component.name) := by
  fun_induction sharedLength directory target with
  | case1 name rest more ih =>
      simp only [List.map_cons, stepsBetween?, Bool.not_false, Bool.true_and, decide_true, if_true]
      rw [ih, List.length_cons, Nat.add_sub_add_right, List.drop_succ_cons]
  | case2 name rest other more differ =>
      have ups : (rest.map Component.name).map (fun _ => Component.parent) =
          List.replicate rest.length Component.parent := by
        rw [List.map_map]
        exact List.map_const'
      simp [stepsBetween?, Ne.symm differ, List.replicate_succ, ups]
  | case3 directory target noPair =>
      cases directory with
      | nil => simp [stepsBetween?]
      | cons name rest =>
          cases target with
          | nil => simpa using stepsBetween?_nil false (name :: rest)
          | cons other more => exact absurd rfl (noPair name rest other more rfl)

theorem ofComponents_append_names (ups : Nat) (downs : List (List Char)) :
    ofComponents (List.replicate ups .parent ++ downs.map Component.name) =
      ofChars (joinSegments '/' (List.replicate ups ['.', '.'] ++ downs)) := by
  have written : (List.replicate ups Component.parent ++ downs.map Component.name).map
      Component.chars = List.replicate ups ['.', '.'] ++ downs := by
    rw [List.map_append, List.map_replicate, List.map_map]
    congr 1
    exact List.map_id' downs
  unfold ofComponents
  split
  · next rest starts =>
    cases ups with
    | zero => cases downs <;> simp at starts
    | succ ups => simp [List.replicate_succ] at starts
  · rw [written]

/-- The way between two clean absolute paths is written with one slash between each two steps. -/
theorem between?_ofNames {directory target : List (List Char)}
    (directoryNames : ∀ name ∈ directory, IsName name)
    (targetNames : ∀ name ∈ target, IsName name) :
    between? (ofNames directory) (ofNames target) =
      some (ofChars (joinSegments '/' (way directory target))) := by
  rw [between?, isAbsolute_ofNames, isAbsolute_ofNames, components_ofNames directoryNames,
    components_ofNames targetNames]
  simp only [Bool.not_true, Bool.and_false, Bool.false_and, Bool.false_eq_true, if_false,
    stepsBetween?, Bool.not_false, Bool.true_and, decide_true, if_true]
  rw [stepsBetween?_names, Option.map_some, ofComponents_append_names, way]

/-! ### References -/

theorem isReference_up (rest : List (List Char)) :
    isReference (joinSegments '/' (['.', '.'] :: rest)) = true := by
  cases rest with
  | nil => rfl
  | cons next more => simp [isReference, List.isPrefixOf]

/-- Names alone do not read as a reference. -/
theorem isReference_joinSegments_names {pieces : List (List Char)}
    (isName : ∀ piece ∈ pieces, IsName piece) :
    isReference (joinSegments '/' pieces) = false := by
  by_cases empty : pieces = []
  · subst empty
    rfl
  · have cut := segments_joinSegments empty
      (fun piece inside => (isName piece inside).slash_not_mem)
    have noDot : ['.'] ∉ pieces := fun inside => (isName_iff.mp (isName _ inside)).2.1 rfl
    have noDots : ['.', '.'] ∉ pieces := fun inside => (isName _ inside).2.1 rfl
    have cutDot (rest : List Char) :
        segments '/' ('.' :: '/' :: rest) = ['.'] :: segments '/' rest :=
      segments_append ['.'] rest
    have cutDots (rest : List Char) :
        segments '/' ('.' :: '.' :: '/' :: rest) = ['.', '.'] :: segments '/' rest :=
      segments_append ['.', '.'] rest
    rw [Bool.eq_false_iff]
    simp only [isReference, ne_eq, Bool.or_eq_true, decide_eq_true_eq, List.isPrefixOf_iff_prefix]
    rintro (((equal | equal) | ⟨rest, equal⟩) | ⟨rest, equal⟩)
    · rw [equal] at cut
      exact noDot (cut ▸ List.mem_cons_self)
    · rw [equal] at cut
      exact noDots (cut ▸ List.mem_cons_self)
    · rw [← equal] at cut
      exact noDot (cut ▸ cutDot rest ▸ List.mem_cons_self)
    · rw [← equal] at cut
      exact noDots (cut ▸ cutDots rest ▸ List.mem_cons_self)

theorem way_of_below {directory target : List (List Char)}
    (below : sharedLength directory target = directory.length) :
    way directory target = target.drop (sharedLength directory target) := by
  rw [way, below, Nat.sub_self, List.replicate_zero, List.nil_append]

theorem way_of_not_below {directory target : List (List Char)}
    (above : sharedLength directory target ≠ directory.length) :
    ∃ rest, way directory target = ['.', '.'] :: rest := by
  have shared := sharedLength_le_length directory target
  rcases Nat.exists_eq_add_of_lt (Nat.lt_of_le_of_ne shared above) with ⟨ups, length⟩
  have count : directory.length - sharedLength directory target = ups + 1 := by omega
  refine ⟨List.replicate ups ['.', '.'] ++ target.drop (sharedLength directory target), ?_⟩
  rw [way, count, List.replicate_succ, List.cons_append]

/-- A way reads as a reference when it goes up. -/
theorem isReference_way {directory target : List (List Char)}
    (targetNames : ∀ name ∈ target, IsName name) :
    isReference (joinSegments '/' (way directory target)) =
      decide (sharedLength directory target ≠ directory.length) := by
  by_cases below : sharedLength directory target = directory.length
  · rw [way_of_below below, isReference_joinSegments_names
      (fun name member => targetNames name (List.mem_of_mem_drop member))]
    simp [below]
  · rcases way_of_not_below below with ⟨rest, startsUp⟩
    rw [startsUp, isReference_up]
    simp [below]

/-- What is written for a way is the reference. -/
theorem written_way {directory target : List (List Char)}
    (targetNames : ∀ name ∈ target, IsName name) :
    (if isReference (joinSegments '/' (way directory target)) then
        joinSegments '/' (way directory target)
      else '.' :: '/' :: joinSegments '/' (way directory target)) =
      referenceChars directory target := by
  rw [isReference_way targetNames, referenceChars]
  by_cases below : sharedLength directory target = directory.length <;> simp [below]

theorem isAbsolute_directoryOf {workingDir : Path} (absolute : workingDir.isAbsolute)
    (file : Path) : (directoryOf workingDir file).isAbsolute :=
  isAbsolute_cleanFrom absolute _

/-- The directory of a file is clean. -/
theorem directoryOf_eq_ofNames {workingDir : Path} (absolute : workingDir.isAbsolute)
    (file : Path) : directoryOf workingDir file = ofNames (directoryOf workingDir file).names := by
  have joinAbsolute := isAbsolute_join absolute (file.parent?.getD ⟨""⟩)
  rw [directoryOf, cleanFrom, names_clean joinAbsolute, clean_of_isAbsolute joinAbsolute]

/-- The way from the directory of the file to the target is written so that it reads as a
reference. -/
theorem reference_toList_of_between? {workingDir file target : Path} {relative : List Char}
    (between : ((between? (directoryOf workingDir file) (workingDir.cleanFrom target)).getD
      (workingDir.cleanFrom target)).chars = relative) :
    (reference workingDir file target).toList =
      if isReference relative then relative else '.' :: '/' :: relative := by
  subst between
  exact String.toList_ofList

/-- The reference to a target is the one between where the directory and the target lead. -/
theorem reference_toList {workingDir : Path} (absolute : workingDir.isAbsolute)
    (file target : Path) :
    (reference workingDir file target).toList =
      referenceChars (directoryOf workingDir file).names (workingDir.join target).names := by
  generalize directoryEq : (directoryOf workingDir file).names = directory
  generalize targetEq : (workingDir.join target).names = targetNames
  have isNameDirectory : ∀ name ∈ directory, IsName name := directoryEq ▸ isName_of_mem_names
  have isNameTarget : ∀ name ∈ targetNames, IsName name := targetEq ▸ isName_of_mem_names
  have directoryClean : directoryOf workingDir file = ofNames directory :=
    directoryEq ▸ directoryOf_eq_ofNames absolute file
  have targetClean : workingDir.cleanFrom target = ofNames targetNames := by
    rw [← targetEq, cleanFrom, clean_of_isAbsolute (isAbsolute_join absolute target)]
  rw [← written_way isNameTarget]
  apply reference_toList_of_between?
  rw [directoryClean, targetClean, between?_ofNames isNameDirectory isNameTarget,
    Option.getD_some, chars_ofChars]

theorem reference_toList_of_isAbsolute {workingDir target : Path} (absolute : workingDir.isAbsolute)
    (targetAbsolute : target.isAbsolute) (file : Path) :
    (reference workingDir file target).toList =
      referenceChars (directoryOf workingDir file).names target.names := by
  rw [reference_toList absolute, join_of_isAbsolute targetAbsolute]

/-! ### Reading references -/

/-- A reference starts in the way that references do. -/
theorem referenceChars_cases (directory target : List (List Char)) :
    referenceChars directory target = ['.', '.'] ∨ ['.', '/'] <+: referenceChars directory target ∨
      ['.', '.', '/'] <+: referenceChars directory target := by
  unfold referenceChars
  split
  · exact Or.inr (Or.inl ⟨_, rfl⟩)
  · next above =>
    rcases way_of_not_below above with ⟨rest, startsUp⟩
    rw [startsUp]
    cases rest with
    | nil => exact Or.inl rfl
    | cons next more => exact Or.inr (Or.inr ⟨_, rfl⟩)

/-- So does a reference with a slash behind it. -/
theorem cases_of_toList_eq_referenceChars {directory target : List (List Char)} {text : String}
    (written : text.toList = referenceChars directory target ∨
      text.toList = referenceChars directory target ++ ['/']) :
    text.toList = ['.', '.'] ∨ ['.', '/'] <+: text.toList ∨ ['.', '.', '/'] <+: text.toList := by
  rcases written with same | longer
  · rw [same]
    exact referenceChars_cases directory target
  · rw [longer]
    rcases referenceChars_cases directory target with dots | here | up
    · rw [dots]
      exact Or.inr (Or.inr List.prefix_rfl)
    · exact Or.inr (Or.inl (here.trans (List.prefix_append _ _)))
    · exact Or.inr (Or.inr (up.trans (List.prefix_append _ _)))

/-- Walking along a reference from its directory leads to its target. -/
theorem walk_referenceChars {directory target : List (List Char)}
    (targetNames : ∀ name ∈ target, IsName name) :
    walk directory (referenceChars directory target) = target := by
  unfold referenceChars
  split
  · have dot : walk directory ['.'] = directory := rfl
    rw [← List.singleton_append (l := '/' :: _), walk_append, dot]
    exact walk_joinSegments_way targetNames
  · exact walk_joinSegments_way targetNames

theorem head?_of_toList_eq_referenceChars {directory target : List (List Char)} {text : String}
    (written : text.toList = referenceChars directory target ∨
      text.toList = referenceChars directory target ++ ['/']) :
    text.toList.head? = some '.' := by
  rcases cases_of_toList_eq_referenceChars written with dots | ⟨rest, here⟩ | ⟨rest, up⟩
  · rw [dots]
    rfl
  · rw [← here]
    rfl
  · rw [← up]
    rfl

theorem walk_of_toList_eq_referenceChars {directory target : List (List Char)} {text : String}
    (targetNames : ∀ name ∈ target, IsName name)
    (written : text.toList = referenceChars directory target ∨
      text.toList = referenceChars directory target ++ ['/']) :
    walk directory text.toList = target := by
  rcases written with same | longer
  · rw [same, walk_referenceChars targetNames]
  · rw [longer, walk_concat_slash, walk_referenceChars targetNames]

/-- Reading a reference from its directory, with or without a slash behind it, leads to its
target. -/
theorem cleanFrom_of_toList_eq_referenceChars {directory : Path} {target : List (List Char)}
    {text : String} (absolute : directory.isAbsolute) (targetNames : ∀ name ∈ target, IsName name)
    (written : text.toList = referenceChars directory.names target ∨
      text.toList = referenceChars directory.names target ++ ['/']) :
    directory.cleanFrom ⟨text⟩ = ofNames target := by
  have relative : Path.isAbsolute ⟨text⟩ = false := by
    simp [isAbsolute, chars, head?_of_toList_eq_referenceChars written]
  rw [cleanFrom, clean_of_isAbsolute (isAbsolute_join absolute _), names_join absolute relative]
  exact congrArg ofNames (walk_of_toList_eq_referenceChars targetNames written)

/-- A reference ends with a slash only from a directory to itself. -/
theorem getLast?_referenceChars {directory target : List (List Char)}
    (targetNames : ∀ name ∈ target, IsName name) :
    (referenceChars directory target).getLast? = some '/' ↔ directory = target := by
  have plain : ∀ name ∈ target.drop (sharedLength directory target), name ≠ [] ∧ '/' ∉ name := by
    intro name member
    have isName := targetNames name (List.mem_of_mem_drop member)
    exact ⟨isName.ne_nil, isName.slash_not_mem⟩
  constructor
  · intro last
    unfold referenceChars at last
    split at last
    · next below =>
      rw [way_of_below below] at last
      have whole := append_drop_of_sharedLength below
      by_cases here : target.drop (sharedLength directory target) = []
      · rw [here, List.append_nil] at whole
        exact whole
      · have nonempty := joinSegments_ne_nil here plain
        rw [List.getLast?_cons_of_ne_nil (List.cons_ne_nil _ _),
          List.getLast?_cons_of_ne_nil nonempty] at last
        exact absurd last (getLast?_joinSegments_ne plain)
    · refine absurd last (getLast?_joinSegments_ne ?_)
      intro piece member
      refine ⟨?_, slash_not_mem_of_mem_way targetNames piece member⟩
      rcases List.mem_append.mp member with up | down
      · rw [List.eq_of_mem_replicate up]
        exact List.cons_ne_nil _ _
      · exact (plain piece down).1
  · rintro rfl
    have below := sharedLength_self directory
    rw [referenceChars, if_pos below, way_of_below below, below, List.drop_length]
    rfl

/-- Whatever the directories are, a reference starts with a dot. -/
theorem head?_reference (workingDir file target : Path) :
    (reference workingDir file target).toList.head? = some '.' := by
  have starts : ∀ text, isReference text = true → text.head? = some '.' := by
    intro text reads
    simp only [isReference, Bool.or_eq_true, decide_eq_true_eq, List.isPrefixOf_iff_prefix] at reads
    rcases reads with ((rfl | rfl) | ⟨rest, rfl⟩) | ⟨rest, rfl⟩ <;> rfl
  simp only [reference, String.toList_ofList]
  split
  · next reads => exact starts _ reads
  · rfl

end Path

end ImportAlias
