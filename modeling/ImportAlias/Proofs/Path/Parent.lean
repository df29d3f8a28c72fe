import ImportAlias.Path.Reference
import ImportAlias.Proofs.Path.Reference
import Mathlib.Data.List.TakeWhile

/-!
# The directory of a file

The parent of a path is cut off its text, and the directory of a file is cleaned after that. When
the last step is a name, this leads to the same place as cleaning the path first and leaving its
last name: the text before a name is walked along first, and the name goes down by one. Behind a
double dot the two ways part.
-/

namespace ImportAlias

namespace Path

/-! ### Idle segments -/

/-- What is cut off the end of a list of segments is idle. -/
theorem exists_idle_append (pieces : List (List Char)) :
    ∃ idle, (∀ piece ∈ idle, isIdleSegment piece = true) ∧
      pieces = (pieces.reverse.dropWhile isIdleSegment).reverse ++ idle := by
  refine ⟨(pieces.reverse.takeWhile isIdleSegment).reverse, ?_, ?_⟩
  · intro piece member
    exact List.mem_takeWhile_imp (List.mem_reverse.mp member)
  · rw [← List.reverse_append, List.takeWhile_append_dropWhile, List.reverse_reverse]

theorem foldl_enter_of_idle {idle : List (List Char)}
    (isIdle : ∀ piece ∈ idle, isIdleSegment piece = true) (names : List (List Char)) :
    idle.foldl enter names = names := by
  induction idle with
  | nil => rfl
  | cons piece rest ih =>
      rw [List.foldl_cons, enter, if_pos (isIdle piece List.mem_cons_self)]
      exact ih (fun other inside => isIdle other (List.mem_cons_of_mem piece inside))

theorem filterMap_ofInner?_of_idle {idle : List (List Char)}
    (isIdle : ∀ piece ∈ idle, isIdleSegment piece = true) :
    idle.filterMap Component.ofInner? = [] := by
  rw [List.filterMap_eq_nil_iff]
  intro piece member
  have stays := isIdle piece member
  simp only [isIdleSegment, decide_eq_true_eq] at stays
  rw [Component.ofInner?, if_pos stays]

/-- A segment that is a step of its own and reads as a name is that name. -/
theorem eq_of_ofSegment_eq_name {segment name : List Char}
    (isName : Component.ofSegment segment = .name name) :
    segment = name ∧ segment ≠ ['.'] ∧ segment ≠ ['.', '.'] := by
  unfold Component.ofSegment at isName
  split at isName
  · exact Component.noConfusion isName
  · next notDot =>
    split at isName
    · exact Component.noConfusion isName
    · next notDots => exact ⟨Component.name.inj isName, notDot, notDots⟩

/-! ### Parents -/

theorem isAbsolute_of_segments {path : Path} {first : List Char} {rest : List (List Char)}
    (cut : segments '/' path.chars = first :: rest) :
    path.isAbsolute = decide (first = [] ∧ rest ≠ []) := by
  unfold isAbsolute
  cases chars : path.chars with
  | nil =>
      rw [chars, segments_nil, List.cons.injEq] at cut
      rw [← cut.1, ← cut.2]
      rfl
  | cons char more =>
      rw [chars, segments] at cut
      split at cut
      · next slash =>
        rw [List.cons.injEq] at cut
        simp [slash, ← cut.1, ← cut.2, segments_ne_nil]
      · next notSlash =>
        split at cut <;> rw [List.cons.injEq] at cut <;> simp [notSlash, ← cut.1]

/-- Behind idle segments that are cut off, the last segment is the last step. -/
theorem getLast?_components_of_segments {path : Path} {first last : List Char}
    {before idle : List (List Char)} (busy : isIdleSegment last = false)
    (isIdle : ∀ piece ∈ idle, isIdleSegment piece = true)
    (cut : segments '/' path.chars = first :: (before ++ last :: idle)) :
    path.components.getLast? = some (Component.ofSegment last) := by
  have step : Component.ofInner? last = some (Component.ofSegment last) := by
    simp only [isIdleSegment, decide_eq_false_iff_not] at busy
    rw [Component.ofInner?, if_neg busy]
  have inner : (before ++ last :: idle).filterMap Component.ofInner? =
      before.filterMap Component.ofInner? ++ [Component.ofSegment last] := by
    rw [List.filterMap_append, List.filterMap_cons_some step, filterMap_ofInner?_of_idle isIdle]
  unfold components
  rw [cut]
  simp only [inner]
  split
  · rw [← List.cons_append, List.getLast?_concat]
  · rw [if_neg (by simp), ← List.cons_append, List.getLast?_concat]

theorem components_of_idle {path : Path} {first : List Char} {idle : List (List Char)}
    (isIdle : ∀ piece ∈ idle, isIdleSegment piece = true)
    (cut : segments '/' path.chars = first :: idle) :
    path.components = if first ≠ [] then [Component.ofSegment first]
      else if idle = [] then [] else [.root] := by
  unfold components
  rw [cut]
  simp only [filterMap_ofInner?_of_idle isIdle]

theorem getLast?_components_of_fileName? {path : Path} {name : List Char}
    (named : path.fileName? = some name) : path.components.getLast? = some (.name name) := by
  unfold fileName? at named
  split at named
  · next text last => rw [last, Option.some.inj named]
  · exact absurd named.symm (Option.some_ne_none name)

/-- When the first segment is the only step, the parent is the empty path. -/
theorem parent?_of_idle {path : Path} {first name : List Char} {idle : List (List Char)}
    (isIdle : ∀ piece ∈ idle, isIdleSegment piece = true)
    (cut : segments '/' path.chars = first :: idle) (named : path.fileName? = some name) :
    path.parent? = some ⟨""⟩ ∧ path.isAbsolute = false ∧
      ∀ names, walk names path.chars = names ++ [name] := by
  have lastStep := getLast?_components_of_fileName? named
  rw [components_of_idle isIdle cut] at lastStep
  split at lastStep
  · next nonempty =>
    rcases eq_of_ofSegment_eq_name (Option.some.inj lastStep) with ⟨rfl, notDot, notDots⟩
    have member : first ∈ segments '/' path.chars := by
      rw [cut]
      exact List.mem_cons_self
    have plain : '/' ∉ first := not_mem_of_mem_segments member
    have isName : IsName first := isName_iff.mpr ⟨nonempty, notDot, notDots, plain⟩
    have trimmed : idle.reverse.dropWhile isIdleSegment = [] := by
      rw [List.dropWhile_eq_nil_iff]
      exact fun piece member => isIdle piece (List.mem_reverse.mp member)
    refine ⟨?_, ?_, ?_⟩
    · simp only [parent?, cut, trimmed, if_neg nonempty]
    · rw [isAbsolute_of_segments cut]
      simp [nonempty]
    · intro names
      rw [walk, cut, List.foldl_cons, enter_of_isName isName, foldl_enter_of_idle isIdle]
  · split at lastStep <;> simp at lastStep

/-- The path written with the given segments; the first one alone, if it is empty, is the root. -/
def ofSegments (first : List Char) (kept : List (List Char)) : Path :=
  if first = [] ∧ kept = [] then ⟨"/"⟩ else ofChars (joinSegments '/' (first :: kept))

theorem walk_ofSegments {first : List Char} {kept : List (List Char)}
    (plain : ∀ piece ∈ first :: kept, '/' ∉ piece) (names : List (List Char)) :
    walk names (ofSegments first kept).chars = (first :: kept).foldl enter names := by
  unfold ofSegments
  split
  · next root =>
    rw [root.1, root.2]
    rfl
  · rw [chars_ofChars, walk, segments_joinSegments (List.cons_ne_nil _ _) plain]

theorem isAbsolute_ofSegments {first : List Char} {kept : List (List Char)}
    (plain : ∀ piece ∈ first :: kept, '/' ∉ piece) :
    (ofSegments first kept).isAbsolute = decide (first = []) := by
  unfold ofSegments
  split
  · next root =>
    rw [root.1]
    rfl
  · next notRoot =>
    have cut : segments '/' (ofChars (joinSegments '/' (first :: kept))).chars = first :: kept := by
      rw [chars_ofChars, segments_joinSegments (List.cons_ne_nil _ _) plain]
    rw [isAbsolute_of_segments cut]
    simpa using notRoot

theorem parent?_of_segments {path : Path} {first last : List Char}
    {rest before : List (List Char)} (cut : segments '/' path.chars = first :: rest)
    (trimmed : rest.reverse.dropWhile isIdleSegment = last :: before) :
    path.parent? = some (ofSegments first (before.dropWhile isIdleSegment).reverse) := by
  simp only [parent?, cut, trimmed, ofSegments]
  split <;> rfl

/-- When the last step is behind the first segment, the parent keeps what is before it, and only
idle segments are left out with the step. -/
theorem exists_kept_of_trimmed {path : Path} {first last : List Char}
    {rest before : List (List Char)} (cut : segments '/' path.chars = first :: rest)
    (trimmed : rest.reverse.dropWhile isIdleSegment = last :: before) :
    ∃ kept between idle, path.parent? = some (ofSegments first kept) ∧
      rest = kept ++ between ++ last :: idle ∧ (∀ piece ∈ first :: kept, '/' ∉ piece) ∧
      (∀ piece ∈ between, isIdleSegment piece = true) ∧
      ∀ piece ∈ idle, isIdleSegment piece = true := by
  have parent := parent?_of_segments cut trimmed
  rcases exists_idle_append rest with ⟨idle, isIdle, split⟩
  rcases exists_idle_append before.reverse with ⟨between, isBetween, keptSplit⟩
  rw [List.reverse_reverse] at keptSplit
  generalize (before.dropWhile isIdleSegment).reverse = kept at keptSplit parent
  rw [trimmed, List.reverse_cons, List.append_assoc, List.singleton_append, keptSplit] at split
  refine ⟨kept, between, idle, parent, split, ?_, isBetween, isIdle⟩
  intro piece member
  have inCut : piece ∈ segments '/' path.chars := by
    rw [cut, split]
    exact List.cons_subset_cons first (by simp) member
  exact not_mem_of_mem_segments inCut

theorem exists_parent_of_busy {path : Path} {first last name : List Char}
    {rest before : List (List Char)} (cut : segments '/' path.chars = first :: rest)
    (trimmed : rest.reverse.dropWhile isIdleSegment = last :: before)
    (named : path.fileName? = some name) :
    ∃ above, path.parent? = some above ∧ above.isAbsolute = path.isAbsolute ∧
      ∀ names, walk names path.chars = walk names above.chars ++ [name] := by
  have busy : isIdleSegment last = false := by
    have notIdle := List.head?_dropWhile_not isIdleSegment rest.reverse
    rw [trimmed] at notIdle
    exact notIdle
  rcases exists_kept_of_trimmed cut trimmed with
    ⟨kept, between, idle, parent, split, keptPlain, isBetween, isIdle⟩
  have lastStep := getLast?_components_of_fileName? named
  rw [getLast?_components_of_segments busy isIdle (split ▸ cut)] at lastStep
  rcases eq_of_ofSegment_eq_name (Option.some.inj lastStep) with ⟨rfl, _, notDots⟩
  have lastInCut : last ∈ segments '/' path.chars := by
    rw [cut, split]
    simp
  have isName : IsName last := ⟨busy, notDots, not_mem_of_mem_segments lastInCut⟩
  refine ⟨ofSegments first kept, parent, ?_, ?_⟩
  · rw [isAbsolute_ofSegments keptPlain, isAbsolute_of_segments cut, split]
    simp
  · intro names
    rw [walk_ofSegments keptPlain, walk, cut, split, ← List.cons_append, List.foldl_append,
      ← List.cons_append, List.foldl_append, foldl_enter_of_idle isBetween, List.foldl_cons,
      enter_of_isName isName, foldl_enter_of_idle isIdle]

/-- A path that ends with a name has a parent, which is absolute exactly if the path is, and walking
along the path goes to where the parent leads and down to the name. -/
theorem exists_parent_of_fileName? {path : Path} {name : List Char}
    (named : path.fileName? = some name) :
    ∃ above, path.parent? = some above ∧ above.isAbsolute = path.isAbsolute ∧
      ∀ names, walk names path.chars = walk names above.chars ++ [name] := by
  cases cut : segments '/' path.chars with
  | nil => exact absurd cut (segments_ne_nil '/' path.chars)
  | cons first rest =>
      cases trimmed : rest.reverse.dropWhile isIdleSegment with
      | nil =>
          have allIdle : ∀ piece ∈ rest, isIdleSegment piece = true := fun piece member =>
            List.dropWhile_eq_nil_iff.mp trimmed piece (List.mem_reverse.mpr member)
          rcases parent?_of_idle allIdle cut named with ⟨parent, relative, walked⟩
          exact ⟨⟨""⟩, parent, relative.symm, walked⟩
      | cons last before => exact exists_parent_of_busy cut trimmed named

/-- The directory of a file is where the file leads without its name. -/
theorem directoryOf_eq_ofNames_dropLast {workingDir file : Path} {name : List Char}
    (absolute : workingDir.isAbsolute) (named : file.fileName? = some name) :
    directoryOf workingDir file = ofNames (workingDir.join file).names.dropLast := by
  rcases exists_parent_of_fileName? named with ⟨above, parent, sameStart, walked⟩
  have below : (workingDir.join file).names = (workingDir.join above).names ++ [name] := by
    cases fileAbsolute : file.isAbsolute with
    | true =>
        rw [join_of_isAbsolute fileAbsolute, join_of_isAbsolute (sameStart.trans fileAbsolute)]
        exact walked []
    | false =>
        rw [names_join absolute fileAbsolute, names_join absolute (sameStart.trans fileAbsolute)]
        exact walked workingDir.names
  rw [below, List.dropLast_concat, directoryOf, parent, Option.getD_some, cleanFrom,
    clean_of_isAbsolute (isAbsolute_join absolute above)]

/-- Files that end with a name and lead to one place have one directory. -/
theorem directoryOf_eq_of_cleanFrom_eq {workingDir first second : Path}
    (absolute : workingDir.isAbsolute) (firstNamed : first.fileName?.isSome)
    (secondNamed : second.fileName?.isSome)
    (same : workingDir.cleanFrom first = workingDir.cleanFrom second) :
    directoryOf workingDir first = directoryOf workingDir second := by
  rcases Option.isSome_iff_exists.mp firstNamed with ⟨firstName, firstEnds⟩
  rcases Option.isSome_iff_exists.mp secondNamed with ⟨secondName, secondEnds⟩
  have sameNames := (clean_eq_clean_iff (isAbsolute_join absolute first)
    (isAbsolute_join absolute second)).mp same
  rw [directoryOf_eq_ofNames_dropLast absolute firstEnds,
    directoryOf_eq_ofNames_dropLast absolute secondEnds, sameNames]

end Path

end ImportAlias
