import ImportAlias.Proofs.Path.Canonical
import ImportAlias.Proofs.Path.Cleaning
import ImportAlias.Proofs.Path.Parent

/-!
# Paths below a relative directory

A relative path stays below the directory that it starts from when no double dot is left at its
start once it is cleaned. Such a path leads to the same names below every directory, and cleaned it
is these names, or a dot when there are none. So the reference between two clean relative paths is
the one between their names, except that the way out to the dot keeps the dot at its end.
-/

namespace ImportAlias

namespace Path

/-- The path is relative and never climbs above the directory that it starts from. -/
def StaysBelow (path : Path) : Prop :=
  path.isAbsolute = false ∧ Component.parent ∉ path.cleanComponents

instance (path : Path) : Decidable path.StaysBelow :=
  inferInstanceAs (Decidable (_ ∧ _))

/-! ### Cleaning on top of a path -/

/-- The steps of names, the last one on top. -/
def stackOf (names : List (List Char)) : List Component :=
  (names.map Component.name).reverse

/-- The steps that are left when the segments of a text are cleaned on top of other steps. -/
def cleanOnto (stack : List Component) (text : List Char) : List Component :=
  ((segments '/' text).filterMap Component.ofInner?).foldl Component.cleanStep stack

@[simp]
theorem cleanOnto_nil (stack : List Component) : cleanOnto stack [] = stack :=
  rfl

theorem cleanOnto_append (stack : List Component) (first second : List Char) :
    cleanOnto stack (first ++ '/' :: second) = cleanOnto (cleanOnto stack first) second := by
  rw [cleanOnto, segments_append, List.filterMap_append, List.foldl_append]
  rfl

theorem cleanOnto_slash_cons (stack : List Component) (text : List Char) :
    cleanOnto stack ('/' :: text) = cleanOnto stack text :=
  cleanOnto_append stack [] text

theorem cleanOnto_append_of_slash {rest : List Char} (behind : rest = [] ∨ rest.head? = some '/')
    (stack : List Component) (first : List Char) :
    cleanOnto stack (first ++ rest) = cleanOnto (cleanOnto stack first) rest := by
  rcases behind with rfl | slash
  · rw [List.append_nil, cleanOnto_nil]
  · rcases List.head?_eq_some_iff.mp slash with ⟨more, rfl⟩
    rw [cleanOnto_append, cleanOnto_slash_cons]

theorem stackOf_inj {first second : List (List Char)} :
    stackOf first = stackOf second ↔ first = second := by
  rw [stackOf, stackOf, List.reverse_inj, List.map_inj_right (fun _ _ => Component.name.inj)]

theorem stackOf_concat (names : List (List Char)) (name : List Char) :
    stackOf (names ++ [name]) = .name name :: stackOf names := by
  simp [stackOf]

theorem parent_not_mem_stackOf (names : List (List Char)) : Component.parent ∉ stackOf names := by
  simp [stackOf]

/-- A double dot that is left stays whatever comes behind it. -/
theorem parent_mem_foldl_cleanStep {stack steps : List Component}
    (left : Component.parent ∈ stack) :
    Component.parent ∈ steps.foldl Component.cleanStep stack := by
  induction steps generalizing stack with
  | nil => exact left
  | cons step rest ih =>
      apply ih
      unfold Component.cleanStep
      split
      · exact left
      · split
        · simpa using left
        · exact left
        · exact List.mem_cons_self
      · exact List.mem_cons_of_mem step left

/-- Segments that never climb above names do on top of these names, wherever they are, what the walk
does from there. -/
theorem foldl_cleanStep_stackOf {names pieces : List (List Char)}
    (stays : Component.parent ∉
      (pieces.filterMap Component.ofInner?).foldl Component.cleanStep (stackOf names))
    (base : List (List Char)) :
    (pieces.filterMap Component.ofInner?).foldl Component.cleanStep (stackOf (base ++ names)) =
        stackOf (base ++ pieces.foldl enter names) ∧
      pieces.foldl enter (base ++ names) = base ++ pieces.foldl enter names := by
  induction pieces generalizing names with
  | nil => exact ⟨rfl, rfl⟩
  | cons segment rest ih =>
      rw [List.foldl_cons, List.foldl_cons]
      rcases step_cases segment with ⟨noStep, same⟩ | ⟨step, up⟩ | ⟨step, down⟩
      · rw [List.filterMap_cons_none noStep] at stays ⊢
        rw [same, same]
        exact ih stays
      · -- A double dot that stays below takes one of the own names, and none of the base.
        rw [List.filterMap_cons_some step, List.foldl_cons] at stays ⊢
        rcases List.eq_nil_or_concat names with rfl | ⟨above, name, rfl⟩
        · refine absurd ?_ stays
          exact parent_mem_foldl_cleanStep List.mem_cons_self
        · rw [List.concat_eq_append, stackOf_concat] at stays
          rw [List.concat_eq_append, ← List.append_assoc, stackOf_concat, up, up,
            List.dropLast_concat, List.dropLast_concat]
          exact ih stays
      · have push (from' : List (List Char)) :
            Component.cleanStep (stackOf from') (.name segment) = stackOf (from' ++ [segment]) :=
          (stackOf_concat from' segment).symm
        rw [List.filterMap_cons_some step, List.foldl_cons, push] at stays ⊢
        rw [down, down, List.append_assoc]
        exact ih stays

theorem cleanOnto_stackOf {names : List (List Char)} {text : List Char}
    (stays : Component.parent ∉ cleanOnto (stackOf names) text) (base : List (List Char)) :
    cleanOnto (stackOf (base ++ names)) text = stackOf (base ++ walk names text) ∧
      walk (base ++ names) text = base ++ walk names text :=
  foldl_cleanStep_stackOf stays base

theorem cleanComponents_of_relative {path : Path} (relative : path.isAbsolute = false) :
    path.cleanComponents = (cleanOnto [] path.chars).reverse := by
  unfold cleanComponents components cleanOnto
  cases cut : segments '/' path.chars with
  | nil => exact absurd cut (segments_ne_nil '/' path.chars)
  | cons first rest =>
      rw [isAbsolute_of_segments cut, decide_eq_false_iff_not] at relative
      by_cases empty : first = []
      · have nothing : rest = [] := by
          by_contra more
          exact relative ⟨empty, more⟩
        rw [empty, nothing]
        rfl
      · simp only [ne_eq, empty, not_false_eq_true, if_true]
        congr 1
        by_cases dot : first = ['.']
        · subst dot
          rfl
        · have step : Component.ofInner? first = some (Component.ofSegment first) := by
            rw [Component.ofInner?, if_neg (not_or.mpr ⟨empty, dot⟩)]
          rw [List.filterMap_cons_some step]

/-! ### Paths that stay below -/

section Below

variable {path directory entry : Path} {names : List (List Char)}

theorem staysBelow_iff :
    path.StaysBelow ↔ path.isAbsolute = false ∧ Component.parent ∉ cleanOnto [] path.chars := by
  apply and_congr_right
  intro relative
  rw [cleanComponents_of_relative relative, List.mem_reverse]

theorem staysBelow_of_parent_not_mem (relative : path.isAbsolute = false)
    (noParent : Component.parent ∉ path.components) : path.StaysBelow := by
  refine ⟨relative, ?_⟩
  intro climbs
  exact noParent (mem_components_of_mem_cleanComponents climbs)

/-- The clean path of names below the directory that it starts from. -/
def ofNamesBelow (names : List (List Char)) : Path :=
  if names = [] then ⟨"."⟩ else ofChars (joinSegments '/' names)

theorem ofNamesBelow_of_ne_nil (nonempty : names ≠ []) :
    ofNamesBelow names = ofChars (joinSegments '/' names) :=
  if_neg nonempty

theorem segments_ofNamesBelow (nonempty : names ≠ []) (isName : ∀ name ∈ names, IsName name) :
    segments '/' (ofNamesBelow names).chars = names := by
  rw [ofNamesBelow_of_ne_nil nonempty, chars_ofChars]
  exact segments_joinSegments nonempty (fun name member => (isName name member).slash_not_mem)

theorem components_ofNamesBelow (isName : ∀ name ∈ names, IsName name) :
    (ofNamesBelow names).components =
      if names = [] then [.current] else names.map Component.name := by
  cases names with
  | nil => rfl
  | cons first rest =>
      have cut := segments_ofNamesBelow (List.cons_ne_nil first rest) isName
      rcases isName_iff.mp (isName first List.mem_cons_self) with ⟨nonempty, notDot, notDots, _⟩
      have inner := filterMap_ofInner?_of_isName (fun name member =>
        isName name (List.mem_cons_of_mem first member))
      simp [components, cut, nonempty, inner, Component.ofSegment, notDot, notDots]

theorem isAbsolute_ofNamesBelow (isName : ∀ name ∈ names, IsName name) :
    (ofNamesBelow names).isAbsolute = false := by
  cases names with
  | nil => rfl
  | cons first rest =>
      rw [isAbsolute_of_segments (segments_ofNamesBelow (List.cons_ne_nil first rest) isName)]
      simp [(isName first List.mem_cons_self).ne_nil]

theorem staysBelow_ofNamesBelow (isName : ∀ name ∈ names, IsName name) :
    (ofNamesBelow names).StaysBelow := by
  apply staysBelow_of_parent_not_mem (isAbsolute_ofNamesBelow isName)
  rw [components_ofNamesBelow isName]
  split <;> simp

theorem names_ofNamesBelow (isName : ∀ name ∈ names, IsName name) :
    (ofNamesBelow names).names = names := by
  by_cases empty : names = []
  · subst empty
    rfl
  · rw [Path.names, walk, segments_ofNamesBelow empty isName, foldl_enter_of_isName isName,
      List.nil_append]

theorem ofNamesBelow_eq_dot_iff (isName : ∀ name ∈ names, IsName name) :
    ofNamesBelow names = ⟨"."⟩ ↔ names = [] := by
  constructor
  · intro dot
    rw [← names_ofNamesBelow isName, dot]
    rfl
  · intro empty
    rw [ofNamesBelow, if_pos empty]

theorem chars_ofNamesBelow_ne_nil (isName : ∀ name ∈ names, IsName name) :
    (ofNamesBelow names).chars ≠ [] := by
  by_cases empty : names = []
  · subst empty
    decide
  · rw [ofNamesBelow_of_ne_nil empty, chars_ofChars]
    apply joinSegments_ne_nil empty
    intro name member
    exact ⟨(isName name member).ne_nil, (isName name member).slash_not_mem⟩

theorem isAbsolute_of_chars_eq_append (relative : directory.isAbsolute = false)
    (nonempty : directory.chars ≠ []) {more : List Char}
    (longer : path.chars = directory.chars ++ more) : path.isAbsolute = false := by
  unfold isAbsolute at relative ⊢
  rw [longer]
  cases chars : directory.chars with
  | nil => exact absurd chars nonempty
  | cons first rest => rwa [chars] at relative

theorem isAbsolute_join_of_relative (directoryRelative : directory.isAbsolute = false)
    (entryRelative : entry.isAbsolute = false) : (directory.join entry).isAbsolute = false := by
  unfold join
  rw [if_neg (Bool.eq_false_iff.mp entryRelative)]
  split
  · exact entryRelative
  · next nonempty =>
    split <;> exact isAbsolute_of_chars_eq_append directoryRelative nonempty (chars_ofChars _)

theorem cleanOnto_join (relative : entry.isAbsolute = false) (stack : List Component) :
    cleanOnto stack (directory.join entry).chars =
      cleanOnto (cleanOnto stack directory.chars) entry.chars := by
  rw [join, if_neg (Bool.eq_false_iff.mp relative)]
  split
  · next empty => rw [empty, cleanOnto_nil]
  · split
    · next slashAtEnd =>
      rcases List.getLast?_eq_some_iff.mp slashAtEnd with ⟨before, split⟩
      have ended : cleanOnto stack (before ++ ['/']) = cleanOnto stack before := by
        rw [cleanOnto_append, cleanOnto_nil]
      rw [chars_ofChars, split, List.append_assoc, List.singleton_append, cleanOnto_append, ended]
    · rw [chars_ofChars, cleanOnto_append]

namespace StaysBelow

theorem cleanOnto_stackOf (stays : path.StaysBelow) (base : List (List Char)) :
    cleanOnto (stackOf base) path.chars = stackOf (base ++ path.names) := by
  have fromNothing : Component.parent ∉ cleanOnto (stackOf []) path.chars :=
    (staysBelow_iff.mp stays).2
  have onto := (Path.cleanOnto_stackOf fromNothing base).1
  rwa [List.append_nil] at onto

theorem walk_eq (stays : path.StaysBelow) (base : List (List Char)) :
    walk base path.chars = base ++ path.names := by
  have fromNothing : Component.parent ∉ cleanOnto (stackOf []) path.chars :=
    (staysBelow_iff.mp stays).2
  have walked := (Path.cleanOnto_stackOf fromNothing base).2
  rwa [List.append_nil] at walked

theorem cleanOnto_eq (stays : path.StaysBelow) : cleanOnto [] path.chars = stackOf path.names :=
  stays.cleanOnto_stackOf []

/-- What leaves only names of a path on top of nothing keeps it below. -/
theorem of_cleanOnto (relative : path.isAbsolute = false) {left : List (List Char)}
    (cleaned : cleanOnto [] path.chars = stackOf left) : path.StaysBelow ∧ path.names = left := by
  have stays : path.StaysBelow := by
    rw [staysBelow_iff, cleaned]
    exact ⟨relative, parent_not_mem_stackOf left⟩
  exact ⟨stays, stackOf_inj.mp (stays.cleanOnto_eq.symm.trans cleaned)⟩

theorem cleanComponents_eq (stays : path.StaysBelow) :
    path.cleanComponents = path.names.map Component.name := by
  rw [cleanComponents_of_relative stays.1, stays.cleanOnto_eq, stackOf, List.reverse_reverse]

theorem clean_eq (stays : path.StaysBelow) : path.clean = ofNamesBelow path.names := by
  rw [clean, stays.cleanComponents_eq, ofNamesBelow]
  cases path.names with
  | nil => rfl
  | cons first rest => exact ofComponents_append_names 0 (first :: rest)

theorem clean (stays : path.StaysBelow) :
    path.clean.StaysBelow ∧ path.clean.names = path.names := by
  rw [stays.clean_eq]
  exact ⟨staysBelow_ofNamesBelow isName_of_mem_names, names_ofNamesBelow isName_of_mem_names⟩

theorem clean_eq_dot_iff (stays : path.StaysBelow) : path.clean = ⟨"."⟩ ↔ path.names = [] := by
  rw [stays.clean_eq, ofNamesBelow_eq_dot_iff isName_of_mem_names]

theorem join (directoryStays : directory.StaysBelow) (entryStays : entry.StaysBelow) :
    (directory.join entry).StaysBelow ∧
      (directory.join entry).names = directory.names ++ entry.names := by
  apply of_cleanOnto (isAbsolute_join_of_relative directoryStays.1 entryStays.1)
  rw [cleanOnto_join entryStays.1, directoryStays.cleanOnto_eq, entryStays.cleanOnto_stackOf]

theorem cleanFrom_eq (directoryStays : directory.StaysBelow) (entryStays : entry.StaysBelow) :
    directory.cleanFrom entry = ofNamesBelow (directory.names ++ entry.names) := by
  rcases directoryStays.join entryStays with ⟨stays, names⟩
  rw [cleanFrom, stays.clean_eq, names]

/-- What an entry keeps below is below already, and the entry never climbs above it. -/
theorem of_join (relative : entry.isAbsolute = false) (stays : (directory.join entry).StaysBelow) :
    directory.StaysBelow ∧
      Component.parent ∉ cleanOnto (stackOf directory.names) entry.chars ∧
      (directory.join entry).names = walk directory.names entry.chars := by
  have noParent := (staysBelow_iff.mp stays).2
  rw [cleanOnto_join relative] at noParent
  have directoryStays : directory.StaysBelow := by
    rw [staysBelow_iff]
    constructor
    · cases absolute : directory.isAbsolute with
      | false => rfl
      | true => exact absurd (isAbsolute_join absolute entry) (Bool.eq_false_iff.mp stays.1)
    · intro climbs
      exact noParent (parent_mem_foldl_cleanStep climbs)
  rw [directoryStays.cleanOnto_eq] at noParent
  have cleaned : cleanOnto [] (directory.join entry).chars =
      stackOf (walk directory.names entry.chars) := by
    rw [cleanOnto_join relative, directoryStays.cleanOnto_eq]
    exact (Path.cleanOnto_stackOf noParent []).1
  exact ⟨directoryStays, noParent, (of_cleanOnto stays.1 cleaned).2⟩

theorem append (stays : entry.StaysBelow) {rest : String}
    (behind : rest = "" ∨ rest.toList.head? = some '/')
    (onward : Component.parent ∉ cleanOnto (stackOf entry.names) rest.toList)
    (directoryStays : directory.StaysBelow) :
    Path.StaysBelow ⟨(directory.cleanFrom entry).text ++ rest⟩ ∧
      Path.names ⟨(directory.cleanFrom entry).text ++ rest⟩ =
        directory.names ++ walk entry.names rest.toList := by
  have isName : ∀ name ∈ directory.names ++ entry.names, IsName name :=
    List.forall_mem_append.mpr ⟨isName_of_mem_names, isName_of_mem_names⟩
  rw [directoryStays.cleanFrom_eq stays]
  have below : cleanOnto [] (ofNamesBelow (directory.names ++ entry.names)).chars =
      stackOf (directory.names ++ entry.names) := by
    rw [(staysBelow_ofNamesBelow isName).cleanOnto_eq, names_ofNamesBelow isName]
  apply of_cleanOnto
  · exact isAbsolute_of_chars_eq_append (isAbsolute_ofNamesBelow isName)
      (chars_ofNamesBelow_ne_nil isName) (chars_append _ rest)
  · rw [chars_append, cleanOnto_append_of_slash (behind.imp_left (congrArg String.toList ·)), below]
    exact (Path.cleanOnto_stackOf onward directory.names).1

theorem parent (stays : path.StaysBelow) : (path.parent?.getD ⟨""⟩).StaysBelow := by
  have emptyStays : Path.StaysBelow ⟨""⟩ := by decide
  cases cut : segments '/' path.chars with
  | nil => exact absurd cut (segments_ne_nil '/' path.chars)
  | cons first rest =>
      cases trimmed : rest.reverse.dropWhile isIdleSegment with
      | nil =>
          by_cases empty : first = [] <;> simpa [parent?, cut, trimmed, empty] using emptyStays
      | cons last before =>
          rcases exists_kept_of_trimmed cut trimmed with
            ⟨kept, between, idle, above, split, plain, _⟩
          have nonempty : first ≠ [] := by
            have relative := stays.1
            rw [isAbsolute_of_segments cut, split] at relative
            simpa using relative
          have sameStart : cleanOnto [] path.chars =
              ((between ++ last :: idle).filterMap Component.ofInner?).foldl Component.cleanStep
                (cleanOnto [] (ofSegments first kept).chars) := by
            rw [ofSegments, if_neg (fun root => nonempty root.1), chars_ofChars, cleanOnto,
              cleanOnto, segments_joinSegments (List.cons_ne_nil _ _) plain, cut, split,
              ← List.foldl_append, ← List.filterMap_append, List.cons_append, List.append_assoc]
          -- What the parent leaves out comes behind it, so it cannot take back a climb.
          rw [above, Option.getD_some, staysBelow_iff, isAbsolute_ofSegments plain,
            decide_eq_false nonempty]
          refine ⟨rfl, ?_⟩
          intro climbs
          apply (staysBelow_iff.mp stays).2
          rw [sameStart]
          exact parent_mem_foldl_cleanStep climbs

end StaysBelow

end Below

/-! ### References between paths below -/

section Reference

variable {directory target : List (List Char)}

theorem sharedLength_nil_right (directory : List (List Char)) : sharedLength directory [] = 0 := by
  cases directory <;> rfl

theorem way_nil_right (directory : List (List Char)) :
    way directory [] = List.replicate directory.length ['.', '.'] := by
  simp [way, sharedLength_nil_right]

/-- What directory and target have in front makes no difference to the reference. -/
theorem referenceChars_append (start directory target : List (List Char)) :
    referenceChars (start ++ directory) (start ++ target) = referenceChars directory target := by
  have sameWay : way (start ++ directory) (start ++ target) = way directory target := by
    rw [way, way, sharedLength_append, List.length_append, Nat.add_sub_add_left,
      List.drop_length_add_append]
  simp [referenceChars, sameWay, sharedLength_append]

/-- The reference between clean relative paths. The way out to the dot keeps the dot. -/
def referenceBelowChars (directory target : List (List Char)) : List Char :=
  if target = [] ∧ directory ≠ [] then referenceChars directory [] ++ ['/', '.']
  else referenceChars directory target

theorem between?_ofNamesBelow_nil (nonempty : directory ≠ [])
    (directoryNames : ∀ name ∈ directory, IsName name) :
    between? (ofNamesBelow directory) (ofNamesBelow []) =
      some (ofChars (joinSegments '/' (way directory []) ++ ['/', '.'])) := by
  have noNames : (ofNamesBelow []).components = [.current] := rfl
  rw [between?, isAbsolute_ofNamesBelow directoryNames, components_ofNamesBelow directoryNames,
    if_neg nonempty, noNames]
  cases directory with
  | nil => exact absurd rfl nonempty
  | cons first rest =>
      have ups : (rest.map Component.name).map (fun _ => Component.parent) =
          List.replicate rest.length Component.parent := by
        rw [List.map_map]
        exact List.map_const'
      have out : stepsBetween? false [.current] ((first :: rest).map Component.name) =
          some (.parent :: List.replicate rest.length .parent ++ [.current]) := by
        simp [stepsBetween?, ups]
      have written : joinSegments '/' (List.replicate (rest.length + 1) ['.', '.'] ++ [['.']]) =
          joinSegments '/' (List.replicate (rest.length + 1) ['.', '.']) ++ ['/', '.'] :=
        joinSegments_concat (by simp) ['.']
      have relative : (ofNamesBelow []).isAbsolute = false := rfl
      simp only [relative, Bool.not_false, Bool.and_true, Bool.false_eq_true, if_false]
      rw [out, way_nil_right, List.length_cons, ← written]
      simp [ofComponents, List.replicate_succ, Component.chars]

theorem between?_ofNamesBelow (apart : ¬(target = [] ∧ directory ≠ []))
    (directoryNames : ∀ name ∈ directory, IsName name)
    (targetNames : ∀ name ∈ target, IsName name) :
    between? (ofNamesBelow directory) (ofNamesBelow target) =
      some (ofChars (joinSegments '/' (way directory target))) := by
  have steps : stepsBetween? false (ofNamesBelow target).components
      (ofNamesBelow directory).components =
        some (List.replicate (directory.length - sharedLength directory target) .parent ++
          (target.drop (sharedLength directory target)).map Component.name) := by
    rw [components_ofNamesBelow directoryNames, components_ofNamesBelow targetNames]
    cases directory with
    | nil =>
        cases target with
        | nil => rfl
        | cons first rest => simp [stepsBetween?, sharedLength]
    | cons first rest =>
        have nonempty : target ≠ [] := fun empty => apart ⟨empty, List.cons_ne_nil first rest⟩
        rw [if_neg nonempty, if_neg (List.cons_ne_nil first rest)]
        exact stepsBetween?_names target (first :: rest)
  rw [between?, isAbsolute_ofNamesBelow directoryNames, isAbsolute_ofNamesBelow targetNames]
  simp only [Bool.not_false, Bool.and_true, Bool.and_false, Bool.false_eq_true, if_false]
  rw [steps, Option.map_some, ofComponents_append_names, way]

theorem written_out (nonempty : directory ≠ []) :
    (if isReference (joinSegments '/' (way directory []) ++ ['/', '.']) then
        joinSegments '/' (way directory []) ++ ['/', '.']
      else '.' :: '/' :: (joinSegments '/' (way directory []) ++ ['/', '.'])) =
      referenceChars directory [] ++ ['/', '.'] := by
  have above : sharedLength directory [] ≠ directory.length := by
    rw [sharedLength_nil_right]
    exact (List.length_pos_iff.mpr nonempty).ne
  rcases way_of_not_below above with ⟨rest, up⟩
  have joined : joinSegments '/' (way directory []) ++ ['/', '.'] =
      joinSegments '/' (['.', '.'] :: (rest ++ [['.']])) := by
    rw [up, ← List.cons_append]
    exact (joinSegments_concat (List.cons_ne_nil _ _) ['.']).symm
  rw [referenceChars, if_neg above, joined, isReference_up, if_pos rfl]

theorem reference_toList_of_staysBelow {workingDir file target : Path}
    (workingDirStays : workingDir.StaysBelow) (fileStays : file.StaysBelow)
    (targetStays : target.StaysBelow) :
    (reference workingDir file target).toList =
      referenceBelowChars (workingDir.names ++ (file.parent?.getD ⟨""⟩).names)
        (workingDir.names ++ target.names) := by
  have directoryClean : directoryOf workingDir file =
      ofNamesBelow (workingDir.names ++ (file.parent?.getD ⟨""⟩).names) :=
    workingDirStays.cleanFrom_eq fileStays.parent
  have targetClean := workingDirStays.cleanFrom_eq targetStays
  have isNameDirectory : ∀ name ∈ workingDir.names ++ (file.parent?.getD ⟨""⟩).names,
      IsName name :=
    List.forall_mem_append.mpr ⟨isName_of_mem_names, isName_of_mem_names⟩
  have isNameTarget : ∀ name ∈ workingDir.names ++ target.names, IsName name :=
    List.forall_mem_append.mpr ⟨isName_of_mem_names, isName_of_mem_names⟩
  generalize workingDir.names ++ (file.parent?.getD ⟨""⟩).names = directory
    at isNameDirectory directoryClean ⊢
  generalize workingDir.names ++ target.names = targetNames at isNameTarget targetClean ⊢
  rw [referenceBelowChars]
  split
  · next out =>
    rw [← written_out out.2]
    apply reference_toList_of_between?
    rw [directoryClean, targetClean, out.1, between?_ofNamesBelow_nil out.2 isNameDirectory,
      Option.getD_some, chars_ofChars]
  · next apart =>
    rw [← written_way isNameTarget]
    apply reference_toList_of_between?
    rw [directoryClean, targetClean, between?_ofNamesBelow apart isNameDirectory isNameTarget,
      Option.getD_some, chars_ofChars]

end Reference

end Path

end ImportAlias
