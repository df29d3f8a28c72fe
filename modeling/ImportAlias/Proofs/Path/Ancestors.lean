import ImportAlias.Proofs.Path.Parent

/-!
# The directories above a clean path

A clean absolute path is written from its names, and its parent is written from all of them but the
last. So every directory above a clean absolute path is clean and absolute, and the parent of an entry
of such a directory is the directory again. The way up from a clean absolute path ends at the root
before its bound is used up, and it passes the directories whose names are a beginning of the names of
the path.
-/

namespace ImportAlias

namespace Path

/-- The path is absolute and written as cleaning writes it. -/
structure IsNormal (path : Path) : Prop where
  absolute : path.isAbsolute
  cleaned : path.clean = path

variable {path above : Path} {pieces : List (List Char)} {name : List Char}

theorem IsNormal.eq_ofNames (normal : path.IsNormal) : path = ofNames path.names := by
  rw [← clean_of_isAbsolute normal.absolute, normal.cleaned]

theorem isNormal_ofNames (isName : ∀ piece ∈ pieces, IsName piece) : (ofNames pieces).IsNormal := by
  refine ⟨isAbsolute_ofNames pieces, ?_⟩
  rw [clean_of_isAbsolute (isAbsolute_ofNames pieces), names_ofNames isName]

theorem isNormal_clean (absolute : path.isAbsolute) : path.clean.IsNormal := by
  rw [clean_of_isAbsolute absolute]
  exact isNormal_ofNames isName_of_mem_names

theorem isNormal_cleanFrom {directory : Path} (absolute : directory.isAbsolute) (entry : Path) :
    (directory.cleanFrom entry).IsNormal :=
  isNormal_clean (isAbsolute_join absolute entry)

/-! ### Parents -/

theorem ofSegments_nil (pieces : List (List Char)) : ofSegments [] pieces = ofNames pieces := by
  cases pieces with
  | nil => rfl
  | cons piece rest =>
      rw [ofSegments, if_neg (by simp), joinSegments_cons_cons, ofNames, List.nil_append]

theorem parent?_ofNames_nil : (ofNames []).parent? = none := by
  decide

theorem parent?_ofNames_concat (isName : ∀ piece ∈ pieces ++ [name], IsName piece) :
    (ofNames (pieces ++ [name])).parent? = some (ofNames pieces) := by
  have nothingIdle (reached : List (List Char)) (busy : ∀ piece ∈ reached, IsName piece) :
      reached.dropWhile isIdleSegment = reached := by
    cases reached with
    | nil => rfl
    | cons piece rest => simp [(busy piece List.mem_cons_self).1]
  have cut := segments_ofNames (List.append_ne_nil_of_right_ne_nil pieces (List.cons_ne_nil name []))
    isName
  have trimmed : (pieces ++ [name]).reverse.dropWhile isIdleSegment = name :: pieces.reverse := by
    rw [nothingIdle _ (fun piece member => isName piece (List.mem_reverse.mp member)),
      List.reverse_concat]
  have kept := nothingIdle pieces.reverse
    (fun piece member => isName piece (List.mem_append_left _ (List.mem_reverse.mp member)))
  rw [parent?_of_segments cut trimmed, kept, List.reverse_reverse, ofSegments_nil]

/-- The parent of a clean absolute path lacks its last name. -/
theorem IsNormal.exists_of_parent?_eq_some (normal : path.IsNormal)
    (found : path.parent? = some above) :
    above.IsNormal ∧ ∃ name, path.names = above.names ++ [name] := by
  have isName : ∀ piece ∈ path.names, IsName piece := isName_of_mem_names
  rw [normal.eq_ofNames] at found
  rcases List.eq_nil_or_concat path.names with none | ⟨front, last, split⟩
  · rw [none, parent?_ofNames_nil] at found
    exact absurd found (by simp)
  · rw [List.concat_eq_append] at split
    rw [split] at found isName
    rw [parent?_ofNames_concat isName, Option.some.injEq] at found
    have frontNames : ∀ piece ∈ front, IsName piece :=
      fun piece member => isName piece (List.mem_append_left _ member)
    rw [← found, names_ofNames frontNames]
    exact ⟨isNormal_ofNames frontNames, last, split⟩

theorem IsNormal.of_mem_ancestorsUpTo {bound : Nat} (normal : path.IsNormal)
    (member : above ∈ path.ancestorsUpTo bound) : above.IsNormal := by
  induction bound generalizing path with
  | zero => exact List.mem_singleton.mp member ▸ normal
  | succ bound ih =>
      rw [ancestorsUpTo] at member
      split at member
      · exact List.mem_singleton.mp member ▸ normal
      · next next found =>
        rcases List.mem_cons.mp member with here | higher
        · exact here ▸ normal
        · exact ih (normal.exists_of_parent?_eq_some found).1 higher

/-! ### The way up -/

/-- The path is a directory on the way from the root down to another path, or that path itself. -/
structure IsAbove (above path : Path) : Prop where
  normal : above.IsNormal
  leads : above.names <+: path.names

/-- The directory that a path leads to an entry of. -/
def enclosing (path : Path) : Path :=
  ofNames path.names.dropLast

theorem IsNormal.eq_of_names_eq {first second : Path} (firstNormal : first.IsNormal)
    (secondNormal : second.IsNormal) (same : first.names = second.names) : first = second := by
  rw [firstNormal.eq_ofNames, same, ← secondNormal.eq_ofNames]

theorem IsNormal.parent?_eq_enclosing (normal : path.IsNormal) (below : path ≠ ⟨"/"⟩) :
    path.parent? = some path.enclosing := by
  have isName : ∀ piece ∈ path.names, IsName piece := isName_of_mem_names
  rcases List.eq_nil_or_concat path.names with none | ⟨front, last, split⟩
  · rw [normal.eq_ofNames, none] at below
    exact absurd rfl below
  · rw [List.concat_eq_append] at split
    rw [enclosing, split, List.dropLast_concat, normal.eq_ofNames, split]
    exact parent?_ofNames_concat (split ▸ isName)

theorem isNormal_enclosing (path : Path) : path.enclosing.IsNormal :=
  isNormal_ofNames (fun piece member => isName_of_mem_names piece (List.dropLast_subset _ member))

theorem IsNormal.isAbove_self (normal : path.IsNormal) : path.IsAbove path :=
  ⟨normal, List.prefix_rfl⟩

theorem IsAbove.trans {between : Path} (upper : above.IsAbove between)
    (lower : between.IsAbove path) : above.IsAbove path :=
  ⟨upper.normal, upper.leads.trans lower.leads⟩

theorem IsAbove.antisymm {first second : Path} (upper : first.IsAbove second)
    (lower : second.IsAbove first) : first = second :=
  upper.normal.eq_of_names_eq lower.normal
    (upper.leads.eq_of_length (upper.leads.length_le.antisymm lower.leads.length_le))

theorem IsNormal.isAbove_of_parent?_eq_some (normal : path.IsNormal)
    (found : path.parent? = some above) : above.IsAbove path := by
  rcases normal.exists_of_parent?_eq_some found with ⟨aboveNormal, name, names⟩
  exact ⟨aboveNormal, names ▸ List.prefix_append _ _⟩

/-- What is above a path is the path itself or above its parent. -/
theorem IsAbove.eq_or_exists_parent (normal : path.IsNormal) (isAbove : above.IsAbove path) :
    above = path ∨ ∃ parent, path.parent? = some parent ∧ above.IsAbove parent := by
  rcases List.eq_nil_or_concat path.names with none | ⟨front, last, split⟩
  · have noNames : above.names = [] := List.prefix_nil.mp (none ▸ isAbove.leads)
    exact Or.inl (isAbove.normal.eq_of_names_eq normal (noNames.trans none.symm))
  · rw [List.concat_eq_append] at split
    have leads := isAbove.leads
    rw [split, List.prefix_concat_iff, ← split] at leads
    rcases leads with here | higher
    · exact Or.inl (isAbove.normal.eq_of_names_eq normal here)
    · have isName : ∀ piece ∈ front ++ [last], IsName piece := split ▸ isName_of_mem_names
      have frontNames : ∀ piece ∈ front, IsName piece :=
        fun piece member => isName piece (List.mem_append_left _ member)
      refine Or.inr ⟨ofNames front, ?_, isAbove.normal, ?_⟩
      · rw [normal.eq_ofNames, split, parent?_ofNames_concat isName]
      · rwa [names_ofNames frontNames]

theorem IsNormal.length_lt_of_parent?_eq_some (normal : path.IsNormal)
    (found : path.parent? = some above) : above.chars.length < path.chars.length := by
  rcases normal.exists_of_parent?_eq_some found with ⟨aboveNormal, name, names⟩
  have nonempty : name ≠ [] := by
    have isName : name ∈ path.names → IsName name := isName_of_mem_names name
    exact (isName (names ▸ List.mem_append_right _ List.mem_cons_self)).ne_nil
  have positive : 0 < name.length := List.length_pos_iff.mpr nonempty
  rw [aboveNormal.eq_ofNames, normal.eq_ofNames, names, chars_ofNames, chars_ofNames]
  by_cases atRoot : above.names = []
  · simpa [atRoot] using positive
  · simp [joinSegments_concat atRoot]

/-- Induction from the root down: a property passes from the parent of a path to the path. -/
theorem IsNormal.induction_from_root {motive : Path → Prop} (normal : path.IsNormal)
    (step : ∀ path : Path, path.IsNormal → (∀ above, path.parent? = some above → motive above) →
      motive path) : motive path := by
  induction length : path.chars.length using Nat.strong_induction_on generalizing path with
  | _ bound ih =>
      subst length
      apply step path normal
      intro above found
      exact ih _ (normal.length_lt_of_parent?_eq_some found)
        (normal.exists_of_parent?_eq_some found).1 rfl

theorem IsNormal.length_pos (normal : path.IsNormal) : 0 < path.chars.length := by
  rw [normal.eq_ofNames, chars_ofNames]
  exact Nat.succ_pos _

/-- A bound that is not below the length of the text is not used up on the way. -/
theorem IsNormal.ancestorsUpTo_eq (normal : path.IsNormal) {first second : Nat}
    (firstEnough : path.chars.length ≤ first) (secondEnough : path.chars.length ≤ second) :
    path.ancestorsUpTo first = path.ancestorsUpTo second := by
  have nonempty := normal.length_pos
  induction first generalizing path second with
  | zero => omega
  | succ first ih =>
      cases second with
      | zero => omega
      | succ second =>
          rw [ancestorsUpTo, ancestorsUpTo]
          cases found : path.parent? with
          | none => rfl
          | some above =>
              have shorter := normal.length_lt_of_parent?_eq_some found
              have aboveNormal := (normal.exists_of_parent?_eq_some found).1
              simp only [ih aboveNormal (Nat.le_of_lt_succ (shorter.trans_le firstEnough))
                (Nat.le_of_lt_succ (shorter.trans_le secondEnough)) aboveNormal.length_pos]

theorem ancestors_of_parent?_eq_none (noParent : path.parent? = none) :
    path.ancestors = [path] := by
  unfold ancestors
  cases path.chars.length <;> simp [ancestorsUpTo, noParent]

/-- The way up from a path goes on with the way up from its parent. -/
theorem IsNormal.ancestors_of_parent?_eq_some (normal : path.IsNormal)
    (found : path.parent? = some above) : path.ancestors = path :: above.ancestors := by
  have shorter := normal.length_lt_of_parent?_eq_some found
  have aboveNormal := (normal.exists_of_parent?_eq_some found).1
  unfold ancestors
  cases length : path.chars.length with
  | zero => omega
  | succ bound =>
      rw [ancestorsUpTo, found]
      simp only [aboveNormal.ancestorsUpTo_eq (Nat.le_of_lt_succ (length ▸ shorter)) le_rfl]

/-! ### Entries of a directory -/

theorem isAbsolute_of_segments_isName {entry : String}
    (plain : ∀ piece ∈ segments '/' entry.toList, IsName piece) : Path.isAbsolute ⟨entry⟩ = false := by
  rw [Bool.eq_false_iff]
  intro absolute
  rcases isAbsolute_iff.mp absolute with ⟨rest, starts⟩
  have emptyFirst : [] ∈ segments '/' entry.toList := by
    change [] ∈ segments '/' (Path.chars ⟨entry⟩)
    rw [starts, segments_separator_cons]
    exact List.mem_cons_self
  exact (plain [] emptyFirst).ne_nil rfl

/-- Names with slashes between them are gone down from a directory. -/
theorem join_ofNames_segments {entry : String}
    (plain : ∀ piece ∈ segments '/' entry.toList, IsName piece)
    (allNames : ∀ piece ∈ pieces, IsName piece) :
    (ofNames pieces).join ⟨entry⟩ = ofNames (pieces ++ segments '/' entry.toList) := by
  rw [join, if_neg (Bool.eq_false_iff.mp (isAbsolute_of_segments_isName plain)), chars_ofNames,
    if_neg (List.cons_ne_nil _ _)]
  by_cases empty : pieces = []
  · subst empty
    rw [List.nil_append, ofNames, joinSegments_segments]
    rfl
  · have busy : ∀ piece ∈ pieces, piece ≠ [] ∧ '/' ∉ piece :=
      fun piece member => ⟨(allNames piece member).ne_nil, (allNames piece member).slash_not_mem⟩
    have noSlash : ('/' :: joinSegments '/' pieces).getLast? ≠ some '/' := by
      rw [List.getLast?_cons_of_ne_nil (joinSegments_ne_nil empty busy)]
      exact getLast?_joinSegments_ne busy
    have cut : segments '/' (joinSegments '/' pieces ++ '/' :: entry.toList) =
        pieces ++ segments '/' entry.toList := by
      rw [segments_append, segments_joinSegments empty (fun piece member => (busy piece member).2)]
    rw [if_neg noSlash, ofNames, ← cut, joinSegments_segments]
    rfl

theorem isName_of_mem_names_append {entry : String}
    (plain : ∀ piece ∈ segments '/' entry.toList, IsName piece) :
    ∀ piece ∈ path.names ++ segments '/' entry.toList, IsName piece := by
  intro piece member
  exact (List.mem_append.mp member).elim (isName_of_mem_names piece) (plain piece)

theorem IsNormal.join_segments {entry : String} (normal : path.IsNormal)
    (plain : ∀ piece ∈ segments '/' entry.toList, IsName piece) :
    path.join ⟨entry⟩ = ofNames (path.names ++ segments '/' entry.toList) := by
  have isName : ∀ piece ∈ path.names, IsName piece := isName_of_mem_names
  rw [← join_ofNames_segments plain isName, ← normal.eq_ofNames]

theorem IsNormal.names_cleanFrom {entry : String} (normal : path.IsNormal)
    (plain : ∀ piece ∈ segments '/' entry.toList, IsName piece) :
    (path.cleanFrom ⟨entry⟩).names = path.names ++ segments '/' entry.toList := by
  rw [cleanFrom, normal.join_segments plain, names_clean (isAbsolute_ofNames _),
    names_ofNames (isName_of_mem_names_append plain)]

theorem join_ofNames {entry : String} (isName : IsName entry.toList)
    (allNames : ∀ piece ∈ pieces, IsName piece) :
    (ofNames pieces).join ⟨entry⟩ = ofNames (pieces ++ [entry.toList]) := by
  have alone : segments '/' entry.toList = [entry.toList] := segments_of_not_mem isName.slash_not_mem
  rw [← alone]
  apply join_ofNames_segments _ allNames
  simpa [alone] using isName

/-- The parent of an entry of a clean directory is the directory. -/
theorem IsNormal.parent?_join (normal : path.IsNormal) {entry : String}
    (isName : IsName entry.toList) : (path.join ⟨entry⟩).parent? = some path := by
  have allNames : ∀ piece ∈ path.names ++ [entry.toList], IsName piece := by
    intro piece member
    rcases List.mem_append.mp member with inside | last
    · exact isName_of_mem_names piece inside
    · exact List.mem_singleton.mp last ▸ isName
  rw [normal.eq_ofNames, join_ofNames isName isName_of_mem_names, parent?_ofNames_concat allNames]

end Path

end ImportAlias
