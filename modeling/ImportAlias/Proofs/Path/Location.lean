import ImportAlias.Path.Basic
import ImportAlias.Proofs.Path.Segment

/-!
# Where absolute paths lead

A clean absolute path is a list of names from the root down. Reading a text segment by segment
walks from one such list to another: an idle segment stays, a double dot goes up, and at the root it
stays too, and any other segment goes down. Cleaning an absolute path writes the names that the walk
from the root arrives at, so questions about cleaned paths become questions about walks, and a walk
along a joined path is one walk after the other.
-/

namespace ImportAlias

namespace Path

/-- A segment that leads down to an entry of its own name. -/
def IsName (segment : List Char) : Prop :=
  isIdleSegment segment = false ∧ segment ≠ ['.', '.'] ∧ '/' ∉ segment

instance (segment : List Char) : Decidable (IsName segment) :=
  inferInstanceAs (Decidable (_ ∧ _))

/-- The names from the root down after one more segment. -/
def enter (names : List (List Char)) (segment : List Char) : List (List Char) :=
  if isIdleSegment segment then names
  else if segment = ['.', '.'] then names.dropLast
  else names ++ [segment]

/-- The names from the root down after all segments of a text. -/
def walk (names : List (List Char)) (text : List Char) : List (List Char) :=
  (segments '/' text).foldl enter names

/-- The names from the root down that an absolute path leads to. -/
def names (path : Path) : List (List Char) :=
  walk [] path.chars

/-- The clean absolute path of names from the root down. -/
def ofNames (names : List (List Char)) : Path :=
  ofChars ('/' :: joinSegments '/' names)

theorem isName_iff {segment : List Char} :
    IsName segment ↔ segment ≠ [] ∧ segment ≠ ['.'] ∧ segment ≠ ['.', '.'] ∧ '/' ∉ segment := by
  simp [IsName, isIdleSegment, and_assoc]

theorem IsName.ne_nil {segment : List Char} (isName : IsName segment) : segment ≠ [] :=
  (isName_iff.mp isName).1

theorem IsName.slash_not_mem {segment : List Char} (isName : IsName segment) : '/' ∉ segment :=
  isName.2.2

theorem isAbsolute_iff {path : Path} : path.isAbsolute ↔ ∃ rest, path.chars = '/' :: rest := by
  unfold isAbsolute
  cases path.chars <;> simp

theorem chars_append (path : Path) (text : String) :
    Path.chars ⟨path.text ++ text⟩ = path.chars ++ text.toList :=
  String.toList_append ..

/-- Text behind an absolute path is still behind the root. -/
theorem isAbsolute_append {path : Path} (absolute : path.isAbsolute) (text : String) :
    Path.isAbsolute ⟨path.text ++ text⟩ := by
  rcases isAbsolute_iff.mp absolute with ⟨rest, chars⟩
  refine isAbsolute_iff.mpr ⟨rest ++ text.toList, ?_⟩
  rw [chars_append, chars, List.cons_append]

/-! ### Walks -/

theorem enter_of_isName {names : List (List Char)} {segment : List Char}
    (isName : IsName segment) : enter names segment = names ++ [segment] := by
  rw [enter, if_neg (Bool.eq_false_iff.mp isName.1), if_neg isName.2.1]

@[simp]
theorem walk_nil (names : List (List Char)) : walk names [] = names :=
  rfl

/-- A walk along two texts with a slash between them is one walk after the other. -/
theorem walk_append (names : List (List Char)) (first second : List Char) :
    walk names (first ++ '/' :: second) = walk (walk names first) second := by
  rw [walk, segments_append, List.foldl_append]
  rfl

theorem walk_slash_cons (names : List (List Char)) (text : List Char) :
    walk names ('/' :: text) = walk names text :=
  walk_append names [] text

/-- A slash at the end of a text makes no difference. -/
theorem walk_concat_slash (names : List (List Char)) (text : List Char) :
    walk names (text ++ ['/']) = walk names text := by
  rw [walk_append, walk_nil]

/-- A slash where two texts meet keeps their segments apart. -/
theorem walk_append_of_slash {text rest : List Char}
    (slash : text.getLast? = some '/' ∨ rest.head? = some '/') (names : List (List Char)) :
    walk names (text ++ rest) = walk (walk names text) rest := by
  rcases slash with atEnd | atStart
  · rcases List.getLast?_eq_some_iff.mp atEnd with ⟨before, rfl⟩
    rw [List.append_assoc, List.singleton_append, walk_append, walk_concat_slash]
  · rcases List.head?_eq_some_iff.mp atStart with ⟨behind, rfl⟩
    rw [walk_append, walk_slash_cons]

/-- Every name on the way is one, whatever the segments are. -/
theorem isName_of_mem_foldl_enter {names pieces : List (List Char)}
    (fromNames : ∀ name ∈ names, IsName name) (noSlash : ∀ piece ∈ pieces, '/' ∉ piece) :
    ∀ name ∈ pieces.foldl enter names, IsName name := by
  induction pieces generalizing names with
  | nil => exact fromNames
  | cons segment rest ih =>
      rw [List.foldl_cons]
      apply ih
      · intro name member
        unfold enter at member
        split at member
        · exact fromNames name member
        · next busy =>
          split at member
          · exact fromNames name (List.dropLast_subset names member)
          · next down =>
            rcases List.mem_append.mp member with before | last
            · exact fromNames name before
            · rw [List.mem_singleton] at last
              subst last
              exact ⟨Bool.eq_false_iff.mpr busy, down, noSlash name List.mem_cons_self⟩
      · exact fun other inside => noSlash other (List.mem_cons_of_mem segment inside)

theorem isName_of_mem_walk {names : List (List Char)} {text : List Char}
    (fromNames : ∀ name ∈ names, IsName name) : ∀ name ∈ walk names text, IsName name :=
  isName_of_mem_foldl_enter fromNames (fun _ member => not_mem_of_mem_segments member)

theorem isName_of_mem_names {path : Path} : ∀ name ∈ path.names, IsName name :=
  isName_of_mem_walk (fun _ member => absurd member List.not_mem_nil)

/-- Walking along names goes down all of them. -/
theorem foldl_enter_of_isName {names pieces : List (List Char)}
    (isName : ∀ piece ∈ pieces, IsName piece) : pieces.foldl enter names = names ++ pieces := by
  induction pieces generalizing names with
  | nil => simp
  | cons piece rest ih =>
      rw [List.foldl_cons, enter_of_isName (isName piece List.mem_cons_self),
        ih (fun other inside => isName other (List.mem_cons_of_mem piece inside)),
        List.append_assoc, List.singleton_append]

/-- Walking up goes up one name for every double dot. -/
theorem foldl_enter_replicate (names : List (List Char)) (count : Nat) :
    (List.replicate count ['.', '.']).foldl enter names = names.take (names.length - count) := by
  induction count generalizing names with
  | zero => simp
  | succ count ih =>
      have up : enter names ['.', '.'] = names.dropLast := rfl
      rw [List.replicate_succ, List.foldl_cons, up, ih, List.dropLast_eq_take, List.take_take,
        List.length_take]
      congr 1
      omega

/-! ### Cleaning -/

/-- What a segment does to the names on the way is what its step does to the steps. -/
theorem step_cases (segment : List Char) :
    (Component.ofInner? segment = none ∧ ∀ names, enter names segment = names) ∨
      (Component.ofInner? segment = some .parent ∧ ∀ names, enter names segment = names.dropLast) ∨
      (Component.ofInner? segment = some (.name segment) ∧
        ∀ names, enter names segment = names ++ [segment]) := by
  unfold Component.ofInner? enter isIdleSegment Component.ofSegment
  by_cases idle : segment = [] ∨ segment = ['.']
  · left
    simp [idle]
  · rcases not_or.mp idle with ⟨nonempty, notDot⟩
    right
    by_cases up : segment = ['.', '.']
    · left
      simp [up]
    · right
      simp [nonempty, notDot, up]

/-- Cleaning keeps the names on a stack with the last one on top and the root at the bottom. -/
theorem foldl_cleanStep (names : List (List Char)) (pieces : List (List Char)) :
    (pieces.filterMap Component.ofInner?).foldl Component.cleanStep
        ((names.map Component.name).reverse ++ [.root]) =
      ((pieces.foldl enter names).map Component.name).reverse ++ [.root] := by
  -- One step of cleaning on the stack is one step of the walk.
  induction pieces generalizing names with
  | nil => rfl
  | cons segment rest ih =>
      rw [List.foldl_cons, ← ih]
      rcases step_cases segment with ⟨noStep, stays⟩ | ⟨step, up⟩ | ⟨step, down⟩
      · rw [List.filterMap_cons_none noStep, stays]
      · rw [List.filterMap_cons_some step, List.foldl_cons, up]
        congr 1
        rcases List.eq_nil_or_concat names with rfl | ⟨above, last, rfl⟩
        · rfl
        · simp [Component.cleanStep]
      · rw [List.filterMap_cons_some step, List.foldl_cons, down]
        simp [Component.cleanStep]

theorem components_of_chars {path : Path} {rest : List Char} (chars : path.chars = '/' :: rest) :
    path.components = .root :: (segments '/' rest).filterMap Component.ofInner? := by
  simp [components, chars, segments_ne_nil]

theorem cleanComponents_of_isAbsolute {path : Path} (absolute : path.isAbsolute) :
    path.cleanComponents = .root :: path.names.map Component.name := by
  rcases isAbsolute_iff.mp absolute with ⟨rest, chars⟩
  have namesEq : path.names = (segments '/' rest).foldl enter [] := by
    rw [names, chars, walk_slash_cons, walk]
  have folded := foldl_cleanStep [] (segments '/' rest)
  rw [List.map_nil, List.reverse_nil, List.nil_append, ← namesEq] at folded
  rw [cleanComponents, components_of_chars chars, List.foldl_cons]
  change ((List.filterMap _ _).foldl _ [Component.root]).reverse = _
  rw [folded, List.reverse_append, List.reverse_reverse]
  rfl

/-- Cleaning an absolute path writes the names that it leads to. -/
theorem clean_of_isAbsolute {path : Path} (absolute : path.isAbsolute) :
    path.clean = ofNames path.names := by
  have joined : (path.names.map Component.name).map Component.chars = path.names := by
    rw [List.map_map]
    exact List.map_id' path.names
  rw [clean, cleanComponents_of_isAbsolute absolute]
  simp only [ofComponents, joined, ofNames]

@[simp]
theorem chars_ofNames (names : List (List Char)) :
    (ofNames names).chars = '/' :: joinSegments '/' names :=
  chars_ofChars _

theorem isAbsolute_ofNames (names : List (List Char)) : (ofNames names).isAbsolute :=
  isAbsolute_iff.mpr ⟨_, chars_ofNames names⟩

theorem segments_ofNames {pieces : List (List Char)} (nonempty : pieces ≠ [])
    (isName : ∀ piece ∈ pieces, IsName piece) : segments '/' (ofNames pieces).chars = [] :: pieces := by
  rw [chars_ofNames, segments_separator_cons,
    segments_joinSegments nonempty (fun piece inside => (isName piece inside).slash_not_mem)]

/-- A clean absolute path leads to its names. -/
theorem names_ofNames {pieces : List (List Char)} (isName : ∀ piece ∈ pieces, IsName piece) :
    (ofNames pieces).names = pieces := by
  rw [names, chars_ofNames, walk_slash_cons, walk]
  by_cases empty : pieces = []
  · subst empty
    rfl
  · rw [segments_joinSegments empty (fun piece inside => (isName piece inside).slash_not_mem),
      foldl_enter_of_isName isName, List.nil_append]

/-- Every name is a step of a path. -/
theorem filterMap_ofInner?_of_isName {pieces : List (List Char)}
    (isName : ∀ piece ∈ pieces, IsName piece) :
    pieces.filterMap Component.ofInner? = pieces.map Component.name := by
  induction pieces with
  | nil => rfl
  | cons piece rest ih =>
      rcases isName_iff.mp (isName piece List.mem_cons_self) with ⟨nonempty, notDot, notDots, _⟩
      have step : Component.ofInner? piece = some (.name piece) := by
        simp [Component.ofInner?, Component.ofSegment, nonempty, notDot, notDots]
      rw [List.filterMap_cons_some step, List.map_cons,
        ih (fun other inside => isName other (List.mem_cons_of_mem piece inside))]

/-- The steps of a clean absolute path are the root and its names. -/
theorem components_ofNames {pieces : List (List Char)} (isName : ∀ piece ∈ pieces, IsName piece) :
    (ofNames pieces).components = .root :: pieces.map Component.name := by
  rw [components_of_chars (chars_ofNames pieces)]
  congr 1
  by_cases empty : pieces = []
  · subst empty
    rfl
  · rw [segments_joinSegments empty (fun piece inside => (isName piece inside).slash_not_mem),
      filterMap_ofInner?_of_isName isName]

theorem isAbsolute_clean {path : Path} (absolute : path.isAbsolute) : path.clean.isAbsolute := by
  rw [clean_of_isAbsolute absolute]
  exact isAbsolute_ofNames path.names

/-- Cleaning leads to the same place. -/
theorem names_clean {path : Path} (absolute : path.isAbsolute) : path.clean.names = path.names := by
  rw [clean_of_isAbsolute absolute]
  exact names_ofNames isName_of_mem_names

/-- Absolute paths are cleaned to one path exactly if they lead to one place. -/
theorem clean_eq_clean_iff {first second : Path} (firstAbsolute : first.isAbsolute)
    (secondAbsolute : second.isAbsolute) :
    first.clean = second.clean ↔ first.names = second.names := by
  constructor
  · intro equal
    rw [← names_clean firstAbsolute, equal, names_clean secondAbsolute]
  · intro equal
    rw [clean_of_isAbsolute firstAbsolute, equal, clean_of_isAbsolute secondAbsolute]

/-! ### Joining -/

theorem join_of_isAbsolute {entry : Path} (absolute : entry.isAbsolute) (directory : Path) :
    directory.join entry = entry :=
  if_pos absolute

theorem isAbsolute_join {directory : Path} (absolute : directory.isAbsolute) (entry : Path) :
    (directory.join entry).isAbsolute := by
  rcases isAbsolute_iff.mp absolute with ⟨rest, chars⟩
  unfold join
  split
  · assumption
  · rw [if_neg (by simp [chars])]
    split <;> simp [isAbsolute_iff, chars]

/-- A relative entry is walked to from where the directory leads. -/
theorem names_join {directory entry : Path} (absolute : directory.isAbsolute)
    (relative : entry.isAbsolute = false) :
    (directory.join entry).names = walk directory.names entry.chars := by
  rcases isAbsolute_iff.mp absolute with ⟨rest, chars⟩
  rw [join, if_neg (Bool.eq_false_iff.mp relative), if_neg (by simp [chars])]
  split
  · next slashAtEnd =>
    rcases List.getLast?_eq_some_iff.mp slashAtEnd with ⟨before, split⟩
    rw [names, chars_ofChars, split, List.append_assoc, List.singleton_append, walk_append, names,
      split, walk_concat_slash]
  · rw [names, chars_ofChars, walk_append, names]

theorem isAbsolute_cleanFrom {directory : Path} (absolute : directory.isAbsolute) (entry : Path) :
    (directory.cleanFrom entry).isAbsolute :=
  isAbsolute_clean (isAbsolute_join absolute entry)

end Path

end ImportAlias
