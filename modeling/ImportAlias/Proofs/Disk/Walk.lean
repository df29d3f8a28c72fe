import ImportAlias.Disk.Tree
import ImportAlias.Proofs.Path.Location
import Mathlib.Data.List.Induction

/-!
# Walks along segments of a path

A walk goes on behind a start as it would from where the start leads to, with whatever links are
left. So whatever holds of two ends from every location and with every number of links holds of them
behind every start as well. As long as every double dot leaves a directory that is where the text
says, the double dots can be taken out in the text alone, and the walk leads to the same place.
-/

namespace ImportAlias

namespace Tree

open ImportAlias.Path

variable {root : Tree} {links : Nat} {location : Location} {segment : List Char}
  {front rest : List (List Char)}

/-! ### Directories -/

/-- There is a directory at the location. -/
def HasDirectory (root : Tree) (location : Location) : Prop :=
  ∃ entries, root.at? location = some (directory entries)

/-- The location, if there is a directory. -/
def directoryAt? (root : Tree) (location : Location) : Option Location :=
  match root.at? location with
  | some (directory _) => some location
  | _ => none

theorem directoryAt?_eq_some_iff {found : Location} :
    root.directoryAt? location = some found ↔ found = location ∧ root.HasDirectory location := by
  unfold directoryAt? HasDirectory
  split <;> simp_all [eq_comm]

theorem hasDirectory_iff : root.HasDirectory location ↔ (root.directoryAt? location).isSome := by
  simp [Option.isSome_iff_exists, directoryAt?_eq_some_iff]

instance : Decidable (root.HasDirectory location) :=
  decidable_of_iff _ hasDirectory_iff.symm

theorem at?_append (root : Tree) (above below : Location) :
    root.at? (above ++ below) = (root.at? above).bind (·.at? below) := by
  induction above generalizing root with
  | nil => simp [at?]
  | cons name more ih =>
      cases root with
      | file | link => simp [at?]
      | directory entries =>
          simp only [List.cons_append, at?]
          cases fieldAt? name entries with
          | none => rfl
          | some entry => exact ih entry

/-- Whatever is above a directory is one. -/
theorem HasDirectory.of_append {above below : Location} (found : root.HasDirectory (above ++ below)) :
    root.HasDirectory above := by
  rcases found with ⟨entries, found⟩
  rw [at?_append] at found
  rcases Option.bind_eq_some_iff.mp found with ⟨entry, atAbove, inside⟩
  cases below with
  | nil =>
      cases inside
      exact ⟨entries, atAbove⟩
  | cons name more =>
      cases entry with
      | file | link => simp [at?] at inside
      | directory others => exact ⟨others, atAbove⟩

theorem HasDirectory.dropLast (found : root.HasDirectory location) :
    root.HasDirectory location.dropLast := by
  rcases List.eq_nil_or_concat location with rfl | ⟨above, name, rfl⟩
  · exact found
  · rw [List.concat_eq_append] at *
    simpa using found.of_append

/-! ### Walks with a common start -/

section Related

variable (root) (Related : Option Location → Option Location → Prop)
  (first second : List (List Char))

theorem walk_related {onLink : Location → List (List Char) → Option Location}
    (nowhere : Related none none)
    (ends : ∀ location, Related (walk root true onLink location first)
      (walk root true onLink location second))
    (linked : ∀ location front, Related (onLink location (front ++ first))
      (onLink location (front ++ second))) (location : Location) (front : List (List Char)) :
    Related (walk root true onLink location (front ++ first))
      (walk root true onLink location (front ++ second)) := by
  induction front generalizing location with
  | nil => exact ends location
  | cons segment more ih =>
      simp only [List.cons_append, walk]
      cases root.at? location with
      | none => exact nowhere
      | some entry =>
          cases entry with
          | file | link => exact nowhere
          | directory entries =>
              dsimp only
              split
              · exact ih location
              · split
                · exact ih location.dropLast
                · cases fieldAt? (String.ofList segment) entries with
                  | none => exact nowhere
                  | some inner =>
                      cases inner with
                      | file | directory => exact ih _
                      | link target =>
                          simp only [Bool.not_true, Bool.false_eq_true, and_false, if_false,
                            ← List.append_assoc]
                          exact linked _ _

/-- What holds of two ends holds of them behind every start. -/
theorem walkLinks_related (nowhere : Related none none)
    (ends : ∀ links location, Related (walkLinks root true links location first)
      (walkLinks root true links location second))
    (links : Nat) (location : Location) (front : List (List Char)) :
    Related (walkLinks root true links location (front ++ first))
      (walkLinks root true links location (front ++ second)) := by
  induction links generalizing location front with
  | zero =>
      exact walk_related root Related first second nowhere (ends 0) (fun _ _ => nowhere) location
        front
  | succ links ih =>
      exact walk_related root Related first second nowhere (ends (links + 1)) ih location front

end Related

/-! ### Single steps -/

theorem walkLinks_nil : walkLinks root true links location [] = some location := by
  cases links <;> rfl

/-- Nothing is reached but from a directory. -/
theorem walkLinks_cons_eq_none (noDirectory : root.directoryAt? location = none) :
    walkLinks root true links location (segment :: rest) = none := by
  unfold directoryAt? at noDirectory
  cases links <;> simp only [walkLinks, walk] <;> split at noDirectory <;> simp_all

/-- A segment that carries no step needs a directory and stays in it. -/
theorem walkLinks_idle_cons (idle : isIdleSegment segment) :
    walkLinks root true links location (segment :: rest) =
      (root.directoryAt? location).bind (walkLinks root true links · rest) := by
  simp only [isIdleSegment, decide_eq_true_eq] at idle
  unfold directoryAt?
  cases links <;> simp only [walkLinks, walk, idle, if_true] <;> split <;> simp_all

/-- A double dot goes up from a directory. -/
theorem walkLinks_dots_cons (found : root.HasDirectory location) :
    walkLinks root true links location (['.', '.'] :: rest) =
      walkLinks root true links location.dropLast rest := by
  rcases found with ⟨entries, found⟩
  cases links <;> simp [walkLinks, walk, found]

/-- A name goes down to a directory of that name. -/
theorem walkLinks_name_cons (isName : IsName segment)
    (found : root.HasDirectory (location ++ [String.ofList segment])) :
    walkLinks root true links location (segment :: rest) =
      walkLinks root true links (location ++ [String.ofList segment]) rest := by
  rcases isName_iff.mp isName with ⟨nonempty, notDot, notDots, _⟩
  rcases found.of_append with ⟨entries, here⟩
  rcases found with ⟨others, below⟩
  rw [at?_append, here, Option.bind_some, at?] at below
  rcases Option.bind_eq_some_iff.mp below with ⟨entry, isEntry, isDirectory⟩
  cases isDirectory
  cases links <;> simp [walkLinks, walk, here, nonempty, notDot, notDots, isEntry]

/-! ### Walks as the text says -/

/-- The location that segments lead to if only their text counts. -/
def locationOf (pieces : List (List Char)) : Location :=
  (pieces.foldl enter []).map String.ofList

/-- A segment without a step makes no difference in front of another segment, which needs the
directory as well. -/
theorem walkLinks_append_idle_cons {idleSegment : List Char} (idle : isIdleSegment idleSegment)
    (front : List (List Char)) :
    walkLinks root true links location (front ++ idleSegment :: segment :: rest) =
      walkLinks root true links location (front ++ segment :: rest) := by
  apply walkLinks_related root Eq _ _ rfl
  intro links location
  rw [walkLinks_idle_cons idle]
  cases found : root.directoryAt? location with
  | none => exact (walkLinks_cons_eq_none found).symm
  | some directory =>
      cases (directoryAt?_eq_some_iff.mp found).1
      rfl

/-- At the end of a walk it stays where a directory is. -/
theorem walkLinks_append_idle (idle : isIdleSegment segment) (front : List (List Char)) :
    walkLinks root true links location (front ++ [segment]) =
      (walkLinks root true links location front).bind root.directoryAt? := by
  have atEnd := walkLinks_related root (fun whole start => whole = start.bind root.directoryAt?)
    [segment] [] rfl (by
      intro links location
      rw [walkLinks_idle_cons idle, walkLinks_nil]
      cases found : root.directoryAt? location with
      | none => exact found.symm
      | some directory =>
          cases (directoryAt?_eq_some_iff.mp found).1
          exact walkLinks_nil.trans found.symm) links location front
  rwa [List.append_nil] at atEnd

/-- A walk that goes on behind a start goes on in a directory. -/
theorem exists_directory_of_walkLinks_append_cons {reached : Location}
    (leads : walkLinks root true links location (front ++ segment :: rest) = some reached) :
    ∃ found, (walkLinks root true links location front).bind root.directoryAt? = some found := by
  have inDirectory := walkLinks_related root
    (fun whole start => whole.isSome → ∃ found, start.bind root.directoryAt? = some found)
    (segment :: rest) [] (by simp) (by
      intro links location leads
      cases found : root.directoryAt? location with
      | none =>
          rw [walkLinks_cons_eq_none found] at leads
          exact absurd leads Bool.false_ne_true
      | some directory => exact ⟨directory, by rw [walkLinks_nil]; exact found⟩) links location front
  rw [List.append_nil] at inDirectory
  exact inDirectory (by simp [leads])

/-- Names lead down to a directory if it is there. -/
theorem walkLinks_names_append {names : List (List Char)} (isName : ∀ name ∈ names, IsName name)
    (found : root.HasDirectory (location ++ names.map String.ofList)) :
    walkLinks root true links location (names ++ rest) =
      walkLinks root true links (location ++ names.map String.ofList) rest := by
  induction names generalizing location with
  | nil => simp
  | cons name more ih =>
      rw [List.map_cons, List.append_cons] at found
      have inside : ∀ other ∈ more, IsName other :=
        fun other member => isName other (List.mem_cons_of_mem name member)
      rw [List.cons_append, walkLinks_name_cons (isName name List.mem_cons_self) found.of_append,
        ih inside found, List.map_cons, List.append_assoc, List.singleton_append]

/-- Every double dot leaves a directory that is at the place that the text says. -/
def LeavesDirectories (root : Tree) (pieces : List (List Char)) : Prop :=
  ∀ before behind, pieces = before ++ ['.', '.'] :: behind → root.HasDirectory (locationOf before)

theorem leavesDirectories_iff {pieces : List (List Char)} :
    root.LeavesDirectories pieces ↔ ∀ count < pieces.length, pieces[count]? = some ['.', '.'] →
      root.HasDirectory (locationOf (pieces.take count)) := by
  constructor
  · intro leaves count inside isDots
    apply leaves (pieces.take count) (pieces.drop (count + 1))
    rcases List.getElem?_eq_some_iff.mp isDots with ⟨bound, isDots⟩
    rw [← isDots, ← List.drop_eq_getElem_cons bound, List.take_append_drop]
  · rintro counted before behind rfl
    simpa using counted before.length (by simp) (by simp)

instance {pieces : List (List Char)} : Decidable (root.LeavesDirectories pieces) :=
  decidable_of_iff _ leavesDirectories_iff.symm

theorem LeavesDirectories.of_append (leaves : root.LeavesDirectories (front ++ rest)) :
    root.LeavesDirectories front := by
  rintro before behind rfl
  exact leaves before (behind ++ rest) (by simp)

theorem leavesDirectories_of_not_mem {pieces : List (List Char)} (goesDown : ['.', '.'] ∉ pieces) :
    root.LeavesDirectories pieces := by
  rintro before behind rfl
  simp at goesDown

theorem isName_of_mem_steps {pieces : List (List Char)} (noSlash : ∀ piece ∈ pieces, '/' ∉ piece) :
    ∀ name ∈ pieces.foldl enter [], IsName name :=
  isName_of_mem_foldl_enter (fun _ member => absurd member List.not_mem_nil) noSlash

/-- In front of a last part, segments that leave directories count by their text alone. -/
theorem walkLinks_foldl_enter_append {pieces : List (List Char)}
    (noSlash : ∀ piece ∈ pieces, '/' ∉ piece) (leaves : root.LeavesDirectories pieces) :
    walkLinks root true links [] (pieces.foldl enter [] ++ segment :: rest) =
      walkLinks root true links [] (pieces ++ segment :: rest) := by
  -- What is in front of the last of these segments is replaced by its names first.
  induction pieces using List.reverseRecOn generalizing segment rest with
  | nil => rfl
  | append_singleton before last ih =>
      have inside : ∀ piece ∈ before, '/' ∉ piece :=
        fun piece member => noSlash piece (List.mem_append_left _ member)
      have isName := isName_of_mem_steps inside
      rw [List.foldl_append, List.foldl_cons, List.foldl_nil, List.append_assoc,
        List.singleton_append, ← ih inside leaves.of_append]
      by_cases idle : isIdleSegment last
      · rw [walkLinks_append_idle_cons idle, enter, if_pos idle]
      · by_cases up : last = ['.', '.']
        · subst up
          have found : root.HasDirectory ([] ++ (before.foldl enter []).map String.ofList) :=
            leaves before [] rfl
          have above : root.HasDirectory ([] ++ (before.foldl enter []).dropLast.map String.ofList) := by
            simpa [List.map_dropLast] using found.dropLast
          have isNameAbove : ∀ name ∈ (before.foldl enter []).dropLast, IsName name :=
            fun name member => isName name (List.dropLast_subset _ member)
          rw [walkLinks_names_append isName found, walkLinks_dots_cons found, enter, if_neg idle,
            if_pos rfl, walkLinks_names_append isNameAbove above, List.nil_append, List.nil_append,
            List.map_dropLast]
        · rw [enter, if_neg idle, if_neg up, List.append_assoc, List.singleton_append]

/-- The directory that is reached by segments that leave directories is the one that their text
says. -/
theorem walkLinks_foldl_enter_bind {pieces : List (List Char)}
    (noSlash : ∀ piece ∈ pieces, '/' ∉ piece) (leaves : root.LeavesDirectories pieces) :
    (walkLinks root true links [] (pieces.foldl enter [])).bind root.directoryAt? =
      (walkLinks root true links [] pieces).bind root.directoryAt? := by
  have idle : isIdleSegment [] := by decide
  rw [← walkLinks_append_idle idle, ← walkLinks_append_idle idle]
  exact walkLinks_foldl_enter_append noSlash leaves

/-! ### Trees with one file -/

/-- The tree with a file at the end of the names, and with nothing but the directories on the way to
it. -/
def branch : List (List Char) → Tree
  | [] => file ""
  | name :: rest => directory [(String.ofList name, branch rest)]

theorem walkLinks_branch_cons {name : List Char} {behind : List (List Char)} (isName : IsName name)
    (here : root.at? location = some (branch (name :: behind))) :
    walkLinks root true links location (name :: rest) =
      walkLinks root true links (location ++ [String.ofList name]) rest := by
  rcases isName_iff.mp isName with ⟨nonempty, notDot, notDots, _⟩
  cases behind <;> cases links <;>
    simp [walkLinks, walk, here, branch, fieldAt?, nonempty, notDot, notDots]

/-- Below the start of the way to the only file, names lead nowhere but along this way. -/
theorem walkLinks_branch {names behind : List (List Char)} (isName : ∀ name ∈ names, IsName name)
    (here : root.at? location = some (branch behind)) :
    (walkLinks root true links location names).bind root.at? =
      if names <+: behind then some (branch (behind.drop names.length)) else none := by
  induction names generalizing location behind with
  | nil => simp [walkLinks_nil, here]
  | cons name more ih =>
      have firstName : IsName name := isName name List.mem_cons_self
      cases behind with
      | nil =>
          have noDirectory : root.directoryAt? location = none := by
            simp [directoryAt?, here, branch]
          simp [walkLinks_cons_eq_none noDirectory]
      | cons next behind =>
          by_cases same : name = next
          · subst same
            have below : root.at? (location ++ [String.ofList name]) = some (branch behind) := by
              simp [at?_append, here, branch, at?, fieldAt?]
            rw [walkLinks_branch_cons firstName here,
              ih (fun other member => isName other (List.mem_cons_of_mem name member)) below]
            simp only [List.cons_prefix_cons, true_and, List.length_cons, List.drop_succ_cons]
          · rcases isName_iff.mp firstName with ⟨nonempty, notDot, notDots, _⟩
            have apart : String.ofList next ≠ String.ofList name := by
              rw [Ne, String.ofList_inj]
              exact Ne.symm same
            have nowhere : walkLinks root true links location (name :: more) = none := by
              cases links <;>
                simp [walkLinks, walk, here, branch, fieldAt?, nonempty, notDot, notDots, apart]
            have notAlong : ¬name :: more <+: next :: behind :=
              fun along => same (List.cons_prefix_cons.mp along).1
            rw [nowhere, Option.bind_none, if_neg notAlong]

end Tree

end ImportAlias
