import ImportAlias.Proofs.Path.Location

/-!
# What cleaning keeps

Cleaning drops steps of a path and makes up none. So a clean path has no character that the path did
not have, apart from the slashes between its steps and the dot that stands for no step at all.
-/

namespace ImportAlias

/-! ### Characters of joined segments -/

section Joined

variable {separator char : Char}

theorem mem_joinSegments_of_mem {pieces : List (List Char)} {piece : List Char}
    (member : piece ∈ pieces) (inside : char ∈ piece) : char ∈ joinSegments separator pieces := by
  induction pieces with
  | nil => exact absurd member List.not_mem_nil
  | cons first rest ih =>
      cases rest with
      | nil => simpa [List.mem_singleton.mp member] using inside
      | cons next more =>
          simp only [joinSegments_cons_cons, List.mem_append, List.mem_cons]
          rcases List.mem_cons.mp member with rfl | behind
          · exact Or.inl inside
          · exact Or.inr (Or.inr (ih behind))

theorem mem_joinSegments {pieces : List (List Char)}
    (member : char ∈ joinSegments separator pieces) :
    char = separator ∨ ∃ piece ∈ pieces, char ∈ piece := by
  induction pieces with
  | nil => exact absurd member List.not_mem_nil
  | cons first rest ih =>
      cases rest with
      | nil => exact Or.inr ⟨first, List.mem_cons_self, member⟩
      | cons next more =>
          simp only [joinSegments_cons_cons, List.mem_append, List.mem_cons] at member
          rcases member with inFirst | rfl | behind
          · exact Or.inr ⟨first, List.mem_cons_self, inFirst⟩
          · exact Or.inl rfl
          · rcases ih behind with isSeparator | ⟨piece, inside, inPiece⟩
            · exact Or.inl isSeparator
            · exact Or.inr ⟨piece, List.mem_cons_of_mem first inside, inPiece⟩

theorem mem_of_mem_segments {text segment : List Char} (member : segment ∈ segments separator text)
    (inside : char ∈ segment) : char ∈ text := by
  have joined : char ∈ joinSegments separator (segments separator text) :=
    mem_joinSegments_of_mem member inside
  rwa [joinSegments_segments] at joined

end Joined

namespace Path

/-! ### Steps -/

theorem chars_ofSegment (segment : List Char) : (Component.ofSegment segment).chars = segment := by
  unfold Component.ofSegment
  split
  · next dot => exact dot.symm
  · split
    · next dots => exact dots.symm
    · rfl

/-- A step of a path is the root, or it is written as a segment. -/
theorem eq_root_or_chars_mem_segments {path : Path} {step : Component}
    (member : step ∈ path.components) : step = .root ∨ step.chars ∈ segments '/' path.chars := by
  have ofInner {pieces : List (List Char)} (inside : step ∈ pieces.filterMap Component.ofInner?) :
      step.chars ∈ pieces := by
    rcases List.mem_filterMap.mp inside with ⟨segment, present, made⟩
    unfold Component.ofInner? at made
    split at made
    · exact absurd made.symm (Option.some_ne_none step)
    · cases made
      rwa [chars_ofSegment]
  cases cut : segments '/' path.chars with
  | nil => exact absurd cut (segments_ne_nil '/' path.chars)
  | cons first rest =>
      simp only [components, cut] at member
      split at member
      · right
        rcases List.mem_cons.mp member with rfl | behind
        · rw [chars_ofSegment]
          exact List.mem_cons_self
        · exact List.mem_cons_of_mem first (ofInner behind)
      · split at member
        · exact absurd member List.not_mem_nil
        · rcases List.mem_cons.mp member with rfl | behind
          · exact Or.inl rfl
          · exact Or.inr (List.mem_cons_of_mem first (ofInner behind))

/-- One step of cleaning takes up the step or nothing. -/
theorem mem_cleanStep {cleaned : List Component} {next step : Component}
    (member : step ∈ Component.cleanStep cleaned next) : step = next ∨ step ∈ cleaned := by
  unfold Component.cleanStep at member
  split at member
  · exact Or.inr member
  · split at member
    · exact Or.inr (List.mem_cons_of_mem _ member)
    · exact Or.inr member
    · exact List.mem_cons.mp member
  · exact List.mem_cons.mp member

theorem mem_components_of_mem_cleanComponents {path : Path} {step : Component}
    (member : step ∈ path.cleanComponents) : step ∈ path.components := by
  have fromStack {steps cleaned : List Component}
      (inside : step ∈ steps.foldl Component.cleanStep cleaned) : step ∈ cleaned ∨ step ∈ steps := by
    induction steps generalizing cleaned with
    | nil => exact Or.inl inside
    | cons first rest ih =>
        rcases ih inside with before | behind
        · rcases mem_cleanStep before with rfl | earlier
          · exact Or.inr List.mem_cons_self
          · exact Or.inl earlier
        · exact Or.inr (List.mem_cons_of_mem first behind)
  rcases fromStack (List.mem_reverse.mp member) with nowhere | inside
  · exact absurd nowhere List.not_mem_nil
  · exact inside

/-! ### The clean path -/

theorem mem_chars_ofComponents {steps : List Component} {char : Char}
    (member : char ∈ (ofComponents steps).chars) : char = '/' ∨ ∃ step ∈ steps, char ∈ step.chars := by
  have ofJoined {written : List Component}
      (inside : char ∈ joinSegments '/' (written.map Component.chars)) :
      char = '/' ∨ ∃ step ∈ written, char ∈ step.chars := by
    rcases mem_joinSegments inside with slash | ⟨piece, present, inPiece⟩
    · exact Or.inl slash
    · rcases List.mem_map.mp present with ⟨step, isStep, rfl⟩
      exact Or.inr ⟨step, isStep, inPiece⟩
  unfold ofComponents at member
  split at member
  · next rest =>
    rw [chars_ofChars, List.mem_cons] at member
    rcases member with slash | inside
    · exact Or.inl slash
    · rcases ofJoined inside with slash | ⟨step, isStep, inStep⟩
      · exact Or.inl slash
      · exact Or.inr ⟨step, List.mem_cons_of_mem _ isStep, inStep⟩
  · rw [chars_ofChars] at member
    exact ofJoined member

/-- A character of a clean path is one of the path, or it is a slash or a dot. -/
theorem mem_chars_of_mem_chars_clean {path : Path} {char : Char} (member : char ∈ path.clean.chars) :
    char ∈ path.chars ∨ char = '/' ∨ char = '.' := by
  unfold clean at member
  split at member
  · exact Or.inr (Or.inr (List.mem_singleton.mp member))
  · rcases mem_chars_ofComponents member with slash | ⟨step, isStep, inStep⟩
    · exact Or.inr (Or.inl slash)
    · rcases eq_root_or_chars_mem_segments (mem_components_of_mem_cleanComponents isStep) with
        rfl | segment
      · exact absurd inStep List.not_mem_nil
      · exact Or.inl (mem_of_mem_segments segment inStep)

theorem mem_chars_of_mem_chars_join {directory entry : Path} {char : Char}
    (member : char ∈ (directory.join entry).chars) :
    char ∈ entry.chars ∨ char = '/' ∨ (entry.isAbsolute = false ∧ char ∈ directory.chars) := by
  unfold join at member
  split at member
  · exact Or.inl member
  · next relative =>
    rw [Bool.not_eq_true] at relative
    split at member
    · exact Or.inl member
    · split at member
      · rcases List.mem_append.mp (chars_ofChars _ ▸ member) with front | behind
        · exact Or.inr (Or.inr ⟨relative, front⟩)
        · exact Or.inl behind
      · rcases List.mem_append.mp (chars_ofChars _ ▸ member) with front | behind
        · exact Or.inr (Or.inr ⟨relative, front⟩)
        · rcases List.mem_cons.mp behind with slash | inside
          · exact Or.inr (Or.inl slash)
          · exact Or.inl inside

end Path

end ImportAlias
