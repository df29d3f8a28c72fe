import ImportAlias.Segment

/-!
# Cutting and joining segments

Cutting a text at a separator and joining segments with it undo each other as long as no segment
contains the separator. A separator between two texts is a cut of the whole text, so that whatever
is read segment by segment can be read in two parts.
-/

namespace ImportAlias

variable {separator : Char}

@[simp]
theorem segments_nil : segments separator [] = [[]] :=
  rfl

@[simp]
theorem segments_separator_cons (rest : List Char) :
    segments separator (separator :: rest) = [] :: segments separator rest := by
  rw [segments, if_pos rfl]

theorem segments_of_not_mem {text : List Char} (absent : separator ∉ text) :
    segments separator text = [text] := by
  induction text with
  | nil => rfl
  | cons char rest ih =>
      rw [List.mem_cons, not_or] at absent
      rw [segments, if_neg (Ne.symm absent.1), ih absent.2]

theorem not_mem_of_mem_segments {text segment : List Char}
    (member : segment ∈ segments separator text) : separator ∉ segment := by
  induction text generalizing segment with
  | nil =>
      rw [segments_nil, List.mem_singleton] at member
      subst member
      exact List.not_mem_nil
  | cons char rest ih =>
      unfold segments at member
      split at member
      · rcases List.mem_cons.mp member with rfl | inside
        · exact List.not_mem_nil
        · exact ih inside
      · next charNe =>
        split at member
        · next empty => exact absurd empty (segments_ne_nil separator rest)
        · next head tail cut =>
          rw [cut] at ih
          rcases List.mem_cons.mp member with rfl | inside
          · apply List.not_mem_cons_of_ne_of_not_mem (Ne.symm charNe)
            exact ih List.mem_cons_self
          · exact ih (List.mem_cons_of_mem head inside)

/-- A separator between two texts cuts the whole text there. -/
theorem segments_append (first second : List Char) :
    segments separator (first ++ separator :: second) =
      segments separator first ++ segments separator second := by
  induction first with
  | nil => simp
  | cons char rest ih =>
      simp only [List.cons_append, segments]
      split
      · rw [ih, List.cons_append]
      · cases cut : segments separator rest with
        | nil => exact absurd cut (segments_ne_nil separator rest)
        | cons head tail => rw [ih, cut, List.cons_append, List.cons_append]

@[simp]
theorem joinSegments_nil : joinSegments separator [] = [] :=
  rfl

@[simp]
theorem joinSegments_singleton (segment : List Char) :
    joinSegments separator [segment] = segment :=
  rfl

@[simp]
theorem joinSegments_cons_cons (segment next : List Char) (rest : List (List Char)) :
    joinSegments separator (segment :: next :: rest) =
      segment ++ separator :: joinSegments separator (next :: rest) :=
  rfl

/-- Segments that do not contain the separator are what their join is cut into. -/
theorem segments_joinSegments {pieces : List (List Char)} (nonempty : pieces ≠ [])
    (plain : ∀ piece ∈ pieces, separator ∉ piece) :
    segments separator (joinSegments separator pieces) = pieces := by
  induction pieces with
  | nil => exact absurd rfl nonempty
  | cons piece rest ih =>
      have pieceCut : segments separator piece = [piece] :=
        segments_of_not_mem (plain piece List.mem_cons_self)
      cases rest with
      | nil => exact pieceCut
      | cons next more =>
          have restCut := ih (List.cons_ne_nil next more)
            (fun other inside => plain other (List.mem_cons_of_mem piece inside))
          rw [joinSegments_cons_cons, segments_append, pieceCut, restCut, List.singleton_append]

theorem joinSegments_append_joinSegments (separator : Char) (front : List (List Char))
    (last head : List Char) (behind : List (List Char)) :
    joinSegments separator (front ++ [last]) ++ joinSegments separator (head :: behind) =
      joinSegments separator (front ++ (last ++ head) :: behind) := by
  induction front with
  | nil => cases behind <;> simp
  | cons piece more ih =>
      cases more with
      | nil => simpa using ih
      | cons next others => simpa using ih

theorem joinSegments_concat {pieces : List (List Char)} (nonempty : pieces ≠ [])
    (last : List Char) :
    joinSegments separator (pieces ++ [last]) =
      joinSegments separator pieces ++ separator :: last := by
  induction pieces with
  | nil => exact absurd rfl nonempty
  | cons piece rest ih =>
      cases rest with
      | nil => rfl
      | cons next more => simpa using ih (List.cons_ne_nil next more)

/-- A text behind another one goes on with the last segment of it. -/
theorem segments_append_of_cut {first second : List Char} {front behind : List (List Char)}
    {last head : List Char} (firstCut : segments separator first = front ++ [last])
    (secondCut : segments separator second = head :: behind) :
    segments separator (first ++ second) = front ++ (last ++ head) :: behind := by
  have plain : ∀ piece ∈ front ++ (last ++ head) :: behind, separator ∉ piece := by
    have inFirst : ∀ piece ∈ front ++ [last], separator ∉ piece := by
      intro piece member
      exact not_mem_of_mem_segments (firstCut ▸ member)
    have inSecond : ∀ piece ∈ head :: behind, separator ∉ piece := by
      intro piece member
      exact not_mem_of_mem_segments (secondCut ▸ member)
    simp only [List.forall_mem_append, List.forall_mem_cons] at inFirst inSecond ⊢
    simp_all
  have joined := joinSegments_append_joinSegments separator front last head behind
  rw [← firstCut, ← secondCut, joinSegments_segments, joinSegments_segments] at joined
  rw [joined]
  exact segments_joinSegments (by simp) plain

theorem joinSegments_ne_nil {pieces : List (List Char)} (nonempty : pieces ≠ [])
    (plain : ∀ piece ∈ pieces, piece ≠ [] ∧ separator ∉ piece) :
    joinSegments separator pieces ≠ [] := by
  intro empty
  have cut := segments_joinSegments nonempty (fun piece inside => (plain piece inside).2)
  rw [empty, segments_nil] at cut
  have emptyPiece : [] ∈ pieces := by
    rw [← cut]
    exact List.mem_cons_self
  exact (plain [] emptyPiece).1 rfl

/-- A join of segments that are not empty does not end with the separator. -/
theorem getLast?_joinSegments_ne {pieces : List (List Char)}
    (plain : ∀ piece ∈ pieces, piece ≠ [] ∧ separator ∉ piece) :
    (joinSegments separator pieces).getLast? ≠ some separator := by
  intro last
  rcases List.getLast?_eq_some_iff.mp last with ⟨before, split⟩
  have nonempty : pieces ≠ [] := by
    rintro rfl
    simp at split
  have cut := segments_joinSegments nonempty (fun piece inside => (plain piece inside).2)
  rw [split, segments_append, segments_nil] at cut
  have emptyPiece : [] ∈ pieces := by
    rw [← cut]
    simp
  exact (plain [] emptyPiece).1 rfl

end ImportAlias
