/-!
# Segments of a text

A module specifier and a path are both read as segments between slashes. This file cuts a list of
characters at a separator and puts the segments together again.
-/

namespace ImportAlias

/-- The segments of a text between the occurrences of a separator; there is always at least one. -/
def segments (separator : Char) : List Char → List (List Char)
  | [] => [[]]
  | char :: rest =>
    if char = separator then
      [] :: segments separator rest
    else
      match segments separator rest with
      | [] => [[char]]
      | head :: tail => (char :: head) :: tail

/-- The segments written one after the other with the separator between them. -/
def joinSegments (separator : Char) : List (List Char) → List Char
  | [] => []
  | [segment] => segment
  | segment :: rest => segment ++ separator :: joinSegments separator rest

theorem segments_ne_nil (separator : Char) (text : List Char) : segments separator text ≠ [] := by
  cases text with
  | nil => simp [segments]
  | cons char rest =>
    unfold segments
    split
    · simp
    · split <;> simp

/-- Putting the segments together gives the text back. -/
theorem joinSegments_segments (separator : Char) (text : List Char) :
    joinSegments separator (segments separator text) = text := by
  induction text with
  | nil => rfl
  | cons char rest ih =>
    have nonempty := segments_ne_nil separator rest
    unfold segments
    split
    · next equal =>
      cases tail : segments separator rest with
      | nil => exact absurd tail nonempty
      | cons head more => simp [joinSegments, ← tail, ih, equal]
    · cases tail : segments separator rest with
      | nil => exact absurd tail nonempty
      | cons head more =>
        rw [tail] at ih
        cases more with
        | nil => simpa [joinSegments] using ih
        | cons second others => simpa [joinSegments] using ih

end ImportAlias
