/-!
# Places in a source text

A place in a source text is counted in bytes of its UTF-8 form. A cursor is such a place together
with the text behind it, and carries the evidence that it was reached by reading the source from its
start.
-/

namespace ImportAlias

/-- The number of bytes that characters take. -/
def byteLength : List Char → Nat
  | [] => 0
  | char :: rest => char.utf8Size + byteLength rest

@[simp]
theorem byteLength_append (first second : List Char) :
    byteLength (first ++ second) = byteLength first + byteLength second := by
  induction first with
  | nil => simp [byteLength]
  | cons char rest ih => simp [byteLength, ih, Nat.add_assoc]

namespace Script

/-- A place in a source text and the text behind it. -/
structure Cursor (source : List Char) where
  offset : Nat
  rest : List Char
  reached : ∃ before, source = before ++ rest ∧ byteLength before = offset

namespace Cursor

/-- The start of a source text. -/
def start (source : List Char) : Cursor source :=
  ⟨0, source, [], rfl, rfl⟩

variable {source : List Char}

/-- The cursor behind some more characters. -/
def drop (count : Nat) (cursor : Cursor source) : Cursor source where
  offset := cursor.offset + byteLength (cursor.rest.take count)
  rest := cursor.rest.drop count
  reached := by
    obtain ⟨before, split, length⟩ := cursor.reached
    refine ⟨before ++ cursor.rest.take count, ?_, ?_⟩
    · rw [List.append_assoc, List.take_append_drop]
      exact split
    · rw [byteLength_append, length]

end Cursor

end Script

end ImportAlias
