import ImportAlias.Specifier.Replacement

/-!
# Places in a text

A place in a text cuts it into the characters before it and those from it on. The number of bytes
before a place tells it apart from the others.
-/

namespace ImportAlias

theorem byteLength_eq_zero_iff {text : List Char} : byteLength text = 0 ↔ text = [] := by
  cases text with
  | nil => simp [byteLength]
  | cons char rest =>
      have positive := Char.utf8Size_pos char
      simp only [byteLength, List.cons_ne_nil, iff_false]
      omega

theorem charsBefore_append (before rest : List Char) :
    charsBefore (byteLength before) (before ++ rest) = before := by
  induction before with
  | nil => cases rest <;> rfl
  | cons char more ih =>
      have positive := Char.utf8Size_pos char
      rcases Nat.exists_eq_add_of_lt positive with ⟨count, size⟩
      have length : byteLength (char :: more) = (count + byteLength more) + 1 := by
        rw [byteLength]
        omega
      have behind : count + byteLength more + 1 - char.utf8Size = byteLength more := by omega
      rw [length, List.cons_append, charsBefore, behind, ih]
      exact fun impossible => absurd impossible (Nat.succ_ne_zero _)

theorem charsFrom_append (before rest : List Char) :
    charsFrom (byteLength before) (before ++ rest) = rest := by
  have whole := charsBefore_append_charsFrom (byteLength before) (before ++ rest)
  rw [charsBefore_append] at whole
  exact List.append_cancel_left whole

/-- Of two starts of one text, the one with fewer bytes is the start of the other. -/
theorem exists_append_of_byteLength_le {first second firstRest secondRest : List Char}
    (same : first ++ firstRest = second ++ secondRest)
    (shorter : byteLength first ≤ byteLength second) :
    ∃ between, second = first ++ between ∧ firstRest = between ++ secondRest := by
  rcases List.append_eq_append_iff.mp same with ⟨between, split, rest⟩ | ⟨between, split, rest⟩
  · exact ⟨between, split, rest⟩
  · rw [split, byteLength_append] at shorter
    have empty : between = [] := byteLength_eq_zero_iff.mp (by omega)
    subst empty
    rw [List.append_nil] at split
    rw [List.nil_append] at rest
    exact ⟨[], by rw [split, List.append_nil], rest.symm⟩

/-- A text is cut in one way at a place. -/
theorem append_inj_of_byteLength_eq {first second firstRest secondRest : List Char}
    (same : first ++ firstRest = second ++ secondRest)
    (length : byteLength first = byteLength second) : first = second ∧ firstRest = secondRest := by
  constructor
  · rw [← charsBefore_append first firstRest, same, length, charsBefore_append]
  · rw [← charsFrom_append first firstRest, same, length, charsFrom_append]

end ImportAlias
