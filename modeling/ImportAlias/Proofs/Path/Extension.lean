import ImportAlias.Proofs.Path.Cleaning
import ImportAlias.Proofs.Path.Parent

/-!
# Extensions of paths

The extension of a path is the part of its last name behind the last dot. So a text with a dot at its
start that is written behind a name leaves only its own last part to be the extension, and an extension
has neither a dot nor a slash.
-/

namespace ImportAlias

/-- The part of a text behind its last dot, or the whole text if there is no dot. -/
def lastPart (text : List Char) : List Char :=
  (segments '.' text).getLast (segments_ne_nil '.' text)

variable {text : List Char}

theorem dot_not_mem_lastPart (text : List Char) : '.' ∉ lastPart text :=
  not_mem_of_mem_segments (List.getLast_mem _)

theorem lastPart_of_not_mem (noDot : '.' ∉ text) : lastPart text = text := by
  simp only [lastPart, segments_of_not_mem noDot, List.getLast_singleton]

theorem lastPart_dot_cons (text : List Char) : lastPart ('.' :: text) = lastPart text := by
  simp only [lastPart, segments_separator_cons]
  exact List.getLast_cons (segments_ne_nil '.' text)

/-- Dots at the start of a text do not count for its last part. -/
theorem lastPart_dropWhile (text : List Char) :
    lastPart (text.dropWhile (· = '.')) = lastPart text := by
  induction text with
  | nil => rfl
  | cons char rest ih =>
      by_cases dot : char = '.'
      · subst dot
        rw [List.dropWhile_cons_of_pos (by simp), ih, lastPart_dot_cons]
      · rw [List.dropWhile_cons_of_neg (by simpa using dot)]

theorem dropWhile_dot_eq_lastPart_iff :
    text.dropWhile (· = '.') = lastPart text ↔ '.' ∉ text.dropWhile (· = '.') := by
  constructor
  · intro same
    rw [same]
    exact dot_not_mem_lastPart text
  · intro noDot
    rw [← lastPart_dropWhile, lastPart_of_not_mem noDot]

namespace Path

variable {path : Path} {front : List (List Char)} {last name : List Char}

/-- The last segment of a path is its last step if it is not idle. -/
theorem getLast?_components_of_busy (busy : isIdleSegment last = false)
    (cut : segments '/' path.chars = front ++ [last]) :
    path.components.getLast? = some (Component.ofSegment last) := by
  have noneIdle : ∀ piece ∈ ([] : List (List Char)), isIdleSegment piece = true :=
    fun _ member => absurd member List.not_mem_nil
  cases front with
  | nil =>
      simp only [isIdleSegment, decide_eq_false_iff_not, not_or] at busy
      rw [components_of_idle noneIdle cut, if_pos busy.1]
      rfl
  | cons first before => exact getLast?_components_of_segments busy noneIdle cut

theorem fileName?_of_segments (isName : IsName last)
    (cut : segments '/' path.chars = front ++ [last]) : path.fileName? = some last := by
  rcases isName_iff.mp isName with ⟨_, notDot, notDots, _⟩
  have step : Component.ofSegment last = .name last := by
    rw [Component.ofSegment, if_neg notDot, if_neg notDots]
  rw [fileName?, getLast?_components_of_busy isName.1 cut, step]

theorem isName_of_fileName? (named : path.fileName? = some name)
    (busy : isIdleSegment last = false) (cut : segments '/' path.chars = front ++ [last]) :
    IsName last := by
  have lastStep := getLast?_components_of_fileName? named
  rw [getLast?_components_of_busy busy cut, Option.some.injEq] at lastStep
  have inside : last ∈ segments '/' path.chars := cut ▸ List.mem_append_right _ List.mem_cons_self
  exact ⟨busy, (eq_of_ofSegment_eq_name lastStep).2.2, not_mem_of_mem_segments inside⟩

theorem slash_not_mem_of_fileName? (named : path.fileName? = some name) : '/' ∉ name := by
  have member := List.mem_of_getLast? (getLast?_components_of_fileName? named)
  rcases eq_root_or_chars_mem_segments member with impossible | inSegments
  · exact Component.noConfusion impossible
  · exact not_mem_of_mem_segments inSegments

/-- A path with a name has text of its own, so what is written behind it does not make it absolute. -/
theorem isAbsolute_of_append (named : path.fileName?.isSome) {text : String}
    (absolute : Path.isAbsolute ⟨path.text ++ text⟩) : path.isAbsolute := by
  rcases isAbsolute_iff.mp absolute with ⟨rest, starts⟩
  cases own : path.chars with
  | nil =>
      have noName : path.fileName? = none := by
        rw [fileName?, components, own]
        decide
      rw [noName] at named
      exact absurd named Bool.false_ne_true
  | cons char more =>
      rw [chars_append, own, List.cons_append, List.cons.injEq] at starts
      exact isAbsolute_iff.mpr ⟨more, by rw [own, starts.1]⟩

/-- Behind a name that is not empty, a text with a dot at its start gives its last part. -/
theorem extensionOfName?_append (nonempty : name ≠ []) (text : List Char) :
    extensionOfName? (name ++ '.' :: text) = some (lastPart text) := by
  have parts : (segments '.' (name ++ '.' :: text)).reverse =
      lastPart text :: ((segments '.' text).dropLast.reverse ++ (segments '.' name).reverse) := by
    rw [segments_append, List.reverse_append, ← List.cons_append, lastPart, ← List.reverse_concat,
      List.dropLast_concat_getLast]
  -- What is in front of the last part is not the empty text alone, since the name is not empty.
  have inFront : (segments '.' text).dropLast.reverse ++ (segments '.' name).reverse ≠ [[]] := by
    intro alone
    rcases List.append_eq_singleton_iff.mp alone with ⟨_, only⟩ | ⟨_, none⟩
    · rw [List.reverse_eq_iff] at only
      have joined := joinSegments_segments '.' name
      rw [only] at joined
      exact nonempty joined.symm
    · exact segments_ne_nil '.' name (List.reverse_eq_nil_iff.mp none)
  rw [extensionOfName?, parts]
  cases before : (segments '.' text).dropLast.reverse ++ (segments '.' name).reverse with
  | nil => simp [segments_ne_nil] at before
  | cons part more =>
      rw [before] at inFront
      simpa using inFront

/-- An extension has no dot and no slash. -/
theorem not_mem_of_extension? {extension : List Char} (found : path.extension? = some extension) :
    '.' ∉ extension ∧ '/' ∉ extension := by
  rcases Option.bind_eq_some_iff.mp found with ⟨name, named, cut⟩
  have member : extension ∈ segments '.' name := by
    unfold extensionOfName? at cut
    split at cut
    · next last before more parts =>
      split at cut
      · exact absurd cut.symm (Option.some_ne_none extension)
      · rw [← Option.some.inj cut, ← List.mem_reverse, parts]
        exact List.mem_cons_self
    · exact absurd cut.symm (Option.some_ne_none extension)
  refine ⟨not_mem_of_mem_segments member, ?_⟩
  intro slash
  exact slash_not_mem_of_fileName? named (mem_of_mem_segments member slash)

theorem isName_append (isName : IsName last) {text : List Char} (noSlash : '/' ∉ text) :
    IsName (last ++ text) := by
  rcases isName_iff.mp isName with ⟨nonempty, notDot, notDots, noSlashBefore⟩
  refine isName_iff.mpr ⟨by simp [nonempty], ?_, ?_, by simp [noSlashBefore, noSlash]⟩
  · intro dot
    rcases List.append_eq_singleton_iff.mp dot with ⟨none, _⟩ | ⟨alone, _⟩
    · exact nonempty none
    · exact notDot alone
  · intro dots
    rcases List.append_eq_cons_iff.mp dots with ⟨none, _⟩ | ⟨more, split, behind⟩
    · exact nonempty none
    · rcases List.append_eq_singleton_iff.mp behind.symm with ⟨rfl, _⟩ | ⟨rfl, _⟩
      · exact notDot split
      · exact notDots split

theorem segments_append_of_not_mem {extension : String}
    (cut : segments '/' path.chars = front ++ [last]) (noSlash : '/' ∉ extension.toList) :
    segments '/' (Path.chars ⟨path.text ++ extension⟩) = front ++ [last ++ extension.toList] := by
  rw [chars_append, segments_append_of_cut cut (segments_of_not_mem noSlash)]

/-- A text with a dot at its start, written behind a path that ends in a name, leaves its last part to
be the extension. -/
theorem extension?_append (isName : IsName last) (cut : segments '/' path.chars = front ++ [last])
    {extension : String} (dotted : extension.toList.head? = some '.')
    (noSlash : '/' ∉ extension.toList) :
    Path.extension? ⟨path.text ++ extension⟩ = some (lastPart extension.toList) := by
  rcases List.head?_eq_some_iff.mp dotted with ⟨text, starts⟩
  have named := fileName?_of_segments (isName_append isName noSlash)
    (segments_append_of_not_mem cut noSlash)
  rw [extension?, named, Option.bind_some, starts,
    extensionOfName?_append (isName_iff.mp isName).1, lastPart_dot_cons]

end Path

end ImportAlias
