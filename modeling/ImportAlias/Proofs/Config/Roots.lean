import ImportAlias.Proofs.Config.Absolute
import ImportAlias.Proofs.Config.Anchoring
import ImportAlias.Proofs.Path.Cleaning
import Mathlib.Data.List.Forall2

/-!
# What entries of the roots stand for

The roots are what the entries stand for, one entry after the other. An entry without wildcards
stands for the one path that it names, whatever is on the disk, exactly if that path has no wildcard
either. Wildcards are looked for in the path and not in the entry, so it is lost below a directory
with a wildcard in its name.
-/

namespace ImportAlias

namespace Roots

open ImportAlias.Path

/-- The character has a meaning in patterns. -/
def IsWildcard (char : Char) : Prop :=
  char = '*' ∨ char = '?' ∨ char = '['

theorem hasWildcard_iff {text : String} :
    hasWildcard text ↔ ∃ char ∈ text.toList, IsWildcard char := by
  simp [hasWildcard, IsWildcard, or_assoc]

/-- A path that an entry names has its wildcards from the entry, or from the directory if the entry
is relative. -/
theorem hasWildcard_of_hasWildcard_cleanFrom {cwd : Path} {entry : String}
    (found : hasWildcard (cwd.cleanFrom ⟨entry⟩).text) :
    hasWildcard entry ∨ (Path.isAbsolute ⟨entry⟩ = false ∧ hasWildcard cwd.text) := by
  simp only [hasWildcard_iff] at found ⊢
  rcases found with ⟨char, member, wildcard⟩
  have noSlash : char ≠ '/' := by rintro rfl; simp [IsWildcard] at wildcard
  have noDot : char ≠ '.' := by rintro rfl; simp [IsWildcard] at wildcard
  rcases mem_chars_of_mem_chars_clean member with joined | slash | dot
  · rcases mem_chars_of_mem_chars_join joined with inEntry | slash | ⟨relative, inDirectory⟩
    · exact Or.inl ⟨char, inEntry, wildcard⟩
    · exact absurd slash noSlash
    · exact Or.inr ⟨relative, char, inDirectory, wildcard⟩
  · exact absurd slash noSlash
  · exact absurd dot noDot

theorem expandEntry_of_hasWildcard_eq_false {cwd : Path} {entry : String}
    (plain : hasWildcard (cwd.cleanFrom ⟨entry⟩).text = false) (disk : Disk) :
    expandEntry disk cwd entry = .ok [cwd.cleanFrom ⟨entry⟩] := by
  simp [expandEntry, plain]

/-- No directory matches a pattern on an empty disk. -/
theorem expandEntry_empty_ne {cwd : Path} {entry : String}
    (wild : hasWildcard (cwd.cleanFrom ⟨entry⟩).text) (path : Path) (rest : List Path) :
    expandEntry Disk.empty cwd entry ≠ .ok (path :: rest) := by
  intro ok
  simp only [expandEntry, wild, if_true] at ok
  split at ok
  · rcases directories_eq_ok_iff.mp ok with ⟨found, _, _, kept⟩
    have member : path ∈ found.filter (fun path => Disk.empty.entry path = .ok .directory) :=
      kept ▸ List.mem_cons_self
    exact absurd (List.mem_filter.mp member).2 (by simp [Disk.empty])
  · simp at ok

/-- The roots are what the entries stand for, in their order, if every entry stands for something. -/
theorem expand_eq_ok_iff {disk : Disk} {cwd : Path} {entries : List String} {roots : List Path} :
    expand disk cwd entries = .ok roots ↔
      ∃ parts, List.Forall₂ (fun entry part => expandEntry disk cwd entry = .ok part) entries parts ∧
        roots = parts.flatten := by
  induction entries generalizing roots with
  | nil => simp [expand, eq_comm]
  | cons entry rest ih =>
      constructor
      · intro ok
        rcases exists_of_bind_eq_ok ok with ⟨part, expanded, ok⟩
        rcases exists_of_bind_eq_ok ok with ⟨more, others, ok⟩
        cases ok
        rcases ih.mp others with ⟨parts, each, rfl⟩
        exact ⟨part :: parts, .cons expanded each, rfl⟩
      · rintro ⟨parts, each, rfl⟩
        cases each with
        | @cons _ part _ parts expanded each =>
            have others := ih.mpr ⟨parts, each, rfl⟩
            simp [expand, expanded, others, bind, Except.bind, pure, Except.pure]

/-- The roots are the contributions of the entries one after the other. An entry without wildcards
contributes the one path that it names on every disk, exactly if that path has no wildcard; it has
none if the entry is absolute or the directory has none. When this is so for all entries, nothing is
refused. -/
theorem expand_contributions (disk : Disk) (cwd : Path) (entries : List String) :
    (∀ roots, expand disk cwd entries = .ok roots ↔
      ∃ parts, List.Forall₂ (fun entry part => expandEntry disk cwd entry = .ok part) entries parts ∧
        roots = parts.flatten) ∧
    (∀ entry, hasWildcard entry = false →
      ((∀ disk, expandEntry disk cwd entry = .ok [cwd.cleanFrom ⟨entry⟩]) ↔
        hasWildcard (cwd.cleanFrom ⟨entry⟩).text = false) ∧
      (Path.isAbsolute ⟨entry⟩ ∨ hasWildcard cwd.text = false →
        hasWildcard (cwd.cleanFrom ⟨entry⟩).text = false)) ∧
    ((∀ entry ∈ entries, hasWildcard entry = false) →
      (∀ entry ∈ entries, Path.isAbsolute ⟨entry⟩) ∨ hasWildcard cwd.text = false →
      expand disk cwd entries = .ok (entries.map (cwd.cleanFrom ⟨·⟩))) := by
  have named {entry : String} (plain : hasWildcard entry = false)
      (clear : Path.isAbsolute ⟨entry⟩ ∨ hasWildcard cwd.text = false) :
      hasWildcard (cwd.cleanFrom ⟨entry⟩).text = false := by
    rw [Bool.eq_false_iff]
    intro found
    rcases hasWildcard_of_hasWildcard_cleanFrom found with wild | ⟨relative, wild⟩
    · rw [plain] at wild
      exact Bool.false_ne_true wild
    · simp [relative, wild] at clear
  refine ⟨fun roots => expand_eq_ok_iff, ?_, ?_⟩
  · intro entry plain
    refine ⟨⟨?_, expandEntry_of_hasWildcard_eq_false⟩, named plain⟩
    intro survives
    rw [Bool.eq_false_iff]
    intro wild
    exact expandEntry_empty_ne wild _ [] (survives Disk.empty)
  · intro plain clear
    rw [expand_eq_ok_iff]
    refine ⟨entries.map (fun entry => [cwd.cleanFrom ⟨entry⟩]), ?_, ?_⟩
    · rw [List.forall₂_map_right_iff, List.forall₂_same]
      intro entry member
      apply expandEntry_of_hasWildcard_eq_false
      exact named (plain entry member) (clear.imp_left (· entry member))
    · rw [← List.flatMap_def, ← List.map_eq_flatMap]

/-- Absolute entries are kept although the directory has a wildcard in its name. -/
theorem expand_contributions_of_absolute_entries :
    (∀ entry ∈ ["/abs/../lib", "/pkg/"], hasWildcard entry = false) ∧
      expand Disk.empty ⟨"/project/[app]"⟩ ["/abs/../lib", "/pkg/"] =
        .ok [⟨"/lib"⟩, ⟨"/pkg"⟩] := by
  have plain : ∀ entry ∈ ["/abs/../lib", "/pkg/"], hasWildcard entry = false := by decide
  have contributions :=
    (expand_contributions Disk.empty ⟨"/project/[app]"⟩ ["/abs/../lib", "/pkg/"]).2.2
  refine ⟨plain, ?_⟩
  rw [contributions plain (Or.inl (by decide))]
  rfl

/-- Below a directory with a bracket in its name, an entry without wildcards is lost when the bracket
is closed, and refused when it is not. -/
theorem expand_plain_entry_in_brackets :
    hasWildcard "src" = false ∧
      expand Disk.empty ⟨"/project/[app]"⟩ ["src"] = .ok [] ∧
      expand Disk.empty ⟨"/project/[app"⟩ ["src"] =
        .error (.invalidRootPattern ⟨"/project/[app/src"⟩ ⟨9, .range⟩) :=
  ⟨rfl, rfl, rfl⟩

end Roots

end ImportAlias
