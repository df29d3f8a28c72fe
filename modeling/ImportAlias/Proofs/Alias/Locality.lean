import ImportAlias.Alias.Resolver
import ImportAlias.Proofs.Alias.Lookup
import ImportAlias.Proofs.Config.Absolute
import Mathlib.Data.List.Basic

/-!
# What a specifier depends on

A lookup asks a table for the keys that apply to the specifier, which are the specifier itself, what
is before one of its slashes, and the empty key. It asks for no other key, and not for the order of
the keys. So the literal entries of an alias map may change places, come or go without a difference
to a specifier, as long as each key that applies to it keeps its target. The order of the patterns
is all that has to be kept.
-/

namespace ImportAlias

namespace AliasTable

variable {first second : AliasTable} {specifier : String}

theorem literalAt?_eq_of_agree
    (agree : ∀ key, Applies key specifier → first.literal? key = second.literal? key)
    {cut : List Char × List Char} (applies : Applies (String.ofList cut.1) specifier) :
    first.literalAt? cut = second.literalAt? cut := by
  unfold literalAt?
  simp only [agree _ applies]

/-- The literal alias of a specifier is found among the keys that apply. -/
theorem lookupKey?_eq_of_agree (nonempty : specifier ≠ "")
    (agree : ∀ key, Applies key specifier → first.literal? key = second.literal? key) :
    first.lookupKey? specifier = second.lookupKey? specifier := by
  have atCuts : (cuts specifier.toList).findSome? first.literalAt? =
      (cuts specifier.toList).findSome? second.literalAt? := by
    rw [← List.head?_filterMap, ← List.head?_filterMap]
    refine congrArg _ (List.filterMap_congr ?_)
    intro cut member
    apply literalAt?_eq_of_agree agree
    apply (applies_iff_mem_cuts nonempty).mpr
    rw [String.toList_ofList]
    exact Or.inl ⟨cut.2, member⟩
  have atStart : first.literalAt? ([], specifier.toList) =
      second.literalAt? ([], specifier.toList) :=
    literalAt?_eq_of_agree agree ⟨nonempty, Or.inr (Or.inr rfl)⟩
  rw [lookupKey?, lookupKey?, atCuts, atStart]

theorem lookup?_eq_of_agree (patterns : first.patterns = second.patterns)
    (agree : ∀ key, Applies key specifier → first.literal? key = second.literal? key) :
    first.lookup? specifier = second.lookup? specifier := by
  unfold lookup?
  split
  · rfl
  · next nonempty => rw [lookupKey?_eq_of_agree nonempty agree, patterns]

/-- The patterns of a configuration are those behind its literal aliases. -/
theorem patternsOf_aliasesOf (literals : List (String × Target)) (patterns : List Alias) :
    patternsOf (Options.aliasesOf literals patterns) = patternsOf patterns := by
  unfold Options.aliasesOf
  induction fieldsOf literals with
  | nil => rfl
  | cons literal rest ih => exact ih

end AliasTable

open AliasTable (Applies)

/-! ### Alias maps -/

namespace Options

/-- The literal entries of an alias map, with the keys that end up in the table. -/
def literalEntries (entries : List (String × String)) : List (String × String) :=
  (entries.filter (fun entry => !isPattern entry.1)).map (fun entry => (trimKey entry.1, entry.2))

/-- The entries of an alias map that are patterns. -/
def patternEntries (entries : List (String × String)) : List (String × String) :=
  entries.filter (fun entry => isPattern entry.1)

/-- What may be done to an alias map without a difference to a specifier. -/
inductive Rearranges (specifier : String) :
    List (String × String) → List (String × String) → Prop where
  /-- Literal entries and patterns change places with each other. -/
  | interleave {first second : List (String × String)}
      (literals : literalEntries first = literalEntries second)
      (patterns : patternEntries first = patternEntries second) :
      Rearranges specifier first second
  /-- Literal entries with distinct keys change places among each other, too. -/
  | permute {first second : List (String × String)}
      (distinct : ((literalEntries first).map Prod.fst).Nodup)
      (literals : (literalEntries first).Perm (literalEntries second))
      (patterns : patternEntries first = patternEntries second) :
      Rearranges specifier first second
  /-- A literal entry comes whose key does not apply to the specifier. -/
  | add {before after : List (String × String)} {entry : String × String}
      (literal : isPattern entry.1 = false) (apart : ¬Applies (trimKey entry.1) specifier) :
      Rearranges specifier (before ++ after) (before ++ entry :: after)
  /-- A literal entry goes whose key does not apply to the specifier. -/
  | remove {before after : List (String × String)} {entry : String × String}
      (literal : isPattern entry.1 = false) (apart : ¬Applies (trimKey entry.1) specifier) :
      Rearranges specifier (before ++ entry :: after) (before ++ after)
  | trans {first second third : List (String × String)} (start : Rearranges specifier first second)
      (rest : Rearranges specifier second third) : Rearranges specifier first third

theorem literalEntries_append (first second : List (String × String)) :
    literalEntries (first ++ second) = literalEntries first ++ literalEntries second := by
  rw [literalEntries, List.filter_append, List.map_append]
  rfl

theorem literalEntries_cons_of_literal {entry : String × String}
    (literal : isPattern entry.1 = false) (rest : List (String × String)) :
    literalEntries (entry :: rest) = (trimKey entry.1, entry.2) :: literalEntries rest := by
  rw [literalEntries, List.filter_cons_of_pos (by rw [literal]; rfl), List.map_cons]
  rfl

theorem patternEntries_append_cons_of_literal {entry : String × String}
    (literal : isPattern entry.1 = false) (before after : List (String × String)) :
    patternEntries (before ++ entry :: after) = patternEntries (before ++ after) := by
  unfold patternEntries
  rw [List.filter_append, List.filter_append,
    List.filter_cons_of_neg (by rw [literal]; exact Bool.false_ne_true)]

theorem fieldAt?_literalEntries_append_cons {key : String} {entry : String × String}
    (literal : isPattern entry.1 = false) (other : trimKey entry.1 ≠ key)
    (before after : List (String × String)) :
    fieldAt? key (literalEntries (before ++ entry :: after)).reverse =
      fieldAt? key (literalEntries (before ++ after)).reverse := by
  rw [literalEntries_append, literalEntries_append, literalEntries_cons_of_literal literal]
  simp only [List.reverse_append, List.reverse_cons, fieldAt?_append, List.append_assoc]
  rw [fieldAt?, if_neg other, fieldAt?, Option.none_or]

namespace Rearranges

variable {specifier key : String} {first second : List (String × String)}

theorem patternEntries_eq (rearranges : Rearranges specifier first second) :
    patternEntries first = patternEntries second := by
  induction rearranges with
  | interleave _ patterns => exact patterns
  | permute _ _ patterns => exact patterns
  | add literal _ => exact (patternEntries_append_cons_of_literal literal _ _).symm
  | remove literal _ => exact patternEntries_append_cons_of_literal literal _ _
  | trans _ _ ihStart ihRest => exact ihStart.trans ihRest

/-- A key that applies to the specifier keeps its last value. -/
theorem fieldAt?_eq (rearranges : Rearranges specifier first second)
    (applies : Applies key specifier) :
    fieldAt? key (literalEntries first).reverse = fieldAt? key (literalEntries second).reverse := by
  have other {entry : String × String} (apart : ¬Applies (trimKey entry.1) specifier) :
      trimKey entry.1 ≠ key := by
    intro same
    exact apart (same ▸ applies)
  induction rearranges with
  | interleave literals _ => rw [literals]
  | permute distinct literals _ =>
      have alsoDistinct := (literals.map Prod.fst).nodup distinct
      rw [fieldAt?_reverse distinct, fieldAt?_reverse alsoDistinct,
        fieldAt?_eq_of_perm literals distinct]
  | add literal apart => exact (fieldAt?_literalEntries_append_cons literal (other apart) _ _).symm
  | remove literal apart => exact fieldAt?_literalEntries_append_cons literal (other apart) _ _
  | trans _ _ ihStart ihRest => exact ihStart.trans ihRest

end Rearranges

end Options

/-! ### Resolvers -/

namespace Resolver

variable {disk : Disk} {environment : Environment} {configured : Option Path}

/-- The resolver of options, for a file if it is known. -/
def ofOptions (disk : Disk) (environment : Environment) (configured : Option Path)
    (options : Options) : Except ConfigError Resolver := do
  let config ← options.configure disk environment configured
  ofConfig config environment

/-- The table of the map form has what the literal entries stand for and the rules of the pattern
entries. -/
theorem ofOptions_settings (form : Settings) :
    ofOptions disk environment configured (.settings form) = (do
      let cwd := Options.cwdOf disk environment configured form.cwd
      let roots ← Roots.expand disk cwd form.roots
      let patterns ← AliasTable.patternsOf
        ((Options.patternEntries form.aliases).map Options.patternOf)
      let targets := (Options.literalEntries form.aliases).map (fun entry =>
        (entry.1, Options.targetOf disk cwd roots
          (form.extensions.getD Options.defaultExtensions) entry.2))
      return ⟨⟨fieldsOf targets, patterns⟩, cwd, environment.workingDir⟩) := by
  have literals (cwd : Path) (roots : List Path) (extensions : List String) :
      (form.aliases.filter (fun entry => !Options.isPattern entry.1)).map
          (Options.literalOf disk cwd roots extensions) =
        (Options.literalEntries form.aliases).map (fun entry =>
          (entry.1, Options.targetOf disk cwd roots extensions entry.2)) := by
    rw [Options.literalEntries, List.map_map]
    rfl
  simp only [ofOptions, Options.configure, Options.configureSettings, literals]
  cases Roots.expand disk (Options.cwdOf disk environment configured form.cwd) form.roots with
  | error fault => rfl
  | ok roots =>
      change AliasTable.ofConfig _ >>= _ = _
      unfold AliasTable.ofConfig
      rw [Options.literals_aliasesOf, AliasTable.patternsOf_aliasesOf,
        fieldsOf_of_nodup (nodup_keys_fieldsOf _)]
      change (AliasTable.patternsOf ((Options.patternEntries form.aliases).map Options.patternOf) >>=
        fun patterns => _) >>= _ = AliasTable.patternsOf _ >>= _
      cases AliasTable.patternsOf ((Options.patternEntries form.aliases).map Options.patternOf) <;>
        rfl

theorem resolve_eq_of_agree {first second : Resolver} {specifier : String}
    (cwd : first.cwd = second.cwd) (workingDir : first.workingDir = second.workingDir)
    (patterns : first.table.patterns = second.table.patterns)
    (agree : ∀ key, Applies key specifier →
      first.table.literal? key = second.table.literal? key) (file : Path) :
    first.resolve specifier file = second.resolve specifier file := by
  have expanded (found : AliasTable.Match) :
      first.expand file found = second.expand file found := by
    unfold expand
    rw [cwd, workingDir]
  unfold resolve
  rw [AliasTable.lookup?_eq_of_agree patterns agree]
  simp only [expanded]

/-- Resolvers with the same directories and patterns agree on a specifier as soon as they agree on
the keys that apply to it. So rearranging an alias map away from these keys makes no difference to
the specifier. -/
theorem resolve_local (specifier : String) :
    (∀ first second : Resolver, first.cwd = second.cwd → first.workingDir = second.workingDir →
      first.table.patterns = second.table.patterns →
      (∀ key, Applies key specifier → first.table.literal? key = second.table.literal? key) →
      ∀ file, first.resolve specifier file = second.resolve specifier file) ∧
    ∀ disk environment configured form entries,
      Options.Rearranges specifier form.aliases entries → ∀ file,
        (ofOptions disk environment configured (.settings form)).map
            (fun resolver => resolver.resolve specifier file) =
          (ofOptions disk environment configured (.settings { form with aliases := entries })).map
            (fun resolver => resolver.resolve specifier file) := by
  refine ⟨fun first second => resolve_eq_of_agree, ?_⟩
  intro disk environment configured form entries rearranges file
  rw [ofOptions_settings, ofOptions_settings]
  simp only [← rearranges.patternEntries_eq]
  cases Roots.expand disk (Options.cwdOf disk environment configured form.cwd) form.roots with
  | error fault => rfl
  | ok roots =>
      cases AliasTable.patternsOf
          ((Options.patternEntries form.aliases).map Options.patternOf) with
      | error fault => rfl
      | ok patterns =>
          refine congrArg Except.ok ?_
          apply resolve_eq_of_agree
          · rfl
          · rfl
          · rfl
          · intro key applies
            unfold AliasTable.literal?
            rw [fieldAt?_fieldsOf, fieldAt?_fieldsOf, ← List.map_reverse, ← List.map_reverse,
              fieldAt?_map, fieldAt?_map, rearranges.fieldAt?_eq applies]

/-- Two literal aliases around a pattern. -/
def mixedSettings : Settings :=
  ⟨none, [], [("utils/", "./u"), ("^lib/(.*)$", "lib/\\1"), ("", "/vendor")], none⟩

/-- The pattern comes first, the literal aliases change places, and one comes between them that
applies to other specifiers. -/
def mixedEntries : List (String × String) :=
  [("^lib/(.*)$", "lib/\\1"), ("", "/vendor"), ("utils/b", "./b"), ("utils/", "./u")]

/-- A resolver with literal aliases in front of one. -/
def utilsResolver (others : List (String × Target)) : Resolver :=
  ⟨⟨others ++ [("utils", .path ⟨"/project/u"⟩)], []⟩, ⟨"/project"⟩, ⟨"/project"⟩⟩

theorem resolve_local_of_mixed_aliases :
    (utilsResolver [("utils/b", .package "b")]).resolve "utils/a" ⟨"x/i.js"⟩ =
        .replacement "../u/a" ∧
      (ofOptions Disk.empty ⟨⟨"/project"⟩⟩ none
        (.settings { mixedSettings with aliases := mixedEntries })).map
          (fun resolver => resolver.resolve "utils/a" ⟨"x/i.js"⟩) =
        .ok (.replacement "../u/a") := by
  have trimmed : Options.trimKey "utils/b" = "utils/b" := by decide
  have apart : ¬Applies "utils/b" "utils/a" := by
    rintro ⟨_, whole | ⟨rest, below⟩ | empty⟩
    · exact absurd whole (by decide)
    · have chars := congrArg String.toList below
      simp at chars
    · exact absurd empty (by decide)
  rcases resolve_local "utils/a" with ⟨ofAgreement, ofRearranging⟩
  constructor
  · have agree : ∀ key, Applies key "utils/a" →
        (utilsResolver []).table.literal? key =
          (utilsResolver [("utils/b", .package "b")]).table.literal? key := by
      intro key applies
      have other : "utils/b" ≠ key := by
        rintro rfl
        exact apart applies
      exact (if_neg other).symm
    have resolved : (utilsResolver []).resolve "utils/a" ⟨"x/i.js"⟩ = .replacement "../u/a" := rfl
    have same := ofAgreement (utilsResolver []) (utilsResolver [("utils/b", .package "b")])
      rfl rfl rfl agree ⟨"x/i.js"⟩
    exact same.symm.trans resolved
  · have permuted : Options.Rearranges "utils/a" mixedSettings.aliases
        ([("^lib/(.*)$", "lib/\\1"), ("", "/vendor")] ++ [("utils/", "./u")]) :=
      .permute (by decide) (by decide) (by decide)
    have added : Options.Rearranges "utils/a" mixedSettings.aliases mixedEntries :=
      permuted.trans (@Options.Rearranges.add _ _ _ ("utils/b", "./b") (by decide)
        (trimmed.symm ▸ apart))
    have resolved : (ofOptions Disk.empty ⟨⟨"/project"⟩⟩ none (.settings mixedSettings)).map
        (fun resolver => resolver.resolve "utils/a" ⟨"x/i.js"⟩) =
          .ok (.replacement "../u/a") := rfl
    exact (ofRearranging _ _ _ _ _ added _).symm.trans resolved

end Resolver

end ImportAlias
