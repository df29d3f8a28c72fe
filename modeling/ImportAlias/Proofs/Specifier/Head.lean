import ImportAlias.Proofs.Alias.Resolution
import ImportAlias.Proofs.Config.Literals
import ImportAlias.Proofs.Config.Probe
import ImportAlias.Proofs.Specifier.Splice
import ImportAlias.Specifier.Transform

/-!
# Heads of specifiers

Of a specifier that is put together while a program runs only the head is known. The head is
resolved as a specifier of its own, and what comes behind it comes behind the replacement, too. That
is right when the whole specifier stands for what the head stands for with the rest behind it, and
when the replacement ends in the same way as the text that it was made of: with a slash, or with the
same name. A slash in front of the rest makes the end of the head a whole segment in any case.
-/

namespace ImportAlias

/-- A target with a text behind it. -/
def Target.append : Target → String → Target
  | path target, rest => path ⟨target.text ++ rest⟩
  | package name, rest => package (name ++ rest)

/-- What is put in the place of a specifier, before a path is cleaned. -/
def AliasTable.Match.substituted (cwd : Path) : AliasTable.Match → Target
  | .literal key target rest => target.append (if key = "" then "/" ++ rest else rest)
  | .pattern expanded true => .package expanded
  | .pattern expanded false => .path (cwd.join ⟨expanded⟩)

open ImportAlias.Path

/-! ### Texts behind paths -/

namespace Path

/-- Text behind a name makes it longer, whatever the way to the name was. -/
theorem walk_append_of_endsInName {names others : List (List Char)} {first second : List Char}
    (firstEnds : (ofChars first).EndsInName) (secondEnds : (ofChars second).EndsInName)
    (same : walk names first = walk others second) (rest : List Char) :
    walk names (first ++ rest) = walk others (second ++ rest) := by
  rcases exists_segments_eq_append (ofChars first) with ⟨front, last, cut, endsIff⟩
  rcases exists_segments_eq_append (ofChars second) with ⟨otherFront, other, otherCut, otherIff⟩
  rw [chars_ofChars] at cut otherCut
  have isName := endsIff.mp firstEnds
  have otherIsName := otherIff.mp secondEnds
  cases restCut : segments '/' rest with
  | nil => exact absurd restCut (segments_ne_nil '/' rest)
  | cons head tail =>
      simp only [walk, cut, otherCut, List.foldl_append, List.foldl_cons, List.foldl_nil,
        enter_of_isName isName, enter_of_isName otherIsName] at same
      rcases List.append_inj' same rfl with ⟨sameFront, sameLast⟩
      rw [List.singleton_inj] at sameLast
      simp only [walk, segments_append_of_cut cut restCut, segments_append_of_cut otherCut restCut,
        List.foldl_append, sameFront, sameLast]

/-- The two texts and the one behind them meet in the same way: at a slash, or in a name. -/
def MeetAlike (first second rest : List Char) : Prop :=
  rest.head? = some '/' ∨ (first.getLast? = some '/' ∧ second.getLast? = some '/') ∨
    ((ofChars first).EndsInName ∧ (ofChars second).EndsInName)

theorem MeetAlike.walk_append_eq {names others : List (List Char)} {first second rest : List Char}
    (meet : MeetAlike first second rest) (same : walk names first = walk others second) :
    walk names (first ++ rest) = walk others (second ++ rest) := by
  rcases meet with slash | ⟨firstSlash, secondSlash⟩ | ⟨firstEnds, secondEnds⟩
  · rw [walk_append_of_slash (Or.inr slash), walk_append_of_slash (Or.inr slash), same]
  · rw [walk_append_of_slash (Or.inl firstSlash), walk_append_of_slash (Or.inl secondSlash), same]
  · exact walk_append_of_endsInName firstEnds secondEnds same rest

/-- A reference ends with the last name of its target, unless the target is on the way from the root
to the directory. -/
theorem endsInName_referenceChars {directory target : List (List Char)}
    (targetNames : ∀ name ∈ target, IsName name) (apart : ¬target <+: directory) :
    (ofChars (referenceChars directory target)).EndsInName := by
  have plain : ∀ piece ∈ way directory target, '/' ∉ piece := slash_not_mem_of_mem_way targetNames
  rcases List.eq_nil_or_concat (target.drop (sharedLength directory target)) with
    nothing | ⟨front, last, down⟩
  · refine absurd ?_ apart
    have whole : target.take (sharedLength directory target) = target :=
      List.take_of_length_le (List.drop_eq_nil_iff.mp nothing)
    rw [← whole, ← take_sharedLength]
    exact List.take_prefix _ _
  · rw [List.concat_eq_append] at down
    have isName : IsName last := by
      apply targetNames
      apply List.mem_of_mem_drop (i := sharedLength directory target)
      rw [down]
      exact List.mem_append_right front List.mem_cons_self
    have wayEnds : (way directory target).getLast? = some last := by
      rw [way, down, ← List.append_assoc, List.getLast?_concat]
    have nonempty : way directory target ≠ [] := by
      intro empty
      simp [empty] at wayEnds
    have cut := segments_joinSegments nonempty plain
    refine ⟨last, ?_, isName⟩
    rw [Option.mem_def, chars_ofChars]
    unfold referenceChars
    split
    · have dot : segments '/' ('.' :: '/' :: joinSegments '/' (way directory target)) =
          ['.'] :: segments '/' (joinSegments '/' (way directory target)) :=
        segments_append ['.'] _
      rw [dot, cut, List.getLast?_cons_of_ne_nil nonempty, wayEnds]
    · rw [cut, wayEnds]

theorem cleanFrom_append_of_toList_eq_referenceChars {directory path : Path} {text rest : String}
    (absolute : directory.isAbsolute)
    (written : text.toList = referenceChars directory.names path.names ∨
      text.toList = referenceChars directory.names path.names ++ ['/'])
    (meet : MeetAlike text.toList path.chars rest.toList) :
    directory.cleanFrom ⟨text ++ rest⟩ = ofNames (Path.names ⟨path.text ++ rest⟩) := by
  have relative : Path.isAbsolute ⟨text ++ rest⟩ = false := by
    simp [isAbsolute, Path.chars, head?_of_toList_eq_referenceChars written]
  have leads := walk_of_toList_eq_referenceChars isName_of_mem_names written
  have textChars : Path.chars ⟨text ++ rest⟩ = text.toList ++ rest.toList := String.toList_append ..
  rw [cleanFrom, clean_of_isAbsolute (isAbsolute_join absolute _), names_join absolute relative,
    textChars, meet.walk_append_eq leads, ← chars_append, names]

end Path

/-! ### Heads -/

namespace Resolver

variable {resolver : Resolver} {file : Path} {head rest : String} {found whole : AliasTable.Match}

theorem endsWithSlash_append (first second : String) :
    endsWithSlash (first ++ second) =
      if second = "" then endsWithSlash first else endsWithSlash second := by
  split
  · next empty => rw [empty, String.append_empty]
  · next nonempty =>
    have chars : second.toList ≠ [] := fun empty => nonempty (String.toList_eq_nil_iff.mp empty)
    rw [endsWithSlash, endsWithSlash, String.toList_append, List.getLast?_append_of_ne_nil _ chars]

theorem endsWithSlash_append_right {second : String} (slash : endsWithSlash second)
    (first : String) : endsWithSlash (first ++ second) := by
  rw [endsWithSlash_append]
  split
  · next empty =>
    subst empty
    exact absurd slash (by decide)
  · exact slash

theorem isAbsolute_of_substituted_eq_path (absolute : resolver.IsAbsolute)
    (looked : resolver.table.lookup? head = some found) {path : Path}
    (substituted : found.substituted resolver.cwd = .path path) : path.isAbsolute := by
  have chosen := resolver.table.chooses_lookup? head
  rw [looked] at chosen
  cases chosen with
  | @literal key rest target longest =>
      cases target with
      | package name => exact absurd substituted Target.noConfusion
      | path target =>
          cases substituted
          exact isAbsolute_append (absolute.targets key target longest.present) _
  | @pattern earlier later rule captures nonempty noKey order unmatched hit =>
      generalize rule.external = external at substituted
      cases external with
      | true => exact absurd substituted Target.noConfusion
      | false =>
          cases substituted
          exact isAbsolute_join absolute.cwd _

theorem expand_of_substituted_eq_path (absolute : resolver.IsAbsolute)
    (looked : resolver.table.lookup? head = some found) {path : Path}
    (substituted : found.substituted resolver.cwd = .path path) (file : Path) :
    (resolver.expand file found).toList =
      referenceChars (directoryOf resolver.workingDir file).names path.names := by
  have pathAbsolute := isAbsolute_of_substituted_eq_path absolute looked substituted
  cases found with
  | literal key target rest =>
      cases target with
      | package name => exact absurd substituted Target.noConfusion
      | path target =>
          cases substituted
          exact reference_toList_of_isAbsolute absolute.workingDir pathAbsolute file
  | pattern expanded external =>
      cases external with
      | true => exact absurd substituted Target.noConfusion
      | false =>
          cases substituted
          rw [← names_clean pathAbsolute]
          exact reference_toList_of_isAbsolute absolute.workingDir (isAbsolute_clean pathAbsolute)
            file

theorem expand_of_substituted_eq_package {name : String}
    (substituted : found.substituted resolver.cwd = .package name) (file : Path) :
    resolver.expand file found = name := by
  cases found with
  | literal key target rest =>
      cases target with
      | package package =>
          cases substituted
          rfl
      | path target => exact absurd substituted Target.noConfusion
  | pattern expanded external =>
      cases external with
      | true =>
          cases substituted
          rfl
      | false => exact absurd substituted Target.noConfusion

/-- The replacements of a head and of a whole specifier that puts the rest behind what the head
stands for: with the rest behind it, the one of the head leads to the path of the other one. -/
theorem cleanFrom_expand_append (absolute : resolver.IsAbsolute)
    (looked : resolver.table.lookup? head = some found)
    (lookedWhole : resolver.table.lookup? (head ++ rest) = some whole) {path : Path}
    (substituted : found.substituted resolver.cwd = .path path)
    (goesOn : whole.substituted resolver.cwd = (found.substituted resolver.cwd).append rest)
    (meet : MeetAlike (withSlashOf head (resolver.expand file found)).toList path.chars
      rest.toList) :
    (directoryOf resolver.workingDir file).cleanFrom
        ⟨withSlashOf head (resolver.expand file found) ++ rest⟩ =
      (directoryOf resolver.workingDir file).cleanFrom
        ⟨withSlashOf (head ++ rest) (resolver.expand file whole)⟩ := by
  rw [substituted] at goesOn
  have directoryAbsolute := isAbsolute_directoryOf absolute.workingDir file
  have written := toList_withSlashOf head (resolver.expand file found)
  rw [expand_of_substituted_eq_path absolute looked substituted] at written
  have writtenWhole := toList_withSlashOf (head ++ rest) (resolver.expand file whole)
  rw [expand_of_substituted_eq_path absolute lookedWhole goesOn] at writtenWhole
  rw [cleanFrom_append_of_toList_eq_referenceChars directoryAbsolute written meet,
    cleanFrom_of_toList_eq_referenceChars directoryAbsolute isName_of_mem_names writtenWhole]

theorem withSlashOf_append_of_endsWithSlash {resolved : String} (slash : endsWithSlash resolved)
    (head rest : String) : withSlashOf (head ++ rest) (resolved ++ rest) = resolved ++ rest := by
  rw [withSlashOf, endsWithSlash_append, endsWithSlash_append, slash]
  split
  · rw [Bool.not_true, Bool.and_false, if_neg Bool.false_ne_true]
  · rw [Bool.and_not_self, if_neg Bool.false_ne_true]

theorem withSlashOf_append_of_ne_empty (nonempty : rest ≠ "") (head resolved : String) :
    withSlashOf (head ++ rest) (resolved ++ rest) = resolved ++ rest := by
  rw [withSlashOf, endsWithSlash_append, endsWithSlash_append, if_neg nonempty, if_neg nonempty,
    Bool.and_not_self, if_neg Bool.false_ne_true]

/-- When the whole specifier has the key of the head, it stands for what the head stands for with
the rest behind it. -/
theorem substituted_append_of_same_key {table : AliasTable} {key headRest wholeRest : String}
    {target wholeTarget : Target}
    (looked : table.lookup? head = some (.literal key target headRest))
    (lookedWhole : table.lookup? (head ++ rest) = some (.literal key wholeTarget wholeRest))
    (cwd : Path) :
    (AliasTable.Match.literal key wholeTarget wholeRest).substituted cwd =
      ((AliasTable.Match.literal key target headRest).substituted cwd).append rest := by
  have longest := AliasTable.longestKey_of_lookup?_eq_some looked
  have longestWhole := AliasTable.longestKey_of_lookup?_eq_some lookedWhole
  have sameTarget : wholeTarget = target := by
    have present := longestWhole.present
    rw [longest.present, Option.some.injEq] at present
    exact present.symm
  have sameRest : wholeRest = headRest ++ rest := by
    have split := longestWhole.split
    rw [← longest.split, ← String.toList_inj] at split
    simp only [String.toList_append, List.append_assoc, List.append_right_inj] at split
    rw [← String.toList_inj, String.toList_append, split]
  rw [sameTarget, sameRest]
  simp only [AliasTable.Match.substituted]
  cases target <;> split <;> simp only [Target.append, String.append_assoc]

section Configured

variable {disk : Disk} {environment : Environment} {options : Options} {configured : Option Path}
  {config : Config}

/-- A head with a slash at its end and a literal alias for it: whatever comes behind the head, as
long as the alias is the one of the whole specifier, may come behind the replacement. -/
theorem resolve_append_of_slash (absolute : environment.workingDir.isAbsolute)
    (accepted : options.configure disk environment configured = .ok config)
    (built : ofConfig config environment = .ok resolver) {key headRest wholeRest : String}
    {target wholeTarget : Target} (slash : endsWithSlash head)
    (looked : resolver.table.lookup? head = some (.literal key target headRest))
    (lookedWhole :
      resolver.table.lookup? (head ++ rest) = some (.literal key wholeTarget wholeRest))
    (file : Path) :
    ∃ replacement whole, resolver.resolve head file = .replacement replacement ∧
      resolver.resolve (head ++ rest) file = .replacement whole ∧
      match target with
      | .path _ =>
        (directoryOf environment.workingDir file).cleanFrom ⟨replacement ++ rest⟩ =
          (directoryOf environment.workingDir file).cleanFrom ⟨whole⟩
      | .package _ => replacement ++ rest = whole := by
  have resolverAbsolute := isAbsolute_of_ofConfig_eq_ok absolute
    (Options.isAbsolute_of_configure_eq_ok absolute accepted) built
  have goesOn := substituted_append_of_same_key looked lookedWhole resolver.cwd
  have longest := AliasTable.longestKey_of_lookup?_eq_some looked
  -- The slash is behind the key, since no key has one at its end.
  have restSlash : endsWithSlash (if key = "" then "/" ++ headRest else headRest) := by
    have keyEnd : endsWithSlash key = false := by
      rcases exists_of_bind_eq_ok built with ⟨table, made, ok⟩
      cases ok
      exact decide_eq_false
        (AliasTable.getLast?_ne_of_literal?_eq_some accepted made longest.present)
    rw [← longest.split, endsWithSlash_append] at slash
    split at slash
    · rw [keyEnd] at slash
      exact absurd slash Bool.false_ne_true
    · split
      · exact endsWithSlash_append_right slash "/"
      · exact slash
  refine ⟨_, _, by rw [resolve, looked], by rw [resolve, lookedWhole], ?_⟩
  rw [← (directories_of_ofConfig_eq_ok built).2]
  cases target with
  | path path =>
      apply cleanFrom_expand_append resolverAbsolute looked lookedWhole rfl goesOn
      refine Or.inr (Or.inl ⟨?_, ?_⟩)
      · rw [← endsWithSlash_iff, endsWithSlash_withSlashOf]
        exact Or.inl slash
      · exact (endsWithSlash_iff _).mp (endsWithSlash_append_right restSlash path.text)
  | package name =>
      have substituted : (AliasTable.Match.literal key (.package name) headRest).substituted
          resolver.cwd = .package (name ++ if key = "" then "/" ++ headRest else headRest) := rfl
      rw [substituted] at goesOn
      have written := expand_of_substituted_eq_package substituted file
      have writtenWhole := expand_of_substituted_eq_package goesOn file
      have nameSlash := endsWithSlash_append_right restSlash name
      rw [written, writtenWhole, withSlashOf_append_of_endsWithSlash nameSlash, withSlashOf,
        nameSlash, Bool.not_true, Bool.and_false, if_neg Bool.false_ne_true]

/-- What comes behind the head goes up past it. -/
theorem resolve_append_of_slash_of_climbing_rest :
    exampleResolver.resolve "utils/a/" ⟨"app/src/./pages/index.js"⟩ =
        .replacement "../utils/a/" ∧
      exampleResolver.resolve ("utils/a/" ++ "../../b/") ⟨"app/src/./pages/index.js"⟩ =
        .replacement "../b/" ∧
      (directoryOf ⟨"/project"⟩ ⟨"app/src/./pages/index.js"⟩).cleanFrom
          ⟨"../utils/a/" ++ "../../b/"⟩ =
        (directoryOf ⟨"/project"⟩ ⟨"app/src/./pages/index.js"⟩).cleanFrom ⟨"../b/"⟩ := by
  have accepted : exampleOptions.configure Disk.empty ⟨⟨"/project"⟩⟩ none = .ok exampleConfig := rfl
  have built : ofConfig exampleConfig ⟨⟨"/project"⟩⟩ = .ok exampleResolver := rfl
  have resolved : exampleResolver.resolve "utils/a/" ⟨"app/src/./pages/index.js"⟩ =
      .replacement "../utils/a/" := by decide +kernel
  have resolvedWhole : exampleResolver.resolve ("utils/a/" ++ "../../b/")
      ⟨"app/src/./pages/index.js"⟩ = .replacement "../b/" := by decide +kernel
  have looked : exampleResolver.table.lookup? "utils/a/" =
      some (.literal "utils" (.path ⟨"/project/app/src/utils"⟩) "/a/") := by decide +kernel
  have lookedWhole : exampleResolver.table.lookup? ("utils/a/" ++ "../../b/") =
      some (.literal "utils" (.path ⟨"/project/app/src/utils"⟩) "/a/../../b/") := by
    decide +kernel
  rcases resolve_append_of_slash (by decide) accepted built (by decide) looked lookedWhole
    ⟨"app/src/./pages/index.js"⟩ with ⟨replacement, whole, isReplacement, isWhole, same⟩
  rw [resolved, Resolution.replacement.injEq] at isReplacement
  rw [resolvedWhole, Resolution.replacement.injEq] at isWhole
  subst isReplacement isWhole
  exact ⟨resolved, resolvedWhole, same⟩

/-- A head without a slash at its end is replaced as if nothing came behind it. That is right for
the whole specifier if the whole specifier stands for what the head stands for with the rest behind
it, and the end of the head is the end of a segment, or a name that the replacement ends with,
too. -/
theorem replacement?_append (absolute : environment.workingDir.isAbsolute)
    (accepted : options.configure disk environment configured = .ok config)
    (built : ofConfig config environment = .ok resolver) {site : Site} {replacement : String}
    (replaced : resolver.replacement? file site = some replacement)
    (noSlash : endsWithSlash site.value = false) (nonempty : rest ≠ "")
    (looked : resolver.table.lookup? site.value = some found)
    (lookedWhole : resolver.table.lookup? (site.value ++ rest) = some whole)
    (goesOn : whole.substituted config.cwd = (found.substituted config.cwd).append rest) :
    ∃ text, resolver.resolve (site.value ++ rest) file = .replacement text ∧
      match found.substituted config.cwd with
      | .path path =>
        (rest.toList.head? = some '/' ∨
          (path.EndsInName ∧ ¬path.names <+: (directoryOf environment.workingDir file).names)) →
        (directoryOf environment.workingDir file).cleanFrom ⟨replacement ++ rest⟩ =
          (directoryOf environment.workingDir file).cleanFrom ⟨text⟩
      | .package _ => replacement ++ rest = text := by
  have resolverAbsolute := isAbsolute_of_ofConfig_eq_ok absolute
    (Options.isAbsolute_of_configure_eq_ok absolute accepted) built
  rcases directories_of_ofConfig_eq_ok built with ⟨cwdEq, workingDirEq⟩
  rw [← cwdEq] at goesOn
  rw [← cwdEq, ← workingDirEq]
  have resolved := (replacement?_eq_some_iff.mp replaced).2.1
  rw [resolve, looked, Resolution.replacement.injEq] at resolved
  have bare : withSlashOf site.value (resolver.expand file found) = resolver.expand file found := by
    rw [withSlashOf, noSlash, Bool.false_and, if_neg Bool.false_ne_true]
  refine ⟨_, by rw [resolve, lookedWhole], ?_⟩
  rw [← resolved]
  cases substituted : found.substituted resolver.cwd with
  | path path =>
      intro ends
      apply cleanFrom_expand_append resolverAbsolute looked lookedWhole substituted goesOn
      rcases ends with slash | ⟨endsInName, apart⟩
      · exact Or.inl slash
      · have pathEq : ofChars path.chars = path := congrArg Path.mk String.ofList_toList
        refine Or.inr (Or.inr ⟨?_, pathEq.symm ▸ endsInName⟩)
        rw [bare, expand_of_substituted_eq_path resolverAbsolute looked substituted]
        exact endsInName_referenceChars isName_of_mem_names apart
  | package name =>
      rw [substituted] at goesOn
      rw [bare, expand_of_substituted_eq_package substituted file,
        expand_of_substituted_eq_package goesOn file, withSlashOf_append_of_ne_empty nonempty]

end Configured

def utilsOptions : Options :=
  .records [⟨"utils/", "./u"⟩]

def utilsConfig : Config where
  cwd := ⟨"/project"⟩
  roots := []
  aliases := [.literal "utils" (.path ⟨"/project/u"⟩)]
  extensions := Options.defaultExtensions

/-- The site of a string at the start of a sum. -/
def headSite (value : String) : Site :=
  ⟨.require, value, 9, 9 + byteLength value.toList, .quote '\''⟩

/-- The head ends in the middle of a name, and what comes behind it goes on from there. -/
theorem replacement?_append_of_longer_name :
    (utilsResolver []).replacement? ⟨"x/i.js"⟩ (headSite "utils/a") = some "../u/a" ∧
      (utilsResolver []).resolve ("utils/a" ++ "b/../c") ⟨"x/i.js"⟩ = .replacement "../u/c" ∧
      (directoryOf ⟨"/project"⟩ ⟨"x/i.js"⟩).cleanFrom ⟨"../u/a" ++ "b/../c"⟩ =
        (directoryOf ⟨"/project"⟩ ⟨"x/i.js"⟩).cleanFrom ⟨"../u/c"⟩ := by
  have accepted : utilsOptions.configure Disk.empty ⟨⟨"/project"⟩⟩ none = .ok utilsConfig := rfl
  have built : ofConfig utilsConfig ⟨⟨"/project"⟩⟩ = .ok (utilsResolver []) := rfl
  have replaced : (utilsResolver []).replacement? ⟨"x/i.js"⟩ (headSite "utils/a") =
      some "../u/a" := by decide +kernel
  have resolvedWhole : (utilsResolver []).resolve ("utils/a" ++ "b/../c") ⟨"x/i.js"⟩ =
      .replacement "../u/c" := by decide +kernel
  have looked : (utilsResolver []).table.lookup? "utils/a" =
      some (.literal "utils" (.path ⟨"/project/u"⟩) "/a") := by decide +kernel
  have lookedWhole : (utilsResolver []).table.lookup? ("utils/a" ++ "b/../c") =
      some (.literal "utils" (.path ⟨"/project/u"⟩) "/ab/../c") := by decide +kernel
  rcases replacement?_append (by decide) accepted built replaced (by decide) (by decide) looked
    lookedWhole (by decide) with ⟨whole, isWhole, same⟩
  have wholeEq := Resolution.replacement.inj (resolvedWhole.symm.trans isWhole)
  subst wholeEq
  exact ⟨replaced, resolvedWhole, same (Or.inr (by decide))⟩

/-- The head of a sum is replaced though the name of another package may come of it. Where the whole
specifier has the alias of the head, a dot at the end of the head is lost, and so is a name that
leads to the directory of the file. -/
theorem replacement?_ne_of_open_head :
    (Script.program? (.ofFile ⟨"i.js"⟩) "require('utils'+x)".toList).map
        (fun tree => tree.val.sites) = some [headSite "utils"] ∧
      (utilsResolver []).replacement? ⟨"i.js"⟩ (headSite "utils") = some "./u" ∧
      (utilsResolver []).resolve ("utils" ++ "x") ⟨"i.js"⟩ = .noMatch ∧
      ((utilsResolver []).replacement? ⟨"i.js"⟩ (headSite "utils/.") = some "./u" ∧
        (utilsResolver []).resolve ("utils/." ++ "x") ⟨"i.js"⟩ = .replacement "./u/.x" ∧
        Path.cleanFrom ⟨"/project"⟩ ⟨"./u" ++ "x"⟩ ≠ Path.cleanFrom ⟨"/project"⟩ ⟨"./u/.x"⟩) ∧
      (utilsResolver []).replacement? ⟨"u/a/i.js"⟩ (headSite "utils/a") = some "./" ∧
        (utilsResolver []).resolve ("utils/a" ++ "b") ⟨"u/a/i.js"⟩ = .replacement "../ab" ∧
        Path.cleanFrom ⟨"/project/u/a"⟩ ⟨"./" ++ "b"⟩ ≠
          Path.cleanFrom ⟨"/project/u/a"⟩ ⟨"../ab"⟩ := by
  refine ⟨?_, ?_, ?_, ⟨?_, ?_, ?_⟩, ?_, ?_, ?_⟩ <;> decide +kernel

end Resolver

end ImportAlias
