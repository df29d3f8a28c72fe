import ImportAlias.Options.Reader
import ImportAlias.Proofs.Alias.Resolution
import ImportAlias.Proofs.Alias.Template
import ImportAlias.Proofs.Regex.Prefix

/-!
# A literal alias as a pattern

A literal alias does what the pattern for its key and for what is below it does, with the text of
the group behind the value. The literal alias writes what is behind the key after the clean path of
its target, the pattern writes it after the value and cleans both together; either way leads to the
same names from the root down.
-/

namespace ImportAlias

/-! ### Templates -/

namespace Template

/-- In a text without backslashes the reader is never in the middle of something. -/
theorem standing_of_not_mem {text : List Char} (plain : '\\' ∉ text) : standing text = .text := by
  induction text with
  | nil => rfl
  | cons char more ih =>
      rw [List.mem_cons, not_or] at plain
      rw [standing_plain (Ne.symm plain.1), ih plain.2]

/-- A text without backslashes stands for itself. -/
theorem expandTokens_readTokens_of_not_mem {captures : Nat → Option String} {text : List Char}
    (plain : '\\' ∉ text) : expandTokens captures (readTokens text) = text := by
  induction text with
  | nil =>
      rw [readTokens_nil]
      rfl
  | cons char more ih =>
      rw [List.mem_cons, not_or] at plain
      rw [readTokens_plain (Ne.symm plain.1), expandTokens_consChar, ih plain.2]

theorem expand_ofText_append_group {captures : Nat → Option String} {text : String}
    (plain : '\\' ∉ text.toList) :
    (ofText (text ++ "\\1")).expand captures = text ++ (captures 1).getD "" := by
  have paired : standing text.toList ≠ .backslash := by
    rw [standing_of_not_mem plain]
    decide
  have one : indexOf ['1'] = 1 := by decide
  have chars : (text ++ "\\1").toList = text.toList ++ '\\' :: (['1'] ++ []) := by simp
  have ends : EndsDigits [] := by simp [EndsDigits]
  have expanded : expandTokens captures _ = _ :=
    expandTokens_readTokens_group paired (List.cons_ne_nil '1' []) (by simp) ends
  rw [expandTokens_readTokens_of_not_mem plain, readTokens_nil, one, ← chars] at expanded
  rw [← String.toList_inj, expand, ofText, String.toList_ofList, expanded, String.toList_append]
  cases captures 1 <;> simp [expandTokens]

end Template

/-! ### Packages -/

theorem prefix_append_cons_iff {text first rest : List Char} {char : Char}
    (absent : char ∉ text) : text <+: first ++ char :: rest ↔ text <+: first := by
  constructor
  · intro before
    by_cases long : text.length ≤ first.length
    · exact List.prefix_of_prefix_length_le before (List.prefix_append _ _) long
    · -- A longer start of the text would take the character with it.
      have shorter : first.length ≤ text.length := by omega
      rcases List.prefix_of_prefix_length_le (List.prefix_append _ _) before shorter with
        ⟨more, rfl⟩
      rw [List.prefix_append_right_inj] at before
      cases more with
      | nil => simp at long
      | cons next behind =>
          rw [List.cons_prefix_cons] at before
          rw [before.1] at absent
          simp at absent
  · intro before
    exact before.trans (List.prefix_append _ _)

namespace Options

/-- The mark of a package is found in a value and in the template that it starts. -/
theorem packageName?_append_group (value : String) :
    packageName? (value ++ "\\1") = (packageName? value).map (· ++ "\\1") := by
  have chars : (value ++ "\\1").toList = value.toList ++ ['\\', '1'] := by simp
  have sameMark : packageMark.toList.isPrefixOf (value ++ "\\1").toList =
      packageMark.toList.isPrefixOf value.toList := by
    rw [Bool.eq_iff_iff, List.isPrefixOf_iff_prefix, List.isPrefixOf_iff_prefix, chars]
    exact prefix_append_cons_iff (by decide)
  rw [packageName?, packageName?, sameMark]
  split
  · next marked =>
    have long := (List.isPrefixOf_iff_prefix.mp marked).length_le
    rw [Option.map_some, Option.some.injEq, ← String.toList_inj, chars,
      List.drop_append_of_le_length long]
    simp
  · rfl

end Options

/-! ### Paths below a target -/

namespace Path

variable {cwd : Path}

theorem names_append_slash (path : Path) (rest : String) :
    Path.names ⟨path.text ++ "/" ++ rest⟩ = walk path.names rest.toList := by
  have chars : Path.chars ⟨path.text ++ "/" ++ rest⟩ = path.chars ++ '/' :: rest.toList := by
    simp [Path.chars]
  rw [names, chars, walk_append, names]

/-- Text behind a slash is walked along from where the path before it leads. -/
theorem names_join_append_slash (absolute : cwd.isAbsolute) {value : String} (nonempty : value ≠ "")
    (rest : String) :
    (cwd.join ⟨value ++ "/" ++ rest⟩).names = walk (cwd.join ⟨value⟩).names rest.toList := by
  have chars : Path.chars ⟨value ++ "/" ++ rest⟩ = value.toList ++ '/' :: rest.toList := by
    simp [Path.chars]
  have sameHead : Path.isAbsolute ⟨value ++ "/" ++ rest⟩ = Path.isAbsolute ⟨value⟩ := by
    have valueChars : Path.chars ⟨value⟩ = value.toList := rfl
    cases start : value.toList with
    | nil => exact absurd (String.toList_eq_nil_iff.mp start) nonempty
    | cons first more => simp [isAbsolute, chars, valueChars, start]
  cases valueAbsolute : Path.isAbsolute ⟨value⟩ with
  | true =>
      rw [valueAbsolute] at sameHead
      rw [join_of_isAbsolute sameHead, join_of_isAbsolute valueAbsolute]
      exact names_append_slash ⟨value⟩ rest
  | false =>
      rw [valueAbsolute] at sameHead
      rw [names_join absolute sameHead, names_join absolute valueAbsolute, chars, walk_append]
      rfl

end Path

open ImportAlias.Path

/-! ### Two resolvers -/

/-- Options with one alias. -/
def Options.ofAlias (key value : String) : Json :=
  .object [("alias", .object [(key, .string value)])]

namespace Resolver

variable {disk : Disk} {environment : Environment} {configured : Option Path}

/-- The resolver of options as they come, for a file if it is known. -/
def ofValue (disk : Disk) (environment : Environment) (configured : Option Path) (value : Json) :
    Except ConfigError Resolver := do
  let options ← Options.ofJson value
  let config ← options.configure disk environment configured
  ofConfig config environment

theorem ofValue_ofAlias (key value : String) :
    ofValue disk environment configured (Options.ofAlias key value) = (do
      let config ← Options.configureSettings disk environment configured
        ⟨none, [], [(key, value)], none⟩
      ofConfig config environment) := by
  have read : Options.ofJson (Options.ofAlias key value) =
      .ok (.settings ⟨none, [], [(key, value)], none⟩) := rfl
  rw [ofValue, read]
  rfl

theorem ofValue_ofAlias_of_literal {key : String} (literal : Options.isPattern key = false)
    (value : String) :
    ofValue disk environment configured (Options.ofAlias key value) =
      .ok ⟨⟨[(Options.trimKey key, Options.targetOf disk environment.workingDir []
        Options.defaultExtensions value)], []⟩, environment.workingDir,
        environment.workingDir⟩ := by
  have config : Options.configureSettings disk environment configured
      ⟨none, [], [(key, value)], none⟩ =
        .ok ⟨environment.workingDir, [], [.literal (Options.trimKey key) (Options.targetOf disk
          environment.workingDir [] Options.defaultExtensions value)],
          Options.defaultExtensions⟩ := by
    rw [Options.configureSettings]
    simp only [List.filter_cons, literal]
    rfl
  rw [ofValue_ofAlias, config]
  rfl

theorem ofValue_ofAlias_of_pattern {key : String} (pattern : Options.isPattern key = true)
    (value : String) :
    ofValue disk environment configured (Options.ofAlias key value) =
      (AliasTable.patternsOf [Options.patternOf (key, value)]).map (fun patterns =>
        ⟨⟨[], patterns⟩, environment.workingDir, environment.workingDir⟩) := by
  have config : Options.configureSettings disk environment configured
      ⟨none, [], [(key, value)], none⟩ =
        .ok ⟨environment.workingDir, [], [Options.patternOf (key, value)],
          Options.defaultExtensions⟩ := by
    rw [Options.configureSettings]
    simp only [List.filter_cons, pattern]
    rfl
  have noLiterals : Config.literals ⟨environment.workingDir, [], [Options.patternOf (key, value)],
      Options.defaultExtensions⟩ = [] := by
    rcases Options.patternOf_eq_pattern (key, value) with ⟨template, external, isPattern⟩
    rw [isPattern]
    rfl
  rw [ofValue_ofAlias, config]
  change (AliasTable.ofConfig _ >>= fun table => _) = _
  rw [AliasTable.ofConfig, noLiterals]
  cases AliasTable.patternsOf [Options.patternOf (key, value)] <;> rfl

end Resolver

/-! ### Lookups in tables with one alias -/

namespace AliasTable

variable {key specifier rest : String} {target : Target}

theorem eq_key_of_hasKey_single {other : String}
    (hasKey : HasKey ⟨[(key, target)], []⟩ other) : other = key := by
  rcases hasKey with ⟨otherTarget, member⟩
  exact (Prod.mk.inj (List.mem_singleton.mp member)).1

/-- The only key is found in itself and in everything below it. -/
theorem lookup?_single_of_applies (applies : Applies key specifier)
    (split : key ++ rest = specifier) :
    lookup? ⟨[(key, target)], []⟩ specifier = some (.literal key target rest) := by
  apply lookup?_eq_of_chooses
  refine .literal ⟨?_, applies, ?_, split⟩
  · simp [literal?, fieldAt?]
  · intro other hasOther _
    exact Nat.le_of_eq (congrArg String.length (eq_key_of_hasKey_single hasOther))

theorem lookup?_single_of_not_applies (apart : ¬Applies key specifier) :
    lookup? ⟨[(key, target)], []⟩ specifier = none := by
  apply lookup?_eq_of_chooses
  refine .nothing ?_ (fun rule nowhere => absurd nowhere List.not_mem_nil)
  intro other hasOther
  rw [eq_key_of_hasKey_single hasOther]
  exact apart

theorem lookup?_single_pattern (nonempty : specifier ≠ "") (rule : PatternRule) :
    lookup? ⟨[], [rule]⟩ specifier = rule.match? specifier := by
  have noKey (key : String) : ¬HasKey ⟨[], [rule]⟩ key :=
    fun ⟨target, member⟩ => absurd member List.not_mem_nil
  rw [lookup?_of_not_applies nonempty (fun key hasKey => absurd hasKey (noKey key)),
    List.findSome?_singleton]

end AliasTable

/-! ### The equivalence -/

/-- The rule of a pattern and the target that it stands for. -/
def PatternRule.ofTarget (pattern : String) (regex : Regex) (value : String) : PatternRule :=
  match Options.packageName? value with
  | some template => ⟨pattern, regex.search?, .ofText template, true⟩
  | none => ⟨pattern, regex.search?, .ofText value, false⟩

theorem PatternRule.search?_ofTarget (pattern : String) (regex : Regex) (value : String) :
    (ofTarget pattern regex value).search? = regex.search? := by
  unfold ofTarget
  split <;> rfl

theorem AliasTable.patternsOf_patternOf (pattern value : String) :
    patternsOf [Options.patternOf (pattern, value)] =
      match Regex.ofPattern? pattern with
      | some regex => .ok [PatternRule.ofTarget pattern regex value]
      | none => .error (.invalidPattern pattern) := by
  unfold Options.patternOf PatternRule.ofTarget
  cases valid : Regex.ofPattern? pattern <;> cases Options.packageName? value <;>
    simp [patternsOf, PatternRule.ofPattern, valid, bind, Except.bind, pure, Except.pure]

theorem Options.trimKey_of_getLast?_ne {key : String} (noSlash : key.toList.getLast? ≠ some '/') :
    trimKey key = key := by
  have kept : key.toList.reverse.dropWhile (· = '/') = key.toList.reverse := by
    rw [← List.head?_reverse] at noSlash
    cases last : key.toList.reverse with
    | nil => rfl
    | cons char before =>
        rw [last, List.head?_cons, ne_eq, Option.some.injEq] at noSlash
        exact List.dropWhile_cons_of_neg (by simpa using noSlash)
  rw [trimKey, kept, List.reverse_reverse, String.ofList_toList]

/-- Without roots, a target that is no package is the value seen from the directory. -/
theorem Options.targetOf_of_packageName?_eq_none {disk : Disk} {cwd : Path}
    {extensions : List String} {value : String} (noPackage : packageName? value = none) :
    targetOf disk cwd [] extensions value = .path (cwd.cleanFrom ⟨value⟩) := by
  rw [targetOf, noPackage]
  dsimp only
  split
  · next absolute => rw [cleanFrom, join_of_isAbsolute absolute]
  · rfl

namespace Resolver

/-- A literal alias stands for the same in a file as its pattern does when the group takes what is
behind the key. -/
theorem expand_literal_eq_expand_pattern {disk : Disk} {cwd : Path} (absolute : cwd.isAbsolute)
    {key value rest pattern : String} {regex : Regex} {captures : Regex.Captures}
    (keyNonempty : key ≠ "") (valueNonempty : value ≠ "") (plain : '\\' ∉ value.toList)
    (behind : rest = "" ∨ ∃ more, rest = "/" ++ more) (taken : (captures 1).getD "" = rest)
    (first second : AliasTable) (file : Path) :
    expand ⟨first, cwd, cwd⟩ file
        (.literal key (Options.targetOf disk cwd [] Options.defaultExtensions value) rest) =
      expand ⟨second, cwd, cwd⟩ file
        (.pattern ((PatternRule.ofTarget pattern regex (value ++ "\\1")).template.expand captures)
          (PatternRule.ofTarget pattern regex (value ++ "\\1")).external) := by
  have mark := Options.packageName?_append_group value
  cases package : Options.packageName? value with
  | some name =>
      have namePlain : '\\' ∉ name.toList := by
        rw [Options.packageName?] at package
        split at package
        · rw [Option.some.injEq] at package
          rw [← package, String.toList_ofList]
          exact fun member => plain (List.mem_of_mem_drop member)
        · simp at package
      rw [package, Option.map_some] at mark
      rw [PatternRule.ofTarget, mark, Options.targetOf, package]
      simp only [expand, if_neg keyNonempty]
      rw [Template.expand_ofText_append_group namePlain, taken]
  | none =>
      rw [package, Option.map_none] at mark
      rw [PatternRule.ofTarget, mark, Options.targetOf_of_packageName?_eq_none package]
      simp only [expand, if_neg keyNonempty]
      rw [Template.expand_ofText_append_group plain, taken, ← String.toList_inj]
      have targetAbsolute := isAbsolute_append (isAbsolute_cleanFrom absolute ⟨value⟩) rest
      rw [reference_toList_of_isAbsolute absolute targetAbsolute,
        reference_toList_of_isAbsolute absolute (isAbsolute_cleanFrom absolute _), cleanFrom,
        cleanFrom, names_clean (isAbsolute_join absolute _)]
      apply congrArg
      rcases behind with rfl | ⟨more, rfl⟩
      · rw [String.append_empty, String.append_empty, names_clean (isAbsolute_join absolute _)]
      · rw [← String.append_assoc, ← String.append_assoc, names_append_slash,
          names_clean (isAbsolute_join absolute _),
          names_join_append_slash absolute valueNonempty]

/-- The resolver with the literal alias and the one with its pattern agree on every line. -/
theorem resolve_single_eq_resolve_pattern {disk : Disk} {cwd : Path} (absolute : cwd.isAbsolute)
    {key value specifier : String} {regex : Regex} (keyNonempty : key ≠ "")
    (valueNonempty : value ≠ "") (plain : '\\' ∉ value.toList)
    (valid : Regex.ofPattern? (Regex.prefixPattern key) = some regex)
    (line : '\n' ∉ specifier.toList) (file : Path) :
    resolve ⟨⟨[(key, Options.targetOf disk cwd [] Options.defaultExtensions value)], []⟩, cwd, cwd⟩
        specifier file =
      resolve ⟨⟨[], [PatternRule.ofTarget (Regex.prefixPattern key) regex (value ++ "\\1")]⟩,
        cwd, cwd⟩ specifier file := by
  generalize ruleEq : PatternRule.ofTarget (Regex.prefixPattern key) regex (value ++ "\\1") = rule
  generalize targetEq : Options.targetOf disk cwd [] Options.defaultExtensions value = target
  have search : rule.search? = regex.search? := ruleEq ▸ PatternRule.search?_ofTarget _ _ _
  have agree {rest : String} {captures : Regex.Captures} (nonempty : specifier ≠ "")
      (applies : AliasTable.Applies key specifier) (split : key ++ rest = specifier)
      (hit : regex.search? specifier = some captures)
      (behind : rest = "" ∨ ∃ more, rest = "/" ++ more) (taken : (captures 1).getD "" = rest) :
      resolve ⟨⟨[(key, target)], []⟩, cwd, cwd⟩ specifier file =
        resolve ⟨⟨[], [rule]⟩, cwd, cwd⟩ specifier file := by
    rw [resolve, resolve, AliasTable.lookup?_single_of_applies applies split,
      AliasTable.lookup?_single_pattern nonempty, PatternRule.match?, search, hit, Option.map_some]
    simp only [← ruleEq, ← targetEq]
    rw [expand_literal_eq_expand_pattern absolute keyNonempty valueNonempty plain behind taken]
  have found := Regex.prefixMatch_search? valid line
  generalize hit : regex.search? specifier = captures at found
  cases found with
  | whole unused =>
      apply agree keyNonempty ⟨keyNonempty, Or.inl rfl⟩ (String.append_empty ..) hit (Or.inl rfl)
      rw [unused, Option.getD_none]
  | @below rest captures taken =>
      have nonempty : key ++ "/" ++ rest ≠ "" := by
        intro empty
        have chars := congrArg String.toList empty
        simp at chars
      apply agree nonempty ⟨nonempty, Or.inr (Or.inl ⟨rest, rfl⟩)⟩ (String.append_assoc ..).symm hit
        (Or.inr ⟨rest, rfl⟩)
      rw [taken, Option.getD_some]
  | apart notKey notBelow =>
      have apart : ¬AliasTable.Applies key specifier := by
        rintro ⟨_, same | ⟨rest, below⟩ | empty⟩
        · exact notKey same.symm
        · exact notBelow rest below
        · exact keyNonempty empty
      rw [resolve, resolve, AliasTable.lookup?_single_of_not_applies apart]
      by_cases empty : specifier = ""
      · rw [AliasTable.lookup?, if_pos empty]
      · rw [AliasTable.lookup?_single_pattern empty, PatternRule.match?, search, hit,
          Option.map_none]

/-- From an absolute working directory, a literal alias does what the pattern for its key and for
what is below it does, with the text of the group behind its value. -/
theorem resolve_eq_resolve_of_prefixPattern (disk : Disk) {environment : Environment}
    (configured : Option Path) {key value : String} (absolute : environment.workingDir.isAbsolute)
    (keyNonempty : key ≠ "") (noSlash : key.toList.getLast? ≠ some '/')
    (isLiteral : Options.isPattern key = false) (valueNonempty : value ≠ "")
    (plain : '\\' ∉ value.toList) :
    ∃ literal,
      ofValue disk environment configured (Options.ofAlias key value) = .ok literal ∧
      (∀ pattern, ofValue disk environment configured
          (Options.ofAlias ("^" ++ Regex.escape key ++ "(/.*)?$") (value ++ "\\1")) = .ok pattern →
        ∀ specifier : String, '\n' ∉ specifier.toList → ∀ file,
          literal.resolve specifier file = pattern.resolve specifier file) ∧
      (key.length ≤ 65536 → ∃ pattern, ofValue disk environment configured
        (Options.ofAlias ("^" ++ Regex.escape key ++ "(/.*)?$") (value ++ "\\1")) =
          .ok pattern) := by
  have trimmed := Options.trimKey_of_getLast?_ne noSlash
  have isPrefixPattern : "^" ++ Regex.escape key ++ "(/.*)?$" = Regex.prefixPattern key := rfl
  have isPattern : Options.isPattern (Regex.prefixPattern key) = true := by
    simp [Options.isPattern, Regex.prefixPattern]
  have built : ofValue disk environment configured
      (Options.ofAlias (Regex.prefixPattern key) (value ++ "\\1")) = _ :=
    ofValue_ofAlias_of_pattern isPattern (value ++ "\\1")
  rw [AliasTable.patternsOf_patternOf] at built
  refine ⟨_, ofValue_ofAlias_of_literal isLiteral value, ?_, ?_⟩
  · intro pattern ok specifier line file
    rw [trimmed]
    rw [isPrefixPattern, built] at ok
    cases valid : Regex.ofPattern? (Regex.prefixPattern key) with
    | none => simp [valid, Except.map] at ok
    | some regex =>
        simp only [valid, Except.map, Except.ok.injEq] at ok
        subst ok
        exact resolve_single_eq_resolve_pattern absolute keyNonempty valueNonempty plain valid line
          file
  · intro short
    rcases Regex.exists_ofPattern?_prefixPattern short with ⟨regex, valid⟩
    rw [isPrefixPattern, built, valid]
    exact ⟨_, rfl⟩

def dottedResolver : Resolver where
  table := ⟨[("@.ui", .path ⟨"/project/lib/ui"⟩)], []⟩
  cwd := ⟨"/project"⟩
  workingDir := ⟨"/project"⟩

set_option maxRecDepth 10000 in
/-- A key with a dot, a value with dots, and a specifier below the key that ends with a slash. -/
theorem resolve_eq_resolve_of_dotted_prefixPattern :
    ∃ pattern,
      ofValue Disk.empty ⟨⟨"/project"⟩⟩ none
          (Options.ofAlias "@.ui" "./src/../lib/ui") = .ok dottedResolver ∧
      ofValue Disk.empty ⟨⟨"/project"⟩⟩ none
          (Options.ofAlias "^@\\.ui(/.*)?$" "./src/../lib/ui\\1") = .ok pattern ∧
      dottedResolver.resolve "@.ui/a/../b/" ⟨"src/index.js"⟩ = .replacement "../lib/ui/b/" ∧
      pattern.resolve "@.ui/a/../b/" ⟨"src/index.js"⟩ = .replacement "../lib/ui/b/" := by
  have escaped : "^" ++ Regex.escape "@.ui" ++ "(/.*)?$" = "^@\\.ui(/.*)?$" := by decide
  have value : "./src/../lib/ui" ++ "\\1" = "./src/../lib/ui\\1" := by decide
  have built : ofValue Disk.empty ⟨⟨"/project"⟩⟩ none
      (Options.ofAlias "@.ui" "./src/../lib/ui") = .ok dottedResolver := rfl
  have resolved : dottedResolver.resolve "@.ui/a/../b/" ⟨"src/index.js"⟩ =
      .replacement "../lib/ui/b/" := by decide
  rcases @resolve_eq_resolve_of_prefixPattern Disk.empty ⟨⟨"/project"⟩⟩ none "@.ui"
      "./src/../lib/ui" (by decide) (by decide) (by decide) (by decide) (by decide) (by decide)
    with ⟨literal, isBuilt, agree, short⟩
  rw [built, Except.ok.injEq] at isBuilt
  subst isBuilt
  rcases short (by decide) with ⟨pattern, ok⟩
  have same := agree pattern ok "@.ui/a/../b/" (by decide) ⟨"src/index.js"⟩
  rw [escaped, value] at ok
  exact ⟨pattern, built, ok, resolved, same ▸ resolved⟩

end Resolver

end ImportAlias
