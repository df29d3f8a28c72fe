import ImportAlias.Proofs.Alias.Resolution
import ImportAlias.Proofs.Specifier.Site
import ImportAlias.Proofs.Specifier.Splice

/-!
# Replacing twice

When no alias stands for a package, every replacement is a reference that starts with a dot. Written
between delimiters it still starts with that dot, and the splice puts it where the edit is seen from
the result. So whoever reads a literal there finds a value that is not bare, and nothing is left to
replace.
-/

namespace ImportAlias

/-- Every alias of the table stands for a path. -/
structure AliasTable.OnlyPaths (table : AliasTable) : Prop where
  literals : ∀ key target, (key, target) ∈ table.literals → ∃ path, target = .path path
  patterns : ∀ rule ∈ table.patterns, rule.external = false

/-- A text that starts with a dot is written with that dot at its start. -/
theorem Delimiter.head?_escape {delimiter : Delimiter} {text : List Char}
    (ofLiteral : delimiter.IsOfLiteral) (dot : text.head? = some '.') :
    (delimiter.escape text).head? = some '.' := by
  rcases List.head?_eq_some_iff.mp dot with ⟨rest, rfl⟩
  rcases ofLiteral with rfl | rfl | rfl <;> rfl

/-! ### Places in a result -/

/-- Edits of a text with the places in the result where their replacements start: each behind what was
emitted before and what is kept in front of the edit. -/
def placesFrom (emitted place : Nat) (text : List Char) : List Edit → List (Edit × Nat)
  | [] => []
  | edit :: rest =>
    -- The places go along with the splice, since nothing says here that the edits stand apart.
    let start := emitted + byteLength (charsBefore (edit.site.start - place) text)
    let written := edit.site.delimiter.escape edit.replacement.toList
    (edit, start) :: placesFrom (start + byteLength written) edit.site.stop
      (charsFrom (edit.site.stop - place) text) rest

/-- At its place in the result stands the replacement of an edit, escaped for its delimiters. -/
theorem exists_append_of_mem_placesFrom {emitted place start : Nat} {text : List Char}
    {edits : List Edit} {edit : Edit} (member : (edit, start) ∈ placesFrom emitted place text edits) :
    edit ∈ edits ∧ ∃ before after, spliceFrom place text edits =
        before ++ (edit.site.delimiter.escape edit.replacement.toList ++ after) ∧
      start = emitted + byteLength before := by
  induction edits generalizing emitted place text with
  | nil => exact absurd member List.not_mem_nil
  | cons first rest ih =>
      rcases List.mem_cons.mp member with here | behind
      · cases here
        exact ⟨List.mem_cons_self, _, _, List.append_assoc _ _ _, rfl⟩
      · rcases ih behind with ⟨inRest, before, after, split, rfl⟩
        refine ⟨List.mem_cons_of_mem first inRest,
          charsBefore (first.site.start - place) text ++ first.written ++ before, after, ?_, ?_⟩
        · rw [spliceFrom, split, List.append_assoc _ before]
        · simp only [byteLength_append, Edit.written]
          omega

namespace Resolver

variable {resolver : Resolver} {file : Path}

theorem head?_expand (onlyPaths : resolver.table.OnlyPaths) {specifier : String}
    {found : AliasTable.Match} (looked : resolver.table.lookup? specifier = some found)
    (file : Path) :
    (resolver.expand file found).toList.head? = some '.' := by
  have chosen := resolver.table.chooses_lookup? specifier
  rw [looked] at chosen
  cases chosen with
  | @literal key rest target longest =>
      have member := mem_of_fieldAt?_eq_some longest.present
      rcases onlyPaths.literals key target member with ⟨path, rfl⟩
      exact Path.head?_reference resolver.workingDir file _
  | @pattern earlier later rule captures nonempty noKey order unmatched hit =>
      have inside : rule ∈ resolver.table.patterns := by
        rw [order]
        exact List.mem_append_right earlier List.mem_cons_self
      rw [onlyPaths.patterns rule inside]
      exact Path.head?_reference resolver.workingDir file _

/-- Where no alias stands for a package, what replaces a specifier starts with a dot. -/
theorem head?_of_resolve_eq_replacement (onlyPaths : resolver.table.OnlyPaths)
    {specifier text : String} (resolved : resolver.resolve specifier file = .replacement text) :
    text.toList.head? = some '.' := by
  unfold resolve at resolved
  split at resolved
  · exact Resolution.noConfusion resolved
  · next found looked =>
    cases resolved
    have dot := head?_expand onlyPaths looked file
    rcases toList_withSlashOf specifier (resolver.expand file found) with same | longer
    · rw [same]
      exact dot
    · rw [longer, List.head?_append, dot]
      rfl

theorem replacement?_eq_of_value_eq {first second : Site} (same : first.value = second.value) :
    resolver.replacement? file first = resolver.replacement? file second := by
  rw [replacement?, replacement?, same]

theorem replaceSites_eq_of_forall_none {source : String} {sites : List Site}
    (noneCalled : ∀ site ∈ sites, resolver.replacement? file site = none) :
    resolver.replaceSites file source.toList sites = ⟨source, []⟩ := by
  have noEdits : resolver.edits file (Site.sorted sites) = [] := by
    apply edits_eq_nil_of_forall
    intro site member
    exact noneCalled site ((Site.sorted_perm sites).mem_iff.mp member)
  rw [replaceSites, noEdits, spliceFrom, String.ofList_toList, List.map_nil]

/-- A site that starts with a written replacement calls for no other one. -/
theorem replacement?_eq_none_of_written (onlyPaths : resolver.table.OnlyPaths)
    {result before after : List Char} {original site : Site} {text : String}
    (ofLiteral : original.delimiter.IsOfLiteral)
    (called : resolver.replacement? file original = some text)
    (split : result = before ++ (original.delimiter.escape text.toList ++ after))
    (start : site.start = byteLength before) {kind : SiteKind} {literal : Script.Literal}
    (stands : literal.StandsIn result) (isSite : literal.site kind = site) :
    resolver.replacement? file site = none := by
  have resolved := (replacement?_eq_some_iff.mp called).2.1
  have dot := Delimiter.head?_escape ofLiteral (head?_of_resolve_eq_replacement onlyPaths resolved)
  rcases List.head?_eq_some_iff.mp dot with ⟨rest, written⟩
  rw [written, List.cons_append] at split
  have value := Script.Literal.head?_value_site stands (by decide) split (isSite ▸ start)
  rw [isSite] at value
  exact Ignores.replacement?_eq_none (Or.inr (Or.inl value))

/-- What the reader of scripts is relied on for when specifiers of a source were replaced: the places
and the values of the sites that it reports in the result. A site has the value of one of the source
that was not replaced, or it starts where the replacement of an edit starts. -/
def RereadsAs (resolver : Resolver) (file : Path) (source : String) (sites : List Site) : Prop :=
  ∃ tree, Script.program? (.ofFile file)
      (resolver.replaceSites file source.toList sites).code.toList = some tree ∧
    ∀ site ∈ tree.val.sites,
      (∃ original ∈ sites, resolver.replacement? file original = none ∧
        site.value = original.value) ∨
      ∃ edit, (edit, site.start) ∈
        placesFrom 0 0 source.toList (resolver.edits file (Site.sorted sites))

/-- Where no alias stands for a package, replacing the specifiers of a result changes nothing. -/
theorem transform_idempotent (onlyPaths : resolver.table.OnlyPaths) {source : String}
    {tree : Script.Tree source.toList}
    (read : Script.program? (.ofFile file) source.toList = some tree)
    (reread : resolver.RereadsAs file source tree.val.sites) :
    ∃ output, resolver.transform source file = .ok output ∧
      resolver.transform output.code file = .ok ⟨output.code, []⟩ := by
  refine ⟨resolver.replaceSites file source.toList tree.val.sites, transform_of_read read, ?_⟩
  rcases reread with ⟨again, readAgain, goesBack⟩
  have noneCalled : ∀ site ∈ again.val.sites, resolver.replacement? file site = none := by
    intro site member
    rcases goesBack site member with ⟨original, _, notCalled, sameValue⟩ | ⟨edit, placed⟩
    · exact (replacement?_eq_of_value_eq sameValue).trans notCalled
    · rcases exists_append_of_mem_placesFrom placed with ⟨isEdit, before, after, split, start⟩
      rcases mem_edits_iff.mp isEdit with ⟨inSorted, called⟩
      have inSource := (Site.sorted_perm tree.val.sites).mem_iff.mp inSorted
      rcases Script.Node.exists_literal_of_mem_sites tree.property inSource with
        ⟨originalKind, originalLiteral, originalStands, isOriginal⟩
      rcases Script.Node.exists_literal_of_mem_sites again.property member with
        ⟨kind, literal, stands, isSite⟩
      have ofLiteral := Script.Literal.isOfLiteral_delimiter_site originalStands originalKind
      rw [isOriginal] at ofLiteral
      rw [← toList_code_replaceSites] at split
      rw [Nat.zero_add] at start
      exact replacement?_eq_none_of_written onlyPaths ofLiteral called split start stands isSite
  rw [transform_of_read readAgain, replaceSites_eq_of_forall_none noneCalled]

def templateSource : String :=
  "import '@';import(\x60./c\x60);require(\x60@/b\x60)"

/-- The specifiers of the source: the second one is relative. -/
def templateSites : List Site :=
  [⟨.importDeclaration, "@", 8, 9, .quote '\''⟩, ⟨.dynamicImport, "./c", 19, 22, .backtick⟩,
    ⟨.require, "@/b", 34, 37, .backtick⟩]

def templateResult : Transformed where
  code := "import './src/it\\'s';import(\x60./c\x60);require(\x60./src/it's/b\x60)"
  replaced := [⟨.importDeclaration, "@", "./src/it's", 8⟩, ⟨.require, "@/b", "./src/it's/b", 34⟩]

theorem transform_idempotent_of_quoted :
    quotedResolver.transform templateSource ⟨"a.js"⟩ = .ok templateResult ∧
      quotedResolver.transform templateResult.code ⟨"a.js"⟩ = .ok ⟨templateResult.code, []⟩ := by
  have onlyPaths : quotedResolver.table.OnlyPaths :=
    ⟨by simp [quotedResolver], by simp [quotedResolver]⟩
  have sites : (Script.program? (.ofFile ⟨"a.js"⟩) templateSource.toList).map
      (fun tree => tree.val.sites) = some templateSites := by
    decide +kernel
  have sitesAgain : (Script.program? (.ofFile ⟨"a.js"⟩) templateResult.code.toList).map
      (fun tree => tree.val.sites) = some
        [⟨.importDeclaration, "./src/it's", 8, 19, .quote '\''⟩,
          ⟨.dynamicImport, "./c", 29, 32, .backtick⟩,
          ⟨.require, "./src/it's/b", 44, 56, .backtick⟩] := by
    decide +kernel
  have sorted : Site.sorted templateSites = templateSites :=
    List.mergeSort_of_pairwise (by decide)
  have result : quotedResolver.replaceSites ⟨"a.js"⟩ templateSource.toList templateSites =
      templateResult := by
    rw [replaceSites, sorted]
    decide +kernel
  rcases Option.map_eq_some_iff.mp sites with ⟨tree, read, treeSites⟩
  rcases Option.map_eq_some_iff.mp sitesAgain with ⟨again, readAgain, againSites⟩
  have reread : quotedResolver.RereadsAs ⟨"a.js"⟩ templateSource tree.val.sites := by
    unfold RereadsAs
    rw [treeSites, result, sorted]
    refine ⟨again, readAgain, ?_⟩
    rw [againSites]
    simp only [List.forall_mem_cons]
    refine ⟨?_, ?_, ?_, fun site member => absurd member List.not_mem_nil⟩
    · exact Or.inr ⟨⟨⟨.importDeclaration, "@", 8, 9, .quote '\''⟩, "./src/it's"⟩, by decide +kernel⟩
    · exact Or.inl ⟨⟨.dynamicImport, "./c", 19, 22, .backtick⟩, by decide, by decide, rfl⟩
    · -- The third site is ten bytes further on, since the first one became so much longer.
      exact Or.inr ⟨⟨⟨.require, "@/b", 34, 37, .backtick⟩, "./src/it's/b"⟩, by decide +kernel⟩
  have first : quotedResolver.transform templateSource ⟨"a.js"⟩ = .ok _ := transform_of_read read
  rw [treeSites, result] at first
  rcases transform_idempotent onlyPaths read reread with ⟨output, transformed, again⟩
  cases first.symm.trans transformed
  exact ⟨first, again⟩

end Resolver

end ImportAlias
