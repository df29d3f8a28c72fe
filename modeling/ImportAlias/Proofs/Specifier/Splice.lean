import ImportAlias.Proofs.Specifier.Place
import ImportAlias.Specifier.Transform

/-!
# Splicing replacements into a source

Replacements that stand apart in a source are made independently of each other. The splice walks
through the source once: it has emitted everything up to its place, and what is left of the text
holds all edits that are still to be made. What is written in the place of a site is its replacement,
escaped for the delimiters of the site, and what is reported of it is its kind, its value, the
replacement and where it started. A site without a replacement leaves no trace.
-/

namespace ImportAlias

/-- The site covers whole characters of the source. -/
def Site.PlacedIn (source : List Char) (site : Site) : Prop :=
  ∃ before old after, source = before ++ (old ++ after) ∧ site.start = byteLength before ∧
    site.stop = site.start + byteLength old

theorem Site.PlacedIn.start_le_stop {source : List Char} {site : Site}
    (placed : site.PlacedIn source) : site.start ≤ site.stop := by
  rcases placed with ⟨_, _, _, _, _, stop⟩
  omega

/-- The sites start at different places, and one of them ends before the other one starts. -/
def Site.Apart (first second : Site) : Prop :=
  first.start ≠ second.start ∧ (first.stop ≤ second.start ∨ second.stop ≤ first.start)

/-- One text is another one with edits made in it: what they cover gives way to the replacement, escaped
for the delimiters around it, and everything else is kept where it is. The number is the place of the
text in the source. -/
inductive Spliced : Nat → List Char → List Edit → List Char → Prop where
  | done (place : Nat) (text : List Char) : Spliced place text [] text
  | edit {place : Nat} {kept old rest result : List Char} {edit : Edit} {edits : List Edit}
      (start : edit.site.start = place + byteLength kept)
      (stop : edit.site.stop = edit.site.start + byteLength old)
      (more : Spliced edit.site.stop rest edits result) :
      Spliced place (kept ++ (old ++ rest)) (edit :: edits)
        (kept ++ (edit.site.delimiter.escape edit.replacement.toList ++ result))

/-- Edits that follow each other in a text are made in it. -/
theorem spliced_spliceFrom {place : Nat} {text : List Char} {edits : List Edit}
    (ordered : edits.Pairwise (fun earlier later => earlier.site.stop ≤ later.site.start))
    (placed : ∀ edit ∈ edits, ∃ before old after, text = before ++ (old ++ after) ∧
      edit.site.start = place + byteLength before ∧
      edit.site.stop = edit.site.start + byteLength old) :
    Spliced place text edits (spliceFrom place text edits) := by
  induction edits generalizing place text with
  | nil => exact .done place text
  | cons edit rest ih =>
      -- What is left behind the first edit has all others, seen from where that edit stops.
      rcases placed edit List.mem_cons_self with ⟨kept, old, after, rfl, start, stop⟩
      rcases List.pairwise_cons.mp ordered with ⟨behind, restOrdered⟩
      have keptLength : edit.site.start - place = byteLength kept := by omega
      have wholeLength : edit.site.stop - place = byteLength (kept ++ old) := by
        rw [byteLength_append]
        omega
      rw [spliceFrom, keptLength, charsBefore_append, wholeLength, ← List.append_assoc kept old,
        charsFrom_append, List.append_assoc, List.append_assoc]
      refine .edit start stop (ih restOrdered ?_)
      intro later member
      rcases placed later (List.mem_cons_of_mem edit member) with
        ⟨before, laterOld, laterAfter, split, laterStart, laterStop⟩
      have follows := behind later member
      rw [← List.append_assoc] at split
      have shorter : byteLength (kept ++ old) ≤ byteLength before := by
        rw [byteLength_append]
        omega
      rcases exists_append_of_byteLength_le split shorter with ⟨between, beforeEq, afterEq⟩
      refine ⟨between, laterOld, laterAfter, afterEq, ?_, laterStop⟩
      rw [laterStart, beforeEq, byteLength_append, byteLength_append]
      omega

/-! ### Edits -/

theorem Specifier.isBare_iff {specifier : String} :
    Specifier.isBare specifier ↔ specifier ≠ "" ∧ specifier.toList.head? ≠ some '.' ∧
      specifier.toList.head? ≠ some '/' := by
  have empty : specifier = "" ↔ specifier.toList = [] := by
    rw [← String.toList_inj]
    rfl
  rw [isBare, ne_eq, empty]
  cases specifier.toList with
  | nil => simp
  | cons first rest => simp

namespace Resolver

variable {resolver : Resolver} {file : Path}

/-- What takes the place of a site is what its bare value resolves to, unless that is the value. -/
theorem replacement?_eq_some_iff {site : Site} {text : String} :
    resolver.replacement? file site = some text ↔ Specifier.isBare site.value ∧
      resolver.resolve site.value file = .replacement text ∧ text ≠ site.value := by
  unfold replacement?
  cases bare : Specifier.isBare site.value with
  | false => simp
  | true =>
      cases resolved : resolver.resolve site.value file with
      | noMatch => simp [Resolution.text?]
      | replacement other =>
          simp only [Resolution.text?, if_true, true_and, Option.filter_eq_some_iff,
            Option.some.injEq, Resolution.replacement.injEq, ne_eq, decide_not, Bool.not_eq_true',
            decide_eq_false_iff_not]

theorem mem_edits_iff {sites : List Site} {edit : Edit} :
    edit ∈ resolver.edits file sites ↔
      edit.site ∈ sites ∧ resolver.replacement? file edit.site = some edit.replacement := by
  rw [edits, List.mem_filterMap]
  constructor
  · rintro ⟨site, member, made⟩
    rcases Option.map_eq_some_iff.mp made with ⟨text, called, rfl⟩
    exact ⟨member, called⟩
  · rintro ⟨member, called⟩
    exact ⟨edit.site, member, Option.map_eq_some_iff.mpr ⟨edit.replacement, called, rfl⟩⟩

theorem edits_eq_nil_of_forall {sites : List Site}
    (noneCalled : ∀ site ∈ sites, resolver.replacement? file site = none) :
    resolver.edits file sites = [] := by
  rw [List.eq_nil_iff_forall_not_mem]
  intro edit member
  rcases mem_edits_iff.mp member with ⟨inside, called⟩
  rw [noneCalled edit.site inside] at called
  exact absurd called.symm (Option.some_ne_none _)

end Resolver

theorem Site.sorted_perm (sites : List Site) : (Site.sorted sites).Perm sites :=
  List.mergeSort_perm sites _

theorem Site.pairwise_sorted (sites : List Site) :
    (Site.sorted sites).Pairwise (fun earlier later => earlier.start ≤ later.start) := by
  have ordered : (Site.sorted sites).Pairwise (fun earlier later =>
      decide (earlier.start ≤ later.start) = true) :=
    List.pairwise_mergeSort (fun first second third => by simpa using Nat.le_trans)
      (fun first second => by simpa using Nat.le_total first.start second.start) sites
  exact ordered.imp (fun le => of_decide_eq_true le)

theorem Site.Apart.symm {first second : Site} (apart : Site.Apart first second) :
    Site.Apart second first :=
  ⟨apart.1.symm, apart.2.symm⟩

/-- Sorted, sites that stand apart follow each other. -/
theorem Site.pairwise_sorted_of_apart {sites : List Site}
    (apart : sites.Pairwise Site.Apart) (forward : ∀ site ∈ sites, site.start ≤ site.stop) :
    (Site.sorted sites).Pairwise (fun earlier later =>
      earlier.start < later.start ∧ earlier.stop ≤ later.start) := by
  have sortedApart : (Site.sorted sites).Pairwise Site.Apart :=
    apart.perm (Site.sorted_perm sites).symm Site.Apart.symm
  have both := sortedApart.and (Site.pairwise_sorted sites)
  refine both.imp_of_mem ?_
  intro earlier later _ laterMember separated
  rcases separated with ⟨⟨different, disjoint⟩, order⟩
  have laterForward := forward later ((Site.sorted_perm sites).mem_iff.mp laterMember)
  omega

/-- Edits in strict order of their places are equal when their places are. -/
theorem Edit.eq_of_start_eq {edits : List Edit} {first second : Edit}
    (ordered : edits.Pairwise (fun earlier later => earlier.site.start < later.site.start))
    (firstMember : first ∈ edits) (secondMember : second ∈ edits)
    (same : first.site.start = second.site.start) : first = second := by
  induction edits with
  | nil => exact absurd firstMember List.not_mem_nil
  | cons edit rest ih =>
      rcases List.pairwise_cons.mp ordered with ⟨below, restOrdered⟩
      rcases List.mem_cons.mp firstMember with rfl | firstBehind
      · rcases List.mem_cons.mp secondMember with rfl | secondBehind
        · rfl
        · have less := below second secondBehind
          omega
      · rcases List.mem_cons.mp secondMember with rfl | secondBehind
        · have less := below first firstBehind
          omega
        · exact ih restOrdered firstBehind secondBehind

namespace Resolver

variable {resolver : Resolver} {file : Path}

theorem edits_append (resolver : Resolver) (file : Path) (first second : List Site) :
    resolver.edits file (first ++ second) =
      resolver.edits file first ++ resolver.edits file second :=
  List.filterMap_append

/-- The edits of sites that stand apart follow each other in the source. -/
theorem pairwise_edits_sorted (resolver : Resolver) (file : Path) {source : List Char}
    {sites : List Site} (apart : sites.Pairwise Site.Apart)
    (placed : ∀ site ∈ sites, site.PlacedIn source) :
    (resolver.edits file (Site.sorted sites)).Pairwise (fun earlier later =>
      earlier.site.start < later.site.start ∧ earlier.site.stop ≤ later.site.start) := by
  have forward : ∀ site ∈ sites, site.start ≤ site.stop :=
    fun site member => (placed site member).start_le_stop
  refine List.Pairwise.filterMap _ ?_ (Site.pairwise_sorted_of_apart apart forward)
  intro first second follows firstEdit firstMade secondEdit secondMade
  rcases Option.map_eq_some_iff.mp firstMade with ⟨_, _, rfl⟩
  rcases Option.map_eq_some_iff.mp secondMade with ⟨_, _, rfl⟩
  exact follows

/-- Neither the order in which sites were collected nor sites without a replacement make a
difference to the edits. -/
theorem edits_sorted_eq_of_perm {source : List Char} {sites ignored collected : List Site}
    (apart : sites.Pairwise Site.Apart) (placed : ∀ site ∈ sites, site.PlacedIn source)
    (noneCalled : ∀ site ∈ ignored, resolver.replacement? file site = none)
    (perm : collected.Perm (sites ++ ignored)) :
    resolver.edits file (Site.sorted collected) = resolver.edits file (Site.sorted sites) := by
  have strict := (pairwise_edits_sorted resolver file apart placed).imp And.left
  have sameEdits : (resolver.edits file (Site.sorted collected)).Perm
      (resolver.edits file (Site.sorted sites)) := by
    have fromCollected := ((Site.sorted_perm collected).trans perm).filterMap
      (fun site => (resolver.replacement? file site).map (Edit.mk site))
    have fromSites := (Site.sorted_perm sites).filterMap
      (fun site => (resolver.replacement? file site).map (Edit.mk site))
    have noEdits := edits_eq_nil_of_forall noneCalled
    have joined := edits_append resolver file sites ignored
    rw [noEdits, List.append_nil] at joined
    exact fromCollected.trans ((List.Perm.of_eq joined).trans fromSites.symm)
  have order : (resolver.edits file (Site.sorted collected)).Pairwise
      (fun earlier later => earlier.site.start ≤ later.site.start) := by
    refine List.Pairwise.filterMap _ ?_ (Site.pairwise_sorted collected)
    intro first second follows firstEdit firstMade secondEdit secondMade
    rcases Option.map_eq_some_iff.mp firstMade with ⟨_, _, rfl⟩
    rcases Option.map_eq_some_iff.mp secondMade with ⟨_, _, rfl⟩
    exact follows
  refine sameEdits.eq_of_pairwise ?_ order (strict.imp Nat.le_of_lt)
  intro first second firstMember secondMember le ge
  exact Edit.eq_of_start_eq strict (sameEdits.mem_iff.mp firstMember) secondMember
    (Nat.le_antisymm le ge)

/-! ### The result -/

theorem toList_code_replaceSites (resolver : Resolver) (file : Path) (source : List Char)
    (sites : List Site) :
    (resolver.replaceSites file source sites).code.toList =
      spliceFrom 0 source (resolver.edits file (Site.sorted sites)) :=
  String.toList_ofList

/-- The result is the source with the edits made in it, the edits are those that the sites call for,
and each of them is reported. -/
structure ReplacesExactly (resolver : Resolver) (file : Path) (source : String) (sites : List Site)
    (edits : List Edit) (result : Transformed) : Prop where
  spliced : Spliced 0 source.toList edits result.code.toList
  called : ∀ edit, edit ∈ edits ↔ edit.site ∈ sites ∧
    (edit.site.value ≠ "" ∧ edit.site.value.toList.head? ≠ some '.' ∧
      edit.site.value.toList.head? ≠ some '/') ∧
    resolver.resolve edit.site.value file = .replacement edit.replacement ∧
    edit.replacement ≠ edit.site.value
  reported : result.replaced = edits.map (fun edit =>
    { kind := edit.site.kind
      value := edit.site.value
      replacement := edit.replacement
      start := edit.site.start })
  ordered : result.replaced.Pairwise (fun earlier later => earlier.start < later.start)
  unchanged : result.replaced = [] → result.code = source

theorem replacesExactly_replaceSites {source : String} {sites : List Site}
    (apart : sites.Pairwise Site.Apart) (placed : ∀ site ∈ sites, site.PlacedIn source.toList) :
    ReplacesExactly resolver file source sites (resolver.edits file (Site.sorted sites))
      (resolver.replaceSites file source.toList sites) := by
  have follow := pairwise_edits_sorted resolver file apart placed
  refine ⟨?_, ?_, rfl, ?_, ?_⟩
  · rw [toList_code_replaceSites]
    refine spliced_spliceFrom (follow.imp And.right) ?_
    intro edit member
    have inside := (Site.sorted_perm sites).mem_iff.mp (mem_edits_iff.mp member).1
    rcases placed edit.site inside with ⟨before, old, after, split, start, stop⟩
    refine ⟨before, old, after, split, ?_, stop⟩
    rw [start, Nat.zero_add]
  · intro edit
    rw [mem_edits_iff, replacement?_eq_some_iff, Specifier.isBare_iff,
      (Site.sorted_perm sites).mem_iff]
  · exact List.pairwise_map.mpr (follow.imp And.left)
  · intro noneReplaced
    have noEdits : resolver.edits file (Site.sorted sites) = [] :=
      List.map_eq_nil_iff.mp noneReplaced
    rw [replaceSites, noEdits, spliceFrom, String.ofList_toList]

/-- The value of the site is empty, relative or absolute, or no alias applies to it. -/
def Ignores (resolver : Resolver) (file : Path) (site : Site) : Prop :=
  site.value = "" ∨ site.value.toList.head? = some '.' ∨ site.value.toList.head? = some '/' ∨
    resolver.resolve site.value file = .noMatch

theorem Ignores.replacement?_eq_none {site : Site} (ignored : resolver.Ignores file site) :
    resolver.replacement? file site = none := by
  rw [Option.eq_none_iff_forall_ne_some]
  intro text called
  rcases replacement?_eq_some_iff.mp called with ⟨bare, resolved, _⟩
  rcases Specifier.isBare_iff.mp bare with ⟨nonempty, notDot, notSlash⟩
  rcases ignored with empty | dot | slash | unmatched
  · exact nonempty empty
  · exact notDot dot
  · exact notSlash slash
  · rw [unmatched] at resolved
    exact Resolution.noConfusion resolved

theorem transform_of_read {source : String} {tree : Script.Tree source.toList}
    (read : Script.program? (.ofFile file) source.toList = some tree) :
    resolver.transform source file =
      .ok (resolver.replaceSites file source.toList tree.val.sites) := by
  unfold transform
  rw [read]

/-- Sites that stand apart in a source are replaced exactly, in whatever order they were collected,
and whatever sites without a replacement were collected with them. -/
theorem replaceSites_exact (resolver : Resolver) (file : Path) {source : String} {sites : List Site}
    (apart : sites.Pairwise Site.Apart) (placed : ∀ site ∈ sites, site.PlacedIn source.toList) :
    (∃ edits, ReplacesExactly resolver file source sites edits
      (resolver.replaceSites file source.toList sites)) ∧
    (∀ collected ignored, collected.Perm (sites ++ ignored) →
      (∀ site ∈ ignored, resolver.Ignores file site) →
      resolver.replaceSites file source.toList collected =
        resolver.replaceSites file source.toList sites) ∧
    ∀ tree, Script.program? (.ofFile file) source.toList = some tree → tree.val.sites.Perm sites →
      resolver.transform source file = .ok (resolver.replaceSites file source.toList sites) := by
  have sameResult (collected ignored : List Site) (perm : collected.Perm (sites ++ ignored))
      (noneCalled : ∀ site ∈ ignored, resolver.replacement? file site = none) :
      resolver.replaceSites file source.toList collected =
        resolver.replaceSites file source.toList sites := by
    rw [replaceSites, replaceSites, edits_sorted_eq_of_perm apart placed noneCalled perm]
  refine ⟨⟨_, replacesExactly_replaceSites apart placed⟩, ?_, ?_⟩
  · intro collected ignored perm allIgnored
    apply sameResult collected ignored perm
    intro site member
    exact (allIgnored site member).replacement?_eq_none
  · intro tree read perm
    have same := sameResult tree.val.sites [] (by rw [List.append_nil]; exact perm)
      (fun site member => absurd member List.not_mem_nil)
    rw [transform_of_read read, same]

def exampleSource : String :=
  "import '@/a';require(\"@/b\");import './c'"

/-- The specifiers of the source in their order. -/
def exampleSites : List Site :=
  [⟨.importDeclaration, "@/a", 8, 11, .quote '\''⟩, ⟨.require, "@/b", 22, 25, .quote '"'⟩,
    ⟨.importDeclaration, "./c", 36, 39, .quote '\''⟩]

/-- One alias, for a directory with a quote in its name. -/
def quotedResolver : Resolver where
  table := ⟨[("@", .path ⟨"/project/src/it's"⟩)], []⟩
  cwd := ⟨"/project"⟩
  workingDir := ⟨"/project"⟩

/-- The quote is escaped between single quotes and kept between double ones, and the relative specifier
stays. -/
def exampleResult : Transformed where
  code := "import './src/it\\'s/a';require(\"./src/it's/b\");import './c'"
  replaced := [⟨.importDeclaration, "@/a", "./src/it's/a", 8⟩, ⟨.require, "@/b", "./src/it's/b", 22⟩]

/-- The sites may be collected in another order. -/
theorem replaceSites_exact_of_three_sites :
    (∃ edits,
      ReplacesExactly quotedResolver ⟨"a.js"⟩ exampleSource exampleSites edits exampleResult) ∧
      quotedResolver.replaceSites ⟨"a.js"⟩ exampleSource.toList exampleSites.reverse =
        exampleResult ∧
      quotedResolver.transform exampleSource ⟨"a.js"⟩ = .ok exampleResult := by
  have apart : exampleSites.Pairwise Site.Apart := by
    unfold Site.Apart
    decide
  have placed : ∀ site ∈ exampleSites, site.PlacedIn exampleSource.toList := by
    simp only [exampleSites, List.forall_mem_cons]
    refine ⟨?_, ?_, ?_, fun site member => absurd member List.not_mem_nil⟩
    · exact ⟨"import '".toList, "@/a".toList, "';require(\"@/b\");import './c'".toList, by decide⟩
    · exact ⟨"import '@/a';require(\"".toList, "@/b".toList, "\");import './c'".toList, by decide⟩
    · exact ⟨"import '@/a';require(\"@/b\");import '".toList, "./c".toList, "'".toList, by decide⟩
  have read : (Script.program? (.ofFile ⟨"a.js"⟩) exampleSource.toList).map
      (fun tree => tree.val.sites.isPerm exampleSites) = some true := by
    decide +kernel
  have result : quotedResolver.replaceSites ⟨"a.js"⟩ exampleSource.toList exampleSites =
      exampleResult := by
    have sorted : Site.sorted exampleSites = exampleSites :=
      List.mergeSort_of_pairwise (by decide)
    rw [replaceSites, sorted]
    decide +kernel
  rcases Option.map_eq_some_iff.mp read with ⟨tree, found, perm⟩
  rcases replaceSites_exact quotedResolver ⟨"a.js"⟩ apart placed with
    ⟨exactly, sameResult, transformed⟩
  rw [result] at exactly sameResult transformed
  refine ⟨exactly, sameResult exampleSites.reverse [] ?_ ?_, ?_⟩
  · rw [List.append_nil]
    exact exampleSites.reverse_perm
  · exact fun site member => absurd member List.not_mem_nil
  · exact transformed tree found (List.isPerm_iff.mp perm)

end Resolver

end ImportAlias
