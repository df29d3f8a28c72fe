import ImportAlias.Proofs.Specifier.Collection
import ImportAlias.Specifier.Transform
import Mathlib.Data.List.Pairwise
import Mathlib.Tactic.MkIffOfInductiveProp

/-!
# Sites of nested trees

In a tree whose ranges are nested, what is inside a node stands in the range of the node, and what is
inside two of its parts stands apart. The literal that a node names a module by is on the far left of
one part, which can have further sites behind the literal: in the substitutions of a template, and in
what a sum adds to it. So all sites of the tree stand apart, and a splice that replaces some of them
walks through the source without ever going back.
-/

namespace ImportAlias

namespace Script

namespace Span

/-- The range is in another one. -/
def Inside (inner outer : Span) : Prop :=
  outer.start ≤ inner.start ∧ inner.stop ≤ outer.stop
deriving Decidable

/-- The ranges have no byte in common: where the first of them stops is not behind where the last of
them starts. -/
def Disjoint (first second : Span) : Prop :=
  min first.stop second.stop ≤ max first.start second.start
deriving Decidable

theorem Disjoint.symm {first second : Span} (disjoint : first.Disjoint second) :
    second.Disjoint first := by
  unfold Disjoint at *
  omega

end Span

namespace Node

/-- The string that a declaration names a module by. -/
def ownLiterals : Node → List StringLiteral
  | importDeclaration _ literal | exportAll _ literal => [literal]
  | exportNames _ specifier _ => specifier.toList
  | _ => []

/-- Everything directly inside a node, with the string of a declaration. -/
def parts (node : Node) : List Node :=
  node.ownLiterals.map string ++ node.children

/-- A string has two bytes at least. The first part of a template, with unified line ends, is not
longer than what is between its backtick and the first substitution or the end of the template. -/
def HasRoom : Node → Prop
  | string literal => literal.span.start + 2 ≤ literal.span.stop
  | template span head substitutions =>
    span.start + 1 + byteLength head.raw ≤ span.stop ∧
      ∀ inner ∈ substitutions, span.start + 1 + byteLength head.raw ≤ inner.span.start
  | _ => True

instance : DecidablePred HasRoom
  | string _ => inferInstanceAs (Decidable (_ ≤ _))
  | template .. => inferInstanceAs (Decidable (_ ∧ _))
  | name .. | parentheses .. | sum .. | member .. | spread .. | call .. | importCall ..
  | importDeclaration .. | exportNames .. | exportAll .. | other .. =>
    inferInstanceAs (Decidable True)

/-- Whether the node is a call. -/
def isCall : Node → Bool
  | call .. => true
  | _ => false

/-- The two nodes have no byte in common. If the first one is a call, the second one may also be
between the parts of it, as type arguments are. -/
def Beside (first second : Node) : Prop :=
  first.span.Disjoint second.span ∨
    (first.isCall ∧ ∀ part ∈ first.children, part.span.Disjoint second.span)
deriving Decidable

/-- The parts of a node are in its range and beside each other, and its literals have room. -/
@[mk_iff]
structure Fits (node : Node) : Prop where
  inside : ∀ part ∈ node.parts, part.span.Inside node.span
  beside : node.parts.Pairwise Beside
  room : node.HasRoom
  ownRoom : ∀ literal ∈ node.ownLiterals, (string literal).HasRoom

instance : DecidablePred Fits :=
  fun node => decidable_of_iff _ node.fits_iff.symm

/-- The ranges of the tree are nested: every node in it has its parts where they belong. -/
def Nested (tree : Node) : Prop :=
  ∀ way node, tree.StandsAt way node → node.Fits

theorem nested_iff {tree : Node} :
    tree.Nested ↔ tree.Fits ∧ ∀ child ∈ tree.children, child.Nested := by
  constructor
  · intro nested
    refine ⟨nested [] tree (.here tree), ?_⟩
    intro child member way node stands
    rcases List.mem_iff_getElem?.mp member with ⟨index, isChild⟩
    exact nested (index :: way) node (.inside isChild stands)
  · rintro ⟨fits, below⟩ way node stands
    cases stands with
    | here => exact fits
    | inside isChild stands =>
        exact below _ (List.mem_of_getElem? isChild) _ node stands

/-! ### Checking a tree -/

mutual

/-- Whether the ranges of a tree are nested. -/
def checkNested : Node → Bool
  | name span text => (name span text).Fits
  | string literal => (string literal).Fits
  | template span head inner => (template span head inner).Fits && checkAllNested inner
  | parentheses span inner => (parentheses span inner).Fits && checkNested inner
  | sum span left right => (sum span left right).Fits && checkNested left && checkNested right
  | member span object property => (member span object property).Fits && checkNested object
  | spread span inner => (spread span inner).Fits && checkNested inner
  | call span callee arguments =>
    (call span callee arguments).Fits && checkNested callee && checkAllNested arguments
  | importCall span specifier options =>
    (importCall span specifier options).Fits && checkNested specifier && checkAllNested options
  | importDeclaration span specifier => (importDeclaration span specifier).Fits
  | exportNames span specifier declaration =>
    (exportNames span specifier declaration).Fits && checkAllNested declaration
  | exportAll span specifier => (exportAll span specifier).Fits
  | other form span inner => (other form span inner).Fits && checkAllNested inner

/-- Whether the ranges of each of the trees are nested. -/
def checkAllNested : List Node → Bool
  | [] => true
  | node :: rest => checkNested node && checkAllNested rest

end

theorem checkAllNested_iff {nodes : List Node} :
    checkAllNested nodes ↔ ∀ node ∈ nodes, node.checkNested := by
  induction nodes with
  | nil => simp [checkAllNested]
  | cons node rest ih => simp [checkAllNested, ih]

theorem checkNested_iff {tree : Node} :
    tree.checkNested ↔ tree.Fits ∧ ∀ child ∈ tree.children, child.checkNested := by
  cases tree <;> simp [checkNested, children, checkAllNested_iff, and_assoc]

theorem checkNested_iff_nested (tree : Node) : tree.checkNested ↔ tree.Nested := by
  rw [checkNested_iff, nested_iff]
  apply and_congr_right
  intro _
  apply forall₂_congr
  intro child inside
  have smaller := sizeOf_lt_of_mem_children inside
  exact checkNested_iff_nested child
termination_by sizeOf tree

instance : DecidablePred Nested :=
  fun tree => decidable_of_iff _ tree.checkNested_iff_nested

/-! ### The parts of a nested tree -/

variable {node part : Node} {literal : Literal} {kind : SiteKind}

theorem mem_parts_of_mem_children {child : Node} (inside : child ∈ node.children) :
    child ∈ node.parts :=
  List.mem_append_right _ inside

theorem Nested.fits (nested : node.Nested) : node.Fits :=
  (nested_iff.mp nested).1

theorem Nested.of_mem_children {child : Node} (nested : node.Nested)
    (inside : child ∈ node.children) : child.Nested :=
  (nested_iff.mp nested).2 child inside

theorem Nested.of_mem_parts (nested : node.Nested) (isPart : part ∈ node.parts) : part.Nested := by
  rcases List.mem_append.mp isPart with own | inside
  · rcases List.mem_map.mp own with ⟨literal, member, rfl⟩
    apply nested_iff.mpr
    simp [fits_iff, parts, ownLiterals, children, nested.fits.ownRoom literal member]
  · exact nested.of_mem_children inside

/-- Of two parts, one is beside the other. -/
theorem Nested.beside_of_ne {other : Node} (nested : node.Nested) (isPart : part ∈ node.parts)
    (isOther : other ∈ node.parts) (different : part ≠ other) :
    part.Beside other ∨ other.Beside part := by
  have symmetric : Std.Symm (fun first second : Node => first.Beside second ∨ second.Beside first) :=
    ⟨fun _ _ => Or.symm⟩
  have beside : node.parts.Pairwise (fun first second => first.Beside second ∨ second.Beside first) :=
    nested.fits.beside.imp Or.inl
  exact beside.forall isPart isOther different

/-- The literal that a node names a module by is on the far left of one of its parts. -/
theorem exists_part_of_specifier? (named : node.specifier? = some (kind, literal)) :
    ∃ part ∈ node.parts, part.startingLiteral? = some literal := by
  cases specifier?_eq_some_iff.mp named with
  | importDeclaration _ inner | exportNames _ inner _ | exportAll _ inner =>
      exact ⟨string inner, by simp [parts, ownLiterals], rfl⟩
  | importCall leftmost isLiteral | call _ _ leftmost isLiteral =>
      refine ⟨_, ?_, startingLiteral?_eq_some_iff.mpr ⟨_, leftmost, isLiteral⟩⟩
      simp [parts, children]

end Node

end Script

/-! ### Where sites stand -/

/-- The site is in the range, behind its first byte. -/
structure Site.Within (site : Site) (span : Script.Span) : Prop where
  start : span.start < site.start
  forward : site.start ≤ site.stop
  stop : site.stop ≤ span.stop

theorem Site.Within.of_inside {site : Site} {inner outer : Script.Span} (within : site.Within inner)
    (inside : inner.Inside outer) : site.Within outer :=
  ⟨Nat.lt_of_le_of_lt inside.1 within.start, within.forward,
    Nat.le_trans within.stop inside.2⟩

/-- Sites in ranges without a common byte are apart. -/
theorem Site.Within.apart {first second : Site} {firstSpan secondSpan : Script.Span}
    (firstWithin : first.Within firstSpan) (secondWithin : second.Within secondSpan)
    (disjoint : firstSpan.Disjoint secondSpan) : Site.Apart first second := by
  rcases firstWithin with ⟨firstStart, firstForward, firstStop⟩
  rcases secondWithin with ⟨secondStart, secondForward, secondStop⟩
  unfold Script.Span.Disjoint at disjoint
  unfold Site.Apart
  omega

namespace Script

namespace Node

variable {node part : Node} {literal : Literal} {site : Site}

theorem Nested.within_of_startingLiteral? (nested : node.Nested)
    (starts : node.startingLiteral? = some literal) (kind : SiteKind) :
    (literal.site kind).Within node.span := by
  fun_induction startingLiteral? node with
  | case1 inner =>
      cases starts
      have room : inner.span.start + 2 ≤ inner.span.stop := nested.fits.room
      constructor <;> simp only [Literal.site, span] <;> omega
  | case2 span head substitutions =>
      cases starts
      have room := nested.fits.room.1
      constructor <;> simp only [Literal.site, Node.span] <;> omega
  | case3 span inner ih =>
      have isChild : inner ∈ (parentheses span inner).children := by simp [children]
      exact (ih (nested.of_mem_children isChild) starts).of_inside
        (nested.fits.inside inner (mem_parts_of_mem_children isChild))
  | case4 span left right ih =>
      have isChild : left ∈ (sum span left right).children := by simp [children]
      exact (ih (nested.of_mem_children isChild) starts).of_inside
        (nested.fits.inside left (mem_parts_of_mem_children isChild))
  | case5 => exact absurd starts.symm (Option.some_ne_none literal)

theorem Nested.within_of_ownSite? (nested : node.Nested) (own : node.ownSite? = some site) :
    site.Within node.span := by
  rcases Option.map_eq_some_iff.mp own with ⟨⟨kind, literal⟩, named, rfl⟩
  rcases exists_part_of_specifier? named with ⟨part, isPart, starts⟩
  have within := (nested.of_mem_parts isPart).within_of_startingLiteral? starts kind
  exact within.of_inside (nested.fits.inside part isPart)

theorem Nested.within_of_mem_sites {node : Node} (nested : node.Nested) (member : site ∈ node.sites) :
    site.Within node.span := by
  rcases mem_sites_iff.mp member with own | ⟨child, isChild, below⟩
  · exact nested.within_of_ownSite? own
  · have smaller := sizeOf_lt_of_mem_children isChild
    have within := (nested.of_mem_children isChild).within_of_mem_sites below
    exact within.of_inside (nested.fits.inside child (mem_parts_of_mem_children isChild))
termination_by sizeOf node

/-- The sites of a call are in the ranges of its parts. -/
theorem Nested.exists_within_of_isCall (nested : node.Nested) (called : node.isCall)
    (member : site ∈ node.sites) : ∃ part ∈ node.children, site.Within part.span := by
  rcases mem_sites_iff.mp member with own | ⟨child, isChild, below⟩
  · rcases Option.map_eq_some_iff.mp own with ⟨⟨kind, literal⟩, named, rfl⟩
    rcases exists_part_of_specifier? named with ⟨part, isPart, starts⟩
    have isChild : part ∈ node.children := by
      cases node <;> simp_all [isCall, parts, ownLiterals]
    exact ⟨part, isChild, (nested.of_mem_children isChild).within_of_startingLiteral? starts kind⟩
  · exact ⟨child, isChild, (nested.of_mem_children isChild).within_of_mem_sites below⟩

/-- What is collected inside nodes that are beside each other stands apart. -/
theorem Nested.apart_of_beside {first second : Node} (firstNested : first.Nested)
    (secondNested : second.Nested) (beside : first.Beside second) {earlier later : Site}
    (inFirst : earlier ∈ first.sites) (inSecond : later ∈ second.sites) :
    Site.Apart earlier later := by
  have laterWithin := secondNested.within_of_mem_sites inSecond
  rcases beside with disjoint | ⟨called, disjoint⟩
  · exact (firstNested.within_of_mem_sites inFirst).apart laterWithin disjoint
  · rcases firstNested.exists_within_of_isCall called inFirst with ⟨part, isChild, within⟩
    exact within.apart laterWithin (disjoint part isChild)

/-- The literal that an expression starts with stands apart from what is collected beside it. -/
theorem Nested.apart_of_startingLiteral?_of_beside {first second : Node}
    (firstNested : first.Nested) (secondNested : second.Nested)
    (starts : first.startingLiteral? = some literal) (kind : SiteKind)
    (beside : first.Beside second ∨ second.Beside first) (inSecond : site ∈ second.sites) :
    Site.Apart (literal.site kind) site := by
  have literalWithin := firstNested.within_of_startingLiteral? starts kind
  have within := secondNested.within_of_mem_sites inSecond
  rcases beside with (disjoint | ⟨called, _⟩) | (disjoint | ⟨called, disjoint⟩)
  · exact literalWithin.apart within disjoint
  · -- A call starts with no literal.
    cases first <;> simp [isCall, startingLiteral?] at called starts
  · exact literalWithin.apart within disjoint.symm
  · rcases secondNested.exists_within_of_isCall called inSecond with ⟨part, isChild, within⟩
    exact literalWithin.apart within (disjoint part isChild).symm

/-- Everything that is collected inside an expression stands apart from the literal that the
expression starts with. -/
theorem Nested.apart_of_startingLiteral? (nested : node.Nested)
    (starts : node.startingLiteral? = some literal) (kind : SiteKind) (member : site ∈ node.sites) :
    Site.Apart (literal.site kind) site := by
  fun_induction startingLiteral? node with
  | case1 inner => simp [sites, ownSite?, specifier?] at member
  | case2 span head substitutions =>
      cases starts
      -- The first part of the template stops where its first substitution starts at the latest.
      rcases mem_sites_iff.mp member with own | ⟨inner, isChild, below⟩
      · simp [ownSite?, specifier?] at own
      · have within := (nested.of_mem_children isChild).within_of_mem_sites below
        have room := nested.fits.room.2 inner isChild
        have start := within.start
        simp only [Site.Apart, Literal.site]
        omega
  | case3 span inner ih =>
      have isChild : inner ∈ (parentheses span inner).children := by simp [children]
      have below : site ∈ inner.sites := by
        simpa [sites, ownSite?, specifier?] using member
      exact ih (nested.of_mem_children isChild) starts below
  | case4 span left right ih =>
      have leftChild : left ∈ (sum span left right).children := by simp [children]
      have rightChild : right ∈ (sum span left right).children := by simp [children]
      have below : site ∈ left.sites ∨ site ∈ right.sites := by
        simpa [sites, ownSite?, specifier?] using member
      rcases below with inLeft | inRight
      · exact ih (nested.of_mem_children leftChild) starts inLeft
      · have beside : left.Beside right := by
          simpa [parts, ownLiterals, children] using nested.fits.beside
        exact (nested.of_mem_children leftChild).apart_of_startingLiteral?_of_beside
          (nested.of_mem_children rightChild) starts kind (Or.inl beside) inRight
  | case5 => exact absurd starts.symm (Option.some_ne_none literal)

/-- The site of a node stands apart from all sites inside the node. -/
theorem Nested.apart_of_ownSite? {own : Site} (nested : node.Nested)
    (isOwn : node.ownSite? = some own) {child : Node} (isChild : child ∈ node.children)
    (member : site ∈ child.sites) : Site.Apart own site := by
  rcases Option.map_eq_some_iff.mp isOwn with ⟨⟨kind, literal⟩, named, rfl⟩
  rcases exists_part_of_specifier? named with ⟨part, isPart, starts⟩
  have partNested := nested.of_mem_parts isPart
  by_cases same : part = child
  · subst same
    exact partNested.apart_of_startingLiteral? starts kind member
  · have beside := nested.beside_of_ne isPart (mem_parts_of_mem_children isChild) same
    exact partNested.apart_of_startingLiteral?_of_beside (nested.of_mem_children isChild) starts kind
      beside member

theorem allSites_eq_flatMap (nodes : List Node) : allSites nodes = nodes.flatMap sites := by
  induction nodes with
  | nil => rfl
  | cons node rest ih => simp [allSites, ih]

theorem Nested.pairwise_apart {node : Node} (nested : node.Nested) :
    node.sites.Pairwise Site.Apart := by
  rw [sites_eq, List.pairwise_append]
  refine ⟨?_, ?_, ?_⟩
  · cases node.ownSite? <;> simp
  · rw [allSites_eq_flatMap, List.pairwise_flatMap]
    constructor
    · intro child isChild
      have smaller := sizeOf_lt_of_mem_children isChild
      exact (nested.of_mem_children isChild).pairwise_apart
    · have beside := (List.pairwise_append.mp nested.fits.beside).2.1
      apply beside.imp_of_mem
      intro first second isFirst isSecond besideEachOther earlier inFirst later inSecond
      exact (nested.of_mem_children isFirst).apart_of_beside (nested.of_mem_children isSecond)
        besideEachOther inFirst inSecond
  · intro own isOwn site below
    rcases mem_allSites_iff.mp below with ⟨child, isChild, member⟩
    exact nested.apart_of_ownSite? (Option.mem_toList.mp isOwn) isChild member
termination_by sizeOf node

end Node

end Script

/-! ### Splices -/

/-- The characters in a range of a text. -/
def slice (text : List Char) (range : Script.Span) : List Char :=
  charsBefore (range.stop - range.start) (charsFrom range.start text)

/-- The ranges of a source of the given length that are copied from a place on when sites are
replaced: the one in front of each site, and the one behind the last. -/
def copiedRanges (place length : Nat) : List Site → List Script.Span
  | [] => [⟨place, length⟩]
  | site :: rest => ⟨place, site.start⟩ :: copiedRanges site.stop length rest

/-- What is copied from a source from a place on, with what is written behind each copy. -/
def pasteFrom (place : Nat) (source : List Char) (edits : List Edit) : List Char :=
  List.flatten (List.zipWith (· ++ ·)
    ((copiedRanges place (byteLength source) (edits.map Edit.site)).map (slice source))
    (edits.map Edit.written ++ [[]]))

theorem mem_copiedRanges_of_ordered {place length : Nat} {sites : List Site}
    (ordered : sites.Pairwise (fun earlier later => earlier.stop ≤ later.start))
    (inText : ∀ site ∈ sites, place ≤ site.start ∧ site.start ≤ site.stop ∧ site.stop ≤ length)
    (placeInText : place ≤ length) {range : Script.Span}
    (member : range ∈ copiedRanges place length sites) :
    range.start ≤ range.stop ∧ range.stop ≤ length := by
  induction sites generalizing place with
  | nil =>
      rw [List.mem_singleton.mp member]
      exact ⟨placeInText, Nat.le_refl length⟩
  | cons site rest ih =>
      rcases List.pairwise_cons.mp ordered with ⟨behind, restOrdered⟩
      rcases inText site List.mem_cons_self with ⟨start, forward, stop⟩
      rcases List.mem_cons.mp member with rfl | later
      · exact ⟨start, Nat.le_trans forward stop⟩
      · apply ih restOrdered _ stop later
        intro other isBehind
        have otherInText := inText other (List.mem_cons_of_mem site isBehind)
        exact ⟨behind other isBehind, otherInText.2⟩

/-- A splice that goes through whole characters is put together from slices of the source. -/
theorem spliceFrom_eq_pasteFrom (before text : List Char) {edits : List Edit}
    (ordered : edits.Pairwise (fun earlier later => earlier.site.stop ≤ later.site.start))
    (placed : ∀ edit ∈ edits, edit.site.PlacedIn (before ++ text) ∧
      byteLength before ≤ edit.site.start) :
    spliceFrom (byteLength before) text edits =
      pasteFrom (byteLength before) (before ++ text) edits := by
  induction edits generalizing before text with
  | nil =>
      have whole := charsBefore_append text []
      rw [List.append_nil] at whole
      simp [spliceFrom, pasteFrom, copiedRanges, slice, charsFrom_append, byteLength_append, whole]
  | cons edit rest ih =>
      rcases List.pairwise_cons.mp ordered with ⟨behind, restOrdered⟩
      rcases placed edit List.mem_cons_self with ⟨⟨front, old, after, split, start, stop⟩, reached⟩
      rw [start] at reached
      rcases exists_append_of_byteLength_le split reached with ⟨between, rfl, rfl⟩
      -- Seen from the place of the edit, everything up to where it stops is in front of the rest.
      have stopLength : edit.site.stop = byteLength (before ++ between ++ old) := by
        rw [stop, start, byteLength_append (before ++ between)]
      have width : edit.site.stop - byteLength before = byteLength (between ++ old) := by
        simp only [stopLength, byteLength_append]
        omega
      have same : before ++ (between ++ (old ++ after)) = before ++ between ++ old ++ after := by
        simp
      have restSame := ih (before ++ between ++ old) after restOrdered (by
        intro later isBehind
        rw [← stopLength, ← same]
        exact ⟨(placed later (List.mem_cons_of_mem edit isBehind)).1, behind later isBehind⟩)
      rw [← stopLength, ← same] at restSame
      rw [spliceFrom, width, ← List.append_assoc between, charsFrom_append, restSame]
      simp [pasteFrom, copiedRanges, slice, charsFrom_append]

theorem Resolver.map_site_edits (resolver : Resolver) (file : Path) (sites : List Site) :
    (resolver.edits file sites).map Edit.site =
      sites.filter (fun site => (resolver.replacement? file site).isSome) := by
  induction sites with
  | nil => rfl
  | cons site rest ih =>
      unfold edits at *
      cases replaced : resolver.replacement? file site <;> simp [replaced, ih]

namespace Script

namespace Node

/-- The sites of a tree whose ranges are nested follow each other in the source. So whichever of them
are replaced, every slice of the source that is copied between the replacements is a range of the
source that does not go back, and the splice is made of these slices. A file is transformed by such a
splice. -/
theorem sortedSites_follow {tree : Node} {source : List Char} (nested : tree.Nested)
    (inSource : tree.span.stop ≤ byteLength source) :
    tree.sortedSites.Pairwise (fun earlier later =>
      earlier.start < later.start ∧ earlier.stop ≤ later.start) ∧
    (∀ site ∈ tree.sortedSites, site.start ≤ site.stop ∧ site.stop ≤ byteLength source) ∧
    (∀ edits : List Edit, (edits.map Edit.site).Sublist tree.sortedSites →
      (∀ range ∈ copiedRanges 0 (byteLength source) (edits.map Edit.site),
        range.start ≤ range.stop ∧ range.stop ≤ byteLength source) ∧
      ((∀ edit ∈ edits, edit.site.PlacedIn source) →
        spliceFrom 0 source edits = pasteFrom 0 source edits)) ∧
    ∀ (resolver : Resolver) (file : Path), ∃ edits : List Edit,
      (edits.map Edit.site).Sublist tree.sortedSites ∧
      resolver.replaceSites file source tree.sites =
        ⟨String.ofList (spliceFrom 0 source edits), edits.map Edit.replaced⟩ := by
  have within : ∀ site ∈ tree.sortedSites, site.Within tree.span := fun site member =>
    nested.within_of_mem_sites ((Site.sorted_perm tree.sites).mem_iff.mp member)
  have follow : tree.sortedSites.Pairwise (fun earlier later =>
      earlier.start < later.start ∧ earlier.stop ≤ later.start) :=
    Site.pairwise_sorted_of_apart nested.pairwise_apart
      (fun site member => (nested.within_of_mem_sites member).forward)
  have inText : ∀ site ∈ tree.sortedSites,
      site.start ≤ site.stop ∧ site.stop ≤ byteLength source := fun site member =>
    ⟨(within site member).forward, Nat.le_trans (within site member).stop inSource⟩
  refine ⟨follow, inText, ?_, ?_⟩
  · intro edits chosen
    have ordered := (follow.sublist chosen).imp And.right
    refine ⟨?_, ?_⟩
    · intro range copied
      apply mem_copiedRanges_of_ordered ordered _ (Nat.zero_le _) copied
      intro site member
      exact ⟨Nat.zero_le _, inText site (chosen.subset member)⟩
    · intro placed
      exact spliceFrom_eq_pasteFrom [] source (List.pairwise_map.mp ordered)
        (fun edit member => ⟨placed edit member, Nat.zero_le _⟩)
  · intro resolver file
    refine ⟨resolver.edits file tree.sortedSites, ?_, rfl⟩
    rw [resolver.map_site_edits file]
    exact List.filter_sublist

/-- A call inside a template inside a sum, each of them part of what another call is given. -/
theorem sortedSites_follow_of_calls_in_calls :
    ∃ tree, program? ⟨true, false, true⟩ "require('a' + require(`b$\x7brequire('c')\x7d`))".toList =
        some tree ∧ tree.val.Nested ∧
      tree.val.sites.map (fun site => (site.start, site.stop)) =
        [(9, 10), (23, 24), (35, 36)] ∧
      ∀ edits : List Edit, (edits.map Edit.site).Sublist tree.val.sortedSites →
        ∀ range ∈ copiedRanges 0 42 (edits.map Edit.site),
          range.start ≤ range.stop ∧ range.stop ≤ 42 := by
  have read : (program? ⟨true, false, true⟩
        "require('a' + require(`b$\x7brequire('c')\x7d`))".toList).map (fun tree =>
          (decide tree.val.Nested, decide (tree.val.span.stop ≤ 42),
            decide (tree.val.sites.map (fun site => (site.start, site.stop)) =
              [(9, 10), (23, 24), (35, 36)]))) = some (true, true, true) := by
    decide +kernel
  rcases Option.map_eq_some_iff.mp read with ⟨tree, found, checked⟩
  simp only [Prod.mk.injEq, decide_eq_true_eq] at checked
  rcases checked with ⟨nested, inSource, places⟩
  refine ⟨tree, found, nested, places, ?_⟩
  have length : byteLength "require('a' + require(`b$\x7brequire('c')\x7d`))".toList = 42 := by
    decide
  have follow := sortedSites_follow nested (Nat.le_trans inSource (Nat.le_of_eq length.symm))
  rw [length] at follow
  intro edits chosen
  exact (follow.2.2.1 edits chosen).1

end Node

end Script

end ImportAlias
