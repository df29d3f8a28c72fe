import ImportAlias.Proofs.Specifier.Place
import ImportAlias.Script.Tree
import ImportAlias.Specifier.Site

/-!
# Sites and the source

Every site that is found in a tree of a source is the site of a literal that stands in the source.
What a site says of a literal can then be read off the text at its place: a value that is written
with a plain character at its start has that character at its start.
-/

namespace ImportAlias

/-- What strings and templates stand between. -/
def Delimiter.IsOfLiteral (delimiter : Delimiter) : Prop :=
  delimiter = .quote '"' ∨ delimiter = .quote '\'' ∨ delimiter = .backtick

namespace Script

/-! ### Values -/

theorem head?_textOf (char : Char) (pieces : List Piece) :
    (textOf (.char char :: pieces)).head? = some char := by
  simp only [textOf, List.flatMap_cons]
  split <;> rfl

theorem pieces?_cons {char : Char} (plain : char ≠ '\\') (inTemplate : Bool) (fuel : Nat)
    (rest : List Char) : pieces? inTemplate (fuel + 1) (char :: rest) =
      (pieces? inTemplate fuel rest).map (.char char :: ·) := by
  rw [pieces?, if_neg plain]

theorem unifyLineEnds_cons {char : Char} (plain : char ≠ '\r') (rest : List Char) :
    unifyLineEnds (char :: rest) = char :: unifyLineEnds rest := by
  rw [unifyLineEnds]
  · intro more same
    exact absurd same plain
  · exact plain

/-- The text of a string starts with the character that its contents start with, unless that starts
an escape. -/
theorem head?_of_stringText?_eq_some {char : Char} {rest text : List Char} (plain : char ≠ '\\')
    (found : stringText? (char :: rest) = some text) : text.head? = some char := by
  rw [stringText?, List.length_cons, pieces?_cons plain] at found
  rcases Option.map_eq_some_iff.mp found with ⟨pieces, first, rfl⟩
  rcases Option.map_eq_some_iff.mp first with ⟨more, _, rfl⟩
  exact head?_textOf char more

theorem head?_of_chunkText?_eq_some {char : Char} {rest text : List Char} (plain : char ≠ '\\')
    (noReturn : char ≠ '\r') (found : chunkText? (char :: rest) = some text) :
    text.head? = some char := by
  rw [chunkText?, unifyLineEnds_cons noReturn] at found
  rw [List.length_cons, pieces?_cons plain] at found
  rcases Option.map_eq_some_iff.mp found with ⟨pieces, first, rfl⟩
  rcases Option.map_eq_some_iff.mp first with ⟨more, _, rfl⟩
  exact head?_textOf char more

/-! ### Literals -/

/-- The literal is what the source has at its place. -/
def Literal.StandsIn (source : List Char) : Literal → Prop
  | string literal => literal.StandsIn source
  | template start head => head.HeadsAt start source

theorem Literal.isOfLiteral_delimiter_site {source : List Char} {literal : Literal}
    (stands : literal.StandsIn source) (kind : SiteKind) :
    (literal.site kind).delimiter.IsOfLiteral := by
  cases literal with
  | string literal =>
      rcases stands with ⟨double | single, _⟩
      · exact Or.inl (congrArg Delimiter.quote double)
      · exact Or.inr (Or.inl (congrArg Delimiter.quote single))
  | template start head => exact Or.inr (Or.inr rfl)

/-- The value of a site starts with the character that stands at its place, if that is no mark of a
literal. -/
theorem Literal.head?_value_site {source before after : List Char} {char : Char} {literal : Literal}
    {kind : SiteKind} (stands : literal.StandsIn source)
    (plain : char ∉ ['\\', '\r', '"', '\'', '\x60', '$']) (split : source = before ++ char :: after)
    (start : (literal.site kind).start = byteLength before) :
    (literal.site kind).value.toList.head? = some char := by
  simp only [List.mem_cons, List.not_mem_nil, or_false, not_or] at plain
  rcases plain with ⟨noEscape, noReturn, noDouble, noSingle, noBacktick, noDollar⟩
  -- Behind the opening delimiter the source goes on with the contents, and so with the character.
  have contents {opening : Char} {front behind : List Char}
      (stood : source = front ++ opening :: behind) (size : opening.utf8Size = 1)
      (place : byteLength before = byteLength front + 1) : char :: after = behind := by
    have same : before ++ char :: after = (front ++ [opening]) ++ behind := by
      rw [← split, stood, List.append_assoc, List.singleton_append]
    refine (append_inj_of_byteLength_eq same ?_).2
    rw [place, byteLength_append, byteLength, byteLength, size]
  cases literal with
  | string literal =>
      rcases stands with ⟨isQuote, front, body, behind, stood, _, value, opening, _⟩
      have size : literal.quote.utf8Size = 1 := by
        rcases isQuote with same | same <;> rw [same] <;> rfl
      have written := contents stood size (by rw [← start, ← opening]; rfl)
      simp only [site, String.toList_ofList]
      cases body with
      | nil =>
          have closes : char = literal.quote := (List.cons.inj written).1
          rcases isQuote with double | single
          · exact absurd (closes.trans double) noDouble
          · exact absurd (closes.trans single) noSingle
      | cons first rest =>
          rcases List.cons.inj written with ⟨rfl, _⟩
          exact head?_of_stringText?_eq_some noEscape value
  | template opened head =>
      rcases stands with ⟨front, body, stop, behind, stood, _, opening, raw, cooked⟩
      have written := contents stood rfl (by rw [← start, ← opening]; rfl)
      simp only [site, String.toList_ofList]
      cases body with
      | nil =>
          cases stop with
          | closed => exact absurd (List.cons.inj written).1 noBacktick
          | substitution => exact absurd (List.cons.inj written).1 noDollar
      | cons first rest =>
          rcases List.cons.inj written with ⟨rfl, _⟩
          cases valid : head.cooked with
          | none =>
              rw [Option.getD_none, raw, unifyLineEnds_cons noReturn]
              rfl
          | some text =>
              rw [Option.getD_some]
              exact head?_of_chunkText?_eq_some noEscape noReturn (cooked.symm.trans valid)

namespace Node

/-! ### Trees -/

theorem sizeOf_lt_of_mem_children {node child : Node} (inside : child ∈ node.children) :
    sizeOf child < sizeOf node := by
  cases node with
  | name | string | importDeclaration | exportAll => exact absurd inside List.not_mem_nil
  | parentheses | member | spread =>
      rw [List.mem_singleton.mp inside]
      simp only [parentheses.sizeOf_spec, member.sizeOf_spec, spread.sizeOf_spec]
      omega
  | sum span left right =>
      simp only [children, List.mem_cons, List.not_mem_nil, or_false] at inside
      simp only [sum.sizeOf_spec]
      rcases inside with rfl | rfl <;> omega
  | call span first rest | importCall span first rest =>
      simp only [call.sizeOf_spec, importCall.sizeOf_spec]
      rcases List.mem_cons.mp inside with rfl | behind
      · omega
      · have smaller := List.sizeOf_lt_of_mem behind
        omega
  | template | exportNames | other =>
      have smaller := List.sizeOf_lt_of_mem inside
      simp only [children] at smaller
      simp only [template.sizeOf_spec, exportNames.sizeOf_spec, other.sizeOf_spec]
      omega

theorem mem_allSites_iff {nodes : List Node} {site : Site} :
    site ∈ allSites nodes ↔ ∃ node ∈ nodes, site ∈ node.sites := by
  induction nodes with
  | nil => simp [allSites]
  | cons node rest ih => simp [allSites, ih]

theorem mem_sites_iff {node : Node} {site : Site} :
    site ∈ node.sites ↔ node.ownSite? = some site ∨ ∃ child ∈ node.children, site ∈ child.sites := by
  rw [sites_eq, List.mem_append, Option.mem_toList, mem_allSites_iff]

/-- What a tree hands on to the trees inside it holds wherever a site is found. -/
theorem exists_node_of_mem_sites {Holds : Node → Prop}
    (inherited : ∀ node, Holds node → ∀ child ∈ node.children, Holds child) {node : Node}
    (holds : Holds node) {site : Site} (member : site ∈ node.sites) :
    ∃ inner, Holds inner ∧ inner.ownSite? = some site := by
  rcases mem_sites_iff.mp member with own | ⟨child, inside, below⟩
  · exact ⟨node, holds, own⟩
  · have smaller := sizeOf_lt_of_mem_children inside
    exact exists_node_of_mem_sites inherited (inherited node holds child inside) below
termination_by sizeOf node

theorem standsIn_of_mem_children {source : List Char} {node : Node}
    (stands : node.StandsIn source) : ∀ child ∈ node.children, child.StandsIn source := by
  cases node <;> simp_all [StandsIn, children, allStandIn_iff]

theorem standsIn_of_startingLiteral?_eq_some {source : List Char} {node : Node} {literal : Literal}
    (stands : node.StandsIn source) (found : node.startingLiteral? = some literal) :
    literal.StandsIn source := by
  fun_induction startingLiteral? node with
  | case1 inner =>
      cases found
      exact stands
  | case2 span head parts =>
      cases found
      exact stands.1
  | case3 span inner ih => exact ih stands found
  | case4 span left right ih => exact ih stands.1 found
  | case5 => exact absurd found.symm (Option.some_ne_none literal)

theorem standsIn_of_specifier?_eq_some {source : List Char} {node : Node} {kind : SiteKind}
    {literal : Literal} (stands : node.StandsIn source)
    (found : node.specifier? = some (kind, literal)) : literal.StandsIn source := by
  have ofStart {start : Node} {startKind : SiteKind} (startStands : start.StandsIn source)
      (started : start.startingLiteral?.map (startKind, ·) = some (kind, literal)) :
      literal.StandsIn source := by
    rcases Option.map_eq_some_iff.mp started with ⟨first, starts, same⟩
    cases same
    exact standsIn_of_startingLiteral?_eq_some startStands starts
  cases node with
  | importDeclaration span specifier | exportAll span specifier =>
      cases found
      exact stands
  | exportNames span specifier declaration =>
      rcases Option.map_eq_some_iff.mp found with ⟨named, present, same⟩
      cases same
      exact stands.1 named present
  | importCall span specifier options => exact ofStart stands.1 found
  | call span callee arguments =>
      cases arguments with
      | nil => exact absurd found.symm (Option.some_ne_none _)
      | cons first rest =>
          rw [specifier?] at found
          split at found
          · exact ofStart stands.2.1 found
          · exact absurd found.symm (Option.some_ne_none _)
  | name | string | template | parentheses | sum | member | spread | other =>
      exact absurd found.symm (Option.some_ne_none _)

/-- Every site in a tree of a source is that of a literal in the source. -/
theorem exists_literal_of_mem_sites {source : List Char} {node : Node} {site : Site}
    (stands : node.StandsIn source) (member : site ∈ node.sites) :
    ∃ kind literal, Literal.StandsIn source literal ∧ literal.site kind = site := by
  rcases exists_node_of_mem_sites (fun node => standsIn_of_mem_children) stands member with
    ⟨inner, innerStands, own⟩
  rcases Option.map_eq_some_iff.mp own with ⟨⟨kind, literal⟩, found, same⟩
  exact ⟨kind, literal, standsIn_of_specifier?_eq_some innerStands found, same⟩

end Node

end Script

end ImportAlias
