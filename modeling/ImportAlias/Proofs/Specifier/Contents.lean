import ImportAlias.Proofs.Specifier.Escape
import ImportAlias.Proofs.Specifier.Splice
import Mathlib.Data.List.Infix

/-!
# The contents of a site's literal

What can stand between the delimiters of a literal is given by a grammar of its own, so a place in a
source behind an opening delimiter has contents in one way at most. Every site starts where the
contents of its literal start. It stops where they stop too, if it is in a string; in a template it
stops too early by one byte for every carriage return that a line feed follows, since the stop is
counted in the contents with unified line ends.
-/

namespace ImportAlias

open Script

namespace Script

/-- What can stand between two quotes: escapes, and characters that neither close the string nor end
the line. -/
inductive StringContents (mark : Char) : List Char → Prop where
  | nil : StringContents mark []
  | plain {char : Char} {rest : List Char} (noEscape : char ≠ '\\') (noMark : char ≠ mark)
      (noLineEnd : char ≠ '\n' ∧ char ≠ '\r') (behind : StringContents mark rest) :
      StringContents mark (char :: rest)
  | escape {char : Char} {rest : List Char} (behind : StringContents mark rest) :
      StringContents mark ('\\' :: char :: rest)
  /-- A backslash before a line end of two characters. -/
  | continued {rest : List Char} (behind : StringContents mark rest) :
      StringContents mark ('\\' :: '\r' :: '\n' :: rest)

/-- What can stand between a backtick and the next backtick or the first substitution. -/
inductive TemplateContents : List Char → Prop where
  | nil : TemplateContents []
  | plain {char : Char} {rest : List Char} (noEscape : char ≠ '\\') (noBacktick : char ≠ '\x60')
      (noSubstitution : char = '$' → rest.head? ≠ some '\x7b') (behind : TemplateContents rest) :
      TemplateContents (char :: rest)
  | escape {char : Char} {rest : List Char} (behind : TemplateContents rest) :
      TemplateContents ('\\' :: char :: rest)

theorem stringContents_of_stringBody? {mark : Char} {text contents rest : List Char}
    (found : stringBody? mark text = some (contents, rest)) : StringContents mark contents := by
  fun_induction stringBody? mark text generalizing contents with
  | case1 => simp at found
  | case2 text ih =>
      rcases Option.map_eq_some_iff.mp found with ⟨⟨inner, behind⟩, equal, split⟩
      cases split
      exact .continued (ih equal)
  | case3 char text _ ih =>
      rcases Option.map_eq_some_iff.mp found with ⟨⟨inner, behind⟩, equal, split⟩
      cases split
      exact .escape (ih equal)
  | case4 text =>
      cases found
      exact .nil
  | case5 => simp at found
  | case6 char text _ notEscape noMark noLineEnd ih =>
      rcases Option.map_eq_some_iff.mp found with ⟨⟨inner, behind⟩, equal, split⟩
      cases split
      have noEscape : char ≠ '\\' := by
        rintro rfl
        cases text with
        | nil => simp [stringBody?] at equal
        | cons next more => exact notEscape next more rfl rfl
      exact .plain noEscape noMark (not_or.mp noLineEnd) (ih equal)

theorem templateContents_of_chunkBody? {text contents rest : List Char} {stop : ChunkEnd}
    (found : chunkBody? text = some (contents, stop, rest)) : TemplateContents contents := by
  fun_induction chunkBody? text generalizing contents with
  | case1 => simp at found
  | case2 text | case3 text =>
      cases found
      exact .nil
  | case4 char text ih =>
      rcases Option.map_eq_some_iff.mp found with ⟨⟨inner, behind⟩, equal, split⟩
      cases split
      exact .escape (ih equal)
  | case5 char text noBacktick noSubstitution noEscape ih =>
      rcases Option.map_eq_some_iff.mp found with ⟨⟨inner, behind⟩, equal, split⟩
      cases split
      have escapeAlone : char ≠ '\\' := by
        rintro rfl
        cases text with
        | nil => simp [chunkBody?] at equal
        | cons next more => exact noEscape next more rfl rfl
      refine .plain escapeAlone noBacktick ?_ (ih equal)
      intro isDollar starts
      rcases List.head?_eq_some_iff.mp starts with ⟨more, rfl⟩
      exact noSubstitution _ isDollar (append_of_chunkBody? equal)

/-- Contents between quotes are found again by the reader of strings. -/
theorem stringBody?_append_of_contents {mark : Char} (isQuote : mark = '"' ∨ mark = '\'')
    {contents : List Char} (isContents : StringContents mark contents) (rest : List Char) :
    stringBody? mark (contents ++ mark :: rest) = some (contents, rest) := by
  have noLineFeed {contents : List Char} (isContents : StringContents mark contents)
      (behind : List Char) : contents ++ mark :: rest ≠ '\n' :: behind := by
    cases isContents with
    | nil => rcases isQuote with rfl | rfl <;> simp
    | plain _ _ noLineEnd _ => simp [noLineEnd]
    | escape | continued => simp
  induction isContents with
  | nil =>
      rcases isQuote with rfl | rfl <;> simp [stringBody?]
  | plain noEscape noMark noLineEnd behind ih =>
      rw [List.cons_append, Delimiter.stringBody?_plain noEscape noMark, ih]
      simp [noLineEnd]
  | escape behind ih =>
      rw [List.cons_append, List.cons_append, stringBody?, ih]
      · rfl
      · exact fun more _ starts => noLineFeed behind more starts
  | continued behind ih =>
      simp [stringBody?, ih]

theorem chunkBody?_append_of_contents {contents : List Char}
    (isContents : TemplateContents contents) (stop : ChunkEnd) (rest : List Char) :
    chunkBody? (contents ++ (stop.chars ++ rest)) = some (contents, stop, rest) := by
  induction isContents with
  | nil => cases stop <;> simp [ChunkEnd.chars, chunkBody?]
  | @plain char more noEscape noBacktick noSubstitution behind ih =>
      rw [List.cons_append, chunkBody?, ih]
      · rfl
      · exact noBacktick
      · intro others isDollar starts
        apply noSubstitution isDollar
        cases more with
        | nil => cases stop <;> simp [ChunkEnd.chars] at starts
        | cons next _ => simp_all
      · exact fun _ _ isEscape => absurd isEscape noEscape
  | escape behind ih => simp [chunkBody?, ih]

/-! ### Unified line ends -/

/-- The number of carriage returns that a line feed follows. -/
def linePairs : List Char → Nat
  | [] => 0
  | '\r' :: '\n' :: rest => linePairs rest + 1
  | _ :: rest => linePairs rest

/-- Unified line ends take one byte less for each pair. -/
theorem byteLength_unifyLineEnds (text : List Char) :
    byteLength (unifyLineEnds text) + linePairs text = byteLength text := by
  fun_induction unifyLineEnds text with
  | case1 => rfl
  | case2 rest ih =>
      have sizes : '\r'.utf8Size = 1 ∧ '\n'.utf8Size = 1 := ⟨rfl, rfl⟩
      simp only [byteLength, linePairs]
      omega
  | case3 rest noLineFeed ih =>
      have sizes : '\r'.utf8Size = 1 ∧ '\n'.utf8Size = 1 := ⟨rfl, rfl⟩
      rw [linePairs]
      · simp only [byteLength]
        omega
      · exact fun behind _ same => noLineFeed behind same
  | case4 char rest _ noReturn ih =>
      rw [linePairs]
      · simp only [byteLength]
        omega
      · exact fun behind isReturn _ => noReturn isReturn

theorem linePairs_eq_zero_iff {text : List Char} :
    linePairs text = 0 ↔ ¬['\r', '\n'] <:+: text := by
  fun_induction linePairs text with
  | case1 => simp
  | case2 rest ih =>
      have starts : ['\r', '\n'] <:+: '\r' :: '\n' :: rest := ⟨[], rest, rfl⟩
      simp [starts]
  | case3 char rest noPair ih =>
      have noStart : ¬['\r', '\n'] <+: char :: rest := by
        rintro ⟨behind, starts⟩
        rcases List.cons.inj starts with ⟨isReturn, isLineFeed⟩
        exact noPair behind isReturn.symm isLineFeed.symm
      rw [ih, List.infix_cons_iff, not_or]
      exact (and_iff_right noStart).symm

end Script

namespace Delimiter

/-- What can stand behind the delimiter up to the end of the literal, or, in a template, up to the
first substitution. -/
def Contents : Delimiter → List Char → Prop
  | quote mark, contents => StringContents mark contents
  | backtick, contents => TemplateContents contents

/-- What ends the contents. -/
def Closes : Delimiter → List Char → Prop
  | quote mark, closing => closing = [mark]
  | backtick, closing => closing = ['\x60'] ∨ closing = ['$', '\x7b']

/-- The bytes that unified line ends take less in the contents, of which only those of a template are
counted with unified line ends. -/
def lostBytes : Delimiter → List Char → Nat
  | quote _, _ => 0
  | backtick, contents => linePairs contents

/-- Only one start of a text can be contents with their end behind them. -/
theorem Contents.unique {delimiter : Delimiter} (ofLiteral : delimiter.IsOfLiteral)
    {first second firstClosing secondClosing firstRest secondRest : List Char}
    (firstContents : delimiter.Contents first) (firstCloses : delimiter.Closes firstClosing)
    (secondContents : delimiter.Contents second) (secondCloses : delimiter.Closes secondClosing)
    (same : first ++ (firstClosing ++ firstRest) = second ++ (secondClosing ++ secondRest)) :
    first = second ∧ firstClosing = secondClosing := by
  have ofQuote {mark : Char} (isQuote : mark = '"' ∨ mark = '\'')
      (isFirst : StringContents mark first) (isSecond : StringContents mark second)
      (equal : first ++ mark :: firstRest = second ++ mark :: secondRest) : first = second := by
    have found := stringBody?_append_of_contents isQuote isFirst firstRest
    rw [equal, stringBody?_append_of_contents isQuote isSecond] at found
    simp_all
  have ofTemplate (firstStop secondStop : ChunkEnd) (isFirst : TemplateContents first)
      (isSecond : TemplateContents second)
      (equal : first ++ (firstStop.chars ++ firstRest) = second ++ (secondStop.chars ++ secondRest)) :
      first = second ∧ firstStop = secondStop := by
    have found := chunkBody?_append_of_contents isFirst firstStop firstRest
    rw [equal, chunkBody?_append_of_contents isSecond] at found
    simp_all
  rcases ofLiteral with rfl | rfl | rfl
  · cases firstCloses
    cases secondCloses
    exact ⟨ofQuote (Or.inl rfl) firstContents secondContents same, rfl⟩
  · cases firstCloses
    cases secondCloses
    exact ⟨ofQuote (Or.inr rfl) firstContents secondContents same, rfl⟩
  · have ends {closing : List Char} (closes : backtick.Closes closing) :
        ∃ stop, closing = ChunkEnd.chars stop := by
      rcases closes with rfl | rfl
      · exact ⟨.closed, rfl⟩
      · exact ⟨.substitution, rfl⟩
    rcases ends firstCloses with ⟨firstStop, rfl⟩
    rcases ends secondCloses with ⟨secondStop, rfl⟩
    rcases ofTemplate firstStop secondStop firstContents secondContents same with ⟨rfl, rfl⟩
    exact ⟨rfl, rfl⟩

end Delimiter

/-- In the source, the start of the site has the opening delimiter in front of it and the contents
of a literal behind it. -/
structure Site.Bounds (site : Site) (source before contents closing after : List Char) : Prop where
  split : source = before ++ site.delimiter.char :: (contents ++ (closing ++ after))
  start : site.start = byteLength before + 1
  isContents : site.delimiter.Contents contents
  closes : site.delimiter.Closes closing

namespace Site

variable {source before contents closing after : List Char} {site : Site}

theorem Bounds.unique (ofLiteral : site.delimiter.IsOfLiteral)
    (bounds : site.Bounds source before contents closing after)
    {otherBefore otherContents otherClosing otherAfter : List Char}
    (other : site.Bounds source otherBefore otherContents otherClosing otherAfter) :
    otherBefore = before ∧ otherContents = contents ∧ otherClosing = closing ∧ otherAfter = after := by
  have place : byteLength otherBefore = byteLength before := by
    have first := bounds.start
    have second := other.start
    omega
  rcases append_inj_of_byteLength_eq (other.split.symm.trans bounds.split) place with
    ⟨sameBefore, behind⟩
  rcases Delimiter.Contents.unique ofLiteral other.isContents other.closes bounds.isContents
    bounds.closes (List.cons.inj behind).2 with ⟨rfl, rfl⟩
  have sameAfter := List.append_cancel_left (List.append_cancel_left (List.cons.inj behind).2)
  exact ⟨sameBefore, rfl, rfl, sameAfter⟩

/-- A site that covers the contents is replaced without a rest. -/
theorem Bounds.spliceFrom_eq (bounds : site.Bounds source before contents closing after)
    (ofLiteral : site.delimiter.IsOfLiteral)
    (exact : site.stop = site.start + byteLength contents) (replacement : String) :
    spliceFrom 0 source [⟨site, replacement⟩] =
      before ++ site.delimiter.char ::
        (site.delimiter.escape replacement.toList ++ (closing ++ after)) := by
  have width : site.delimiter.char.utf8Size = 1 := by
    rcases ofLiteral with same | same | same <;> rw [same] <;> rfl
  have start : site.start = byteLength (before ++ [site.delimiter.char]) := by
    simp [bounds.start, byteLength, width]
  have stop : site.stop = byteLength (before ++ [site.delimiter.char] ++ contents) := by
    rw [byteLength_append, ← start, exact]
  have split : source = before ++ [site.delimiter.char] ++ (contents ++ (closing ++ after)) := by
    rw [bounds.split, List.append_assoc, List.singleton_append]
  rw [spliceFrom, spliceFrom, Nat.sub_zero, Nat.sub_zero, start, stop, split, charsBefore_append,
    ← List.append_assoc (before ++ _) contents, charsFrom_append]
  simp [Edit.written]

end Site

/-- The site of a literal that stands in a source starts where its contents start, and stops before
their end by what unified line ends take less. -/
theorem Script.Literal.exists_bounds_site {source : List Char} {literal : Literal}
    (stands : literal.StandsIn source) (kind : SiteKind) :
    ∃ before contents closing after,
      (literal.site kind).Bounds source before contents closing after ∧
        (literal.site kind).stop + (literal.site kind).delimiter.lostBytes contents =
          (literal.site kind).start + byteLength contents := by
  cases literal with
  | string literal =>
      rcases stands with ⟨_, before, body, after, split, found, _, start, stop⟩
      refine ⟨before, body, [literal.quote], after, ⟨split, ?_, ?_, rfl⟩, ?_⟩
      · simp [site, start]
      · exact stringContents_of_stringBody? found
      · simp only [site, Delimiter.lostBytes]
        omega
  | template opened head =>
      rcases stands with ⟨before, body, stop, after, split, found, start, raw, _⟩
      have unified := byteLength_unifyLineEnds body
      refine ⟨before, body, stop.chars, after, ⟨?_, ?_, ?_, ?_⟩, ?_⟩
      · rw [split, List.append_assoc]
        rfl
      · simp [site, start]
      · exact templateContents_of_chunkBody? found
      · cases stop with
        | closed => exact Or.inl rfl
        | substitution => exact Or.inr rfl
      · simp only [site, Delimiter.lostBytes, raw]
        omega

namespace Site

theorem stop_eq_iff_of_lostBytes {site : Site} {contents : List Char}
    (counted : site.stop + site.delimiter.lostBytes contents = site.start + byteLength contents) :
    site.stop = site.start + byteLength contents ↔
      ¬(site.delimiter = .backtick ∧ ['\r', '\n'] <:+: contents) := by
  have nothingLost : site.stop = site.start + byteLength contents ↔
      site.delimiter.lostBytes contents = 0 := by omega
  rw [nothingLost]
  cases site.delimiter with
  | quote mark => simp [Delimiter.lostBytes]
  | backtick => simp [Delimiter.lostBytes, linePairs_eq_zero_iff]

/-- Every site that is collected from a source starts where the contents of its literal start, and
these are the only contents there. It stops where they stop, unless they are in a template and have
a carriage return with a line feed behind it; it stops one byte early for each of these. A site that
stops where its contents do is replaced as a whole. -/
theorem covers_contents {dialect : Dialect} {source : String} {sites : List Site} {site : Site}
    (found : specifierSites? dialect source = some sites) (member : site ∈ sites) :
    site.delimiter.IsOfLiteral ∧ ∃ before contents closing after,
      site.Bounds source.toList before contents closing after ∧
      (∀ otherBefore otherContents otherClosing otherAfter,
        site.Bounds source.toList otherBefore otherContents otherClosing otherAfter →
          otherContents = contents) ∧
      site.stop + site.delimiter.lostBytes contents = site.start + byteLength contents ∧
      (site.stop = site.start + byteLength contents ↔
        ¬(site.delimiter = .backtick ∧ ['\r', '\n'] <:+: contents)) ∧
      (site.stop = site.start + byteLength contents → ∀ replacement : String,
        spliceFrom 0 source.toList [⟨site, replacement⟩] = before ++ site.delimiter.char ::
          (site.delimiter.escape replacement.toList ++ (closing ++ after))) := by
  rcases Option.map_eq_some_iff.mp found with ⟨tree, _, rfl⟩
  have collected : site ∈ tree.val.sites := (sorted_perm tree.val.sites).mem_iff.mp member
  rcases Node.exists_literal_of_mem_sites tree.property collected with
    ⟨kind, literal, stands, rfl⟩
  have ofLiteral := literal.isOfLiteral_delimiter_site stands kind
  rcases literal.exists_bounds_site stands kind with
    ⟨before, contents, closing, after, bounds, counted⟩
  refine ⟨ofLiteral, before, contents, closing, after, bounds, ?_, counted,
    stop_eq_iff_of_lostBytes counted, ?_⟩
  · intro _ _ _ _ other
    exact (bounds.unique ofLiteral other).2.1
  · intro exact replacement
    exact bounds.spliceFrom_eq ofLiteral exact replacement

/-- The head of a template with a wide character, an escaped backtick and a dollar sign that starts
no substitution. -/
theorem covers_contents_of_escaped_head :
    specifierSites? ⟨true, false, true⟩ "require(`é\\`$/$\x7bx\x7d`)" =
        some [⟨.require, "é`$/", 9, 15, .backtick⟩] ∧
      String.ofList (spliceFrom 0 "require(`é\\`$/$\x7bx\x7d`)".toList
          [⟨⟨.require, "é`$/", 9, 15, .backtick⟩, "./src/"⟩]) =
        "require(`./src/$\x7bx\x7d`)" := by
  have found : specifierSites? ⟨true, false, true⟩ "require(`é\\`$/$\x7bx\x7d`)" =
      some [⟨.require, "é`$/", 9, 15, .backtick⟩] := by decide +kernel
  have read : chunkBody? "é\\`$/$\x7b".toList = some ("é\\`$/".toList, .substitution, []) := rfl
  have bounds : Bounds ⟨.require, "é`$/", 9, 15, .backtick⟩ "require(`é\\`$/$\x7bx\x7d`)".toList
      "require(".toList "é\\`$/".toList "$\x7b".toList "x\x7d`)".toList :=
    ⟨by decide, by decide, templateContents_of_chunkBody? read, Or.inr rfl⟩
  refine ⟨found, ?_⟩
  rcases covers_contents found List.mem_cons_self with
    ⟨ofLiteral, before, contents, closing, after, foundBounds, _, _, _, replaced⟩
  rcases bounds.unique ofLiteral foundBounds with ⟨rfl, rfl, rfl, rfl⟩
  rw [replaced (by decide)]
  decide +kernel

/-- With a line end of two characters in a template, the site stops one byte early, and the last byte
of the specifier is left behind. -/
theorem stop_ne_of_line_pair :
    specifierSites? ⟨true, false, true⟩ "require(`a/\r\nb`)" =
        some [⟨.require, "a/\nb", 9, 13, .backtick⟩] ∧
      (∀ before contents closing after,
        Bounds ⟨.require, "a/\nb", 9, 13, .backtick⟩ "require(`a/\r\nb`)".toList before contents
          closing after → 13 ≠ 9 + byteLength contents) ∧
      String.ofList (spliceFrom 0 "require(`a/\r\nb`)".toList
        [⟨⟨.require, "a/\nb", 9, 13, .backtick⟩, "./c"⟩]) = "require(`./cb`)" := by
  have read : chunkBody? "a/\r\nb`".toList = some ("a/\r\nb".toList, .closed, []) := rfl
  have bounds : Bounds ⟨.require, "a/\nb", 9, 13, .backtick⟩ "require(`a/\r\nb`)".toList
      "require(".toList "a/\r\nb".toList "`".toList ")".toList :=
    ⟨by decide, by decide, templateContents_of_chunkBody? read, Or.inl rfl⟩
  refine ⟨by decide +kernel, ?_, by decide +kernel⟩
  intro before contents closing after other
  rcases bounds.unique (Or.inr (Or.inr rfl)) other with ⟨_, rfl, _, _⟩
  decide

end Site

end ImportAlias
