import ImportAlias.Alias.Template
import Mathlib.Data.List.Chain
import Mathlib.Data.List.TakeWhile

/-!
# Reading and writing templates

A template is read into canonical tokens, and canonical tokens are read back from their written form,
so the canonical tokens are exactly those that come from a text. A reader that has come to the end of
a text stands in the middle of nothing unless the text ends with a backslash that is still to be
paired, or with a group whose number goes on. Anywhere else a template can be cut, and stands for what
both parts stand for.
-/

namespace ImportAlias

namespace Template

/-- The digits of a group end in front of the text. -/
def EndsDigits (rest : List Char) : Prop :=
  ∀ char ∈ rest.head?, char.isDigit = false

/-- A literal has a text, and a group has an index that a number can have. -/
def Token.IsProper : Token → Prop
  | literal text => text ≠ []
  | group index => index ≤ UInt64.size - 1

/-- The written forms of two tokens, one behind the other, can be told apart: two literals would be
one, and a digit would belong to the group in front of it. -/
def Token.StandsApart : Token → Token → Prop
  | literal _, literal _ => False
  | group _, literal text => EndsDigits text
  | _, group _ => True

/-- Tokens without an empty literal, without two literals side by side, without a digit behind a
group, and with indexes of 64 bits. -/
structure IsCanonical (tokens : List Token) : Prop where
  proper : ∀ token ∈ tokens, token.IsProper
  apart : tokens.IsChain Token.StandsApart

/-! ### One step of reading -/

theorem exists_consChar (char : Char) (tokens : List Token) :
    ∃ text rest, Token.consChar char tokens = .literal (char :: text) :: rest := by
  cases tokens with
  | nil => exact ⟨[], [], rfl⟩
  | cons token rest =>
      cases token with
      | literal text => exact ⟨text, rest, rfl⟩
      | group index => exact ⟨[], .group index :: rest, rfl⟩

theorem readTokens_nil : readTokens [] = [] := by
  rw [readTokens]

theorem readTokens_pair (rest : List Char) :
    readTokens ('\\' :: '\\' :: rest) = Token.consChar '\\' (readTokens rest) := by
  rw [readTokens]

theorem readTokens_plain {char : Char} (plain : char ≠ '\\') (rest : List Char) :
    readTokens (char :: rest) = Token.consChar char (readTokens rest) := by
  rw [readTokens]
  · exact fun _ isBackslash => absurd isBackslash plain
  · exact fun _ _ isBackslash => absurd isBackslash plain

theorem readTokens_alone {char : Char} (plain : char ≠ '\\') (noDigit : char.isDigit = false)
    (rest : List Char) :
    readTokens ('\\' :: char :: rest) = Token.consChar '\\' (readTokens (char :: rest)) := by
  rw [readTokens, noDigit]
  · rfl
  · exact plain

/-- A backslash and all digits behind it are a group. -/
theorem readTokens_group {digits rest : List Char} (nonempty : digits ≠ [])
    (allDigits : ∀ digit ∈ digits, digit.isDigit) (ends : EndsDigits rest) :
    readTokens ('\\' :: (digits ++ rest)) = .group (indexOf digits) :: readTokens rest := by
  obtain ⟨digit, more, rfl⟩ := List.exists_cons_of_ne_nil nonempty
  rw [List.forall_mem_cons] at allDigits
  have noneTaken : rest.takeWhile Char.isDigit = [] := by
    cases rest with
    | nil => rfl
    | cons char behind => simp [ends char rfl]
  have noneDropped : rest.dropWhile Char.isDigit = rest := by
    cases rest with
    | nil => rfl
    | cons char behind => simp [ends char rfl]
  rw [List.cons_append, readTokens, if_pos allDigits.1, List.takeWhile_append_of_pos allDigits.2,
    List.dropWhile_append_of_pos allDigits.2, noneTaken, noneDropped, List.append_nil]
  rintro rfl
  exact absurd allDigits.1 (by decide)

theorem endsDigits_dropWhile (text : List Char) : EndsDigits (text.dropWhile Char.isDigit) := by
  intro char first
  have notDigit := List.head?_dropWhile_not Char.isDigit text
  rw [Option.mem_def.mp first] at notDigit
  exact notDigit

/-! ### What is read is canonical -/

theorem isCanonical_consChar {tokens : List Token} (canonical : IsCanonical tokens) (char : Char) :
    IsCanonical (Token.consChar char tokens) := by
  rcases canonical with ⟨proper, apart⟩
  cases tokens with
  | nil => exact ⟨by simp [Token.consChar, Token.IsProper], .singleton _⟩
  | cons token rest =>
      rw [List.forall_mem_cons] at proper
      cases token with
      | literal text =>
          refine ⟨List.forall_mem_cons.mpr ⟨List.cons_ne_nil _ _, proper.2⟩, ?_⟩
          rw [List.isChain_cons] at apart
          refine List.isChain_cons.mpr ⟨?_, apart.2⟩
          intro next first
          have nextApart := apart.1 next first
          cases next with
          | literal => exact nextApart
          | group => trivial
      | group index =>
          refine ⟨List.forall_mem_cons.mpr ⟨List.cons_ne_nil _ _, List.forall_mem_cons.mpr proper⟩, ?_⟩
          exact List.isChain_cons_cons.mpr ⟨trivial, apart⟩

/-- A literal at the start of the tokens starts as the text does. -/
theorem head?_of_readTokens_eq_literal_cons {source text : List Char} {rest : List Token}
    (read : readTokens source = .literal text :: rest) : text.head? = source.head? := by
  have ofConsChar {char : Char} {tokens : List Token}
      (built : Token.consChar char tokens = .literal text :: rest) : text.head? = some char := by
    rcases exists_consChar char tokens with ⟨more, behind, shape⟩
    rw [shape] at built
    cases built
    rfl
  revert read
  fun_induction readTokens source with
  | case1 => exact fun read => absurd read (List.cons_ne_nil _ _).symm
  | case2 | case4 | case5 => exact ofConsChar
  | case3 => exact fun read => absurd read (by simp)

theorem isCanonical_readTokens (source : List Char) : IsCanonical (readTokens source) := by
  fun_induction readTokens source with
  | case1 => exact ⟨fun _ member => absurd member List.not_mem_nil, .nil⟩
  | case2 _ ih => exact isCanonical_consChar ih _
  | case3 digit rest _ _ ih =>
      have inRange : indexOf (digit :: rest.takeWhile Char.isDigit) ≤ UInt64.size - 1 :=
        Nat.min_le_right _ _
      refine ⟨List.forall_mem_cons.mpr ⟨inRange, ih.proper⟩, List.isChain_cons.mpr ⟨?_, ih.apart⟩⟩
      intro next first
      rcases List.head?_eq_some_iff.mp first with ⟨behind, read⟩
      cases next with
      | group => trivial
      | literal text =>
          intro char starts
          rw [head?_of_readTokens_eq_literal_cons read] at starts
          exact endsDigits_dropWhile rest char starts
  | case4 _ _ _ _ ih => exact isCanonical_consChar ih _
  | case5 _ _ _ _ ih => exact isCanonical_consChar ih _

/-! ### Written tokens are read back -/

theorem numberOf_eq_ofDigitChars (digits : List Char) :
    numberOf digits = Nat.ofDigitChars 10 digits 0 := by
  unfold numberOf Nat.ofDigitChars
  congr
  funext sum char
  rw [Nat.mul_comm]

theorem indexOf_toDigits (index : Nat) :
    indexOf (Nat.toDigits 10 index) = min index (UInt64.size - 1) := by
  rw [indexOf, numberOf_eq_ofDigitChars, Nat.ofDigitChars_toDigits (by decide) (by decide)]
  rfl

/-- Zeros in front of a number make no difference. -/
theorem indexOf_replicate_append_toDigits (zeros number : Nat) :
    indexOf (List.replicate zeros '0' ++ Nat.toDigits 10 number) = min number (UInt64.size - 1) := by
  have nothing : Nat.ofDigitChars 10 (List.replicate zeros '0') 0 = 0 := by
    induction zeros with
    | zero => rfl
    | succ zeros ih => exact ih
  rw [← indexOf_toDigits, indexOf, indexOf, numberOf_eq_ofDigitChars, Nat.ofDigitChars_append,
    nothing, numberOf_eq_ofDigitChars]

theorem readTokens_written_char (char : Char) (rest : List Char) :
    readTokens ((if char = '\\' then ['\\', '\\'] else [char]) ++ rest) =
      Token.consChar char (readTokens rest) := by
  split
  · next isBackslash =>
    rw [isBackslash]
    exact readTokens_pair rest
  · next plain => exact readTokens_plain plain rest

theorem readTokens_written_literal (text rest : List Char) :
    readTokens ((Token.literal text).written ++ rest) =
      text.foldr Token.consChar (readTokens rest) := by
  rw [Token.written]
  induction text with
  | nil => rfl
  | cons char more ih =>
      rw [List.flatMap_cons, List.append_assoc, readTokens_written_char, ih, List.foldr_cons]

/-- Characters in front of tokens make one literal, unless there is a literal already. -/
theorem foldr_consChar {text : List Char} {tokens : List Token} (nonempty : text ≠ [])
    (apart : ∀ token ∈ tokens.head?, (Token.literal text).StandsApart token) :
    text.foldr Token.consChar tokens = .literal text :: tokens := by
  have alone (char : Char) : Token.consChar char tokens = .literal [char] :: tokens := by
    cases tokens with
    | nil => rfl
    | cons token rest =>
        cases token with
        | literal => exact (apart _ rfl).elim
        | group => rfl
  clear apart
  induction text with
  | nil => exact absurd rfl nonempty
  | cons char more ih =>
      cases more with
      | nil => exact alone char
      | cons next behind =>
          rw [List.foldr_cons, ih (List.cons_ne_nil _ _)]
          rfl

/-- A token is written with a backslash in front or starts as its literal does. -/
theorem head?_written_append {token : Token} (proper : token.IsProper) (rest : List Char) :
    (token.written ++ rest).head? = some '\\' ∨
      ∃ char more, token = .literal (char :: more) ∧
        (token.written ++ rest).head? = some char := by
  cases token with
  | group index => exact Or.inl rfl
  | literal text =>
      obtain ⟨char, more, rfl⟩ := List.exists_cons_of_ne_nil proper
      rw [Token.written, List.flatMap_cons]
      split
      · exact Or.inl rfl
      · exact Or.inr ⟨char, more, rfl, rfl⟩

theorem endsDigits_written {index : Nat} {tokens : List Token}
    (canonical : IsCanonical (.group index :: tokens)) :
    EndsDigits (tokens.flatMap Token.written) := by
  intro char first
  cases tokens with
  | nil => exact absurd first (by simp)
  | cons token rest =>
      have proper := canonical.proper token (by simp)
      rw [List.flatMap_cons, Option.mem_def] at first
      rcases head?_written_append proper (rest.flatMap Token.written) with
        backslash | ⟨start, more, rfl, plain⟩
      · rw [backslash, Option.some.injEq] at first
        rw [← first]
        decide
      · rw [plain, Option.some.injEq] at first
        exact first ▸ (List.isChain_cons_cons.mp canonical.apart).1 start rfl

theorem IsCanonical.of_cons {token : Token} {tokens : List Token}
    (canonical : IsCanonical (token :: tokens)) : IsCanonical tokens :=
  ⟨fun other member => canonical.proper other (List.mem_cons_of_mem _ member),
    canonical.apart.tail⟩

theorem readTokens_flatMap_written {tokens : List Token} (canonical : IsCanonical tokens) :
    readTokens (tokens.flatMap Token.written) = tokens := by
  induction tokens with
  | nil => exact readTokens_nil
  | cons token rest ih =>
      have proper := canonical.proper token List.mem_cons_self
      rw [List.flatMap_cons]
      cases token with
      | literal text =>
          rw [readTokens_written_literal, ih canonical.of_cons, foldr_consChar proper]
          exact (List.isChain_cons.mp canonical.apart).1
      | group index =>
          have allDigits : ∀ digit ∈ Nat.toDigits 10 index, digit.isDigit :=
            fun _ member => Nat.isDigit_of_mem_toDigits (by decide) (by decide) member
          rw [Token.written, List.cons_append, readTokens_group Nat.toDigits_ne_nil allDigits
            (endsDigits_written canonical), indexOf_toDigits, ih canonical.of_cons,
            Nat.min_eq_left proper]

/-- Every text is read into canonical tokens, and a template is read back from its written form
exactly if it is canonical; so reading what was read and written again changes nothing. The index of a
group is the number that its digits write, with zeros in front or without, as far as 64 bits hold
it. -/
theorem ofText_written_iff_isCanonical (source : String) (template : Template) (zeros number : Nat) :
    IsCanonical (ofText source).tokens ∧
      (ofText template.written = template ↔ IsCanonical template.tokens) ∧
      ofText (ofText source).written = ofText source ∧
      (ofText ("\\" ++ String.ofList (List.replicate zeros '0') ++ toString number)).tokens =
        [.group (min number (UInt64.size - 1))] := by
  have readBack {template : Template} (canonical : IsCanonical template.tokens) :
      ofText template.written = template := by
    rw [ofText, written, String.toList_ofList, readTokens_flatMap_written canonical]
  refine ⟨isCanonical_readTokens _, ⟨?_, readBack⟩, readBack (isCanonical_readTokens _), ?_⟩
  · intro same
    rw [← same]
    exact isCanonical_readTokens _
  · have allDigits : ∀ digit ∈ List.replicate zeros '0' ++ Nat.toDigits 10 number,
        digit.isDigit := by
      intro digit member
      rcases List.mem_append.mp member with zero | inNumber
      · rw [List.eq_of_mem_replicate zero]
        decide
      · exact Nat.isDigit_of_mem_toDigits (by decide) (by decide) inNumber
    have nonempty : List.replicate zeros '0' ++ Nat.toDigits 10 number ≠ [] :=
      List.append_ne_nil_of_right_ne_nil _ Nat.toDigits_ne_nil
    have chars : ("\\" ++ String.ofList (List.replicate zeros '0') ++ toString number).toList =
        '\\' :: ((List.replicate zeros '0' ++ Nat.toDigits 10 number) ++ []) := by
      simp [Nat.toString_eq_repr]
    have ends : EndsDigits [] := by simp [EndsDigits]
    have read := readTokens_group nonempty allDigits ends
    rw [ofText, chars, read, indexOf_replicate_append_toDigits, readTokens_nil]

/-! ### Cutting a template -/

/-- Where a reader stands who has come to the end of a text. -/
inductive Standing where
  /-- Behind characters that stand for themselves, or at the start. -/
  | text
  /-- Behind a backslash that is still to be paired. -/
  | backslash
  /-- Behind the digits of a group. -/
  | group
deriving DecidableEq

/-- Where the reader stands behind one more character. -/
def Standing.next : Standing → Char → Standing
  | backslash, char => if char.isDigit then group else text
  | group, char => if char = '\\' then backslash else if char.isDigit then group else text
  | text, char => if char = '\\' then backslash else text

/-- Where the reader stands behind a text. -/
def standing (source : List Char) : Standing :=
  source.foldl Standing.next .text

/-- What was read of the first text stays as it is in front of the second one. -/
structure IsCut (first second : List Char) : Prop where
  paired : standing first ≠ .backslash
  ended : standing first = .group → EndsDigits second

theorem standing_pair (rest : List Char) : standing ('\\' :: '\\' :: rest) = standing rest := rfl

theorem standing_plain {char : Char} (plain : char ≠ '\\') (rest : List Char) :
    standing (char :: rest) = standing rest := by
  simp [standing, Standing.next, plain]

theorem standing_alone {char : Char} (plain : char ≠ '\\') (noDigit : char.isDigit = false)
    (rest : List Char) : standing ('\\' :: char :: rest) = standing (char :: rest) := by
  simp [standing, Standing.next, plain, noDigit]

theorem next_group_of_isDigit {char : Char} (isDigit : char.isDigit) :
    Standing.group.next char = .group := by
  have plain : char ≠ '\\' := by
    rintro rfl
    exact absurd isDigit (by decide)
  simp [Standing.next, plain, isDigit]

theorem standing_group {digits : List Char} (nonempty : digits ≠ [])
    (allDigits : ∀ digit ∈ digits, digit.isDigit) (rest : List Char) :
    standing ('\\' :: (digits ++ rest)) = rest.foldl Standing.next .group := by
  obtain ⟨digit, more, rfl⟩ := List.exists_cons_of_ne_nil nonempty
  rw [List.forall_mem_cons] at allDigits
  have afterDigits : more.foldl Standing.next .group = .group := by
    have others := allDigits.2
    clear allDigits nonempty
    induction more with
    | nil => rfl
    | cons next behind ih =>
        rw [List.forall_mem_cons] at others
        rw [List.foldl_cons, next_group_of_isDigit others.1, ih others.2]
  have afterFirst : Standing.backslash.next digit = .group := by simp [Standing.next, allDigits.1]
  change (more ++ rest).foldl Standing.next (Standing.backslash.next digit) = _
  rw [afterFirst, List.foldl_append, afterDigits]

/-- Behind a group the reader goes on as at the start once the digits have ended. -/
theorem foldl_next_group {rest : List Char} (nonempty : rest ≠ []) (ends : EndsDigits rest) :
    rest.foldl Standing.next .group = standing rest := by
  obtain ⟨char, more, rfl⟩ := List.exists_cons_of_ne_nil nonempty
  simp [standing, Standing.next, ends char rfl]

theorem expandTokens_consChar (captures : Nat → Option String) (char : Char)
    (tokens : List Token) :
    expandTokens captures (Token.consChar char tokens) =
      char :: expandTokens captures tokens := by
  cases tokens with
  | nil => rfl
  | cons token rest => cases token <;> rfl

theorem expandTokens_group (captures : Nat → Option String) (index : Nat) (tokens : List Token) :
    expandTokens captures (.group index :: tokens) =
      ((captures index).map String.toList).getD [] ++ expandTokens captures tokens :=
  rfl

/-- A template stands for what its parts stand for, wherever it is cut. The induction is on what is read
of the first part; the second part is never looked into. -/
theorem expandTokens_readTokens_append {captures : Nat → Option String} {first second : List Char}
    (cut : IsCut first second) :
    expandTokens captures (readTokens (first ++ second)) =
      expandTokens captures (readTokens first) ++ expandTokens captures (readTokens second) := by
  rcases cut with ⟨paired, ended⟩
  fun_induction readTokens first with
  | case1 => rfl
  | case2 rest ih =>
      rw [standing_pair] at paired ended
      rw [List.cons_append, List.cons_append, readTokens_pair, expandTokens_consChar,
        expandTokens_consChar, ih paired ended, List.cons_append]
  | case3 digit rest _ isDigit ih =>
      have allDigits : ∀ char ∈ digit :: rest.takeWhile Char.isDigit, char.isDigit :=
        List.forall_mem_cons.mpr ⟨isDigit, fun _ member => List.mem_takeWhile_imp member⟩
      have split : rest = rest.takeWhile Char.isDigit ++ rest.dropWhile Char.isDigit :=
        List.takeWhile_append_dropWhile.symm
      have ends := endsDigits_dropWhile rest
      generalize rest.takeWhile Char.isDigit = digits at allDigits split
      generalize rest.dropWhile Char.isDigit = more at split ends ih
      have behind : standing ('\\' :: digit :: rest) = more.foldl Standing.next .group := by
        rw [split]
        exact standing_group (List.cons_ne_nil _ _) allDigits more
      rw [behind] at paired ended
      have whole : '\\' :: digit :: rest ++ second =
          '\\' :: (digit :: digits ++ (more ++ second)) := by
        rw [split]
        simp
      -- The digits end with the first part, or what ends them is in the first part.
      have cut : EndsDigits (more ++ second) ∧
          expandTokens captures (readTokens (more ++ second)) =
            expandTokens captures (readTokens more) ++
              expandTokens captures (readTokens second) := by
        cases more with
        | nil => exact ⟨ended rfl, ih Standing.noConfusion Standing.noConfusion⟩
        | cons char others =>
            rw [foldl_next_group (List.cons_ne_nil _ _) ends] at paired ended
            exact ⟨ends, ih paired ended⟩
      rw [whole, readTokens_group (List.cons_ne_nil _ _) allDigits cut.1, expandTokens_group,
        cut.2, expandTokens_group, List.append_assoc]
  | case4 digit rest plain noDigit ih =>
      rw [Bool.not_eq_true] at noDigit
      rw [standing_alone plain noDigit] at paired ended
      rw [List.cons_append, List.cons_append, readTokens_alone plain noDigit, expandTokens_consChar,
        expandTokens_consChar, ← List.cons_append, ih paired ended, List.cons_append]
  | case5 char rest notPair notEscape ih =>
      have plain : char ≠ '\\' := by
        rintro rfl
        cases rest with
        | nil => exact paired rfl
        | cons next more => exact notEscape next more rfl rfl
      rw [standing_plain plain] at paired ended
      rw [List.cons_append, readTokens_plain plain, expandTokens_consChar, expandTokens_consChar,
        ih paired ended, List.cons_append]

/-- A group stands for the text that it captured, between what is in front of it and what is behind
it. -/
theorem expandTokens_readTokens_group {captures : Nat → Option String}
    {first digits second : List Char} (paired : standing first ≠ .backslash)
    (nonempty : digits ≠ []) (allDigits : ∀ digit ∈ digits, digit.isDigit)
    (ends : EndsDigits second) :
    expandTokens captures (readTokens (first ++ '\\' :: (digits ++ second))) =
      expandTokens captures (readTokens first) ++
        (((captures (indexOf digits)).map String.toList).getD [] ++
          expandTokens captures (readTokens second)) := by
  have noDigit : EndsDigits ('\\' :: (digits ++ second)) := by
    intro char starts
    cases starts
    decide
  rw [expandTokens_readTokens_append ⟨paired, fun _ => noDigit⟩,
    readTokens_group nonempty allDigits ends, expandTokens_group]

/-- A template that is cut where nothing is in the middle stands for what its two parts stand for. A
group in it stands for the text that it captured, which is not read again, and for nothing if it took no
part in the match. -/
theorem expand_ofText_append {first second : String} (cut : IsCut first.toList second.toList)
    (captures : Nat → Option String) :
    (ofText (first ++ second)).expand captures =
        (ofText first).expand captures ++ (ofText second).expand captures ∧
      ∀ digits : List Char, digits ≠ [] → (∀ digit ∈ digits, digit.isDigit) →
        EndsDigits second.toList →
          (ofText (first ++ "\\" ++ String.ofList digits ++ second)).expand captures =
            (ofText first).expand captures ++
              (captures (min (Nat.ofDigitChars 10 digits 0) (UInt64.size - 1))).getD "" ++
                (ofText second).expand captures := by
  constructor
  · rw [← String.toList_inj, String.toList_append, expand, expand, expand, String.toList_ofList,
      String.toList_ofList, String.toList_ofList, ofText, String.toList_append]
    exact expandTokens_readTokens_append cut
  · intro digits nonempty allDigits ends
    have index : indexOf digits = min (Nat.ofDigitChars 10 digits 0) (UInt64.size - 1) := by
      rw [indexOf, numberOf_eq_ofDigitChars]
      rfl
    have chars : (first ++ "\\" ++ String.ofList digits ++ second).toList =
        first.toList ++ '\\' :: (digits ++ second.toList) := by
      simp
    have captured : ((captures (indexOf digits)).getD "").toList =
        ((captures (indexOf digits)).map String.toList).getD [] := by
      cases captures (indexOf digits) <;> rfl
    rw [← index, ← String.toList_inj, String.toList_append, String.toList_append, captured, expand,
      expand, expand, String.toList_ofList, String.toList_ofList, String.toList_ofList, ofText, chars,
      List.append_assoc]
    exact expandTokens_readTokens_group cut.paired nonempty allDigits ends

/-- Behind a paired backslash, a group captures a text that looks like a group. -/
theorem expand_ofText_append_of_captured_reference :
    IsCut "a\\\\".toList "/x\\".toList ∧
      ∀ captures : Nat → Option String, captures 1 = some "\\2" →
        (ofText "a\\\\/x\\").expand captures = "a\\/x\\" ∧
          (ofText "a\\\\\\01/x\\").expand captures = "a\\\\2/x\\" := by
  have cut : IsCut "a\\\\".toList "/x\\".toList := ⟨by decide, fun group => absurd group (by decide)⟩
  refine ⟨cut, fun captures captured => ?_⟩
  have before : (ofText "a\\\\").expand captures = "a\\" := by
    simp [expand, ofText, readTokens, Token.consChar, expandTokens, Token.expand]
  have behind : (ofText "/x\\").expand captures = "/x\\" := by
    simp [expand, ofText, readTokens, Token.consChar, expandTokens, Token.expand]
  rcases expand_ofText_append cut captures with ⟨joined, referring⟩
  have referred := referring ['0', '1'] (by decide) (by simp) (by simp [EndsDigits])
  have index : min (Nat.ofDigitChars 10 ['0', '1'] 0) (UInt64.size - 1) = 1 := by decide
  rw [before, behind] at joined referred
  rw [index, captured] at referred
  exact ⟨joined, referred⟩

end Template

end ImportAlias
