import ImportAlias.Proofs.Regex.Program

/-!
# The pattern for a text and what is below it

A text with a backslash in front of every character with a meaning is a pattern for itself. Between
the caret and an optional group that takes a slash and the rest of the line, it makes a pattern for
the text and everything below it: the group takes what stands behind the text.
-/

namespace ImportAlias

namespace Regex

/-- Characters with a backslash in front of those that have a meaning. -/
def escapeChars (text : List Char) : List Char :=
  text.flatMap (fun char => if char ∈ metaChars then ['\\', char] else [char])

/-- A text as a pattern for itself. -/
def escape (text : String) : String :=
  String.ofList (escapeChars text.toList)

/-- The pattern for a key and what is below it. -/
def prefixPattern (key : String) : String :=
  "^" ++ escape key ++ "(/.*)?$"

namespace Expression

/-- The expression of one character. -/
def ofChar (char : Char) : Expression :=
  set (.single char)

/-- The rest of a line. -/
def restOfLine : Expression :=
  repetition (set (.complement (.single '\n'))) 0 none true

/-- A slash with the rest of the line, or nothing. -/
def belowSlash : Expression :=
  repetition (group 1 (sequence (ofChar '/') restOfLine)) 0 (some 1) true

/-- The expression of the pattern for a key and what is below it. -/
def prefixed (key : List Char) : Expression :=
  sequenceOf (assertion .textStart :: (key.map ofChar ++ [belowSlash, assertion .textEnd]))

end Expression

open Expression

/-! ### Reading the pattern -/

theorem readEscape?_of_mem_metaChars {char : Char} (isMeta : char ∈ metaChars) (rest : List Char) :
    readEscape? {} (char :: rest) = some (.literal char.toNat false, rest) := by
  simp only [metaChars, List.mem_cons, List.not_mem_nil, or_false] at isMeta
  rcases isMeta with rfl | rfl | rfl | rfl | rfl | rfl | rfl | rfl | rfl | rfl | rfl | rfl | rfl |
    rfl | rfl | rfl | rfl | rfl <;> rfl

theorem readPieces?_of_mem_metaChars {fuel : Nat} {reading : Reading} {char : Char}
    (plain : reading.flags = {}) (isMeta : char ∈ metaChars) (rest : List Char) :
    readPieces? (fuel + 1) reading ('\\' :: char :: rest) =
      readPieces? fuel (reading.add (ofChar char) 0) rest := by
  have skip : Flags.skip {} ('\\' :: char :: rest) = '\\' :: char :: rest := rfl
  rw [readPieces?, plain, skip]
  change ((readEscape? {} (char :: rest)).bind fun taken => (Flags.escape? {} taken.1).bind
    fun expression => readPieces? fuel (reading.add expression 0) taken.2) = _
  rw [readEscape?_of_mem_metaChars isMeta]
  rfl

theorem readPieces?_of_not_mem_metaChars {fuel : Nat} {reading : Reading} {char : Char}
    (plain : reading.flags = {}) (isOther : char ∉ metaChars) (rest : List Char) :
    readPieces? (fuel + 1) reading (char :: rest) =
      readPieces? fuel (reading.add (ofChar char) 0) rest := by
  have ne {special : Char} {more : List Char} (isMeta : special ∈ metaChars) :
      char :: rest ≠ special :: more := by
    intro equal
    exact isOther ((List.cons.inj equal).1 ▸ isMeta)
  have skip : Flags.skip {} (char :: rest) = char :: rest := rfl
  rw [readPieces?, plain, skip]
  split
  · next equal => exact absurd equal (List.cons_ne_nil _ _)
  iterate 12 · next equal => exact absurd equal (ne (by decide))
  · next equal =>
    cases equal
    rfl

/-- Every character of an escaped text is read as itself. -/
theorem readPieces?_escapeChars {fuel : Nat} {reading : Reading} (plain : reading.flags = {})
    (text rest : List Char) :
    readPieces? (fuel + text.length) reading (escapeChars text ++ rest) =
      readPieces? fuel (text.foldl (fun reading char => reading.add (ofChar char) 0) reading)
        rest := by
  induction text generalizing reading with
  | nil => rfl
  | cons char more ih =>
      have step : readPieces? (fuel + more.length + 1) reading
          ((if char ∈ metaChars then ['\\', char] else [char]) ++ (escapeChars more ++ rest)) =
            readPieces? (fuel + more.length) (reading.add (ofChar char) 0)
              (escapeChars more ++ rest) := by
        split
        · next isMeta => exact readPieces?_of_mem_metaChars plain isMeta _
        · next isOther => exact readPieces?_of_not_mem_metaChars plain isOther _
      rw [escapeChars, List.flatMap_cons, List.append_assoc, List.length_cons, ← Nat.add_assoc]
      exact step.trans (ih plain)

/-- The pieces of a text, the last one first. -/
def piecesOf (text : List Char) : List Piece :=
  (text.map (fun char => Piece.expression (ofChar char) 0)).reverse

theorem foldl_add_ofChar (text : List Char) (reading : Reading) :
    text.foldl (fun reading char => reading.add (ofChar char) 0) reading =
      { reading with
        group := { reading.group with pieces := piecesOf text ++ reading.group.pieces } } := by
  induction text generalizing reading with
  | nil => rfl
  | cons char more ih =>
      rw [List.foldl_cons, ih]
      simp [piecesOf, Reading.add]

/-- The group behind the text, and the end. -/
theorem readPieces?_belowSlash (fuel : Nat) (pieces : List Piece) :
    readPieces? (fuel + 8) ⟨{}, 1, [], ⟨none, {}, [], pieces⟩, []⟩ "(/.*)?$".toList =
      some ⟨{}, 2, [], ⟨none, {}, [],
        .expression (.assertion .textEnd) 0 :: .expression belowSlash 4 :: pieces⟩, []⟩ :=
  rfl

theorem length_le_length_escapeChars (text : List Char) :
    text.length ≤ (escapeChars text).length := by
  induction text with
  | nil => exact Nat.zero_le _
  | cons char more ih =>
      have one : 1 ≤ (if char ∈ metaChars then ['\\', char] else [char]).length := by
        split <;> simp
      rw [escapeChars, List.flatMap_cons, List.length_append, List.length_cons]
      rw [escapeChars] at ih
      omega

/-- The whole pattern is one branch, and its depth is that of the group with what is around it. -/
theorem body_prefixed (key : List Char) :
    Group.body ⟨none, {}, [], .expression (.assertion .textEnd) 0 :: .expression belowSlash 4 ::
      (piecesOf key ++ [.expression (.assertion .textStart) 0])⟩ = (prefixed key, 5) := by
  have expressions (read : Piece → Option (Expression × Nat))
      (reads : ∀ expression depth, read (.expression expression depth) = some (expression, depth)) :
      (Piece.expression (.assertion .textEnd) 0 :: .expression belowSlash 4 ::
        (piecesOf key ++ [.expression (.assertion .textStart) 0])).reverse.filterMap read =
          (.assertion .textStart, 0) :: (key.map (fun char => (ofChar char, 0)) ++
            [(belowSlash, 4), (.assertion .textEnd, 0)]) := by
    have readPieces : (piecesOf key).reverse.filterMap read =
        key.map (fun char => (ofChar char, 0)) := by
      have each : read ∘ (fun char => Piece.expression (ofChar char) 0) =
          some ∘ fun char => (ofChar char, 0) := funext fun char => reads _ _
      rw [piecesOf, List.reverse_reverse, List.filterMap_map, each, List.filterMap_eq_map]
    simp [readPieces, reads]
  have flat : (key.map (fun char => (ofChar char, 0))).foldl
      (fun deepest (piece : Expression × Nat) => max deepest piece.2) 0 = 0 := by
    clear expressions
    induction key with
    | nil => rfl
    | cons char more ih => exact ih
  have names : (key.map (fun char => (ofChar char, 0))).map Prod.fst = key.map ofChar := by
    rw [List.map_map]
    rfl
  rw [Group.body, branchOf, expressions _ (fun _ _ => rfl)]
  simp only [List.map_cons, List.map_append, names]
  simp [flat, prefixed, choiceOf]

/-- The pattern is read as its expression unless that is too heavy. -/
theorem read?_prefixPattern (key : String) :
    read? (prefixPattern key).toList =
      if weightLimit < (prefixed key.toList).weight then none
      else some (prefixed key.toList) := by
  have chars : (prefixPattern key).toList =
      '^' :: (escapeChars key.toList ++ "(/.*)?$".toList) := by
    simp [prefixPattern, escape]
  rw [chars]
  generalize key.toList = key
  have length : ('^' :: (escapeChars key ++ "(/.*)?$".toList)).length + 1 =
      ((escapeChars key).length - key.length) + 8 + key.length + 1 := by
    have shorter := length_le_length_escapeChars key
    have last : "(/.*)?$".toList.length = 7 := rfl
    rw [List.length_cons, List.length_append]
    omega
  have caret (fuel : Nat) (rest : List Char) :
      readPieces? (fuel + 1) ⟨{}, 1, [], ⟨none, {}, [], []⟩, []⟩ ('^' :: rest) =
        readPieces? fuel
          ⟨{}, 1, [], ⟨none, {}, [], [.expression (.assertion .textStart) 0]⟩, []⟩ rest := rfl
  have reading : readPieces? (('^' :: (escapeChars key ++ "(/.*)?$".toList)).length + 1)
      ⟨{}, 1, [], ⟨none, {}, [], []⟩, []⟩ ('^' :: (escapeChars key ++ "(/.*)?$".toList)) =
        some ⟨{}, 2, [], ⟨none, {}, [], .expression (.assertion .textEnd) 0 ::
          .expression belowSlash 4 ::
            (piecesOf key ++ [.expression (.assertion .textStart) 0])⟩, []⟩ := by
    rw [length, caret, readPieces?_escapeChars rfl, foldl_add_ofChar]
    exact readPieces?_belowSlash _ _
  rw [read?]
  simp only [reading, Option.bind_eq_bind, Option.bind_some, body_prefixed]
  simp [depthLimit]

theorem weight_ofChar_le (char : Char) : (ofChar char).weight ≤ 152 := by
  simp only [ofChar, weight, CharSet.single, CharSet.weight]
  split <;> simp

theorem weight_sequenceOf_cons_le (first : Expression) (rest : List Expression) :
    (sequenceOf (first :: rest)).weight ≤ first.weight + (sequenceOf rest).weight := by
  cases rest with
  | nil => exact Nat.le_add_right _ _
  | cons second more => exact Nat.le_refl _

/-- The weight grows with the length of the key. -/
theorem weight_prefixed_le (key : List Char) : (prefixed key).weight ≤ 152 * key.length + 328 := by
  have behind : (sequenceOf (key.map ofChar ++ [belowSlash, assertion .textEnd])).weight ≤
      152 * key.length + 296 := by
    induction key with
    | nil => decide
    | cons char more ih =>
        have first := weight_sequenceOf_cons_le (ofChar char)
          (more.map ofChar ++ [belowSlash, assertion .textEnd])
        have char := weight_ofChar_le char
        rw [List.map_cons, List.cons_append, List.length_cons]
        omega
  have first := weight_sequenceOf_cons_le (assertion .textStart)
    (key.map ofChar ++ [belowSlash, assertion .textEnd])
  have start : (assertion .textStart).weight = 32 := rfl
  rw [prefixed]
  omega

/-! ### Matching the pattern -/

variable {chars key : List Char} {state after : State}

theorem matches_sequenceOf_cons {text : Array Char} {first : Expression} {rest : List Expression} :
    (sequenceOf (first :: rest)).Matches text state after ↔
      ∃ between, first.Matches text state between ∧
        (sequenceOf rest).Matches text between after := by
  cases rest with
  | nil => simp [sequenceOf, Matches]
  | cons second more => rfl

theorem holds_single_iff {char other : Char} :
    (CharSet.single char).holds other.toNat ↔ other = char := by
  rw [CharSet.single, CharSet.holds, Bool.and_eq_true, decide_eq_true_eq, decide_eq_true_eq,
    ← Char.toNat_inj]
  omega

theorem matches_ofChar {char : Char} :
    (ofChar char).Matches chars.toArray state after ↔
      chars[state.place]? = some char ∧ after = state.advance := by
  simp only [ofChar, Matches, holds_single_iff, List.getElem?_toArray]
  constructor
  · rintro ⟨other, found, rfl, rfl⟩
    exact ⟨found, rfl⟩
  · rintro ⟨found, rfl⟩
    exact ⟨char, found, rfl, rfl⟩

theorem matches_textStart (inside : state.place ≤ chars.length) :
    (assertion .textStart).Matches chars.toArray state after ↔ state.place = 0 ∧ after = state := by
  simp only [Matches, Assertion.holdsAt]
  by_cases start : state.place = 0
  · simp [start]
  · have before : state.place - 1 < chars.length := by omega
    simp [start, before]

theorem matches_textEnd :
    (assertion .textEnd).Matches chars.toArray state after ↔
      chars.length ≤ state.place ∧ after = state := by
  simp [Matches, Assertion.holdsAt]

theorem cons_prefix_drop_iff {char : Char} {place : Nat} :
    char :: key <+: chars.drop place ↔
      chars[place]? = some char ∧ key <+: chars.drop (place + 1) := by
  by_cases inside : place < chars.length
  · rw [List.drop_eq_getElem_cons inside, List.cons_prefix_cons, List.getElem?_eq_getElem inside,
      Option.some.injEq, eq_comm]
  · have ends : chars.drop place = [] := List.drop_of_length_le (by omega)
    simp [ends, inside]

/-- The characters of a key match where the key stands. -/
theorem matches_map_ofChar {rest : List Expression} :
    (sequenceOf (key.map ofChar ++ rest)).Matches chars.toArray state after ↔
      key <+: chars.drop state.place ∧
        (sequenceOf rest).Matches chars.toArray ⟨state.place + key.length, state.slots⟩ after := by
  induction key generalizing state with
  | nil => simp
  | cons char more ih =>
      rw [List.map_cons, List.cons_append, matches_sequenceOf_cons, cons_prefix_drop_iff, and_assoc]
      simp only [matches_ofChar, ih]
      constructor
      · rintro ⟨between, ⟨found, rfl⟩, behind, matched⟩
        refine ⟨found, behind, ?_⟩
        rw [List.length_cons, Nat.add_comm more.length, ← Nat.add_assoc]
        exact matched
      · rintro ⟨found, behind, matched⟩
        refine ⟨state.advance, ⟨found, rfl⟩, behind, ?_⟩
        rw [List.length_cons, Nat.add_comm more.length, ← Nat.add_assoc] at matched
        exact matched

/-- On a single line, the rest of the line can end anywhere. -/
theorem matches_restOfLine (line : '\n' ∉ chars) :
    restOfLine.Matches chars.toArray state after ↔
      ∃ count, (count = 0 ∨ state.place + count ≤ chars.length) ∧
        after = ⟨state.place + count, state.slots⟩ := by
  have dot {state after : State} :
      (set (.complement (.single '\n'))).Matches chars.toArray state after ↔
        state.place < chars.length ∧ after = state.advance := by
    simp only [Matches, List.getElem?_toArray, List.getElem?_eq_some_iff]
    constructor
    · rintro ⟨char, ⟨inside, _⟩, _, rfl⟩
      exact ⟨inside, rfl⟩
    · rintro ⟨inside, rfl⟩
      refine ⟨chars[state.place], ⟨inside, rfl⟩, ?_, rfl⟩
      rw [CharSet.holds, Bool.not_eq_true', Bool.eq_false_iff, ne_eq, holds_single_iff]
      intro isNewline
      exact line (isNewline ▸ List.getElem_mem inside)
  have times (count : Nat) (state : State) :
      Times ((set (.complement (.single '\n'))).Matches chars.toArray) count state after ↔
        (count = 0 ∨ state.place + count ≤ chars.length) ∧
          after = ⟨state.place + count, state.slots⟩ := by
    induction count generalizing state with
    | zero => simp [Times]
    | succ count ih =>
        simp only [Times, dot, ih]
        constructor
        · rintro ⟨between, ⟨inside, rfl⟩, within, rfl⟩
          simp only [State.advance] at within ⊢
          refine ⟨Or.inr (by omega), ?_⟩
          rw [Nat.add_right_comm, Nat.add_assoc]
        · rintro ⟨within, rfl⟩
          refine ⟨state.advance, ⟨by omega, rfl⟩, ?_, ?_⟩
          · simp only [State.advance]
            omega
          · rw [State.advance, Nat.add_right_comm, Nat.add_assoc]
  simp only [restOfLine, Matches, Nat.zero_le, true_and]
  constructor
  · rintro ⟨count, _, matched⟩
    exact ⟨count, (times count state).mp matched⟩
  · rintro ⟨count, matched⟩
    refine ⟨count, ?_, (times count state).mpr matched⟩
    intro bound impossible
    simp at impossible

/-- Behind a key there may be nothing more, or a slash that opens the first group. -/
theorem matches_belowSlash (line : '\n' ∉ chars) :
    belowSlash.Matches chars.toArray state after ↔
      after = state ∨ ∃ count, chars[state.place]? = some '/' ∧
        (count = 0 ∨ state.place + 1 + count ≤ chars.length) ∧
          after = (State.store 3 ⟨state.place + 1 + count, (state.store 2).slots⟩) := by
  have once : belowSlash.Matches chars.toArray state after ↔ after = state ∨
      (group 1 (sequence (ofChar '/') restOfLine)).Matches chars.toArray state after := by
    rw [belowSlash, Matches]
    constructor
    · rintro ⟨count, _, few, times⟩
      have atMostOne := few 1 rfl
      cases count with
      | zero => exact Or.inl times
      | succ count =>
          have single : count = 0 := by omega
          subst single
          exact Or.inr (times_one_iff.mp times)
    · rintro (same | matched)
      · exact ⟨0, Nat.zero_le _, fun _ _ => Nat.zero_le _, same⟩
      · refine ⟨1, Nat.zero_le _, ?_, times_one_iff.mpr matched⟩
        rintro bound most
        rw [Option.some.injEq] at most
        omega
  rw [once]
  apply or_congr_right
  simp only [Matches, matches_ofChar, matches_restOfLine line]
  constructor
  · rintro ⟨_, ⟨_, ⟨slash, rfl⟩, count, within, rfl⟩, rfl⟩
    exact ⟨count, slash, within, rfl⟩
  · rintro ⟨count, slash, within, rfl⟩
    exact ⟨_, ⟨_, ⟨slash, rfl⟩, count, within, rfl⟩, rfl⟩

/-- From the start of a line, the pattern for a key matches the key itself and leaves out the group,
or it matches the whole line below the key. -/
theorem matches_prefixed (line : '\n' ∉ chars) (inside : state.place ≤ chars.length) :
    (prefixed key).Matches chars.toArray state after ↔ state.place = 0 ∧
      ((chars = key ∧ after = ⟨key.length, state.slots⟩) ∨
        ∃ rest, chars = key ++ '/' :: rest ∧ after =
          State.store 3 ⟨chars.length, (State.store 2 ⟨key.length, state.slots⟩).slots⟩) := by
  have tail {state : State} :
      (sequenceOf [belowSlash, assertion .textEnd]).Matches chars.toArray state after ↔
        belowSlash.Matches chars.toArray state after ∧ chars.length ≤ after.place := by
    have unfolded :
        (sequenceOf [belowSlash, assertion .textEnd]).Matches chars.toArray state after ↔
          ∃ between, belowSlash.Matches chars.toArray state between ∧
            (assertion .textEnd).Matches chars.toArray between after := Iff.rfl
    simp only [unfolded, matches_textEnd]
    constructor
    · rintro ⟨between, matched, ends, rfl⟩
      exact ⟨matched, ends⟩
    · rintro ⟨matched, ends⟩
      exact ⟨after, matched, ends, rfl⟩
  rw [prefixed, matches_sequenceOf_cons]
  simp only [matches_textStart inside, matches_map_ofChar, tail, matches_belowSlash line]
  constructor
  · rintro ⟨_, ⟨start, rfl⟩, ⟨rest, split⟩, matched, ends⟩
    refine ⟨start, ?_⟩
    rw [start, List.drop_zero] at split
    rw [start, Nat.zero_add] at matched
    have length := congrArg List.length split
    rw [List.length_append] at length
    rcases matched with rfl | ⟨count, slash, within, rfl⟩
    · have nothing : rest = [] := by
        apply List.eq_nil_of_length_eq_zero
        dsimp only at ends
        omega
      rw [nothing, List.append_nil] at split
      exact Or.inl ⟨split.symm, rfl⟩
    · rw [← split, List.getElem?_append_right (Nat.le_refl _), Nat.sub_self] at slash
      cases rest with
      | nil => simp at slash
      | cons char more =>
          rw [List.getElem?_cons_zero, Option.some.injEq] at slash
          subst slash
          refine Or.inr ⟨more, split.symm, ?_⟩
          have stops : key.length + 1 + count = chars.length := by
            simp only [State.store] at ends
            rw [List.length_cons] at length
            omega
          rw [stops]
  · rintro ⟨start, ⟨rfl, rfl⟩ | ⟨rest, split, rfl⟩⟩
    · refine ⟨state, ⟨start, rfl⟩, ⟨[], ?_⟩, Or.inl ?_, Nat.le_refl _⟩
      · rw [List.append_nil, start, List.drop_zero]
      · rw [start, Nat.zero_add]
    · have length := congrArg List.length split
      rw [List.length_append, List.length_cons] at length
      have place : state.place + key.length = key.length := by omega
      refine ⟨state, ⟨start, rfl⟩, ?_, Or.inr ⟨rest.length, ?_, Or.inr ?_, ?_⟩, Nat.le_refl _⟩
      · rw [start, List.drop_zero, split]
        exact List.prefix_append _ _
      · rw [place, split, List.getElem?_append_right (Nat.le_refl _), Nat.sub_self]
        rfl
      · omega
      · have stops : key.length + 1 + rest.length = chars.length := by omega
        simp only [place, stops]

/-! ### Searching for the pattern -/

/-- What the pattern for a key and what is below it finds in a text. -/
inductive PrefixMatch (key : String) : String → Option Captures → Prop where
  /-- The key itself, without the group. -/
  | whole {captures : Captures} (unused : captures 1 = none) : PrefixMatch key key (some captures)
  /-- Something below the key, and the group takes what stands behind the key. -/
  | below {rest : String} {captures : Captures} (taken : captures 1 = some ("/" ++ rest)) :
      PrefixMatch key (key ++ "/" ++ rest) (some captures)
  /-- Anything else is not matched. -/
  | apart {text : String} (notKey : text ≠ key) (notBelow : ∀ rest, text ≠ key ++ "/" ++ rest) :
      PrefixMatch key text none

theorem greatestGroup_sequenceOf_cons (first : Expression) (rest : List Expression) :
    (sequenceOf (first :: rest)).greatestGroup =
      max first.greatestGroup (sequenceOf rest).greatestGroup := by
  cases rest with
  | nil => simp [sequenceOf, greatestGroup]
  | cons second more => rfl

theorem slotCount_prefixed (key : List Char) : (ofExpression (prefixed key)).slotCount = 4 := by
  have groups : (sequenceOf (key.map ofChar ++ [belowSlash, assertion .textEnd])).greatestGroup =
      1 := by
    induction key with
    | nil => rfl
    | cons char more ih =>
        rw [List.map_cons, List.cons_append, greatestGroup_sequenceOf_cons, ih]
        rfl
  have slots : (ofExpression (prefixed key)).slotCount =
      2 * ((prefixed key).greatestGroup + 1) := rfl
  rw [slots, prefixed, greatestGroup_sequenceOf_cons, groups]
  rfl

theorem prefixMatch_search?_ofExpression {key text : String} (line : '\n' ∉ text.toList) :
    PrefixMatch key text ((ofExpression (prefixed key.toList)).search? text) := by
  have belowText (rest : String) :
      (key ++ "/" ++ rest).toList = key.toList ++ '/' :: rest.toList := by simp
  rcases search?_ofExpression_cases (prefixed key.toList) text with
    ⟨miss, noMatch⟩ | ⟨start, final, inside, matched, hit⟩
  · rw [miss]
    have start : State.place ⟨0, #[]⟩ ≤ text.toList.length := Nat.zero_le _
    have unmatched (final : State) := mt (matches_prefixed line start).mpr (noMatch _ final start)
    refine .apart ?_ ?_
    · rintro rfl
      exact unmatched _ ⟨rfl, Or.inl ⟨rfl, rfl⟩⟩
    · rintro rest rfl
      exact unmatched _ ⟨rfl, Or.inr ⟨rest.toList, belowText rest, rfl⟩⟩
  · rw [hit]
    rw [slotCount_prefixed, matches_prefixed line inside] at matched
    rcases matched with ⟨rfl, ⟨isKey, rfl⟩ | ⟨rest, isBelow, rfl⟩⟩
    · rw [String.toList_inj] at isKey
      subst isKey
      exact .whole rfl
    · have isText : text = key ++ "/" ++ String.ofList rest := by
        rw [← String.toList_inj, belowText, String.toList_ofList, isBelow]
      have taken : (captured text.toList.toArray (State.store 1 (State.store 3
          ⟨text.toList.length, (State.store 2 ⟨key.toList.length,
            (State.initial 4 0).slots⟩).slots⟩)).slots) 1 =
              some (String.ofList ((text.toList.toArray.extract key.toList.length
                text.toList.length).toList)) := rfl
      have behind : (text.toList.toArray.extract key.toList.length text.toList.length).toList =
          '/' :: rest := by
        simp [isBelow]
      subst isText
      refine .below ?_
      rw [taken, behind, Option.some.injEq, ← String.toList_inj]
      simp

/-- The pattern for a key and what is below it matches those texts of one line and no others. -/
theorem prefixMatch_search? {key text : String} {regex : Regex}
    (valid : ofPattern? (prefixPattern key) = some regex) (line : '\n' ∉ text.toList) :
    PrefixMatch key text (regex.search? text) := by
  rcases Option.map_eq_some_iff.mp valid with ⟨expression, read, rfl⟩
  rw [read?_prefixPattern] at read
  split at read
  · simp at read
  · rw [Option.some.injEq] at read
    rw [← read]
    exact prefixMatch_search?_ofExpression line

/-- The pattern is valid unless the key is very long. -/
theorem exists_ofPattern?_prefixPattern {key : String} (short : key.length ≤ 65536) :
    ∃ regex, ofPattern? (prefixPattern key) = some regex := by
  have light : ¬weightLimit < (prefixed key.toList).weight := by
    have weight := weight_prefixed_le key.toList
    rw [String.length_toList] at weight
    rw [weightLimit]
    omega
  refine ⟨ofExpression (prefixed key.toList), ?_⟩
  rw [ofPattern?, read?_prefixPattern, if_neg light, Option.map_some]

end Regex

end ImportAlias
