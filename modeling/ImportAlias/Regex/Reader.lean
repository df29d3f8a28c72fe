import ImportAlias.Regex.Expression
import ImportAlias.Text.Digits

/-!
# Reading patterns

A pattern is read from left to right with a stack of open groups. Flags hold from where they are set
to the end of the group around them. There are neither back references nor assertions that look
around further than one character; a pattern that uses them is refused, as is every escape without a
meaning.
-/

namespace ImportAlias

namespace Regex

/-- The flags that hold at a place of a pattern. -/
structure Flags where
  caseless : Bool := false
  multiLine : Bool := false
  dotMatchesLine : Bool := false
  swapGreed : Bool := false
  unicode : Bool := true
  mixedLines : Bool := false
  ignoreBlanks : Bool := false
deriving DecidableEq

/-- The letters of the flags. -/
def flagLetters : List Char := ['i', 'm', 's', 'U', 'u', 'R', 'x']

/-- The flags with the one of a letter set or cleared. -/
def Flags.assign (flags : Flags) (letter : Char) (value : Bool) : Flags :=
  match letter with
  | 'i' => { flags with caseless := value }
  | 'm' => { flags with multiLine := value }
  | 's' => { flags with dotMatchesLine := value }
  | 'U' => { flags with swapGreed := value }
  | 'u' => { flags with unicode := value }
  | 'R' => { flags with mixedLines := value }
  | _ => { flags with ignoreBlanks := value }

/-- The text behind blanks and comments. The first argument bounds their number. -/
def skipIgnored : Nat → List Char → List Char
  | 0, text => text
  | _, [] => []
  | fuel + 1, char :: rest =>
    if Unicode.isWhiteSpace char then skipIgnored fuel rest
    else if char = '#' then skipIgnored fuel (rest.dropWhile (· ≠ '\n'))
    else char :: rest

/-- The text behind what the flags let the reader ignore. -/
def Flags.skip (flags : Flags) (text : List Char) : List Char :=
  if flags.ignoreBlanks then skipIgnored text.length text else text

/-- The digits at the start of a text, with what is ignored between them. -/
def takeCount (flags : Flags) : Nat → List Char → List Char × List Char
  | 0, text => ([], text)
  | _, [] => ([], [])
  | fuel + 1, char :: rest =>
    if char.isDigit then
      let (more, rest) := takeCount flags fuel (flags.skip rest)
      (char :: more, rest)
    else ([], char :: rest)

/-- A count of a repetition, with blanks around it; none when there is no digit. -/
def readCount (flags : Flags) (text : List Char) : Option Nat × List Char :=
  let (digits, rest) := takeCount flags text.length (text.dropWhile Unicode.isWhiteSpace)
  let rest := flags.skip (rest.dropWhile Unicode.isWhiteSpace)
  (if digits = [] then none else some (numberOf digits), rest)

/-- The greatest count of a repetition. -/
def greatestCount : Nat := UInt32.size - 1

/-- The counts of a repetition behind its opening brace. -/
def readCounts? (flags : Flags) (text : List Char) : Option (Nat × Option Nat × List Char) := do
  let (least, rest) := readCount flags (flags.skip text)
  let least ← least
  if greatestCount < least then none
  match rest with
  | ',' :: rest =>
    match flags.skip rest with
    | '\x7d' :: rest => return (least, none, rest)
    | rest =>
      let (most, rest) := readCount flags rest
      let most ← most
      if greatestCount < most ∨ most < least then none
      let '\x7d' :: rest := rest | none
      return (least, some most, rest)
  | '\x7d' :: rest => return (least, some least, rest)
  | _ => none

/-- A given number of hexadecimal digits. -/
def readHexDigits? (flags : Flags) : Nat → Nat → List Char → Option (Nat × List Char)
  | 0, value, rest => some (value, rest)
  | count + 1, value, char :: rest => do
    readHexDigits? flags count (value * 16 + (← hexValue? char)) (flags.skip rest)
  | _ + 1, _, [] => none

/-- Hexadecimal digits up to a closing brace. The first argument bounds their number. -/
def readHexBraced? (flags : Flags) : Nat → Option Nat → List Char → Option (Nat × List Char)
  | 0, _, _ => none
  | _, _, [] => none
  | fuel + 1, value, char :: rest =>
    if char = '\x7d' then value.map (fun value => (value, flags.skip rest))
    else do
      let digit ← hexValue? char
      readHexBraced? flags fuel (some (value.getD 0 * 16 + digit)) (flags.skip rest)

/-- The code point is a character. -/
def isScalar (code : Nat) : Bool :=
  code < 0xD800 || (0xE000 ≤ code && code < 0x110000)

/-- What a backslash and what follows it stand for. -/
inductive Escape where
  /-- A character; the flag tells that it was written as a byte. -/
  | literal (code : Nat) (byte : Bool)
  | named (negated : Bool) (name : NamedClass)
  | property (set : CharSet)
  | assertion (kind : Assertion)

/-- Characters with a meaning in patterns. -/
def metaChars : List Char :=
  ['\\', '.', '+', '*', '?', '(', ')', '|', '[', ']', '\x7b', '\x7d', '^', '$', '#', '&', '-', '~']

/-- A character that a backslash leaves as it is: punctuation that has no meaning with a backslash.
-/
def isPlainEscape (char : Char) : Bool :=
  char ∈ metaChars ||
    (char.toNat < 0x80 && !char.isAlphanum && char ≠ '<' && char ≠ '>')

open Unicode.Category in
/-- The general categories and groups of them, by their names without case, blanks, dashes and
underscores. -/
def categoryNames : List (List String × List Unicode.Category) :=
  [(["lu", "uppercaseletter"], [upperLetter]), (["ll", "lowercaseletter"], [lowerLetter]),
    (["lt", "titlecaseletter"], [titleLetter]),
    (["lc", "casedletter"], [upperLetter, lowerLetter, titleLetter]),
    (["lm", "modifierletter"], [modifierLetter]), (["lo", "otherletter"], [otherLetter]),
    (["l", "letter"], [upperLetter, lowerLetter, titleLetter, modifierLetter, otherLetter]),
    (["mn", "nonspacingmark"], [nonspacingMark]), (["mc", "spacingmark"], [spacingMark]),
    (["me", "enclosingmark"], [enclosingMark]),
    (["m", "mark", "combiningmark"], [nonspacingMark, spacingMark, enclosingMark]),
    (["nd", "decimalnumber", "digit"], [decimalNumber]), (["nl", "letternumber"], [letterNumber]),
    (["no", "othernumber"], [otherNumber]),
    (["n", "number"], [decimalNumber, letterNumber, otherNumber]),
    (["pc", "connectorpunctuation"], [connectorPunctuation]),
    (["pd", "dashpunctuation"], [dashPunctuation]), (["ps", "openpunctuation"], [openPunctuation]),
    (["pe", "closepunctuation"], [closePunctuation]),
    (["pi", "initialpunctuation"], [initialPunctuation]),
    (["pf", "finalpunctuation"], [finalPunctuation]),
    (["po", "otherpunctuation"], [otherPunctuation]),
    (["p", "punctuation", "punct"], [connectorPunctuation, dashPunctuation, openPunctuation,
      closePunctuation, initialPunctuation, finalPunctuation, otherPunctuation]),
    (["sm", "mathsymbol"], [mathSymbol]), (["sc", "currencysymbol"], [currencySymbol]),
    (["sk", "modifiersymbol"], [modifierSymbol]), (["so", "othersymbol"], [otherSymbol]),
    (["s", "symbol"], [mathSymbol, currencySymbol, modifierSymbol, otherSymbol]),
    (["zs", "spaceseparator"], [spaceSeparator]), (["zl", "lineseparator"], [lineSeparator]),
    (["zp", "paragraphseparator"], [paragraphSeparator]),
    (["z", "separator"], [spaceSeparator, lineSeparator, paragraphSeparator]),
    (["cc", "control", "cntrl"], [control]), (["cf", "format"], [format]),
    (["cs", "surrogate"], [surrogate]), (["co", "privateuse"], [privateUse]),
    (["cn", "unassigned"], [unassigned]),
    (["c", "other"], [control, format, surrogate, privateUse, unassigned])]

/-- A property name without what does not count in it. -/
def plainPropertyName (name : List Char) : List Char :=
  let kept := (name.filter (fun char =>
    !(Unicode.isWhiteSpace char || char = '-' || char = '_'))).map Char.toLower
  if kept.take 2 = ['i', 's'] ∧ 2 < kept.length ∧ kept ≠ "isc".toList then kept.drop 2 else kept

/-- The set of a general category. -/
def categorySet? (name : List Char) : Option CharSet :=
  let plain := String.ofList (plainPropertyName name)
  (categoryNames.find? (fun entry => plain ∈ entry.1)).map (fun entry => .categories entry.2)

/-- The set of a script. -/
def scriptSet? (name : List Char) : Option CharSet :=
  (Unicode.scriptNamed? (String.ofList (plainPropertyName name))).map .script

/-- The set of a property without a value. -/
def propertySet? (name : List Char) : Option CharSet :=
  let plain := String.ofList (plainPropertyName name)
  if plain = "any" then some .all
  else if plain = "ascii" then some (.range 0 0x7F)
  else if plain = "assigned" then some (.complement (.categories [.unassigned]))
  else if plain ∈ ["whitespace", "space", "wspace"] then some (.named true .space)
  else if plain ∈ ["alphabetic", "alpha"] then some .alphabetic
  else if plain ∈ ["uppercase", "upper"] then some .capital
  else if plain ∈ ["lowercase", "lower"] then some .small
  else (categorySet? name).orElse (fun _ => scriptSet? name)

/-- The set of a property with a value: the general category and the script have values here. -/
def propertyValueSet? (name value : List Char) : Option CharSet :=
  let plain := String.ofList (plainPropertyName name)
  if plain ∈ ["gc", "generalcategory", "category"] then
    if String.ofList (plainPropertyName value) ∈ ["any", "assigned", "ascii"] then
      propertySet? value
    else categorySet? value
  else if plain ∈ ["sc", "script"] then scriptSet? value
  else none

/-- The two sides of the first occurrence of a separator. -/
def splitOnce? (separator : List Char) : List Char → Option (List Char × List Char)
  | [] => none
  | char :: rest =>
    if separator.isPrefixOf (char :: rest) then some ([], (char :: rest).drop separator.length)
    else (splitOnce? separator rest).map (fun sides => (char :: sides.1, sides.2))

/-- The set that a property in braces stands for. -/
def bracedProperty? (text : List Char) : Option CharSet :=
  match splitOnce? ['!', '='] text with
  | some (name, value) => (propertyValueSet? name value).map .complement
  | none =>
    match splitOnce? [':'] text with
    | some (name, value) => propertyValueSet? name value
    | none =>
      match splitOnce? ['='] text with
      | some (name, value) => propertyValueSet? name value
      | none => propertySet? text

/-- The characters up to a closing brace, without what is ignored. The first argument bounds their
number. -/
def takeBraced? (flags : Flags) : Nat → List Char → Option (List Char × List Char)
  | 0, _ => none
  | _, [] => none
  | fuel + 1, char :: rest =>
    if char = '\x7d' then some ([], rest)
    else (takeBraced? flags fuel (flags.skip rest)).map (fun taken => (char :: taken.1, taken.2))

/-- A property behind its letter. -/
def readProperty? (flags : Flags) (negated : Bool) (text : List Char) :
    Option (Escape × List Char) := do
  if !flags.unicode then none
  let (set, rest) ←
    match flags.skip text with
    | [] => none
    | '\x7b' :: rest =>
      (takeBraced? flags (rest.length + 1) (flags.skip rest)).bind (fun taken =>
        (bracedProperty? taken.1).map (·, taken.2))
    | '\\' :: _ => none
    | letter :: rest => (propertySet? [letter]).map (·, flags.skip rest)
  let set := if flags.caseless then .folded true set else set
  return (.property (.complementIf negated set), rest)

/-- A word boundary behind its letter, perhaps with a name in braces. A brace before anything but a
name starts a repetition. -/
def readBoundary? (flags : Flags) (text : List Char) : Option (Escape × List Char) := do
  let plain := some (.assertion (.wordBoundary flags.unicode), text)
  match text with
  | '\x7b' :: rest =>
    let isNameChar (char : Char) : Bool := char.isAlpha || char = '-'
    let inside := flags.skip rest
    match inside with
    | [] => none
    | char :: _ =>
      if !isNameChar char then plain
      else
        let (name, behind) ← takeBraced? flags (inside.length + 1) inside
        if !name.all isNameChar then none
        let kind : Assertion ←
          match String.ofList name with
          | "start" => some (.wordStart flags.unicode)
          | "end" => some (.wordEnd flags.unicode)
          | "start-half" => some (.noWordBefore flags.unicode)
          | "end-half" => some (.noWordAfter flags.unicode)
          | _ => none
        return (.assertion kind, behind)
  | _ => plain

/-- What stands behind a backslash. -/
def readEscape? (flags : Flags) : List Char → Option (Escape × List Char)
  | [] => none
  | letter :: rest =>
    let hex (width : Nat) : Option (Escape × List Char) := do
      let inside := flags.skip rest
      let (code, byte, rest) ←
        match inside with
        | '\x7b' :: digits =>
          (readHexBraced? flags (digits.length + 1) none (flags.skip digits)).map
            (fun read => (read.1, false, read.2))
        | _ =>
          (readHexDigits? flags width 0 inside).map (fun read => (read.1, width = 2, read.2))
      if isScalar code then some (.literal code byte, rest) else none
    let char (code : Nat) : Option (Escape × List Char) := some (.literal code false, rest)
    let assertion (kind : Assertion) : Option (Escape × List Char) := some (.assertion kind, rest)
    match letter with
    | 'x' => hex 2
    | 'u' => hex 4
    | 'U' => hex 8
    | 'p' => readProperty? flags false rest
    | 'P' => readProperty? flags true rest
    | 'd' => some (.named false .digit, rest)
    | 'D' => some (.named true .digit, rest)
    | 's' => some (.named false .space, rest)
    | 'S' => some (.named true .space, rest)
    | 'w' => some (.named false .word, rest)
    | 'W' => some (.named true .word, rest)
    | 'a' => char 0x07
    | 'f' => char 0x0C
    | 't' => char 0x09
    | 'n' => char 0x0A
    | 'r' => char 0x0D
    | 'v' => char 0x0B
    | 'A' => assertion .textStart
    | 'z' => assertion .textEnd
    | 'b' => readBoundary? flags rest
    | 'B' => assertion (.noWordBoundary flags.unicode)
    | '<' => assertion (.wordStart flags.unicode)
    | '>' => assertion (.wordEnd flags.unicode)
    | _ => if isPlainEscape letter then char letter.toNat else none

/-- The named classes of brackets within brackets. -/
def posixClass? (name : List Char) : Option CharSet :=
  let ranges? : Option (List (Nat × Nat)) :=
    match String.ofList name with
    | "alnum" => some [(0x30, 0x39), (0x41, 0x5A), (0x61, 0x7A)]
    | "alpha" => some [(0x41, 0x5A), (0x61, 0x7A)]
    | "ascii" => some [(0x00, 0x7F)]
    | "blank" => some [(0x09, 0x09), (0x20, 0x20)]
    | "cntrl" => some [(0x00, 0x1F), (0x7F, 0x7F)]
    | "digit" => some [(0x30, 0x39)]
    | "graph" => some [(0x21, 0x7E)]
    | "lower" => some [(0x61, 0x7A)]
    | "print" => some [(0x20, 0x7E)]
    | "punct" => some [(0x21, 0x2F), (0x3A, 0x40), (0x5B, 0x60), (0x7B, 0x7E)]
    | "space" => some [(0x09, 0x0D), (0x20, 0x20)]
    | "upper" => some [(0x41, 0x5A)]
    | "word" => some [(0x30, 0x39), (0x41, 0x5A), (0x5F, 0x5F), (0x61, 0x7A)]
    | "xdigit" => some [(0x30, 0x39), (0x41, 0x46), (0x61, 0x66)]
    | _ => none
  ranges?.map .ofRanges

/-- A named class behind a bracket and a colon; anything else is no named class. -/
def readPosix? (text : List Char) : Option (CharSet × List Char) := do
  let ':' :: rest := text | none
  let (negated, rest) : Bool × List Char :=
    match rest with
    | '^' :: rest => (true, rest)
    | _ => (false, rest)
  let name := rest.takeWhile (· ≠ ':')
  let ':' :: ']' :: behind := rest.dropWhile (· ≠ ':') | none
  let set ← posixClass? name
  return (.complementIf negated set, behind)

/-- The operators between the sets of a bracket. -/
inductive SetOperator where
  | intersection
  | difference
  | symmetricDifference

/-- The set that an operator makes of two sets. -/
def SetOperator.apply : SetOperator → CharSet → CharSet → CharSet
  | intersection => .intersection
  | difference => .difference
  | symmetricDifference => .symmetricDifference

/-- An open bracket: whether its set is complemented, what stood before the last operator, and the
members behind it. -/
structure Bracket where
  negated : Bool
  pending : Option (CharSet × SetOperator)
  members : CharSet

/-- The set folded where case does not count. -/
def Flags.fold (flags : Flags) (set : CharSet) : CharSet :=
  if flags.caseless then .folded flags.unicode set else set

/-- The set of the members so far. -/
def Bracket.current (flags : Flags) (bracket : Bracket) : CharSet :=
  match bracket.pending with
  | none => bracket.members
  | some (left, operator) => operator.apply (flags.fold left) (flags.fold bracket.members)

/-- The set of a bracket that is closed. -/
def Bracket.close (flags : Flags) (bracket : Bracket) : CharSet :=
  .complementIf bracket.negated (flags.fold (bracket.current flags))

/-- The bracket with one more member. -/
def Bracket.add (set : CharSet) (bracket : Bracket) : Bracket :=
  { bracket with members := .union bracket.members set }

/-- Dashes at the start of a bracket are members. -/
def takeDashes (flags : Flags) : Nat → Bracket → List Char → Bracket × List Char
  | 0, bracket, text => (bracket, text)
  | fuel + 1, bracket, '-' :: rest =>
    takeDashes flags fuel (bracket.add (.single '-')) (flags.skip rest)
  | _, bracket, text => (bracket, text)

/-- A bracket behind its opening character: a caret complements it, dashes and then a closing
bracket at its start are members. -/
def openBracket (flags : Flags) (text : List Char) : Bracket × List Char :=
  let text := flags.skip text
  let (negated, text) : Bool × List Char :=
    match text with
    | '^' :: rest => (true, flags.skip rest)
    | _ => (false, text)
  let start := text.length
  let (bracket, text) := takeDashes flags text.length ⟨negated, none, .none⟩ text
  match text with
  | ']' :: rest =>
    if text.length = start then (bracket.add (.single ']'), flags.skip rest) else (bracket, text)
  | _ => (bracket, text)

/-- A member of a bracket: a literal, which may be the bound of a range, or a set. -/
inductive Member where
  | literal (code : Nat) (byte : Bool)
  | set (set : CharSet)

/-- The next member of a bracket. -/
def readMember? (flags : Flags) : List Char → Option (Member × List Char)
  | [] => none
  | '\\' :: rest => do
    let (escape, rest) ← readEscape? flags rest
    match escape with
    | .literal code byte => return (.literal code byte, rest)
    | .named negated name =>
      return (.set (.complementIf negated (.named flags.unicode name)), rest)
    | .property set => return (.set set, rest)
    | .assertion _ => none
  | char :: rest => some (.literal char.toNat false, rest)

/-- A literal may stand in a bracket: in byte mode it has to be a byte. -/
def Flags.allowsLiteral (flags : Flags) (code : Nat) (byte : Bool) : Bool :=
  flags.unicode || code < 0x80 || byte

/-- A member or a range between two literals. -/
def readRange? (flags : Flags) (text : List Char) : Option (CharSet × List Char) := do
  let (first, rest) ← readMember? flags text
  let rest := flags.skip rest
  let single : Option (CharSet × List Char) :=
    match first with
    | .literal code byte =>
      if flags.allowsLiteral code byte then some (.range code code, rest) else none
    | .set set => some (set, rest)
  match rest with
  | [] => none
  | '-' :: behind =>
    match flags.skip behind with
    | [] => if flags.ignoreBlanks ∨ behind = [] then none else single
    | ']' :: _ => single
    | '-' :: _ => single
    | behind =>
      let (last, rest) ← readMember? flags behind
      match first, last with
      | .literal low lowByte, .literal high highByte =>
        if low ≤ high ∧ flags.allowsLiteral low lowByte ∧ flags.allowsLiteral high highByte then
          return (.range low high, rest)
        else none
      | _, _ => none
  | _ => single

/-- The set of a bracket from its members on, with the brackets around it. The first argument bounds
the number of members. -/
def readBrackets? (flags : Flags) :
    Nat → Bracket → List Bracket → List Char → Option (CharSet × List Char)
  | 0, _, _, _ => none
  | fuel + 1, bracket, outer, text => do
    let operate (operator : SetOperator) (rest : List Char) : Option (CharSet × List Char) :=
      let left := bracket.current flags
      readBrackets? flags fuel ⟨bracket.negated, some (left, operator), .none⟩ outer rest
    match flags.skip text with
    | [] => none
    | '[' :: rest =>
      match readPosix? rest with
      | some (set, behind) => readBrackets? flags fuel (bracket.add set) outer behind
      | none =>
        let (inner, behind) := openBracket flags rest
        readBrackets? flags fuel inner (bracket :: outer) behind
    | ']' :: rest =>
      let set := bracket.close flags
      match outer with
      | [] => return (set, rest)
      | around :: outer => readBrackets? flags fuel (around.add set) outer rest
    | '&' :: '&' :: rest => operate .intersection rest
    | '-' :: '-' :: rest => operate .difference rest
    | '~' :: '~' :: rest => operate .symmetricDifference rest
    | text =>
      let (set, rest) ← readRange? flags text
      readBrackets? flags fuel (bracket.add set) outer rest

/-- The set as it can be matched in a text: in byte mode no byte beyond the first 128 may be in
it. -/
def Flags.textSet? (flags : Flags) (set : CharSet) : Option CharSet :=
  if flags.unicode then some set
  else if (List.range 0x80).any (fun offset => set.holds (0x80 + offset)) then none
  else some (.intersection set (.range 0 0x7F))

/-- The expression of a character. -/
def Flags.literal? (flags : Flags) (code : Nat) (byte : Bool) : Option Expression :=
  if !flags.unicode && byte && 0x80 ≤ code then none
  else some (.set (flags.fold (.range code code)))

/-- The expression of an escape. -/
def Flags.escape? (flags : Flags) : Escape → Option Expression
  | .literal code byte => flags.literal? code byte
  | .named negated name =>
    (flags.textSet? (.complementIf negated (.named flags.unicode name))).map .set
  | .property set => some (.set set)
  | .assertion kind => some (.assertion kind)

/-- The expression of the dot. -/
def Flags.dot? (flags : Flags) : Option Expression :=
  if !flags.unicode then none
  else if flags.dotMatchesLine then some (.set .all)
  else if flags.mixedLines then
    some (.set (.complement (.union (.single '\n') (.single '\r'))))
  else some (.set (.complement (.single '\n')))

/-- The expression of the caret. -/
def Flags.caret (flags : Flags) : Expression :=
  .assertion (if !flags.multiLine then .textStart
    else if flags.mixedLines then .mixedLineStart else .lineStart)

/-- The expression of the dollar sign. -/
def Flags.dollar (flags : Flags) : Expression :=
  .assertion (if !flags.multiLine then .textEnd
    else if flags.mixedLines then .mixedLineEnd else .lineEnd)

/-- A piece of a sequence: an expression with the depth of its nesting, or flags that were set. -/
inductive Piece where
  | expression (expression : Expression) (depth : Nat)
  | flags

/-- An open group: its number if it has one, the flags around it, the branches before the last
stroke and the pieces behind it, both with the last one first. -/
structure Group where
  index : Option Nat
  flagsAround : Flags
  branches : List (Expression × Nat)
  pieces : List Piece

/-- The greatest depth of nesting. -/
def depthLimit : Nat := 250

/-- The expression of the pieces of a branch, and its depth. -/
def branchOf (pieces : List Piece) : Expression × Nat :=
  let expressions := pieces.reverse.filterMap (fun piece =>
    match piece with
    | .expression expression depth => some (expression, depth)
    | .flags => none)
  let depth := expressions.foldl (fun deepest piece => max deepest piece.2) 0
  (Expression.sequenceOf (expressions.map (·.1)), if pieces.length < 2 then depth else depth + 1)

/-- The expression of all branches of a group, and its depth. -/
def Group.body (group : Group) : Expression × Nat :=
  let branches := (branchOf group.pieces :: group.branches).reverse
  let depth := branches.foldl (fun deepest branch => max deepest branch.2) 0
  (Expression.choiceOf (branches.map (·.1)), if branches.length < 2 then depth else depth + 1)

/-- A reading in progress. -/
structure Reading where
  flags : Flags
  /-- The number of groups that have a number so far, the whole pattern included. -/
  count : Nat
  names : List (List Char)
  group : Group
  outer : List Group

/-- The reading with one more expression in the innermost group. -/
def Reading.add (expression : Expression) (depth : Nat) (reading : Reading) : Reading :=
  { reading with
    group := { reading.group with
      pieces := .expression expression depth :: reading.group.pieces } }

/-- The reading with the last expression repeated; there has to be one. -/
def Reading.repeatLast? (reading : Reading) (least : Nat) (most : Option Nat) (greedy : Bool) :
    Option Reading :=
  match reading.group.pieces with
  | .expression body depth :: before =>
    let greedy := greedy != reading.flags.swapGreed
    some { reading with
      group := { reading.group with
        pieces := .expression (body.repeated least most greedy) (depth + 1) :: before } }
  | _ => none

/-- The first character of a group name. -/
def isNameStart (char : Char) : Bool :=
  char = '_' || Unicode.isAlphabetic char.toNat

/-- A later character of a group name. -/
def isNamePart (char : Char) : Bool :=
  isNameStart char || char = '.' || char = '[' || char = ']' ||
    Unicode.category char ∈ [.decimalNumber, .letterNumber, .otherNumber]

/-- A group name up to its closing angle bracket. -/
def readName? (text : List Char) : Option (List Char × List Char) := do
  let name := text.takeWhile (· ≠ '>')
  let '>' :: rest := text.dropWhile (· ≠ '>') | none
  let first :: more := name | none
  if isNameStart first ∧ more.all isNamePart then some (name, rest) else none

/-- Flags up to a colon or a closing parenthesis, which is given back with the text behind it. Every
letter may occur once, and a minus once with letters behind it. -/
def readFlags? : Nat → Flags → Bool → List Char → List Char → Option (Flags × Char × List Char)
  | 0, _, _, _, _ => none
  | _, _, _, _, [] => none
  | fuel + 1, flags, negated, seen, char :: rest =>
    if char = ':' ∨ char = ')' then
      if seen.head? = some '-' ∨ (char = ')' ∧ seen = []) then none else some (flags, char, rest)
    else if char ∈ seen then none
    else if char = '-' then readFlags? fuel flags true (char :: seen) rest
    else if char ∈ flagLetters then
      readFlags? fuel (flags.assign char !negated) negated (char :: seen) rest
    else none

/-- The reading behind the start of a group. -/
def Reading.openGroup? (reading : Reading) (text : List Char) : Option (Reading × List Char) := do
  let enter (index : Option Nat) (flags : Flags) (reading : Reading) : Reading :=
    { reading with
      flags := flags
      group := ⟨index, reading.flags, [], []⟩
      outer := reading.group :: reading.outer }
  let named (text : List Char) : Option (Reading × List Char) := do
    let (name, rest) ← readName? text
    if name ∈ reading.names then none
    let reading := { reading with count := reading.count + 1, names := name :: reading.names }
    return (enter (some (reading.count - 1)) reading.flags reading, rest)
  match reading.flags.skip text with
  | '?' :: '=' :: _ => none
  | '?' :: '!' :: _ => none
  | '?' :: '<' :: '=' :: _ => none
  | '?' :: '<' :: '!' :: _ => none
  | '?' :: 'P' :: '<' :: rest => named rest
  | '?' :: '<' :: rest => named rest
  | '?' :: rest =>
    let (flags, stop, rest) ← readFlags? rest.length reading.flags false [] rest
    if stop = ')' then
      return ({ reading with
        flags := flags
        group := { reading.group with pieces := .flags :: reading.group.pieces } }, rest)
    else return (enter none flags reading, rest)
  | rest =>
    let reading := { reading with count := reading.count + 1 }
    return (enter (some (reading.count - 1)) reading.flags reading, rest)

/-- The reading behind the end of a group; there has to be an open one. -/
def Reading.closeGroup? (reading : Reading) : Option Reading :=
  match reading.outer with
  | [] => none
  | around :: outer =>
    let (body, depth) := reading.group.body
    let expression :=
      match reading.group.index with
      | some index => .group index body
      | none => body
    some (Reading.add expression (depth + 1)
      { reading with flags := reading.group.flagsAround, group := around, outer := outer })

/-- The reading behind a stroke. -/
def Reading.startBranch (reading : Reading) : Reading :=
  { reading with
    group := { reading.group with
      branches := branchOf reading.group.pieces :: reading.group.branches
      pieces := [] } }

/-- A repetition mark behind its first characters: a question mark makes it lazy. -/
def takeLazy (text : List Char) : Bool × List Char :=
  match text with
  | '?' :: rest => (false, rest)
  | _ => (true, text)

/-- The reading of a whole text. The first argument bounds the number of pieces. -/
def readPieces? : Nat → Reading → List Char → Option Reading
  | 0, _, _ => none
  | fuel + 1, reading, text =>
    let flags := reading.flags
    let counted (least : Nat) (most : Option Nat) (rest : List Char) : Option Reading := do
      let (greedy, rest) := takeLazy rest
      readPieces? fuel (← reading.repeatLast? least most greedy) rest
    match flags.skip text with
    | [] => some reading
    | '(' :: rest => do
      let (reading, rest) ← reading.openGroup? rest
      readPieces? fuel reading rest
    | ')' :: rest => do readPieces? fuel (← reading.closeGroup?) rest
    | '|' :: rest => readPieces? fuel reading.startBranch rest
    | '[' :: rest => do
      let (bracket, rest) := openBracket flags rest
      let (set, rest) ← readBrackets? flags (rest.length + 1) bracket [] rest
      readPieces? fuel (reading.add (.set (← flags.textSet? set)) 1) rest
    | '?' :: rest => counted 0 (some 1) rest
    | '*' :: rest => counted 0 none rest
    | '+' :: rest => counted 1 none rest
    | '\x7b' :: rest => do
      if reading.group.pieces = [] then none
      let (least, most, rest) ← readCounts? flags rest
      counted least most (flags.skip rest)
    | '\\' :: rest => do
      let (escape, rest) ← readEscape? flags rest
      readPieces? fuel (reading.add (← flags.escape? escape) 0) rest
    | '.' :: rest => do readPieces? fuel (reading.add (← flags.dot?) 0) rest
    | '^' :: rest => readPieces? fuel (reading.add flags.caret 0) rest
    | '$' :: rest => readPieces? fuel (reading.add flags.dollar 0) rest
    | char :: rest => do
      readPieces? fuel (reading.add (← flags.literal? char.toNat false) 0) rest

/-- The expression that a pattern writes, if it writes one of acceptable depth and weight. -/
def read? (pattern : List Char) : Option Expression := do
  let start : Reading :=
    { flags := {}, count := 1, names := [], group := ⟨none, {}, [], []⟩, outer := [] }
  let reading ← readPieces? (pattern.length + 1) start pattern
  if reading.outer.length ≠ 0 then none
  let (body, depth) := reading.group.body
  if depthLimit < depth ∨ Expression.weightLimit < body.weight then none
  return body

end Regex

end ImportAlias
