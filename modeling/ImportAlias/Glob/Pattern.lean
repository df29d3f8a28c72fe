/-!
# Glob patterns

A question mark stands for one character, a star for any run of characters, and a bracket for one
character of a set; two stars stand for any directories and have to be a whole component. A faulty
pattern is reported with the cause and with a place counted in characters.
-/

namespace ImportAlias

namespace Glob

/-- What can be wrong with a pattern. -/
inductive FaultCause where
  /-- More than two stars in a row. -/
  | starRun
  /-- Two stars beside something that is no slash. -/
  | partialComponent
  /-- A bracket that is empty or not closed. -/
  | range
deriving DecidableEq

/-- A fault of a pattern and the place where it shows. -/
structure Fault where
  position : Nat
  cause : FaultCause
deriving DecidableEq

/-- The wording of a cause. -/
def FaultCause.message : FaultCause → String
  | starRun => "wildcards are either regular `*` or recursive `**`"
  | partialComponent => "recursive wildcards must form a single path component"
  | range => "invalid range pattern"

/-- The wording of a fault. -/
def Fault.message (fault : Fault) : String :=
  "Pattern syntax error near position " ++ toString fault.position ++ ": " ++ fault.cause.message

/-- A member of a bracket: the characters from the first to the last one. -/
structure Range where
  first : Char
  last : Char
deriving DecidableEq

/-- The range holds the character. -/
def Range.holds (range : Range) (char : Char) : Bool :=
  range.first ≤ char && char ≤ range.last

/-- A part of a pattern. -/
inductive Token where
  | exact (char : Char)
  | anyChar
  | anyRun
  | anyDirectories
  | within (negated : Bool) (ranges : List Range)
deriving DecidableEq

/-- The members between brackets: a range needs a character on both sides of its dash. -/
def rangesOf : List Char → List Range
  | first :: '-' :: last :: rest => ⟨first, last⟩ :: rangesOf rest
  | char :: rest => ⟨char, char⟩ :: rangesOf rest
  | [] => []

/-- The members of a bracket and the text behind its end; the first member may be the closing
bracket itself. -/
def splitSet? : List Char → Option (List Char × List Char)
  | [] => none
  | first :: rest =>
    match rest.dropWhile (· ≠ ']') with
    | [] => none
    | _ :: behind => some (first :: rest.takeWhile (· ≠ ']'), behind)

/-- The tokens of a pattern from a place on, with the character before that place. The first
argument bounds their number. -/
def tokensFrom : Nat → Nat → Option Char → List Char → Except Fault (List Token)
  | 0, _, _, _ => .ok []
  | _, _, _, [] => .ok []
  | fuel + 1, position, previous, char :: rest =>
    if char = '?' then do
      return .anyChar :: (← tokensFrom fuel (position + 1) (some char) rest)
    else if char = '*' then
      match rest with
      | '*' :: '*' :: _ => .error ⟨position + 2, .starRun⟩
      | '*' :: behind =>
        if previous.isSome ∧ previous ≠ some '/' then
          .error ⟨position - 1, .partialComponent⟩
        else
          match behind with
          | [] => .ok [.anyDirectories]
          | '/' :: more => do
            return .anyDirectories :: (← tokensFrom fuel (position + 3) (some '/') more)
          | _ => .error ⟨position + 2, .partialComponent⟩
      | _ => do
        return .anyRun :: (← tokensFrom fuel (position + 1) (some char) rest)
    else if char = '[' then
      let (negated, members) : Bool × List Char :=
        match rest with
        | '!' :: members => (true, members)
        | _ => (false, rest)
      match splitSet? members with
      | none => .error ⟨position, .range⟩
      | some (members, behind) => do
        let width := members.length + (if negated then 3 else 2)
        return .within negated (rangesOf members) ::
          (← tokensFrom fuel (position + width) (some ']') behind)
    else do
      return .exact char :: (← tokensFrom fuel (position + 1) (some char) rest)

/-- The tokens of a pattern. -/
def tokens (pattern : List Char) : Except Fault (List Token) :=
  tokensFrom pattern.length 0 none pattern

/-- The tokens match the whole of a name. -/
def matchesName : List Token → List Char → Bool
  | [], name => name.isEmpty
  | .exact expected :: tokens, char :: rest => expected = char && matchesName tokens rest
  | .anyChar :: tokens, _ :: rest => matchesName tokens rest
  | .within negated ranges :: tokens, char :: rest =>
    ranges.any (·.holds char) != negated && matchesName tokens rest
  | .anyRun :: tokens, [] => matchesName tokens []
  | .anyRun :: tokens, char :: rest =>
    matchesName tokens (char :: rest) || matchesName (.anyRun :: tokens) rest
  | .anyDirectories :: tokens, name => matchesName tokens name
  | _ :: _, [] => false
termination_by tokens name => tokens.length + name.length

/-- A component of a pattern. -/
inductive Step where
  /-- A name without wildcards. -/
  | name (text : List Char)
  /-- Any directories. -/
  | directories
  /-- A name with wildcards. -/
  | wild (tokens : List Token)

/-- The name that tokens without wildcards stand for. -/
def plainName? : List Token → Option (List Char)
  | [] => some []
  | .exact char :: rest => (plainName? rest).map (char :: ·)
  | _ :: _ => none

/-- The component that tokens stand for. -/
def Step.ofTokens (tokens : List Token) : Step :=
  match plainName? tokens with
  | some text => .name text
  | none => if .anyDirectories ∈ tokens then .directories else .wild tokens

end Glob

end ImportAlias
