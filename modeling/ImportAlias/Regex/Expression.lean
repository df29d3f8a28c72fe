import ImportAlias.Regex.CharSet

/-!
# Regular expressions

The expression that a pattern writes: sets, assertions, numbered groups, repetitions, sequences and
ordered choices.
-/

namespace ImportAlias

namespace Regex

/-- What has to hold at a place between two characters. -/
inductive Assertion where
  | textStart
  | textEnd
  | lineStart
  | lineEnd
  /-- A line start where a carriage return and a line feed end a line together. -/
  | mixedLineStart
  /-- A line end where a carriage return and a line feed end a line together. -/
  | mixedLineEnd
  | wordBoundary (unicode : Bool)
  | noWordBoundary (unicode : Bool)
  | wordStart (unicode : Bool)
  | wordEnd (unicode : Bool)
  | noWordBefore (unicode : Bool)
  | noWordAfter (unicode : Bool)
deriving DecidableEq

/-- A regular expression. -/
inductive Expression where
  | empty
  | set (members : CharSet)
  | assertion (kind : Assertion)
  | group (index : Nat) (body : Expression)
  | repetition (body : Expression) (least : Nat) (most : Option Nat) (greedy : Bool)
  | sequence (first second : Expression)
  | choice (first second : Expression)

namespace Expression

/-- The expression matches no character in any match. -/
def isWidthless : Expression → Bool
  | empty | assertion _ => true
  | set _ => false
  | group _ body => body.isWidthless
  | repetition body _ most _ => body.isWidthless || most = some 0
  | sequence first second => first.isWidthless && second.isWidthless
  | choice first second => first.isWidthless && second.isWidthless

/-- The expression matches at least one character in every match. -/
def isProductive : Expression → Bool
  | empty | assertion _ => false
  | set _ => true
  | group _ body => body.isProductive
  | repetition body least _ _ => body.isProductive && 0 < least
  | sequence first second => first.isProductive || second.isProductive
  | choice first second => first.isProductive && second.isProductive

/-- A repetition: what matches no character need not match more than once, nothing is left of no
occurrence, and one occurrence is the body itself. -/
def repeated (body : Expression) (least : Nat) (most : Option Nat) (greedy : Bool) : Expression :=
  let (least, most) : Nat × Option Nat :=
    if body.isWidthless then (min least 1, some ((most.map (min · 1)).getD 1))
    else (least, most)
  if most = some 0 then empty
  else if least = 1 ∧ most = some 1 then body
  else repetition body least most greedy

/-- Expressions one after the other. -/
def sequenceOf : List Expression → Expression
  | [] => empty
  | [single] => single
  | first :: rest => sequence first (sequenceOf rest)

/-- An ordered choice between expressions. -/
def choiceOf : List Expression → Expression
  | [] => empty
  | [single] => single
  | first :: rest => choice first (choiceOf rest)

/-- An estimate of the bytes that a compiled expression takes. -/
def weight : Expression → Nat
  | empty => 32
  | set members => 32 + (if members.weight ≤ 1 then 0 else 60 * members.weight)
  | assertion _ => 32
  | group _ body => 64 + body.weight
  | repetition body least most _ =>
    match most with
    | none => 64 + body.weight * max least 1
    | some most => 32 + body.weight * least + (body.weight + 40) * (most - least)
  | sequence first second => first.weight + second.weight
  | choice first second => 40 + first.weight + second.weight

/-- The greatest weight of an expression that is accepted. -/
def weightLimit : Nat := 10 * 1024 * 1024

end Expression

end Regex

end ImportAlias
