import ImportAlias.Regex.Program
import ImportAlias.Regex.Reader

/-!
# Searching a text

A search starts at every place from the left and tries the ways through the program in their order;
the first accepted way is the match. No step is tried twice at the same place, since a second try
would fail like the first one. This also ends every repetition of nothing.
-/

namespace ImportAlias

namespace Regex

/-- The character that a word is made of, in all scripts or among the first 128 characters. -/
def isWordCode (unicode : Bool) (code : Nat) : Bool :=
  (CharSet.named unicode .word).holds code

/-- The places of a text are numbered by the characters before them; here the assertion holds at a
place. -/
def Assertion.holdsAt (text : Array Char) (place : Nat) (assertion : Assertion) : Bool :=
  let before? : Option Char := if place = 0 then none else text[place - 1]?
  let after? : Option Char := text[place]?
  let word (unicode : Bool) (char? : Option Char) : Bool :=
    char?.any (fun char => isWordCode unicode char.toNat)
  match assertion with
  | .textStart => before?.isNone
  | .textEnd => after?.isNone
  | .lineStart => before?.all (· = '\n')
  | .lineEnd => after?.all (· = '\n')
  | .mixedLineStart => before?.all (fun before =>
      before = '\n' || (before = '\r' && after? != some '\n'))
  | .mixedLineEnd => after?.all (fun after =>
      after = '\r' || (after = '\n' && before? != some '\r'))
  | .wordBoundary unicode => word unicode before? != word unicode after?
  | .noWordBoundary unicode => word unicode before? == word unicode after?
  | .wordStart unicode => !word unicode before? && word unicode after?
  | .wordEnd unicode => word unicode before? && !word unicode after?
  | .noWordBefore unicode => !word unicode before?
  | .noWordAfter unicode => !word unicode after?

/-- The places stored so far. -/
abbrev Slots := Array (Option Nat)

/-- What is left to do: to try a step at a place, or to put back what a slot held before. -/
inductive Job where
  | visit (step place : Nat)
  | restore (slot : Nat) (old : Option Nat)

/-- Works off the jobs up to the first accepted way. The pairs of a step and a place that were tried
are marked and not tried again. -/
def explore (program : Program) (text : Array Char) :
    Nat → Array Bool → Slots → List Job → Array Bool × Option Slots
  | 0, visited, _, _ => (visited, none)
  | _, visited, _, [] => (visited, none)
  | fuel + 1, visited, slots, .restore slot old :: jobs =>
    explore program text fuel visited (slots.setIfInBounds slot old) jobs
  | fuel + 1, visited, slots, .visit step place :: jobs =>
    let mark := step * (text.size + 1) + place
    if visited.getD mark true then explore program text fuel visited slots jobs
    else
      let visited := visited.setIfInBounds mark true
      match program[step]? with
      | none => explore program text fuel visited slots jobs
      | some .accept => (visited, some (slots.setIfInBounds 1 (some place)))
      | some (.set members next) =>
        match text[place]? with
        | some char =>
          if members.holds char.toNat then
            explore program text fuel visited slots (.visit next (place + 1) :: jobs)
          else explore program text fuel visited slots jobs
        | none => explore program text fuel visited slots jobs
      | some (.check assertion next) =>
        if assertion.holdsAt text place then
          explore program text fuel visited slots (.visit next place :: jobs)
        else explore program text fuel visited slots jobs
      | some (.save slot next) =>
        explore program text fuel visited (slots.setIfInBounds slot (some place))
          (.visit next place :: .restore slot (slots.getD slot none) :: jobs)
      | some (.fork first second) =>
        explore program text fuel visited slots (.visit first place :: .visit second place :: jobs)

/-- The slots of the first match at or behind a place; the first argument counts the places left. -/
def searchFrom (program : Program) (entry slotCount fuel : Nat) (text : Array Char) :
    Nat → Nat → Array Bool → Option Slots
  | 0, _, _ => none
  | left + 1, place, visited =>
    let slots := (Array.replicate slotCount none).setIfInBounds 0 (some place)
    match explore program text fuel visited slots [.visit entry place] with
    | (_, some slots) => some slots
    | (visited, none) => searchFrom program entry slotCount fuel text left (place + 1) visited

/-- The texts of the groups of a match, the whole match at number zero. -/
abbrev Captures := Nat → Option String

end Regex

open Regex in
/-- A pattern ready to be searched. -/
structure Regex where
  program : Program
  entry : Nat
  slotCount : Nat

namespace Regex

/-- The greatest number of a group. -/
def Expression.greatestGroup : Expression → Nat
  | empty | set _ | assertion _ => 0
  | group index body => max index body.greatestGroup
  | repetition body _ _ _ => body.greatestGroup
  | sequence first second => max first.greatestGroup second.greatestGroup
  | choice first second => max first.greatestGroup second.greatestGroup

/-- The program of an expression. -/
def ofExpression (expression : Expression) : Regex :=
  let (accept, program) := Program.emit .accept #[]
  let (entry, program) := expression.compile accept program
  ⟨program, entry, 2 * (expression.greatestGroup + 1)⟩

/-- The pattern ready to be searched, if it is valid. -/
def ofPattern? (pattern : String) : Option Regex :=
  (read? pattern.toList).map ofExpression

/-- The leftmost match in a text. -/
def search? (regex : Regex) (text : String) : Option Captures :=
  let chars := text.toList.toArray
  let states := regex.program.size * (chars.size + 1)
  let slots? :=
    searchFrom regex.program regex.entry regex.slotCount (4 * states + 4) chars (chars.size + 1) 0
      (Array.replicate states false)
  slots?.map (fun slots index =>
    match slots.getD (2 * index) none, slots.getD (2 * index + 1) none with
    | some start, some stop => some (String.ofList ((chars.extract start stop).toList))
    | _, _ => none)

end Regex

end ImportAlias
