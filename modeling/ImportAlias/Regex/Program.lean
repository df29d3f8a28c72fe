import ImportAlias.Regex.Expression

/-!
# Programs of regular expressions

An expression is compiled to a program of numbered steps. A fork names the way that is tried first,
so the order of choices and the greed of repetitions are in the program.
-/

namespace ImportAlias

namespace Regex

/-- A step of a program, with the steps that follow it. -/
inductive Step where
  | accept
  | set (members : CharSet) (next : Nat)
  | check (assertion : Assertion) (next : Nat)
  /-- Stores the place in a slot. -/
  | save (slot next : Nat)
  /-- Tries the first way, then the second one. -/
  | fork (first second : Nat)
deriving Inhabited

/-- The steps of a program by their numbers. -/
abbrev Program := Array Step

namespace Program

/-- The program with one more step, and the number of that step. -/
def emit (step : Step) (program : Program) : Nat × Program :=
  (program.size, program.push step)

/-- A fork between going on with a body and leaving it. -/
def forkOf (greedy : Bool) (body leave : Nat) : Step :=
  if greedy then .fork body leave else .fork leave body

/-- A number of copies one after the other; a copy is compiled from the step that follows it. -/
def copies (copy : Nat → Program → Nat × Program) : Nat → Nat → Program → Nat × Program
  | 0, next, program => (next, program)
  | count + 1, next, program =>
    let (start, program) := copy next program
    copies copy count start program

/-- A number of copies each of which may be left out together with all later ones. -/
def optionalCopies (copy : Nat → Program → Nat × Program) (greedy : Bool) (leave : Nat) :
    Nat → Nat → Program → Nat × Program
  | 0, next, program => (next, program)
  | count + 1, next, program =>
    let (start, program) := copy next program
    let (fork, program) := program.emit (forkOf greedy start leave)
    optionalCopies copy greedy leave count fork program

/-- A loop that goes through its body at least once: its start and the fork behind the body. -/
def loop (copy : Nat → Program → Nat × Program) (greedy : Bool) (leave : Nat) (program : Program) :
    Nat × Nat × Program :=
  let (fork, program) := program.emit .accept
  let (start, program) := copy fork program
  (start, fork, program.set! fork (forkOf greedy start leave))

end Program

namespace Expression

/-- Compiles an expression in front of a step. A body that can match nothing is tried once before it
is left, so that a repetition of it prefers what the body prefers. -/
def compile : Expression → Nat → Program → Nat × Program
  | empty, next, program => (next, program)
  | set members, next, program => program.emit (.set members next)
  | assertion kind, next, program => program.emit (.check kind next)
  | group index body, next, program =>
    let (stop, program) := program.emit (.save (2 * index + 1) next)
    let (inner, program) := compile body stop program
    program.emit (.save (2 * index) inner)
  | sequence first second, next, program =>
    let (middle, program) := compile second next program
    compile first middle program
  | choice first second, next, program =>
    let (secondStart, program) := compile second next program
    let (firstStart, program) := compile first next program
    program.emit (.fork firstStart secondStart)
  | repetition body least (some most) greedy, next, program =>
    let (tail, program) :=
      Program.optionalCopies (compile body) greedy next (most - least) next program
    Program.copies (compile body) least tail program
  | repetition body least none greedy, next, program =>
    let (start, fork, program) := Program.loop (compile body) greedy next program
    if least = 0 then
      if body.isProductive then (fork, program)
      else program.emit (Program.forkOf greedy start next)
    else Program.copies (compile body) (least - 1) start program

end Expression

end Regex

end ImportAlias
