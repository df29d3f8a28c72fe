import ImportAlias.Regex.Search

/-!
# Ways through a program

A way leads from a step of a program to an accepting one. It is what a search looks for, without the
order in which the search tries the steps and without the marks that keep it from trying one twice.
-/

namespace ImportAlias

namespace Regex

/-- A place of a text with what was stored on the way to it. -/
structure State where
  place : Nat
  slots : Slots

namespace State

/-- The state with the place in a slot. -/
def store (slot : Nat) (state : State) : State :=
  ⟨state.place, state.slots.setIfInBounds slot (some state.place)⟩

/-- The state behind one more character. -/
def advance (state : State) : State :=
  ⟨state.place + 1, state.slots⟩

end State

/-- A way of a length from a step to an accepting one, with the states at its two ends. -/
inductive Way (program : Program) (text : Array Char) : Nat → Nat → State → State → Prop where
  | accept {step : Nat} {state : State} (here : program[step]? = some .accept) :
      Way program text 0 step state state
  | set {length step next : Nat} {members : CharSet} {char : Char} {state final : State}
      (here : program[step]? = some (.set members next)) (found : text[state.place]? = some char)
      (holds : members.holds char.toNat) (rest : Way program text length next state.advance final) :
      Way program text (length + 1) step state final
  | check {length step next : Nat} {assertion : Assertion} {state final : State}
      (here : program[step]? = some (.check assertion next))
      (holds : assertion.holdsAt text state.place)
      (rest : Way program text length next state final) :
      Way program text (length + 1) step state final
  | save {length step next slot : Nat} {state final : State}
      (here : program[step]? = some (.save slot next))
      (rest : Way program text length next (state.store slot) final) :
      Way program text (length + 1) step state final
  | first {length step first second : Nat} {state final : State}
      (here : program[step]? = some (.fork first second))
      (rest : Way program text length first state final) :
      Way program text (length + 1) step state final
  | second {length step first second : Nat} {state final : State}
      (here : program[step]? = some (.fork first second))
      (rest : Way program text length second state final) :
      Way program text (length + 1) step state final

namespace Way

variable {program : Program} {text : Array Char} {length step : Nat} {state final : State}

theorem accept_iff (here : program[step]? = some .accept) :
    Way program text length step state final ↔ length = 0 ∧ final = state := by
  constructor
  · intro way
    cases way with
    | accept => exact ⟨rfl, rfl⟩
    | set other | check other | save other | first other | second other =>
        rw [here] at other
        simp at other
  · rintro ⟨rfl, rfl⟩
    exact .accept here

theorem set_iff {members : CharSet} {next : Nat}
    (here : program[step]? = some (.set members next)) :
    Way program text length step state final ↔
      ∃ before char, length = before + 1 ∧ text[state.place]? = some char ∧
        members.holds char.toNat ∧ Way program text before next state.advance final := by
  constructor
  · intro way
    cases way with
    | set same found holds rest =>
        rw [here, Option.some.injEq, Step.set.injEq] at same
        rcases same with ⟨rfl, rfl⟩
        exact ⟨_, _, rfl, found, holds, rest⟩
    | accept other | check other | save other | first other | second other =>
        rw [here] at other
        simp at other
  · rintro ⟨before, char, rfl, found, holds, rest⟩
    exact .set here found holds rest

theorem check_iff {assertion : Assertion} {next : Nat}
    (here : program[step]? = some (.check assertion next)) :
    Way program text length step state final ↔
      ∃ before, length = before + 1 ∧ assertion.holdsAt text state.place ∧
        Way program text before next state final := by
  constructor
  · intro way
    cases way with
    | check same holds rest =>
        rw [here, Option.some.injEq, Step.check.injEq] at same
        rcases same with ⟨rfl, rfl⟩
        exact ⟨_, rfl, holds, rest⟩
    | accept other | set other | save other | first other | second other =>
        rw [here] at other
        simp at other
  · rintro ⟨before, rfl, holds, rest⟩
    exact .check here holds rest

theorem save_iff {slot next : Nat} (here : program[step]? = some (.save slot next)) :
    Way program text length step state final ↔
      ∃ before, length = before + 1 ∧ Way program text before next (state.store slot) final := by
  constructor
  · intro way
    cases way with
    | save same rest =>
        rw [here, Option.some.injEq, Step.save.injEq] at same
        rcases same with ⟨rfl, rfl⟩
        exact ⟨_, rfl, rest⟩
    | accept other | set other | check other | first other | second other =>
        rw [here] at other
        simp at other
  · rintro ⟨before, rfl, rest⟩
    exact .save here rest

theorem fork_iff {first second : Nat} (here : program[step]? = some (.fork first second)) :
    Way program text length step state final ↔
      ∃ before, length = before + 1 ∧ (Way program text before first state final ∨
        Way program text before second state final) := by
  constructor
  · intro way
    cases way with
    | first same rest =>
        rw [here, Option.some.injEq, Step.fork.injEq] at same
        rcases same with ⟨rfl, rfl⟩
        exact ⟨_, rfl, Or.inl rest⟩
    | second same rest =>
        rw [here, Option.some.injEq, Step.fork.injEq] at same
        rcases same with ⟨rfl, rfl⟩
        exact ⟨_, rfl, Or.inr rest⟩
    | accept other | set other | check other | save other =>
        rw [here] at other
        simp at other
  · rintro ⟨before, rfl, rest | rest⟩
    · exact .first here rest
    · exact .second here rest

end Way

end Regex

end ImportAlias
