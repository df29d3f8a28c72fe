import ImportAlias.Proofs.Regex.Search

/-!
# Programs do what their expressions say

An expression relates the state in which it starts to match to the states in which a match can end.
The program of an expression leads through this relation to the step it was compiled in front of,
and so a search finds something exactly if the expression matches somewhere.
-/

namespace ImportAlias

namespace Regex

/-! ### Matches of expressions -/

/-- A relation between states, a number of times one after the other. -/
def Times (relation : State → State → Prop) : Nat → State → State → Prop
  | 0, state, after => after = state
  | count + 1, state, after =>
    ∃ between, relation state between ∧ Times relation count between after

namespace Expression

/-- The expression can match from the first state to the second. -/
def Matches (text : Array Char) : Expression → State → State → Prop
  | empty, state, after => after = state
  | set members, state, after =>
    ∃ char, text[state.place]? = some char ∧ members.holds char.toNat ∧ after = state.advance
  | assertion kind, state, after => kind.holdsAt text state.place ∧ after = state
  | group index body, state, after =>
    ∃ between, body.Matches text (state.store (2 * index)) between ∧
      after = between.store (2 * index + 1)
  | repetition body least most _, state, after =>
    ∃ count, least ≤ count ∧ (∀ bound, most = some bound → count ≤ max least bound) ∧
      Times (body.Matches text) count state after
  | sequence first second, state, after =>
    ∃ between, first.Matches text state between ∧ second.Matches text between after
  | choice first second, state, after =>
    first.Matches text state after ∨ second.Matches text state after

end Expression

section Times

variable {relation : State → State → Prop} {state after : State}

theorem times_add_iff {first second : Nat} :
    Times relation (first + second) state after ↔
      ∃ between, Times relation first state between ∧ Times relation second between after := by
  induction first generalizing state with
  | zero => simp [Times]
  | succ first ih =>
      rw [Nat.succ_add]
      simp only [Times, ih]
      constructor
      · rintro ⟨next, related, between, before, behind⟩
        exact ⟨between, ⟨next, related, before⟩, behind⟩
      · rintro ⟨between, ⟨next, related, before⟩, behind⟩
        exact ⟨next, related, between, before, behind⟩

theorem times_one_iff : Times relation 1 state after ↔ relation state after := by
  simp [Times]

/-- The relation at most a number of times. -/
def AtMost (relation : State → State → Prop) (most : Nat) (state after : State) : Prop :=
  ∃ count, count ≤ most ∧ Times relation count state after

/-- The relation any number of times. -/
def Repeatedly (relation : State → State → Prop) (state after : State) : Prop :=
  ∃ count, Times relation count state after

theorem atMost_succ_iff {most : Nat} :
    AtMost relation (most + 1) state after ↔
      (∃ between, relation state between ∧ AtMost relation most between after) ∨ after = state := by
  constructor
  · rintro ⟨count, few, times⟩
    cases count with
    | zero => exact Or.inr times
    | succ count =>
        rcases times with ⟨between, related, times⟩
        exact Or.inl ⟨between, related, count, by omega, times⟩
  · rintro (⟨between, related, count, few, times⟩ | same)
    · exact ⟨count + 1, by omega, between, related, times⟩
    · exact ⟨0, Nat.zero_le _, same⟩

theorem repeatedly_iff :
    Repeatedly relation state after ↔
      (∃ between, relation state between ∧ Repeatedly relation between after) ∨ after = state := by
  constructor
  · rintro ⟨count, times⟩
    cases count with
    | zero => exact Or.inr times
    | succ count =>
        rcases times with ⟨between, related, times⟩
        exact Or.inl ⟨between, related, count, times⟩
  · rintro (⟨between, related, count, times⟩ | same)
    · exact ⟨count + 1, between, related, times⟩
    · exact ⟨0, same⟩

end Times

/-! ### From one step to another -/

variable {program : Program} {text : Array Char} {step next leave : Nat}
variable {relation other : State → State → Prop}

/-- The ways from a step are those from another one with a relation between states in front. A part
of a way is not longer than the way, so that a loop can be taken apart. -/
structure Leads (program : Program) (text : Array Char) (step next : Nat)
    (relation : State → State → Prop) : Prop where
  split {length : Nat} {state final : State} (way : Way program text length step state final) :
    ∃ after rest, rest ≤ length ∧ relation state after ∧ Way program text rest next after final
  join {length : Nat} {state after final : State} (related : relation state after)
    (way : Way program text length next after final) :
    ∃ total, Way program text total step state final

namespace Leads

theorem refl (program : Program) (text : Array Char) (step : Nat) :
    Leads program text step step (fun state after => after = state) := by
  constructor
  · intro length state final way
    exact ⟨state, length, Nat.le_refl _, rfl, way⟩
  · rintro length state after final rfl way
    exact ⟨length, way⟩

theorem trans {middle : Nat} (first : Leads program text step middle relation)
    (second : Leads program text middle next other) :
    Leads program text step next
      (fun state after => ∃ between, relation state between ∧ other between after) := by
  constructor
  · intro length state final way
    rcases first.split way with ⟨between, rest, shorter, related, way⟩
    rcases second.split way with ⟨after, rest', shorter', related', way⟩
    exact ⟨after, rest', Nat.le_trans shorter' shorter, ⟨between, related, related'⟩, way⟩
  · rintro length state after final ⟨between, related, related'⟩ way
    rcases second.join related' way with ⟨total, way⟩
    exact first.join related way

theorem congr (leads : Leads program text step next relation)
    (same : ∀ state after, relation state after ↔ other state after) :
    Leads program text step next other := by
  have equal : relation = other := by
    funext state after
    exact propext (same state after)
  exact equal ▸ leads

theorem of_set {members : CharSet} (here : program[step]? = some (.set members next)) :
    Leads program text step next ((Expression.set members).Matches text) := by
  constructor
  · intro length state final way
    rcases (Way.set_iff here).mp way with
      ⟨before, char, rfl, found, holds, onward⟩
    exact ⟨state.advance, before, Nat.le_succ _, ⟨char, found, holds, rfl⟩, onward⟩
  · rintro length state after final ⟨char, found, holds, rfl⟩ way
    exact ⟨length + 1, (Way.set_iff here).mpr ⟨length, char, rfl, found, holds, way⟩⟩

theorem of_check {assertion : Assertion} (here : program[step]? = some (.check assertion next)) :
    Leads program text step next ((Expression.assertion assertion).Matches text) := by
  constructor
  · intro length state final way
    rcases (Way.check_iff here).mp way with ⟨before, rfl, holds, onward⟩
    exact ⟨state, before, Nat.le_succ _, ⟨holds, rfl⟩, onward⟩
  · rintro length state after final ⟨holds, rfl⟩ way
    exact ⟨length + 1, (Way.check_iff here).mpr ⟨length, rfl, holds, way⟩⟩

theorem of_save {slot : Nat} (here : program[step]? = some (.save slot next)) :
    Leads program text step next (fun state after => after = state.store slot) := by
  constructor
  · intro length state final way
    rcases (Way.save_iff here).mp way with ⟨before, rfl, onward⟩
    exact ⟨state.store slot, before, Nat.le_succ _, rfl, onward⟩
  · rintro length state after final rfl way
    exact ⟨length + 1, (Way.save_iff here).mpr ⟨length, rfl, way⟩⟩

theorem of_fork {first second : Nat} (here : program[step]? = some (.fork first second))
    (fromFirst : Leads program text first next relation)
    (fromSecond : Leads program text second next other) :
    Leads program text step next
      (fun state after => relation state after ∨ other state after) := by
  constructor
  · intro length state final way
    rcases (Way.fork_iff here).mp way with ⟨before, rfl, way | way⟩
    · rcases fromFirst.split way with ⟨after, rest, shorter, related, way⟩
      exact ⟨after, rest, Nat.le_succ_of_le shorter, Or.inl related, way⟩
    · rcases fromSecond.split way with ⟨after, rest, shorter, related, way⟩
      exact ⟨after, rest, Nat.le_succ_of_le shorter, Or.inr related, way⟩
  · rintro length state after final (related | related) way
    · rcases fromFirst.join related way with ⟨total, way⟩
      exact ⟨total + 1, (Way.fork_iff here).mpr ⟨total, rfl, Or.inl way⟩⟩
    · rcases fromSecond.join related way with ⟨total, way⟩
      exact ⟨total + 1, (Way.fork_iff here).mpr ⟨total, rfl, Or.inr way⟩⟩

/-- Greed makes no difference for where a fork leads. -/
theorem of_forkOf {greedy : Bool} {body : Nat}
    (here : program[step]? = some (Program.forkOf greedy body leave))
    (fromBody : Leads program text body next relation)
    (fromLeave : Leads program text leave next other) :
    Leads program text step next
      (fun state after => relation state after ∨ other state after) := by
  cases greedy with
  | true => exact of_fork here fromBody fromLeave
  | false => exact (of_fork here fromLeave fromBody).congr (fun _ _ => or_comm)

/-- A loop leads out of it after any number of rounds. -/
theorem of_loop {greedy : Bool} {body : Nat}
    (here : program[step]? = some (Program.forkOf greedy body leave))
    (round : Leads program text body step relation) :
    Leads program text step leave (Repeatedly relation) := by
  have fork {length : Nat} {state final : State} :
      Way program text length step state final ↔ ∃ before, length = before + 1 ∧
        (Way program text before body state final ∨ Way program text before leave state final) := by
    cases greedy with
    | true => exact Way.fork_iff here
    | false =>
        rw [Way.fork_iff here]
        simp only [or_comm]
  constructor
  · intro length
    -- What is left of a way behind a round is shorter than the way.
    induction length using Nat.strongRecOn with
    | ind length ih =>
        intro state final way
        rcases fork.mp way with ⟨before, rfl, way | way⟩
        · rcases round.split way with ⟨between, rest, shorter, related, way⟩
          rcases ih rest (by omega) way with ⟨after, rest', shorter', times, way⟩
          exact ⟨after, rest', by omega, repeatedly_iff.mpr (Or.inl ⟨between, related, times⟩), way⟩
        · exact ⟨state, before, Nat.le_succ _, ⟨0, rfl⟩, way⟩
  · rintro length state after final ⟨count, times⟩ way
    induction count generalizing state with
    | zero =>
        subst times
        exact ⟨length + 1, fork.mpr ⟨length, rfl, Or.inr way⟩⟩
    | succ count ih =>
        rcases times with ⟨between, related, times⟩
        rcases ih times with ⟨rest, way⟩
        rcases round.join related way with ⟨total, way⟩
        exact ⟨total + 1, fork.mpr ⟨total, rfl, Or.inl way⟩⟩

end Leads

/-! ### Where steps are placed -/

/-- The program has all steps of another one from a number on. -/
def Placed (program : Program) (first : Nat) (part : Program) : Prop :=
  ∀ index, first ≤ index → index < part.size → program[index]? = part[index]?

/-- The second program goes on behind the steps of the first one. -/
structure Extends (program larger : Program) : Prop where
  size : program.size ≤ larger.size
  steps : ∀ index, index < program.size → larger[index]? = program[index]?

namespace Extends

theorem refl (program : Program) : Extends program program :=
  ⟨Nat.le_refl _, fun _ _ => rfl⟩

theorem trans {program larger largest : Program} (first : Extends program larger)
    (second : Extends larger largest) : Extends program largest := by
  refine ⟨Nat.le_trans first.size second.size, ?_⟩
  intro index inside
  rw [second.steps index (Nat.lt_of_lt_of_le inside first.size), first.steps index inside]

theorem emit (step : Step) (program : Program) : Extends program (program.emit step).2 := by
  refine ⟨?_, ?_⟩
  · simp [Program.emit]
  · intro index inside
    simp [Program.emit, Array.getElem?_push, Nat.ne_of_lt inside]

theorem set {program larger : Program} {index : Nat} (extended : Extends program larger)
    (behind : program.size ≤ index) (step : Step) : Extends program (larger.set! index step) := by
  refine ⟨?_, ?_⟩
  · simpa using extended.size
  · intro other inside
    rw [Array.set!_eq_setIfInBounds, Array.getElem?_setIfInBounds, if_neg (by omega)]
    exact extended.steps other inside

end Extends

namespace Placed

variable {part larger : Program} {first : Nat}

theorem of_extends (placed : Placed program first larger) (extended : Extends part larger) :
    Placed program first part := by
  intro index behind inside
  rw [placed index behind (Nat.lt_of_lt_of_le inside extended.size), extended.steps index inside]

theorem mono (placed : Placed program first part) {second : Nat} (le : first ≤ second) :
    Placed program second part :=
  fun index behind inside => placed index (Nat.le_trans le behind) inside

theorem emit {step : Step} (placed : Placed program first (part.emit step).2)
    (behind : first ≤ part.size) : program[part.size]? = some step := by
  rw [placed part.size behind (by simp [Program.emit])]
  simp [Program.emit]

end Placed

/-- What is built in front of a step goes on behind the program that was there. -/
def Builds (build : Nat → Program → Nat × Program) : Prop :=
  ∀ next program, Extends program (build next program).2

namespace Builds

variable {copy : Nat → Program → Nat × Program}

theorem copies (builds : Builds copy) (count : Nat) : Builds (Program.copies copy count) := by
  induction count with
  | zero => exact fun next program => Extends.refl program
  | succ count ih =>
      intro next program
      exact (builds next program).trans (ih _ _)

theorem optionalCopies (builds : Builds copy) (greedy : Bool) (leave count : Nat) :
    Builds (Program.optionalCopies copy greedy leave count) := by
  induction count with
  | zero => exact fun next program => Extends.refl program
  | succ count ih =>
      intro next program
      exact ((builds next program).trans (Extends.emit _ _)).trans (ih _ _)

theorem loop (builds : Builds copy) (greedy : Bool) (leave : Nat) (program : Program) :
    Extends program (Program.loop copy greedy leave program).2.2 := by
  apply Extends.set _ (Nat.le_refl _)
  exact (Extends.emit _ _).trans (builds _ _)

/-- Compiling an expression keeps the program that was there. -/
theorem compile (expression : Expression) : Builds expression.compile := by
  induction expression with
  | empty => exact fun next program => Extends.refl program
  | set members => exact fun next program => Extends.emit _ _
  | assertion kind => exact fun next program => Extends.emit _ _
  | group index body ih =>
      intro next program
      exact ((Extends.emit _ _).trans (ih _ _)).trans (Extends.emit _ _)
  | sequence first second ihFirst ihSecond =>
      intro next program
      exact (ihSecond _ _).trans (ihFirst _ _)
  | choice first second ihFirst ihSecond =>
      intro next program
      exact ((ihSecond _ _).trans (ihFirst _ _)).trans (Extends.emit _ _)
  | repetition body least most greedy ih =>
      intro next program
      cases most with
      | some most =>
          exact (ih.optionalCopies greedy next _ _ _).trans (ih.copies least _ _)
      | none =>
          have looped := ih.loop greedy next program
          rw [Expression.compile]
          dsimp only
          split
          · split
            · exact looped
            · exact looped.trans (Extends.emit _ _)
          · exact looped.trans (ih.copies _ _ _)

end Builds

/-! ### Compiled expressions -/

/-- Wherever the steps of a copy are placed, they lead through a relation to the step behind. -/
def LeadsThrough (program : Program) (text : Array Char) (copy : Nat → Program → Nat × Program)
    (relation : State → State → Prop) : Prop :=
  ∀ next part, Placed program part.size (copy next part).2 →
    Leads program text (copy next part).1 next relation

namespace LeadsThrough

variable {copy : Nat → Program → Nat × Program}

theorem copies (builds : Builds copy) (through : LeadsThrough program text copy relation)
    (count : Nat) :
    LeadsThrough program text (Program.copies copy count) (Times relation count) := by
  induction count with
  | zero => exact fun next part placed => Leads.refl program text next
  | succ count ih =>
      intro next part placed
      have extended := builds.copies count (copy next part).1 (copy next part).2
      have first := ih (copy next part).1 (copy next part).2 (placed.mono (builds next part).size)
      have last := through next part (placed.of_extends extended)
      apply (first.trans last).congr
      intro state after
      simp only [times_add_iff, times_one_iff]

/-- Copies that may be left out lead to where they are left for after at most all of them. -/
theorem optionalCopies (builds : Builds copy) (through : LeadsThrough program text copy relation)
    {greedy : Bool} {count most : Nat} {part : Program}
    (leads : Leads program text next leave (AtMost relation most))
    (placed : Placed program part.size
      (Program.optionalCopies copy greedy leave count next part).2) :
    Leads program text (Program.optionalCopies copy greedy leave count next part).1 leave
      (AtMost relation (most + count)) := by
  induction count generalizing next most part with
  | zero => exact leads
  | succ count ih =>
      have emitted := Extends.emit (Program.forkOf greedy (copy next part).1 leave)
        (copy next part).2
      have extended := builds.optionalCopies greedy leave count (copy next part).2.size
        ((copy next part).2.emit (Program.forkOf greedy (copy next part).1 leave)).2
      have here := (placed.of_extends extended).emit (builds next part).size
      have body := through next part (placed.of_extends (emitted.trans extended))
      have fork := Leads.of_forkOf here (body.trans leads) (Leads.refl program text leave)
      have behind := Nat.le_trans (builds next part).size emitted.size
      have sum : most + (count + 1) = most + 1 + count := by omega
      rw [sum]
      exact ih (fork.congr (fun _ _ => atMost_succ_iff.symm)) (placed.mono behind)

/-- The start of a loop leads through a round to the fork behind it, and the fork leads out of the
loop after any number of rounds. -/
theorem loop (builds : Builds copy) (through : LeadsThrough program text copy relation)
    {greedy : Bool} {part : Program}
    (placed : Placed program part.size (Program.loop copy greedy leave part).2.2) :
    Leads program text (Program.loop copy greedy leave part).1
        (Program.loop copy greedy leave part).2.1 relation ∧
      Leads program text (Program.loop copy greedy leave part).2.1 leave (Repeatedly relation) := by
  have built := builds part.size (part.emit .accept).2
  have size : (part.emit .accept).2.size = part.size + 1 := by simp [Program.emit]
  have inside : part.size < (copy part.size (part.emit .accept).2).2.size :=
    Nat.lt_of_lt_of_le (by omega) built.size
  have looped : (Program.loop copy greedy leave part).2.2 =
      (copy part.size (part.emit .accept).2).2.set! part.size
        (Program.forkOf greedy (copy part.size (part.emit .accept).2).1 leave) := rfl
  have bodyPlaced : Placed program (part.emit .accept).2.size
      (copy part.size (part.emit .accept).2).2 := by
    intro index behind within
    have kept := placed index (by omega) (by simpa [looped] using within)
    rw [kept, looped, Array.set!_eq_setIfInBounds, Array.getElem?_setIfInBounds,
      if_neg (by omega)]
  have round := through part.size (part.emit .accept).2 bodyPlaced
  have here : program[part.size]? =
      some (Program.forkOf greedy (copy part.size (part.emit .accept).2).1 leave) := by
    rw [placed part.size (Nat.le_refl _) (by simpa [looped] using inside), looped,
      Array.set!_eq_setIfInBounds, Array.getElem?_setIfInBounds, if_pos rfl, if_pos inside]
  exact ⟨round, Leads.of_loop here round⟩

theorem times_between_iff {least most : Nat} {state after : State} :
    (∃ between, Times relation least state between ∧ AtMost relation (most - least) between after) ↔
      ∃ count, least ≤ count ∧ (∀ bound, some most = some bound → count ≤ max least bound) ∧
        Times relation count state after := by
  constructor
  · rintro ⟨between, first, count, few, second⟩
    refine ⟨least + count, Nat.le_add_right _ _, ?_, times_add_iff.mpr ⟨between, first, second⟩⟩
    intro bound isMost
    rw [Option.some.injEq] at isMost
    omega
  · rintro ⟨count, many, few, times⟩
    have within := few most rfl
    rw [← Nat.add_sub_of_le many, times_add_iff] at times
    rcases times with ⟨between, first, second⟩
    exact ⟨between, first, count - least, by omega, second⟩

theorem times_from_iff {least : Nat} {state after : State} :
    (∃ between, Times relation least state between ∧ Repeatedly relation between after) ↔
      ∃ count, least ≤ count ∧ (∀ bound, none = some bound → count ≤ max least bound) ∧
        Times relation count state after := by
  constructor
  · rintro ⟨between, first, count, second⟩
    refine ⟨least + count, Nat.le_add_right _ _, ?_, times_add_iff.mpr ⟨between, first, second⟩⟩
    intro bound impossible
    simp at impossible
  · rintro ⟨count, many, _, times⟩
    rw [← Nat.add_sub_of_le many, times_add_iff] at times
    rcases times with ⟨between, first, second⟩
    exact ⟨between, first, count - least, second⟩

/-- The steps of a repetition without a greatest count: copies in front of a loop. -/
theorem unbounded {body : Expression} {least : Nat} {greedy : Bool}
    (through : LeadsThrough program text body.compile relation) :
    LeadsThrough program text (Expression.repetition body least none greedy).compile
      (fun state after => ∃ between, Times relation least state between ∧
        Repeatedly relation between after) := by
  have builds := Builds.compile body
  intro next part placed
  rw [Expression.compile] at placed ⊢
  dsimp only at placed ⊢
  have extended := builds.loop greedy next part
  split at placed
  · next zero =>
    subst zero
    have noneFirst {state after : State} : (∃ between, Times relation 0 state between ∧
        Repeatedly relation between after) ↔ Repeatedly relation state after := by
      simp [Times]
    split at placed
    · next productive =>
      rw [if_pos rfl, if_pos productive]
      exact (through.loop builds placed).2.congr (fun _ _ => noneFirst.symm)
    · next unproductive =>
      rw [if_pos rfl, if_neg unproductive]
      rcases through.loop builds (placed.of_extends (Extends.emit _ _)) with ⟨round, leaves⟩
      have here := placed.emit extended.size
      have fork := Leads.of_forkOf here (round.trans leaves) (Leads.refl program text next)
      apply fork.congr
      intro state after
      rw [noneFirst, repeatedly_iff]
  · next positive =>
    rw [if_neg positive]
    have copies := builds.copies (least - 1) (Program.loop body.compile greedy next part).1
      (Program.loop body.compile greedy next part).2.2
    rcases through.loop builds (placed.of_extends copies) with ⟨round, leaves⟩
    have before := through.copies builds (least - 1) _ _ (placed.mono extended.size)
    apply (before.trans (round.trans leaves)).congr
    intro state after
    have least_eq : least = (least - 1) + 1 := by omega
    rw [least_eq]
    simp only [times_add_iff, times_one_iff, Nat.add_sub_cancel]
    constructor
    · rintro ⟨first, times, second, related, more⟩
      exact ⟨second, ⟨first, times, related⟩, more⟩
    · rintro ⟨second, ⟨first, times, related⟩, more⟩
      exact ⟨first, times, second, related, more⟩

/-- The steps of an expression lead through its matches. -/
theorem compile (expression : Expression) :
    LeadsThrough program text expression.compile (expression.Matches text) := by
  induction expression with
  | empty => exact fun next part placed => Leads.refl program text next
  | set members => exact fun next part placed => Leads.of_set (placed.emit (Nat.le_refl _))
  | assertion kind => exact fun next part placed => Leads.of_check (placed.emit (Nat.le_refl _))
  | group index body ih =>
      intro next part placed
      have emitted := Extends.emit (.save (2 * index + 1) next) part
      have built := Builds.compile body part.size (part.emit (.save (2 * index + 1) next)).2
      have last := placed.of_extends (Extends.emit _ _)
      have stops : Leads program text part.size next _ :=
        Leads.of_save ((last.of_extends built).emit (Nat.le_refl _))
      have inside := ih _ _ (last.mono emitted.size)
      have starts : Leads program text _ _ _ :=
        Leads.of_save (placed.emit (emitted.trans built).size)
      apply (starts.trans (inside.trans stops)).congr
      intro state after
      simp [Expression.Matches]
  | sequence first second ihFirst ihSecond =>
      intro next part placed
      have built := Builds.compile second next part
      have firstLeads := ihFirst _ _ (placed.mono built.size)
      have secondLeads := ihSecond next part (placed.of_extends (Builds.compile first _ _))
      exact firstLeads.trans secondLeads
  | choice first second ihFirst ihSecond =>
      intro next part placed
      have secondBuilt := Builds.compile second next part
      have firstBuilt := Builds.compile first next (second.compile next part).2
      have last := placed.of_extends (Extends.emit _ _)
      have secondLeads := ihSecond next part (last.of_extends firstBuilt)
      have firstLeads := ihFirst next _ (last.mono secondBuilt.size)
      have here := placed.emit (secondBuilt.trans firstBuilt).size
      exact Leads.of_fork here firstLeads secondLeads
  | repetition body least most greedy ih =>
      intro next part placed
      cases most with
      | some most =>
          have builds := Builds.compile body
          have optional := builds.optionalCopies greedy next (most - least) next part
          have copies := builds.copies least (Program.optionalCopies body.compile greedy next
            (most - least) next part).1 (Program.optionalCopies body.compile greedy next
              (most - least) next part).2
          have noneFirst : Leads program text next next (AtMost (body.Matches text) 0) := by
            apply (Leads.refl program text next).congr
            intro state after
            simp [AtMost, Times]
          have before := ih.copies builds least _ _ (placed.mono optional.size)
          have behind := ih.optionalCopies builds noneFirst (placed.of_extends copies)
          apply (before.trans behind).congr
          intro state after
          rw [Nat.zero_add]
          exact times_between_iff
      | none =>
          apply (ih.unbounded next part placed).congr
          intro state after
          exact times_from_iff

end LeadsThrough

/-- The ways through the program of an expression are its matches. -/
theorem exists_way_ofExpression_iff {expression : Expression} {state final : State} :
    (∃ length, Way (ofExpression expression).program text length (ofExpression expression).entry
      state final) ↔ expression.Matches text state final := by
  have built := Builds.compile expression 0 #[.accept]
  have accepts : (ofExpression expression).program[0]? = some .accept :=
    built.steps 0 Nat.zero_lt_one
  have leads : Leads (ofExpression expression).program text (ofExpression expression).entry 0
      (expression.Matches text) :=
    LeadsThrough.compile expression 0 #[.accept] (fun _ _ _ => rfl)
  constructor
  · rintro ⟨length, way⟩
    rcases leads.split way with ⟨after, rest, _, matched, way⟩
    rcases (Way.accept_iff accepts).mp way with ⟨_, rfl⟩
    exact matched
  · intro matched
    exact leads.join matched (.accept accepts)

/-- A search for an expression finds what one of its matches stored, and it finds something as soon
as the expression matches from any place. -/
theorem search?_ofExpression_cases (expression : Expression) (text : String) :
    ((ofExpression expression).search? text = none ∧
        ∀ state final : State, state.place ≤ text.toList.length →
          ¬expression.Matches text.toList.toArray state final) ∨
      ∃ start final, start ≤ text.toList.length ∧
        expression.Matches text.toList.toArray
          (.initial (ofExpression expression).slotCount start) final ∧
        (ofExpression expression).search? text =
          some (captured text.toList.toArray (final.store 1).slots) := by
  rcases search?_cases (ofExpression expression) text with
    ⟨miss, noWay⟩ | ⟨start, length, final, inside, way, hit⟩
  · refine Or.inl ⟨miss, ?_⟩
    intro state final inside matched
    rcases exists_way_ofExpression_iff.mpr matched with ⟨length, way⟩
    exact noWay state inside length final way
  · exact Or.inr ⟨start, final, inside, exists_way_ofExpression_iff.mp ⟨length, way⟩, hit⟩

end Regex

end ImportAlias
