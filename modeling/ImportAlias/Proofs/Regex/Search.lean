import ImportAlias.Proofs.Regex.Way

/-!
# What a search finds

A search finds the end of a way, and it fails only where there is no way. It tries every pair of a
step and a place at most once, so the marks say how far it came: when it fails, the tried pairs are
closed under the steps of the program, and none of them is an accepting one.
-/

namespace ImportAlias

namespace Regex

variable {program : Program} {text : Array Char}

/-! ### What is found is the end of a way -/

/-- The slots are those at the end of a way from one of the jobs, once the jobs before it have put
back what the slots held. -/
def Finds (program : Program) (text : Array Char) (found : Slots) : Slots → List Job → Prop
  | _, [] => False
  | slots, .visit step place :: jobs =>
    (∃ length final, Way program text length step ⟨place, slots⟩ final ∧
      found = (final.store 1).slots) ∨ Finds program text found slots jobs
  | slots, .restore slot old :: jobs =>
    Finds program text found (slots.setIfInBounds slot old) jobs

/-- What was stored is put back by the job for it. -/
theorem setIfInBounds_getD (slots : Slots) (slot : Nat) (value : Option Nat) :
    (slots.setIfInBounds slot value).setIfInBounds slot (slots.getD slot none) = slots := by
  apply Array.ext_getElem?
  intro index
  rw [Array.setIfInBounds_setIfInBounds, Array.getElem?_setIfInBounds]
  split
  · next same =>
    subst same
    split
    · next inside => simp [inside]
    · next outside => simp [outside]
  · rfl

theorem finds_of_explore_eq_some {fuel : Nat} {visited after : Array Bool} {slots found : Slots}
    {jobs : List Job}
    (explored : explore program text fuel visited slots jobs = (after, some found)) :
    Finds program text found slots jobs := by
  induction fuel generalizing visited slots jobs with
  | zero => simp [explore] at explored
  | succ fuel ih =>
      match jobs with
      | [] => simp [explore] at explored
      | .restore slot old :: jobs =>
          rw [explore] at explored
          rw [Finds]
          exact ih explored
      | .visit step place :: jobs =>
          rw [explore] at explored
          dsimp only at explored
          split at explored
          · exact Or.inr (ih explored)
          · split at explored
            · exact Or.inr (ih explored)
            · next here =>
              rw [Prod.mk.injEq, Option.some.injEq] at explored
              exact Or.inl ⟨_, _, .accept here, explored.2.symm⟩
            · next members next here =>
              split at explored
              · next char found =>
                split at explored
                · next holds =>
                  rcases ih explored with ⟨length, final, rest, stored⟩ | later
                  · exact Or.inl ⟨_, final, .set here found holds rest, stored⟩
                  · exact Or.inr later
                · exact Or.inr (ih explored)
              · exact Or.inr (ih explored)
            · next assertion next here =>
              split at explored
              · next holds =>
                rcases ih explored with ⟨length, final, rest, stored⟩ | later
                · exact Or.inl ⟨_, final, .check here holds rest, stored⟩
                · exact Or.inr later
              · exact Or.inr (ih explored)
            · next slot next here =>
              rcases ih explored with ⟨length, final, rest, stored⟩ | later
              · exact Or.inl ⟨_, final, .save here rest, stored⟩
              · rw [Finds, setIfInBounds_getD] at later
                exact Or.inr later
            · next first second here =>
              rcases ih explored with
                ⟨length, final, rest, stored⟩ | ⟨length, final, rest, stored⟩ | later
              · exact Or.inl ⟨_, final, .first here rest, stored⟩
              · exact Or.inl ⟨_, final, .second here rest, stored⟩
              · exact Or.inr later

/-! ### A search fails only where there is no way -/

/-- The pairs of a step and a place that come directly behind a pair. -/
def successors (program : Program) (text : Array Char) (step place : Nat) : List (Nat × Nat) :=
  match program[step]? with
  | none | some .accept => []
  | some (.set members next) =>
    match text[place]? with
    | some char => if members.holds char.toNat then [(next, place + 1)] else []
    | none => []
  | some (.check assertion next) => if assertion.holdsAt text place then [(next, place)] else []
  | some (.save _ next) => [(next, place)]
  | some (.fork first second) => [(first, place), (second, place)]

/-- The pair was tried, or is none of a step of the program and a place of the text. -/
def Tried (text : Array Char) (visited : Array Bool) (step place : Nat) : Prop :=
  visited.getD (step * (text.size + 1) + place) true = true

/-- The marks of a search that has jobs left: what follows a tried pair was tried too or is one of
the jobs. -/
structure Explored (program : Program) (text : Array Char) (visited : Array Bool)
    (jobs : List Job) : Prop where
  size : visited.size = program.size * (text.size + 1)
  places : ∀ step place, .visit step place ∈ jobs → place ≤ text.size
  noAccept : ∀ step place, step < program.size → place ≤ text.size →
    Tried text visited step place → program[step]? ≠ some .accept
  followed : ∀ step place, step < program.size → place ≤ text.size →
    Tried text visited step place → ∀ next ∈ successors program text step place,
      Tried text visited next.1 next.2 ∨ .visit next.1 next.2 ∈ jobs

/-- A mark tells the pair that it was made for. -/
theorem mark_eq_iff {width step place otherStep otherPlace : Nat} (inside : place < width)
    (otherInside : otherPlace < width) :
    step * width + place = otherStep * width + otherPlace ↔
      step = otherStep ∧ place = otherPlace := by
  constructor
  · intro same
    have samePlace := congrArg (· % width) same
    simp only [Nat.mul_add_mod_of_lt inside, Nat.mul_add_mod_of_lt otherInside] at samePlace
    subst samePlace
    have sameRow := Nat.add_right_cancel same
    exact ⟨Nat.eq_of_mul_eq_mul_right (Nat.lt_of_le_of_lt (Nat.zero_le _) inside) sameRow, rfl⟩
  · rintro ⟨rfl, rfl⟩
    rfl

/-- One more mark makes its own pair a tried one and no other. -/
theorem tried_mark_iff {visited : Array Bool} {step place other otherPlace : Nat}
    (inside : place ≤ text.size) (otherInside : otherPlace ≤ text.size) :
    Tried text (visited.setIfInBounds (step * (text.size + 1) + place) true) other otherPlace ↔
      (step = other ∧ place = otherPlace) ∨ Tried text visited other otherPlace := by
  unfold Tried
  rw [Array.getD_eq_getD_getElem?, Array.getD_eq_getD_getElem?, Array.getElem?_setIfInBounds,
    ← mark_eq_iff (Nat.lt_succ_of_le inside) (Nat.lt_succ_of_le otherInside)]
  by_cases same : step * (text.size + 1) + place = other * (text.size + 1) + otherPlace
  · rw [if_pos same]
    split <;> simp [same]
  · simp [same]

/-- A pair that was not tried before takes one off the marks that are not set. -/
theorem count_mark {visited : Array Bool} {step place : Nat}
    (untried : ¬Tried text visited step place) :
    (visited.setIfInBounds (step * (text.size + 1) + place) true).count false + 1 =
      visited.count false := by
  unfold Tried at untried
  generalize step * (text.size + 1) + place = mark at untried
  rw [Array.getD_eq_getD_getElem?] at untried
  by_cases inside : mark < visited.size
  · rw [Array.getElem?_eq_getElem inside, Option.getD_some, Bool.not_eq_true] at untried
    have member : false ∈ visited := untried ▸ Array.getElem_mem inside
    have positive := Array.count_pos_iff.mpr member
    rw [Array.setIfInBounds_def, dif_pos inside, Array.count_set, untried]
    simp
    omega
  · simp [inside] at untried

theorem explore_nil (fuel : Nat) (visited : Array Bool) (slots : Slots) :
    explore program text fuel visited slots [] = (visited, none) := by
  cases fuel with
  | zero => rw [explore]
  | succ fuel =>
      rw [explore]
      exact Nat.succ_ne_zero fuel

theorem explore_of_tried {fuel : Nat} {visited : Array Bool} {slots : Slots} {step place : Nat}
    {jobs : List Job} (tried : Tried text visited step place) :
    explore program text (fuel + 1) visited slots (.visit step place :: jobs) =
      explore program text fuel visited slots jobs := by
  rw [Tried] at tried
  rw [explore]
  dsimp only
  rw [if_pos tried]

theorem explore_of_accept {fuel : Nat} {visited : Array Bool} {slots : Slots} {step place : Nat}
    {jobs : List Job} (untried : ¬Tried text visited step place)
    (accepts : program[step]? = some .accept) :
    explore program text (fuel + 1) visited slots (.visit step place :: jobs) =
      (visited.setIfInBounds (step * (text.size + 1) + place) true,
        some (slots.setIfInBounds 1 (some place))) := by
  rw [Tried] at untried
  rw [explore]
  dsimp only
  rw [if_neg untried, accepts]

/-- At a pair that was not tried yet, a search marks it and goes on with what follows it. -/
theorem exists_explore_visit (fuel : Nat) {visited : Array Bool} (slots : Slots) {step place : Nat}
    (jobs : List Job) (untried : ¬Tried text visited step place)
    (noAccept : program[step]? ≠ some .accept) :
    ∃ after restores, (∀ job ∈ restores, ∃ slot old, job = Job.restore slot old) ∧
      (successors program text step place).length + restores.length ≤ 2 ∧
      explore program text (fuel + 1) visited slots (.visit step place :: jobs) =
        explore program text fuel
          (visited.setIfInBounds (step * (text.size + 1) + place) true) after
          ((successors program text step place).map (fun next => .visit next.1 next.2) ++
            (restores ++ jobs)) := by
  have noRestores : ∀ job ∈ ([] : List Job), ∃ slot old, job = Job.restore slot old :=
    fun job nowhere => absurd nowhere List.not_mem_nil
  rw [Tried] at untried
  rw [explore]
  dsimp only
  rw [if_neg untried]
  split
  · next here => exact ⟨slots, [], noRestores, by simp [successors, here]⟩
  · next here => exact absurd here noAccept
  · next members next here =>
    split
    · next char found =>
      split
      · next holds => exact ⟨slots, [], noRestores, by simp [successors, here, found, holds]⟩
      · next fails => exact ⟨slots, [], noRestores, by simp [successors, here, found, fails]⟩
    · next ends => exact ⟨slots, [], noRestores, by simp [successors, here, ends]⟩
  · next assertion next here =>
    split
    · next holds => exact ⟨slots, [], noRestores, by simp [successors, here, holds]⟩
    · next fails => exact ⟨slots, [], noRestores, by simp [successors, here, fails]⟩
  · next slot next here =>
    refine ⟨slots.setIfInBounds slot (some place), [.restore slot (slots.getD slot none)], ?_,
      by simp [successors, here], ?_⟩
    · intro job member
      exact ⟨slot, _, List.mem_singleton.mp member⟩
    · simp [successors, here]
  · next first second here => exact ⟨slots, [], noRestores, by simp [successors, here]⟩

theorem le_size_of_mem_successors {step place : Nat} {next : Nat × Nat} (inside : place ≤ text.size)
    (member : next ∈ successors program text step place) : next.2 ≤ text.size := by
  unfold successors at member
  split at member
  · exact absurd member List.not_mem_nil
  · exact absurd member List.not_mem_nil
  · split at member
    · next char found =>
      have below := (Array.getElem?_eq_some_iff.mp found).1
      split at member
      · rw [List.mem_singleton.mp member]
        exact below
      · exact absurd member List.not_mem_nil
    · exact absurd member List.not_mem_nil
  · split at member
    · rw [List.mem_singleton.mp member]
      exact inside
    · exact absurd member List.not_mem_nil
  · rw [List.mem_singleton.mp member]
    exact inside
  · rcases List.mem_cons.mp member with rfl | more
    · exact inside
    · rw [List.mem_singleton.mp more]
      exact inside

theorem lt_size_of_mem_successors {step place : Nat} {next : Nat × Nat}
    (member : next ∈ successors program text step place) : step < program.size := by
  by_cases inside : step < program.size
  · exact inside
  · simp [successors, inside] at member

/-- A way that does not end yet goes on at a pair that comes directly behind. -/
theorem exists_successor_of_way {length step : Nat} {state final : State}
    (way : Way program text (length + 1) step state final) :
    ∃ next after, next ∈ successors program text step state.place ∧ next.2 = after.place ∧
      Way program text length next.1 after final := by
  cases way with
  | @set _ _ next members char _ _ here found holds rest =>
      exact ⟨(next, state.place + 1), state.advance, by simp [successors, here, found, holds], rfl,
        rest⟩
  | @check _ _ next assertion _ _ here holds rest =>
      exact ⟨(next, state.place), state, by simp [successors, here, holds], rfl, rest⟩
  | @save _ _ next slot _ _ here rest =>
      exact ⟨(next, state.place), state.store slot, by simp [successors, here], rfl, rest⟩
  | @first _ _ first second _ _ here rest =>
      exact ⟨(first, state.place), state, by simp [successors, here], rfl, rest⟩
  | @second _ _ first second _ _ here rest =>
      exact ⟨(second, state.place), state, by simp [successors, here], rfl, rest⟩

namespace Explored

variable {visited : Array Bool} {jobs : List Job}

/-- A job that puts a slot back is no pair that is still to be tried. -/
theorem of_restore {slot : Nat} {old : Option Nat}
    (explored : Explored program text visited (.restore slot old :: jobs)) :
    Explored program text visited jobs := by
  refine ⟨explored.size, ?_, explored.noAccept, ?_⟩
  · intro step place member
    exact explored.places step place (List.mem_cons_of_mem _ member)
  · intro step place stepInside placeInside tried next member
    rcases explored.followed step place stepInside placeInside tried next member with done | job
    · exact Or.inl done
    · exact Or.inr (by simpa using job)

/-- A job for a pair that was tried can be dropped. -/
theorem of_tried {step place : Nat}
    (explored : Explored program text visited (.visit step place :: jobs))
    (again : Tried text visited step place) : Explored program text visited jobs := by
  refine ⟨explored.size, ?_, explored.noAccept, ?_⟩
  · intro other otherPlace member
    exact explored.places other otherPlace (List.mem_cons_of_mem _ member)
  · intro other otherPlace stepInside placeInside tried next member
    rcases explored.followed other otherPlace stepInside placeInside tried next member with
      done | job
    · exact Or.inl done
    · rcases List.mem_cons.mp job with here | later
      · rw [Job.visit.injEq] at here
        rw [here.1, here.2]
        exact Or.inl again
      · exact Or.inr later

/-- A pair can be marked when what follows it becomes a job. -/
theorem mark {step place : Nat} {restores : List Job}
    (explored : Explored program text visited (.visit step place :: jobs))
    (isRestore : ∀ job ∈ restores, ∃ slot old, job = Job.restore slot old)
    (noAccept : program[step]? ≠ some .accept) :
    Explored program text (visited.setIfInBounds (step * (text.size + 1) + place) true)
      ((successors program text step place).map (fun next => .visit next.1 next.2) ++
        (restores ++ jobs)) := by
  have inside := explored.places step place List.mem_cons_self
  refine ⟨?_, ?_, ?_, ?_⟩
  · rw [Array.size_setIfInBounds]
    exact explored.size
  · intro other otherPlace member
    rcases List.mem_append.mp member with follows | later
    · rcases List.mem_map.mp follows with ⟨next, isNext, made⟩
      rw [Job.visit.injEq] at made
      rw [← made.2]
      exact le_size_of_mem_successors inside isNext
    · rcases List.mem_append.mp later with restore | job
      · rcases isRestore _ restore with ⟨slot, old, impossible⟩
        simp at impossible
      · exact explored.places other otherPlace (List.mem_cons_of_mem _ job)
  · intro other otherPlace stepInside placeInside tried
    rcases (tried_mark_iff inside placeInside).mp tried with ⟨rfl, _⟩ | before
    · exact noAccept
    · exact explored.noAccept other otherPlace stepInside placeInside before
  · intro other otherPlace stepInside placeInside tried next member
    have nextInside := le_size_of_mem_successors placeInside member
    rcases (tried_mark_iff inside placeInside).mp tried with ⟨rfl, rfl⟩ | before
    · apply Or.inr
      apply List.mem_append_left
      exact List.mem_map.mpr ⟨next, member, rfl⟩
    · rcases explored.followed other otherPlace stepInside placeInside before next member with
        done | job
      · exact Or.inl ((tried_mark_iff inside nextInside).mpr (Or.inr done))
      · rcases List.mem_cons.mp job with here | later
        · rw [Job.visit.injEq] at here
          exact Or.inl ((tried_mark_iff inside nextInside).mpr (Or.inl ⟨here.1.symm, here.2.symm⟩))
        · exact Or.inr (List.mem_append_right _ (List.mem_append_right _ later))

/-- With enough fuel, a search that finds nothing leaves no job undone and forgets no mark. The fuel
pays for every job, and a pair that is marked pays for the two jobs that it can leave. -/
theorem of_explore_eq_none {fuel : Nat} {after : Array Bool} {slots : Slots}
    (explored : Explored program text visited jobs)
    (enough : 2 * visited.count false + jobs.length ≤ fuel)
    (nothing : explore program text fuel visited slots jobs = (after, none)) :
    Explored program text after [] ∧
      (∀ step place, place ≤ text.size → Tried text visited step place →
        Tried text after step place) ∧
      ∀ step place, .visit step place ∈ jobs → Tried text after step place := by
  induction fuel generalizing visited slots jobs with
  | zero =>
      have noJobs : jobs = [] := by
        apply List.eq_nil_of_length_eq_zero
        omega
      subst noJobs
      rw [explore_nil, Prod.mk.injEq] at nothing
      rcases nothing with ⟨rfl, _⟩
      exact ⟨explored, fun _ _ _ tried => tried, fun _ _ job => absurd job List.not_mem_nil⟩
  | succ fuel ih =>
      match jobs with
      | [] =>
          rw [explore_nil, Prod.mk.injEq] at nothing
          rcases nothing with ⟨rfl, _⟩
          exact ⟨explored, fun _ _ _ tried => tried, fun _ _ job => absurd job List.not_mem_nil⟩
      | .restore slot old :: jobs =>
          rw [List.length_cons] at enough
          rw [explore] at nothing
          rcases ih explored.of_restore (by omega) nothing with ⟨closed, kept, done⟩
          refine ⟨closed, kept, ?_⟩
          intro step place job
          exact done step place (by simpa using job)
      | .visit step place :: jobs =>
          rw [List.length_cons] at enough
          have inside := explored.places step place List.mem_cons_self
          by_cases again : Tried text visited step place
          · rw [explore_of_tried again] at nothing
            rcases ih (explored.of_tried again) (by omega) nothing with ⟨closed, kept, done⟩
            refine ⟨closed, kept, ?_⟩
            intro other otherPlace job
            rcases List.mem_cons.mp job with here | later
            · rw [Job.visit.injEq] at here
              rw [here.1, here.2]
              exact kept step place inside again
            · exact done other otherPlace later
          · by_cases accepts : program[step]? = some .accept
            · rw [explore_of_accept again accepts] at nothing
              simp at nothing
            · rcases exists_explore_visit fuel slots jobs again accepts with
                ⟨slots, restores, isRestore, few, visits⟩
              rw [visits] at nothing
              have count := count_mark again
              have enoughLeft : 2 * (visited.setIfInBounds (step * (text.size + 1) + place)
                  true).count false + ((successors program text step place).map
                    (fun next => Job.visit next.1 next.2) ++ (restores ++ jobs)).length ≤ fuel := by
                simp only [List.length_append, List.length_map]
                omega
              rcases ih (explored.mark isRestore accepts) enoughLeft nothing with
                ⟨closed, kept, done⟩
              have marked (other otherPlace : Nat) (otherInside : otherPlace ≤ text.size)
                  (tried : (step = other ∧ place = otherPlace) ∨
                    Tried text visited other otherPlace) :
                  Tried text after other otherPlace :=
                kept other otherPlace otherInside ((tried_mark_iff inside otherInside).mpr tried)
              refine ⟨closed, ?_, ?_⟩
              · intro other otherPlace otherInside tried
                exact marked other otherPlace otherInside (Or.inr tried)
              · intro other otherPlace job
                rcases List.mem_cons.mp job with here | later
                · rw [Job.visit.injEq] at here
                  exact marked other otherPlace (here.2 ▸ inside)
                    (Or.inl ⟨here.1.symm, here.2.symm⟩)
                · apply done other otherPlace
                  exact List.mem_append_right _ (List.mem_append_right _ later)

/-- From a pair that was tried there is no way once no job is left. -/
theorem not_way (explored : Explored program text visited []) {length step : Nat}
    {state final : State} (tried : Tried text visited step state.place)
    (inside : state.place ≤ text.size) : ¬Way program text length step state final := by
  induction length generalizing step state with
  | zero =>
      intro way
      cases way with
      | accept here =>
          have stepInside := (Array.getElem?_eq_some_iff.mp here).1
          exact explored.noAccept step _ stepInside inside tried here
  | succ length ih =>
      intro way
      rcases exists_successor_of_way way with ⟨next, after, member, place, onward⟩
      have stepInside : step < program.size := lt_size_of_mem_successors member
      have nextInside := le_size_of_mem_successors inside member
      rcases explored.followed step state.place stepInside inside tried next member with done | job
      · exact ih (place ▸ done) (place ▸ nextInside) onward
      · exact absurd job List.not_mem_nil

end Explored

/-! ### Searches -/

/-- The state in which a match starts. -/
def State.initial (slotCount place : Nat) : State :=
  ⟨place, (Array.replicate slotCount none).setIfInBounds 0 (some place)⟩

theorem exists_way_of_searchFrom_eq_some {entry slotCount fuel left place : Nat}
    {visited : Array Bool} {found : Slots}
    (hit : searchFrom program entry slotCount fuel text left place visited = some found) :
    ∃ start length final, start < place + left ∧
      Way program text length entry (.initial slotCount start) final ∧
      found = (final.store 1).slots := by
  induction left generalizing place visited with
  | zero => simp [searchFrom] at hit
  | succ left ih =>
      rw [searchFrom] at hit
      split at hit
      · next after slots explored =>
        rw [Option.some.injEq] at hit
        subst hit
        rcases finds_of_explore_eq_some explored with ⟨length, final, way, stored⟩ | nowhere
        · exact ⟨place, length, final, by omega, way, stored⟩
        · exact nowhere.elim
      · rcases ih hit with ⟨start, length, final, before, way, stored⟩
        exact ⟨start, length, final, by omega, way, stored⟩

theorem not_way_of_searchFrom_eq_none {entry slotCount fuel left place : Nat}
    {visited : Array Bool} (explored : Explored program text visited [])
    (enough : 2 * (program.size * (text.size + 1)) + 1 ≤ fuel)
    (within : place + left ≤ text.size + 1)
    (miss : searchFrom program entry slotCount fuel text left place visited = none) :
    ∀ state : State, place ≤ state.place → state.place < place + left → ∀ length final,
      ¬Way program text length entry state final := by
  induction left generalizing place visited with
  | zero =>
      intro state behind before
      omega
  | succ left ih =>
      rw [searchFrom] at miss
      split at miss
      · simp at miss
      · next after nothing =>
        have count : visited.count false ≤ program.size * (text.size + 1) :=
          explored.size ▸ Array.count_le_size
        have started : Explored program text visited [.visit entry place] := by
          refine ⟨explored.size, ?_, explored.noAccept, ?_⟩
          · intro step otherPlace member
            have here := List.mem_singleton.mp member
            rw [Job.visit.injEq] at here
            omega
          · intro step otherPlace stepInside placeInside tried next member
            have done := explored.followed step otherPlace stepInside placeInside tried next member
            exact done.imp_right (fun nowhere => absurd nowhere List.not_mem_nil)
        rcases started.of_explore_eq_none (by rw [List.length_singleton]; omega) nothing with
          ⟨closed, _, done⟩
        intro state behind before length final
        by_cases here : state.place = place
        · have tried := done entry place List.mem_cons_self
          exact closed.not_way (here ▸ tried) (by omega)
        · exact ih closed (by omega) miss state (by omega) (by omega) length final

/-- The texts between the places that slots hold. -/
def captured (text : Array Char) (slots : Slots) : Captures := fun index =>
  match slots.getD (2 * index) none, slots.getD (2 * index + 1) none with
  | some start, some stop => some (String.ofList ((text.extract start stop).toList))
  | _, _ => none

/-- A search finds what the slots at the end of a way say, and it finds something as soon as there
is a way from any place. -/
theorem search?_cases (regex : Regex) (text : String) :
    (regex.search? text = none ∧ ∀ state : State, state.place ≤ text.toList.length →
        ∀ length final, ¬Way regex.program text.toList.toArray length regex.entry state final) ∨
      ∃ start length final, start ≤ text.toList.length ∧
        Way regex.program text.toList.toArray length regex.entry
          (.initial regex.slotCount start) final ∧
        regex.search? text = some (captured text.toList.toArray (final.store 1).slots) := by
  unfold search?
  generalize charsEq : text.toList.toArray = chars
  have size : text.toList.length = chars.size := by rw [← charsEq, List.size_toArray]
  dsimp only
  cases searched : searchFrom regex.program regex.entry regex.slotCount
      (4 * (regex.program.size * (chars.size + 1)) + 4) chars (chars.size + 1) 0
      (Array.replicate (regex.program.size * (chars.size + 1)) false) with
  | none =>
      refine Or.inl ⟨rfl, ?_⟩
      have unexplored : Explored regex.program chars
          (Array.replicate (regex.program.size * (chars.size + 1)) false) [] := by
        have untried (step place : Nat) (stepInside : step < regex.program.size)
            (placeInside : place ≤ chars.size) : ¬Tried chars
              (Array.replicate (regex.program.size * (chars.size + 1)) false) step place := by
          have inside : step * (chars.size + 1) + place <
              regex.program.size * (chars.size + 1) := by
            calc step * (chars.size + 1) + place
                < step * (chars.size + 1) + (chars.size + 1) := by omega
              _ = (step + 1) * (chars.size + 1) := (Nat.succ_mul _ _).symm
              _ ≤ _ := Nat.mul_le_mul_right _ stepInside
          rw [Tried, Array.getD_eq_getD_getElem?, Array.getElem?_replicate, if_pos inside]
          exact Bool.false_ne_true
        refine ⟨Array.size_replicate, ?_, ?_, ?_⟩
        · exact fun _ _ nowhere => absurd nowhere List.not_mem_nil
        · exact fun step place stepInside placeInside tried =>
            absurd tried (untried step place stepInside placeInside)
        · exact fun step place stepInside placeInside tried =>
            absurd tried (untried step place stepInside placeInside)
      intro state inside
      apply not_way_of_searchFrom_eq_none unexplored (by omega) (by omega) searched state
      · exact Nat.zero_le _
      · omega
  | some found =>
      rcases exists_way_of_searchFrom_eq_some searched with
        ⟨start, length, final, before, way, rfl⟩
      exact Or.inr ⟨start, length, final, by omega, way, rfl⟩

end Regex

end ImportAlias
