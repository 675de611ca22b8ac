/-
**Runs of an event system.**

A system is a partial step function: `step s e` is the state after the event `e`, and `none` when
`e` is not enabled in `s`. `runEvents` takes a list of events, and a property of states that every
step keeps holds after any of them (`runEvents_invariant`).

`emitted` lists what the events of a run put out (dispatches, callbacks, bus operations), each
output read from the state the event starts from. `EachStep` is a condition on all events of a run,
and `emitted_invariant` is the invariant rule for runs under a condition, with their history;
`emitted_history` is the rule without a condition. `runEvents_exists` says that a run goes on to its end.
`runEvents_measure` counts events down; the events may be blocks of smaller ones (`runEvents_blocks`), each of
which frees something and then uses it (`runEvents_served`).
-/

import Mathlib.Data.List.Induction
import Mathlib.Logic.Function.Basic

namespace YosStm32.Lib

section Runs

variable {State Event Output : Type}

/-- The state after a list of events, `none` as soon as one of them is not enabled. -/
def runEvents (step : State → Event → Option State) : State → List Event → Option State
  | state, [] => some state
  | state, event :: events => (step state event).bind fun next => runEvents step next events

variable {step : State → Event → Option State}

@[simp]
theorem runEvents_nil (state : State) : runEvents step state [] = some state := rfl

theorem runEvents_cons {state last : State} {event : Event} {events : List Event} :
    runEvents step state (event :: events) = some last ↔
      ∃ next, step state event = some next ∧ runEvents step next events = some last := by
  simp only [runEvents, Option.bind_eq_some_iff]

theorem runEvents_append {state last : State} {first second : List Event} :
    runEvents step state (first ++ second) = some last ↔
      ∃ middle, runEvents step state first = some middle ∧
        runEvents step middle second = some last := by
  induction first generalizing state with
  | nil => simp
  | cons event events ih =>
      simp only [List.cons_append, runEvents_cons, ih]
      constructor
      · rintro ⟨next, one, middle, rest, final⟩
        exact ⟨middle, ⟨next, one, rest⟩, final⟩
      · rintro ⟨middle, ⟨next, one, rest⟩, final⟩
        exact ⟨next, one, middle, rest, final⟩

/-- **The invariant rule.** -/
theorem runEvents_invariant (invariant : State → Prop)
    (preserved : ∀ state event next, invariant state → step state event = some next →
      invariant next) {state last : State} {events : List Event} (start : invariant state)
    (run : runEvents step state events = some last) : invariant last := by
  induction events generalizing state with
  | nil =>
      rw [runEvents_nil, Option.some.injEq] at run
      exact run ▸ start
  | cons event events ih =>
      obtain ⟨next, one, rest⟩ := runEvents_cons.mp run
      exact ih (preserved state event next start one) rest

/-- What the events of a run put out, in order. -/
def emitted (step : State → Event → Option State) (output : State → Event → List Output) :
    State → List Event → List Output
  | _, [] => []
  | state, event :: events =>
      output state event ++
        match step state event with
        | some next => emitted step output next events
        | none => []

variable {output : State → Event → List Output}

@[simp]
theorem emitted_nil (state : State) : emitted step output state [] = [] := rfl

theorem emitted_cons {state next : State} {event : Event} (one : step state event = some next)
    (events : List Event) :
    emitted step output state (event :: events) =
      output state event ++ emitted step output next events := by
  rw [emitted, one]

theorem emitted_append {state middle : State} {first : List Event}
    (run : runEvents step state first = some middle) (second : List Event) :
    emitted step output state (first ++ second) =
      emitted step output state first ++ emitted step output middle second := by
  induction first generalizing state with
  | nil =>
      rw [runEvents_nil, Option.some.injEq] at run
      rw [run]
      rfl
  | cons event events ih =>
      obtain ⟨next, one, rest⟩ := runEvents_cons.mp run
      rw [List.cons_append, emitted_cons one, emitted_cons one, ih rest, List.append_assoc]

/-- A condition on every event of a run, in the state that the event comes in. -/
def EachStep (step : State → Event → Option State) (holds : State → Event → Prop) :
    State → List Event → Prop
  | _, [] => True
  | state, event :: events =>
      holds state event ∧ ∀ next, step state event = some next → EachStep step holds next events

instance EachStep.decidable {holds : State → Event → Prop} [∀ s e, Decidable (holds s e)] :
    ∀ (state : State) (events : List Event), Decidable (EachStep step holds state events)
  | _, [] => isTrue trivial
  | state, event :: events =>
      match one : step state event with
      | none => decidable_of_iff (holds state event) (by simp [EachStep, one])
      | some next =>
          have : Decidable (EachStep step holds next events) := EachStep.decidable next events
          decidable_of_iff (holds state event ∧ EachStep step holds next events)
            (by simp [EachStep, one])

/-- A condition that implies another one as long as an invariant holds. -/
theorem EachStep.imp {holds holds' : State → Event → Prop} (invariant : State → Prop)
    (preserved : ∀ state event next, invariant state → holds state event →
      step state event = some next → invariant next)
    (implies : ∀ state event, invariant state → holds state event → holds' state event)
    {state : State} {events : List Event} (start : invariant state)
    (each : EachStep step holds state events) : EachStep step holds' state events := by
  induction events generalizing state with
  | nil => trivial
  | cons event events ih =>
      refine ⟨implies state event start each.1, fun next one => ?_⟩
      exact ih (preserved state event next start each.1 one) (each.2 next one)

/-- **The invariant rule with a history**, for runs whose events all meet a condition. -/
theorem emitted_invariant {holds : State → Event → Prop} (invariant : State → List Output → Prop)
    (preserved : ∀ state past event next, invariant state past → holds state event →
      step state event = some next → invariant next (past ++ output state event))
    {state last : State} {past : List Output} {events : List Event} (start : invariant state past)
    (each : EachStep step holds state events) (run : runEvents step state events = some last) :
    invariant last (past ++ emitted step output state events) := by
  induction events generalizing state past with
  | nil =>
      rw [runEvents_nil, Option.some.injEq] at run
      rw [emitted_nil, List.append_nil]
      exact run ▸ start
  | cons event events ih =>
      obtain ⟨next, one, rest⟩ := runEvents_cons.mp run
      rw [emitted_cons one, ← List.append_assoc]
      exact ih (preserved state past event next start each.1 one) (each.2 next one) rest

theorem eachStep_trivial (state : State) (events : List Event) :
    EachStep step (fun _ _ => True) state events := by
  induction events generalizing state with
  | nil => trivial
  | cons event events ih => exact ⟨trivial, fun next _ => ih next⟩

/-- A condition on events alone. -/
theorem eachStep_of_forall {good : Event → Prop} (state : State) {events : List Event}
    (all : ∀ event ∈ events, good event) : EachStep step (fun _ event => good event) state events := by
  induction events generalizing state with
  | nil => trivial
  | cons event events ih =>
      exact ⟨all event (List.mem_cons_self ..), fun next _ =>
        ih next fun event member => all event (List.mem_cons_of_mem _ member)⟩

/-- **The invariant rule with a history**, for all runs. -/
theorem emitted_history (output : State → Event → List Output)
    (invariant : State → List Output → Prop)
    (preserved : ∀ state past event next, invariant state past → step state event = some next →
      invariant next (past ++ output state event))
    {state last : State} {past : List Output} {events : List Event} (start : invariant state past)
    (run : runEvents step state events = some last) :
    invariant last (past ++ emitted step output state events) :=
  emitted_invariant invariant (fun state past event next holds _ => preserved state past event next holds)
    start (eachStep_trivial state events) run

/-- A place in a history that has grown by one output. -/
theorem history_split {past before after : List Output} {last out : Output}
    (split : past ++ [last] = before ++ out :: after) :
    (past = before ∧ last = out ∧ after = []) ∨
      ∃ rest, after = rest ++ [last] ∧ past = before ++ out :: rest := by
  induction after using List.reverseRecOn with
  | nil =>
      obtain ⟨same, only⟩ := List.append_inj' split rfl
      exact Or.inl ⟨same, List.singleton_inj.mp only, rfl⟩
  | append_singleton rest final _ =>
      rw [← List.cons_append, ← List.append_assoc] at split
      obtain ⟨same, only⟩ := List.append_inj' split rfl
      cases List.singleton_inj.mp only
      exact Or.inr ⟨rest, rfl, same⟩

/-- What every step puts out is good as long as an invariant holds. -/
theorem emitted_all (output : State → Event → List Output) (invariant : State → Prop)
    (good : Output → Prop)
    (preserved : ∀ state event next, invariant state → step state event = some next →
      invariant next ∧ ∀ out ∈ output state event, good out)
    {state last : State} {events : List Event} (start : invariant state)
    (run : runEvents step state events = some last) :
    invariant last ∧ ∀ out ∈ emitted step output state events, good out := by
  refine emitted_history output (fun state past => invariant state ∧ ∀ out ∈ past, good out)
    (fun state past event next ⟨holds, before⟩ one => ?_)
    ⟨start, fun out member => absurd member List.not_mem_nil⟩ run
  obtain ⟨holds', here⟩ := preserved state event next holds one
  exact ⟨holds', fun out member => (List.mem_append.mp member).elim (before out) (here out)⟩

/-- **The rule for a measure** that every event of a run lowers, unless it is zero. -/
theorem runEvents_measure {holds : State → Event → Prop} (measure : State → Nat)
    (invariant : State → Prop)
    (falls : ∀ state event next, invariant state → holds state event →
      step state event = some next → invariant next ∧ measure next ≤ measure state - 1)
    {state last : State} {events : List Event} (start : invariant state)
    (each : EachStep step holds state events) (run : runEvents step state events = some last) :
    invariant last ∧ measure last ≤ measure state - events.length := by
  induction events generalizing state with
  | nil =>
      rw [runEvents_nil, Option.some.injEq] at run
      exact run ▸ ⟨start, Nat.le_refl _⟩
  | cons event events ih =>
      obtain ⟨next, one, rest⟩ := runEvents_cons.mp run
      obtain ⟨inside, lower⟩ := falls state event next start each.1 one
      obtain ⟨inside, most⟩ := ih inside (each.2 next one) rest
      rw [List.length_cons]
      exact ⟨inside, by omega⟩

/-- Events in blocks. -/
theorem runEvents_blocks (state : State) (blocks : List (List Event)) :
    runEvents (runEvents step) state blocks = runEvents step state blocks.flatten := by
  induction blocks generalizing state with
  | nil => rfl
  | cons block blocks ih =>
      have same : ∀ last, runEvents (runEvents step) state (block :: blocks) = some last ↔
          runEvents step state (block :: blocks).flatten = some last := by
        intro last
        rw [List.flatten_cons, runEvents_cons, runEvents_append]
        simp only [ih]
      exact Option.ext same

/-- **The rule for progress**: as long as an invariant holds, good events can happen. -/
theorem runEvents_exists {good : Event → Prop} (invariant : State → Prop)
    (goes : ∀ state event, invariant state → good event →
      ∃ next, step state event = some next ∧ invariant next)
    {state : State} {events : List Event} (start : invariant state) (all : ∀ event ∈ events, good event) :
    ∃ last, runEvents step state events = some last ∧ invariant last := by
  induction events generalizing state with
  | nil => exact ⟨state, rfl, start⟩
  | cons event events ih =>
      obtain ⟨next, one, inside⟩ := goes state event start (all event (List.mem_cons_self ..))
      obtain ⟨last, rest, inside'⟩ := ih inside fun event member => all event (List.mem_cons_of_mem _ member)
      exact ⟨last, runEvents_cons.mpr ⟨next, one, rest⟩, inside'⟩

section Served

variable {good : Event → Prop} {ready : State → Prop} {frees uses : Event → Bool} {measure : State → Nat}
  {invariant : State → Prop}
  (goes : ∀ state event next, invariant state → good event → step state event = some next →
    invariant next ∧ measure next ≤ measure state ∧ (frees event = true → ready next) ∧
      (ready state → if uses event then measure next ≤ measure state - 1 else ready next))
  {state last : State} {events : List Event}

include goes

theorem runEvents_falls (start : invariant state) (all : ∀ event ∈ events, good event)
    (run : runEvents step state events = some last) : invariant last ∧ measure last ≤ measure state := by
  induction events generalizing state with
  | nil =>
      rw [runEvents_nil, Option.some.injEq] at run
      exact run ▸ ⟨start, Nat.le_refl _⟩
  | cons event events ih =>
      obtain ⟨next, one, rest⟩ := runEvents_cons.mp run
      obtain ⟨inside, falls, _⟩ := goes state event next start (all event (List.mem_cons_self ..)) one
      obtain ⟨inside', falls'⟩ := ih inside (fun event member => all event (List.mem_cons_of_mem _ member)) rest
      exact ⟨inside', Nat.le_trans falls' falls⟩

/-- What is free is used. -/
theorem runEvents_used (start : invariant state) (all : ∀ event ∈ events, good event) (free : ready state)
    (used : events.any uses = true) (run : runEvents step state events = some last) :
    measure last ≤ measure state - 1 := by
  induction events generalizing state with
  | nil => cases used
  | cons event events ih =>
      have all' : ∀ event ∈ events, good event := fun event member => all event (List.mem_cons_of_mem _ member)
      obtain ⟨next, one, rest⟩ := runEvents_cons.mp run
      obtain ⟨inside, falls, _, use⟩ := goes state event next start (all event (List.mem_cons_self ..)) one
      have here := use free
      cases isUse : uses event with
      | true =>
          rw [isUse, if_pos rfl] at here
          exact Nat.le_trans (runEvents_falls goes inside all' rest).2 here
      | false =>
          rw [isUse, if_neg Bool.false_ne_true] at here
          rw [List.any_cons, isUse, Bool.false_or] at used
          exact Nat.le_trans (ih inside all' here used rest) (Nat.sub_le_sub_right falls 1)

/-- **The rule for rounds** in which something is freed and then used: each of them lowers the measure. -/
theorem runEvents_served (start : invariant state) (all : ∀ event ∈ events, good event)
    (served : (events.dropWhile fun event => !frees event).tail.any uses = true)
    (run : runEvents step state events = some last) : measure last ≤ measure state - 1 := by
  induction events generalizing state with
  | nil => cases served
  | cons event events ih =>
      have all' : ∀ event ∈ events, good event := fun event member => all event (List.mem_cons_of_mem _ member)
      cases isFree : frees event with
      | false =>
          obtain ⟨next, one, rest⟩ := runEvents_cons.mp run
          obtain ⟨inside, falls, _⟩ := goes state event next start (all event (List.mem_cons_self ..)) one
          rw [List.dropWhile_cons, isFree, Bool.not_false, if_pos rfl] at served
          exact Nat.le_trans (ih inside all' served rest) (Nat.sub_le_sub_right falls 1)
      | true =>
          rw [List.dropWhile_cons, isFree, Bool.not_true, if_neg Bool.false_ne_true] at served
          obtain ⟨next, one, rest⟩ := runEvents_cons.mp run
          obtain ⟨inside, falls, free, _⟩ := goes state event next start (all event (List.mem_cons_self ..)) one
          exact Nat.le_trans (runEvents_used goes inside all' (free isFree) served rest)
            (Nat.sub_le_sub_right falls 1)

end Served

end Runs

end YosStm32.Lib
