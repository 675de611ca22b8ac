/-
**Refinement of an object by its calls.**

An object answers calls: `step state call` is the answer and the next state, or `none` when the call
faults. A specification answers the same calls and never faults. When every single call keeps a
relation between the two and gives the same answer, every sequence of calls does
(`runCalls_refines`); in particular none of them faults.

An event system refines another one when each of its events is some events of the other one; then each of its
runs is a run of the other one (`runEvents_simulates`).
-/

import YosStm32.Lib.Run

namespace YosStm32.Lib

section Refinement

variable {State Spec Call Answer : Type}

/-- The answers of a sequence of calls and the state after them. -/
def runCalls (step : State → Call → Option (Answer × State)) :
    State → List Call → Option (List Answer × State)
  | state, [] => some ([], state)
  | state, call :: calls =>
      (step state call).bind fun (answer, next) =>
        (runCalls step next calls).map fun (answers, last) => (answer :: answers, last)

/-- The same for a specification. -/
def specCalls (spec : Spec → Call → Answer × Spec) : Spec → List Call → List Answer × Spec
  | state, [] => ([], state)
  | state, call :: calls =>
      ((spec state call).1 :: (specCalls spec (spec state call).2 calls).1,
        (specCalls spec (spec state call).2 calls).2)

variable {step : State → Call → Option (Answer × State)} {spec : Spec → Call → Answer × Spec}

/-- **The refinement rule.** -/
theorem runCalls_refines (relation : State → Spec → Prop)
    (simulates : ∀ state abstract call, relation state abstract → ∃ next,
      step state call = some ((spec abstract call).1, next) ∧ relation next (spec abstract call).2)
    {state : State} {abstract : Spec} (related : relation state abstract) (calls : List Call) :
    ∃ last, runCalls step state calls = some ((specCalls spec abstract calls).1, last) ∧
      relation last (specCalls spec abstract calls).2 := by
  induction calls generalizing state abstract with
  | nil => exact ⟨state, rfl, related⟩
  | cons call calls ih =>
      obtain ⟨next, one, related⟩ := simulates state abstract call related
      obtain ⟨last, run, related⟩ := ih related
      refine ⟨last, ?_, related⟩
      rw [runCalls, one, Option.bind_some]
      show (runCalls step next calls).map _ = _
      rw [run]
      rfl

end Refinement

section Simulation

variable {State Event State' Event' : Type} {step : State → Event → Option State}
  {step' : State' → Event' → Option State'}

/-- **The simulation rule.** `image` says what an event is in the other system. -/
theorem runEvents_simulates (abstraction : State → State') (image : State → Event → List Event')
    (invariant : State → Prop)
    (simulates : ∀ state event next, invariant state → step state event = some next →
      invariant next ∧ runEvents step' (abstraction state) (image state event) = some (abstraction next))
    {state last : State} {events : List Event} (start : invariant state)
    (run : runEvents step state events = some last) :
    invariant last ∧
      runEvents step' (abstraction state) (emitted step image state events) = some (abstraction last) := by
  refine emitted_history image
    (fun now past => invariant now ∧ runEvents step' (abstraction state) past = some (abstraction now))
    (fun now past event next ⟨inside, before⟩ one => ?_) ⟨start, runEvents_nil _⟩ run
  obtain ⟨inside', here⟩ := simulates now event next inside one
  exact ⟨inside', runEvents_append.mpr ⟨_, before, here⟩⟩

end Simulation

end YosStm32.Lib
