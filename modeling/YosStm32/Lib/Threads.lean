/-
**Interleaved threads.**

Threads share one state, and each has a state of its own. `act` says what the running thread can do
next; between any two actions the processor may be given to any other thread. An invariant of the
shared state and all the local states needs to be kept by every single action only
(`threads_invariant`): a switch changes neither. `runAlone` is a call whose statements run one after
the other.
-/

import YosStm32.Lib.Run

namespace YosStm32.Lib

/-- Threads, by number, with the one that runs. -/
structure Threads (Shared Local : Type) where
  shared : Shared
  locals : Nat → Local
  running : Nat

inductive ThreadEvent (Action : Type) where
  | switchTo (next : Nat)
  | act (action : Action)

section Threads

variable {Shared Local Action : Type}
  (act : Nat → Action → Shared → Local → Option (Shared × Local))

/-- A switch, or an action of the running thread on the shared state and its own. -/
def Threads.step (s : Threads Shared Local) : ThreadEvent Action → Option (Threads Shared Local)
  | .switchTo next => some { s with running := next }
  | .act action => (act s.running action s.shared (s.locals s.running)).map fun (shared, own) =>
      { s with shared := shared, locals := Function.update s.locals s.running own }

variable {act}

/-- **The rule for threads.** -/
theorem threads_invariant (invariant : Shared → (Nat → Local) → Prop)
    (preserved : ∀ thread action shared locals shared' own, invariant shared locals →
      act thread action shared (locals thread) = some (shared', own) →
        invariant shared' (Function.update locals thread own))
    {s last : Threads Shared Local} {events : List (ThreadEvent Action)}
    (start : invariant s.shared s.locals)
    (run : runEvents (Threads.step act) s events = some last) :
    invariant last.shared last.locals := by
  refine runEvents_invariant (fun s => invariant s.shared s.locals)
    (fun s event next inside one => ?_) start run
  cases event with
  | switchTo thread =>
      cases one
      exact inside
  | act action =>
      obtain ⟨⟨shared, own⟩, done, rfl⟩ := Option.map_eq_some_iff.mp one
      exact preserved _ _ _ _ _ _ inside done

end Threads

section Statements

variable {Shared Frame Result : Type} (statement : Shared → Frame → Shared × (Frame ⊕ Result))

/-- A call that is not interrupted, with at most so many statements. -/
def runAlone : Nat → Shared → Frame → Option (Shared × Result)
  | 0, _, _ => none
  | fuel + 1, shared, frame =>
      match statement shared frame with
      | (shared, .inl frame) => runAlone fuel shared frame
      | (shared, .inr result) => some (shared, result)

variable {statement}

theorem runAlone_next {fuel : Nat} {shared shared' : Shared} {frame frame' : Frame}
    (one : statement shared frame = (shared', .inl frame')) :
    runAlone statement (fuel + 1) shared frame = runAlone statement fuel shared' frame' := by
  rw [runAlone, one]

end Statements

end YosStm32.Lib
