/-
**Task functions on the kernel.**

What task functions do to the memory that they share is a program for threads (`Threads`), among which the
processor may be given to anyone at any moment. On the kernel a statement of a task function runs in the
current task, with interrupts enabled and no PendSV waiting, and ticks, PendSVs and the statements of the
kernel's own calls come in between; where the statement is itself a call of the kernel, it starts that call.
Every run on the kernel is a run of the threads whose switches are the PendSVs (`Hosted.threads_run`), so what
holds of every interleaving holds on the kernel.

The round robin excludes most interleavings: a task that can run is dispatched at least once in
`YOS_MAX_TASK_COUNT` dispatches (`Hosted.dispatched_often`). If it takes a turn each time before the next
dispatch, three times as many dispatches give it two turns (`Chance.turns`).
-/

import Mathlib.Data.List.Chain
import YosStm32.Kernel.RoundRobin
import YosStm32.Lib.Refinement
import YosStm32.Lib.Threads

namespace YosStm32

open Lib

/-- What task functions do to what they share and to their own variables, and the kernel call that a task
stands at. -/
structure Program (Shared Local Action : Type) where
  act : Nat → Action → Shared → Local → Option (Shared × Local)
  call : Local → Option Call

/-- The kernel and what the task functions work on. -/
structure Hosted (Shared Local : Type) where
  sys : Sys
  shared : Shared
  locals : Nat → Local

inductive HostedEvent (Action : Type) where
  | kernel (event : Event)
  | act (action : Action)

/-- What can be seen of a run: who is given the processor, and who does something. -/
inductive Activity where
  | dispatch (task : Nat)
  | turn (task : Nat)
  deriving DecidableEq, Repr

def Activity.isDispatch : Activity → Bool
  | .dispatch _ => true
  | .turn _ => false

/-- The running task function executes a statement; a call of the kernel begins. -/
def Sys.statement (s : Sys) (call : Option Call) : Option Sys :=
  s.asThread fun task =>
    if s.context task = .body then
      match call with
      | none => some s
      | some call => s.step (.call call)
    else none

namespace Hosted

variable {Shared Local Action : Type} (program : Program Shared Local Action)

def step (s : Hosted Shared Local) : HostedEvent Action → Option (Hosted Shared Local)
  | .kernel event => (s.sys.step event).map fun sys => { s with sys := sys }
  | .act action => s.sys.kernel.currentTask.bind fun task =>
      (program.act s.sys.current action s.shared (s.locals task)).bind fun (shared, own) =>
        (s.sys.statement (program.call (s.locals task))).map fun sys =>
          { sys := sys, shared := shared, locals := Function.update s.locals task own }

/-- The threads, of which the kernel's current task runs. -/
def threads (s : Hosted Shared Local) : Threads Shared Local := ⟨s.shared, s.locals, s.sys.current⟩

/-- What an event is for the threads. -/
def threadEvent (s : Hosted Shared Local) : HostedEvent Action → List (ThreadEvent Action)
  | .kernel event => (dispatched s.sys event).map .switchTo
  | .act action => [.act action]

def activity (s : Hosted Shared Local) : HostedEvent Action → List Activity
  | .kernel event => (dispatched s.sys event).map .dispatch
  | .act _ => [.turn s.sys.current]

def threadEvents (s : Hosted Shared Local) (events : List (HostedEvent Action)) :
    List (ThreadEvent Action) := emitted (step program) threadEvent s events

def activities (s : Hosted Shared Local) (events : List (HostedEvent Action)) : List Activity :=
  emitted (step program) activity s events

variable {program} {s s' last : Hosted Shared Local} {event : HostedEvent Action}
  {events : List (HostedEvent Action)} {b : Nat}

/-! ### The threads -/

theorem statement_cases {sys sys' : Sys} {call : Option Call} (done : sys.statement call = some sys') :
    sys' = sys ∨ ∃ call, sys.step (.call call) = some sys' := by
  obtain ⟨_, _, task, _, done⟩ := Sys.asThread_eq_some.mp done
  rw [Option.ite_none_right_eq_some] at done
  cases call with
  | none => exact Or.inl (Option.some.inj done.2).symm
  | some call => exact Or.inr ⟨call, done.2⟩

theorem statement_kept {sys sys' : Sys} (inv : Inv sys) {call : Option Call}
    (done : sys.statement call = some sys') : Inv sys' ∧ sys'.current = sys.current := by
  rcases statement_cases done with rfl | ⟨call, called⟩
  · exact ⟨inv, rfl⟩
  · exact ⟨inv.step called, current_of_step inv called fun _ => Event.noConfusion⟩

/-- A statement works on what belongs to the current task. -/
theorem act_step (inv : Inv s.sys) {action : Action} (one : step program s (.act action) = some s') :
    Inv s'.sys ∧ s'.sys.current = s.sys.current ∧
      ∃ own, program.act s.sys.current action s.shared (s.locals s.sys.current) = some (s'.shared, own) ∧
        s'.locals = Function.update s.locals s.sys.current own := by
  obtain ⟨task, running, done⟩ := Option.bind_eq_some_iff.mp one
  obtain rfl := inv.running_eq running
  obtain ⟨⟨shared, own⟩, acted, done⟩ := Option.bind_eq_some_iff.mp done
  obtain ⟨sys, statement, rfl⟩ := Option.map_eq_some_iff.mp done
  obtain ⟨inv', current⟩ := statement_kept inv statement
  exact ⟨inv', current, own, acted, rfl⟩

/-- **An event is a turn of the current task, a switch to the next one that can run, or nothing**, as far as
the threads are concerned. -/
theorem step_cases (inv : Inv s.sys) (one : step program s event = some s') :
    Inv s'.sys ∧ runEvents (Threads.step program.act) s.threads (s.threadEvent event) = some s'.threads ∧
      ((s'.sys.current = s.sys.current ∧ ∀ seen ∈ s.activity event, seen = .turn s.sys.current) ∨
        (s.activity event = [.dispatch s'.sys.current] ∧
          FirstAfter yosMaxTaskCount s.sys.current (fun j => (s.sys.kernel.status j).Runnable)
            s'.sys.current)) := by
  cases event with
  | act action =>
      obtain ⟨inv', current, own, acted, locals⟩ := act_step inv one
      have turn : Threads.step program.act s.threads (.act action) = some s'.threads := by
        rw [Threads.step, threads, acted, threads, current, locals]
        rfl
      exact ⟨inv', runEvents_cons.mpr ⟨_, turn, runEvents_nil _⟩,
        Or.inl ⟨current, fun seen member => List.mem_singleton.mp member⟩⟩
  | kernel event =>
      obtain ⟨sys, fired, rfl⟩ := Option.map_eq_some_iff.mp one
      refine ⟨inv.step fired, ?_⟩
      by_cases thread : ∀ tmpSp, event ≠ .pendSv tmpSp
      · have current := current_of_step inv fired thread
        rw [threadEvent, activity, dispatched_other thread]
        refine ⟨?_, Or.inl ⟨current, fun seen member => absurd member List.not_mem_nil⟩⟩
        rw [List.map_nil, runEvents_nil, threads, threads, current]
      · obtain ⟨tmpSp, rfl⟩ := pendSv_of_not_thread thread
        obtain ⟨output, found⟩ := dispatched_pendSv inv fired
        rw [threadEvent, activity, output]
        exact ⟨runEvents_cons.mpr ⟨_, rfl, rfl⟩, Or.inr ⟨rfl, found⟩⟩

/-- **Every run on the kernel is a run of the threads.** -/
theorem threads_run (inv : Inv s.sys) (run : runEvents (step program) s events = some last) :
    Inv last.sys ∧
      runEvents (Threads.step program.act) s.threads (threadEvents program s events) = some last.threads :=
  runEvents_simulates threads threadEvent (fun s => Inv s.sys)
    (fun _ _ _ inv one => ⟨(step_cases inv one).1, (step_cases inv one).2.1⟩) inv run

/-! ### Dispatches -/

/-- A task can run in every state that an event of the run starts from. -/
def Awake (program : Program Shared Local Action) (b : Nat) :
    Hosted Shared Local → List (HostedEvent Action) → Prop :=
  EachStep (step program) fun now _ => (now.sys.kernel.status b).Runnable

instance (s : Hosted Shared Local) (events : List (HostedEvent Action)) :
    Decidable (Awake program b s events) :=
  inferInstanceAs (Decidable (EachStep (step program)
    (fun now _ => (now.sys.kernel.status b).Runnable) s events))

/-- **A task that can run is dispatched often.** Each dispatch of another task brings the current one closer to
it on the ring of slots. -/
theorem dispatched_often (inv : Inv s.sys) (slot : b < yosMaxTaskCount)
    (run : runEvents (step program) s events = some last) (awake : Awake program b s events) :
    (activities program s events).countP Activity.isDispatch + 1 ≤
      yosMaxTaskCount * (activities program s events).count (.dispatch b) +
        gap yosMaxTaskCount s.sys.current b := by
  induction events generalizing s with
  | nil =>
      rw [activities, emitted_nil, List.countP_nil, List.count_nil, Nat.mul_zero]
      exact Nat.add_le_add_left (gap_pos inv.currentInside) 0
  | cons event events ih =>
      obtain ⟨next, one, rest⟩ := runEvents_cons.mp run
      obtain ⟨inv', -, seen⟩ := step_cases inv one
      have later := ih inv' rest (awake.2 next one)
      rw [activities, emitted_cons one, List.countP_append, List.count_append]
      rw [activities] at later
      rcases seen with ⟨current, turns⟩ | ⟨output, found⟩
      · have none : (s.activity event).countP Activity.isDispatch = 0 :=
          List.countP_eq_zero.mpr fun x member => by rw [turns x member]; exact Bool.false_ne_true
        have other : (s.activity event).count (.dispatch b) = 0 :=
          List.count_eq_zero.mpr fun member => Activity.noConfusion (turns _ member)
        rw [none, other, Nat.zero_add, Nat.zero_add, ← current]
        exact later
      · rw [output]
        by_cases own : next.sys.current = b
        · have positive : 0 < gap yosMaxTaskCount s.sys.current b := gap_pos inv.currentInside
          have here : [Activity.dispatch next.sys.current].count (.dispatch b) = 1 := by
            rw [own, List.count_singleton_self]
          have one : [Activity.dispatch next.sys.current].countP Activity.isDispatch = 1 := rfl
          rw [own, gap_self] at later
          rw [here, one, Nat.mul_add]
          omega
        · have closer := found.gap_lt inv.currentInside slot awake.1 own
          have here : [Activity.dispatch next.sys.current].count (.dispatch b) = 0 :=
            List.count_eq_zero.mpr fun member =>
              own (Activity.dispatch.inj (List.mem_singleton.mp member)).symm
          have one : [Activity.dispatch next.sys.current].countP Activity.isDispatch = 1 := rfl
          rw [here, one, Nat.zero_add]
          omega

/-! ### Turns -/

/-- Each dispatch of the task is followed by a turn of it. -/
def Used (b : Nat) (seen : List Activity) : Prop :=
  seen.IsChain fun now next => now = .dispatch b → next = .turn b

instance (seen : List Activity) : Decidable (Used b seen) :=
  inferInstanceAs (Decidable (seen.IsChain fun now next => now = .dispatch b → next = .turn b))

theorem Used.turns : ∀ {seen : List Activity}, Used b seen →
    seen.count (.dispatch b) ≤ seen.count (.turn b) + 1
  | [], _ => Nat.zero_le _
  | [first], _ => Nat.le_trans List.count_le_length (Nat.le_add_left ..)
  | first :: second :: rest, used => by
      obtain ⟨follows, used'⟩ := List.isChain_cons_cons.mp used
      by_cases own : first = .dispatch b
      · obtain rfl := follows own
        obtain rfl := own
        have later := Used.turns (List.isChain_cons.mp used').2
        have apart : Activity.turn b ≠ .dispatch b := Activity.noConfusion
        rw [List.count_cons_self, List.count_cons_of_ne apart, List.count_cons_of_ne apart.symm,
          List.count_cons_self]
        omega
      · have later := Used.turns used'
        have same : (first :: second :: rest).count (.dispatch b) = (second :: rest).count (.dispatch b) :=
          List.count_cons_of_ne own
        have more : (second :: rest).count (.turn b) ≤ (first :: second :: rest).count (.turn b) :=
          List.count_le_count_cons ..
        omega

/-- The task can run, the processor is given to somebody often enough, and the task makes use of it. -/
structure Chance (program : Program Shared Local Action) (s : Hosted Shared Local)
    (events : List (HostedEvent Action)) (b : Nat) : Prop where
  awake : Awake program b s events
  often : 3 * yosMaxTaskCount ≤ (activities program s events).countP Activity.isDispatch
  used : Used b (activities program s events)

/-- **A chance is two turns.** -/
theorem Chance.turns (chance : Chance program s events b) (inv : Inv s.sys) (slot : b < yosMaxTaskCount)
    (run : runEvents (step program) s events = some last) :
    2 ≤ (activities program s events).count (.turn b) := by
  have most := dispatched_often inv slot run chance.awake
  have near : gap yosMaxTaskCount s.sys.current b ≤ yosMaxTaskCount := gap_le slot
  have often := chance.often
  have turns := chance.used.turns
  unfold yosMaxTaskCount at *
  omega

/-! ### Every run -/

/-- The kernel makes a step, or none. -/
theorem kernel_step (one : step program s event = some s') :
    s'.sys = s.sys ∨ ∃ event, s.sys.step event = some s'.sys := by
  cases event with
  | kernel event =>
      obtain ⟨sys, fired, rfl⟩ := Option.map_eq_some_iff.mp one
      exact Or.inr ⟨event, fired⟩
  | act action =>
      obtain ⟨task, _, done⟩ := Option.bind_eq_some_iff.mp one
      obtain ⟨_, _, done⟩ := Option.bind_eq_some_iff.mp done
      obtain ⟨sys, statement, rfl⟩ := Option.map_eq_some_iff.mp done
      exact (statement_cases statement).imp_right fun ⟨call, called⟩ => ⟨.call call, called⟩

/-- What every step of the kernel keeps holds on. -/
theorem kernel_run (invariant : Sys → Prop)
    (preserved : ∀ sys event next, invariant sys → sys.step event = some next → invariant next)
    (start : invariant s.sys) (run : runEvents (step program) s events = some last) : invariant last.sys := by
  refine runEvents_invariant (fun s => invariant s.sys) (fun now event next inside one => ?_) start run
  rcases kernel_step one with same | ⟨event, fired⟩
  · exact same ▸ inside
  · exact preserved now.sys event next.sys inside fired

/-- The kernel by itself. -/
theorem kernel_events {sys : Sys} {events : List Event} (run : runEvents Sys.step s.sys events = some sys) :
    runEvents (step program) s (events.map .kernel) = some { s with sys := sys } := by
  induction events generalizing s with
  | nil =>
      rw [runEvents_nil, Option.some.injEq] at run
      rw [← run]
      rfl
  | cons event events ih =>
      obtain ⟨next, one, rest⟩ := runEvents_cons.mp run
      have here : step program s (.kernel event) = some { s with sys := next } := by rw [step, one]; rfl
      exact runEvents_cons.mpr ⟨_, here, ih (s := { s with sys := next }) rest⟩

end Hosted

/-- **The kernel gives the processor to threads, fairly.** Every run of task functions on the kernel, with
ticks, PendSVs and kernel calls anywhere between their statements, is a run of interleaved threads that are
switched at the PendSVs and nowhere else, and the kernel stays in a reachable state; and of all dispatches
during which a task can run, at least one in `YOS_MAX_TASK_COUNT` is its own. -/
theorem hosted_refines {Shared Local Action : Type} {program : Program Shared Local Action}
    {s last : Hosted Shared Local} {events : List (HostedEvent Action)} (reachable : Reachable s.sys)
    (run : runEvents (Hosted.step program) s events = some last) :
    runEvents (Threads.step program.act) s.threads (Hosted.threadEvents program s events) =
        some last.threads ∧
      Reachable last.sys ∧
      ∀ b < yosMaxTaskCount, Hosted.Awake program b s events →
        (Hosted.activities program s events).countP Activity.isDispatch <
          yosMaxTaskCount * ((Hosted.activities program s events).count (.dispatch b) + 1) := by
  refine ⟨(Hosted.threads_run reachable.inv run).2, ?_, fun b slot awake => ?_⟩
  · exact Hosted.kernel_run Reachable (fun _ _ _ inside one => inside.step one) reachable run
  · have most := Hosted.dispatched_often reachable.inv slot run awake
    have near : gap yosMaxTaskCount s.sys.current b ≤ yosMaxTaskCount := gap_le slot
    rw [Nat.mul_add, Nat.mul_one]
    omega

/-- Tasks that count together. -/
def counting : Program Nat Unit Unit := ⟨fun _ _ shared _ => some (shared + 1, ()), fun _ => none⟩

def countingStart : Hosted Nat Unit := ⟨sampleSys, 0, fun _ => ()⟩

/-- The user task counts, a tick brings in the idle task, which counts as well. -/
def countingEvents : List (HostedEvent Unit) :=
  [.act (), .kernel .sysTick, .kernel (.pendSv 0x20004780), .kernel .enterTask, .act ()]

theorem hosted_refines_counting :
    ∃ last, runEvents (Hosted.step counting) countingStart countingEvents = some last ∧ last.shared = 2 ∧
      runEvents (Threads.step counting.act) countingStart.threads
        (Hosted.threadEvents counting countingStart countingEvents) = some last.threads ∧
      (Hosted.activities counting countingStart countingEvents).countP Activity.isDispatch <
        yosMaxTaskCount * 2 := by
  have ran : (runEvents (Hosted.step counting) countingStart countingEvents).map Hosted.shared = some 2 := by
    decide +kernel
  have awake : Hosted.Awake counting 0 countingStart countingEvents := by decide +kernel
  have own : (Hosted.activities counting countingStart countingEvents).count (.dispatch 0) = 1 := by
    decide +kernel
  have reachable : Reachable countingStart.sys := by
    dsimp only [countingStart]
    exact sampleSys_reachable
  obtain ⟨last, run, shared⟩ := Option.map_eq_some_iff.mp ran
  obtain ⟨threads, -, fair⟩ := hosted_refines reachable run
  have few := fair 0 (by decide) awake
  rw [own] at few
  exact ⟨last, run, shared, threads, few⟩

end YosStm32
