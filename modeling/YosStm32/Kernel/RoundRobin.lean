/-
**Fairness of the round robin.**

While a runnable task `b` waits for its turn, every dispatch brings the current id closer to `b` on
the ring of slots: a pended switch goes to the first runnable slot after the current one, so it
never jumps over `b` (`FirstAfter.gap_lt`). The distances to `b` at the dispatches of such a stretch
are therefore strictly decreasing, which bounds their number and keeps them apart.
-/

import YosStm32.Kernel.Delay

namespace YosStm32

open Lib

/-- Task `b` can run in every state that the run from `s` goes through. -/
def StaysRunnable (s : Sys) (events : List Event) (b : Nat) : Prop :=
  ∀ past future middle, events = past ++ future → runEvents Sys.step s past = some middle →
    (middle.kernel.status b).Runnable

/-- The events that call `sys_tick_handler`. -/
def CallsHandler (s : Sys) (event : Event) : Prop :=
  event = .sysTick ∨ event = .exec ∧ s.critical = some .handler

section Rotation

variable {s s' : Sys} {event : Event} {events : List Event} {b : Nat}

/-- The current id only moves at a PendSV. -/
theorem current_of_step (inv : Inv s) (one : s.step event = some s')
    (thread : ∀ tmpSp, event ≠ .pendSv tmpSp) : s'.current = s.current := by
  cases step_fired one with
  | sysTick enabled => exact (sysTickHandler_handled s.kernel inv.currentInside).currentTaskId
  | @pendSv tmpSp => exact absurd rfl (thread tmpSp)
  | handler place => exact (sysTickHandler_handled s.kernel inv.currentInside).currentTaskId
  | @create task taskFunc data stackSize name =>
      rcases yosCreateTask_effect s.kernel taskFunc data stackSize name rfl with
        same | ⟨_, _, _, same, _⟩
      · exact congrArg Kernel.currentTaskId same
      · exact same
  | delayStatus | delayTicks | scheduleFlag | enable | call | enterTask | enterNull | returnTask
  | mutex => rfl

/-- A PendSV dispatches the next task, which becomes current. -/
theorem dispatched_pendSv {tmpSp : Nat} (inv : Inv s) (one : s.step (.pendSv tmpSp) = some s') :
    dispatched s (.pendSv tmpSp) = [s'.current] ∧
      FirstAfter yosMaxTaskCount s.current (fun j => (s.kernel.status j).Runnable) s'.current := by
  obtain ⟨_, pended, k, switched, rfl⟩ := pendSv_fired one
  have pending := inv.pending pended
  obtain ⟨_, current, _⟩ := inv.toKernelInv.switch pended switched
  constructor
  · rw [dispatched, pending.nextTask]
    exact congrArg (fun id => [id]) current.symm
  · rw [Sys.current, Sys.current]
    exact current ▸ pending.found

theorem pendSv_of_not_thread (switch : ¬ ∀ tmpSp, event ≠ .pendSv tmpSp) :
    ∃ tmpSp, event = .pendSv tmpSp := by
  by_contra none
  exact switch fun tmpSp same => none ⟨tmpSp, same⟩

theorem dispatched_other (thread : ∀ tmpSp, event ≠ .pendSv tmpSp) : dispatched s event = [] := by
  cases event with
  | pendSv tmpSp => exact absurd rfl (thread tmpSp)
  | _ => rfl

/-- Only slots of the table are dispatched. -/
theorem dispatches_inside (inv : Inv s) (run : runEvents Sys.step s events = some s') :
    ∀ task ∈ dispatches s events, task < yosMaxTaskCount := by
  refine (emitted_all dispatched Inv (· < yosMaxTaskCount) (fun before event next inv one => ?_)
    inv run).2
  refine ⟨inv.step one, fun task here => ?_⟩
  by_cases thread : ∀ tmpSp, event ≠ .pendSv tmpSp
  · rw [dispatched_other thread] at here
    cases here
  · obtain ⟨tmpSp, rfl⟩ := pendSv_of_not_thread thread
    obtain ⟨output, found⟩ := dispatched_pendSv inv one
    rw [output, List.mem_singleton] at here
    exact here ▸ found.inside

theorem StaysRunnable.tail (stays : StaysRunnable s (event :: events) b)
    (one : s.step event = some s') : StaysRunnable s' events b := by
  intro past future middle split run
  exact stays (event :: past) future middle (congrArg (List.cons event) split)
    (runEvents_cons.mpr ⟨s', one, run⟩)

/-- **The distances to a task that waits for its turn strictly decrease** from dispatch to
dispatch, starting below the distance from the current task. -/
theorem dispatches_decreasing (inv : Inv s) (slot : b < yosMaxTaskCount)
    (run : runEvents Sys.step s events = some s') (stays : StaysRunnable s events b)
    (unseen : b ∉ dispatches s events) :
    (s.current :: dispatches s events).Pairwise
      fun earlier later => gap yosMaxTaskCount later b < gap yosMaxTaskCount earlier b := by
  induction events generalizing s with
  | nil => exact List.pairwise_singleton _ _
  | cons event rest ih =>
      obtain ⟨next, one, run⟩ := runEvents_cons.mp run
      have split : dispatches s (event :: rest) = dispatched s event ++ dispatches next rest :=
        emitted_cons one rest
      rw [split] at unseen ⊢
      have later := ih (inv.step one) run (stays.tail one) fun member =>
        unseen (List.mem_append_right _ member)
      by_cases thread : ∀ tmpSp, event ≠ .pendSv tmpSp
      · rw [dispatched_other thread, List.nil_append]
        rwa [current_of_step inv one thread] at later
      · obtain ⟨tmpSp, rfl⟩ := pendSv_of_not_thread thread
        obtain ⟨output, found⟩ := dispatched_pendSv inv one
        rw [output, List.singleton_append] at unseen ⊢
        have runnable := stays [] _ s rfl rfl
        have other : next.current ≠ b := fun same => unseen (same ▸ List.mem_cons_self ..)
        have closer := found.gap_lt inv.currentInside slot runnable other
        refine List.pairwise_cons.mpr ⟨fun task member => ?_, later⟩
        rcases List.mem_cons.mp member with rfl | member
        · exact closer
        · exact Nat.lt_trans ((List.pairwise_cons.mp later).1 task member) closer

/-- The kernel after a handler call. -/
theorem kernel_of_callsHandler (one : s.step event = some s') (calls : CallsHandler s event) :
    s'.kernel = (sysTickHandler s.kernel).2 := by
  rcases calls with rfl | ⟨rfl, place⟩
  · rw [(sysTick_fired one).2]
    rfl
  · simp only [Sys.step, Sys.execute, place, Option.some.injEq] at one
    subst one
    rfl

/-- A handler call pends a switch when another task can run. -/
theorem handler_switches (inv : Inv s) (one : s.step event = some s')
    (calls : CallsHandler s event) (slot : b < yosMaxTaskCount) (other : b ≠ s.current)
    (runnable : (s.kernel.status b).Runnable) :
    s'.kernel.pendsv = true ∧ s'.kernel.nextTaskId ≠ s.current := by
  have after := kernel_of_callsHandler one calls
  have handled := sysTickHandler_handled s.kernel inv.currentInside
  have away := handled.found.ne_of_good inv.currentInside slot (handled.runnable runnable) other
  rw [after]
  rcases handled.outcome with ⟨back, _⟩ | ⟨_, pended, _⟩
  · exact absurd back away
  · exact ⟨pended, away⟩

end Rotation

/-- **No overtaking.** While `b` can run and is not dispatched, no task is dispatched twice, and at
most `YOS_MAX_TASK_COUNT - 1` dispatches happen; every handler call with another runnable task pends
a switch. -/
theorem roundRobin_noOvertaking {s : Sys} (reachable : Reachable s) :
    (∀ events s' b, runEvents Sys.step s events = some s' → b < yosMaxTaskCount →
      StaysRunnable s events b → b ∉ dispatches s events →
        (dispatches s events).Nodup ∧ (dispatches s events).length ≤ yosMaxTaskCount - 1) ∧
    (∀ event s' b, s.step event = some s' → CallsHandler s event → b < yosMaxTaskCount →
      b ≠ s.current → (s.kernel.status b).Runnable →
        s'.kernel.pendsv = true ∧ s'.kernel.nextTaskId ≠ s.current) := by
  have inv := reachable.inv
  refine ⟨fun events s' b run slot stays unseen => ?_, fun event s' b one calls slot other =>
    handler_switches inv one calls slot other⟩
  have decreasing := dispatches_decreasing inv slot run stays unseen
  constructor
  · refine (List.pairwise_cons.mp decreasing).2.imp fun closer same => ?_
    exact absurd (same ▸ closer) (Nat.lt_irrefl _)
  · have positive : ∀ task ∈ s.current :: dispatches s events, 0 < gap yosMaxTaskCount task b := by
      intro task member
      rcases List.mem_cons.mp member with rfl | member
      · exact gap_pos inv.currentInside
      · exact gap_pos (dispatches_inside inv run task member)
    have bound := length_lt_of_decreasing decreasing positive
    exact Nat.le_pred_of_lt (Nat.lt_of_lt_of_le bound (gap_le slot))

/-- A tick and a switch bring in the idle task. -/
def sampleTurn : List Event := [.sysTick, .pendSv 0x20004780]

/-- The user task can run all along, and waits for its next turn. -/
theorem sampleTurn_stays : StaysRunnable sampleSys sampleTurn 1 := by
  intro past future middle split run
  have all : ∀ count ≤ 2, (runEvents Sys.step sampleSys (sampleTurn.take count)).all
      fun middle => decide (middle.kernel.status 1).Runnable := by decide +kernel
  have taken : past = sampleTurn.take past.length := by
    rw [split, List.take_left]
  have short : past.length ≤ 2 := by
    have total := congrArg List.length split
    rw [List.length_append] at total
    exact Nat.le.intro total.symm
  have here := all past.length short
  rw [← taken, run] at here
  simpa using here

theorem roundRobin_noOvertaking_sampleSys :
    (dispatches sampleSys sampleTurn).length ≤ 7 ∧
      ∃ s', sampleSys.step .sysTick = some s' ∧ s'.kernel.pendsv = true := by
  obtain ⟨rotation, switches⟩ := roundRobin_noOvertaking sampleSys_reachable
  constructor
  · have finishes : (runEvents Sys.step sampleSys sampleTurn).isSome := by decide +kernel
    obtain ⟨s', run⟩ := Option.isSome_iff_exists.mp finishes
    exact (rotation _ s' 1 run (by decide) sampleTurn_stays (by decide +kernel)).2
  · have enabled : (sampleSys.step .sysTick).isSome := by decide +kernel
    obtain ⟨s', tick⟩ := Option.isSome_iff_exists.mp enabled
    exact ⟨s', tick, (switches _ s' 0 tick (Or.inl rfl) (by decide) (by decide +kernel)
      (by decide +kernel)).1⟩

end YosStm32
