/-
**How long a delay lasts.**

A task that calls `yos_task_delay(n)` sleeps through `max 1 n` real SysTick interrupts. `Sleeping`
says where a sleeper stands after a list of events; `Sleeping.step` carries it through one event,
short of the last tick, and `Sleeping.ticked` is a tick, the last one included. The handler calls
that other tasks make in between leave the counter alone: they enter with the flag cleared
(`Inv.flag`), and real ticks enter with the flag set.
-/

import YosStm32.Kernel.Safety

namespace YosStm32

open Lib

/-- The slot that an event dispatches. -/
def dispatched (s : Sys) : Event → List Nat
  | .pendSv _ => s.kernel.nextTask.toList
  | _ => []

/-- The slots that a run dispatches, in order. -/
def dispatches (s : Sys) (events : List Event) : List Nat :=
  emitted Sys.step dispatched s events

/-- The real ticks among some events. -/
def realTicks (events : List Event) : Nat := events.count .sysTick

theorem realTicks_append (first second : List Event) :
    realTicks (first ++ second) = realTicks first + realTicks second :=
  List.count_append

theorem realTicks_other {event : Event} (other : event ≠ .sysTick) : realTicks [event] = 0 :=
  List.count_eq_zero.mpr fun member => other (List.mem_singleton.mp member).symm

/-- Task `t` sleeps: it has called `yos_task_delay(ticks)`, and `past` has happened since. Either
the store into `block_ticks` is still to come, or the counter holds what is left. -/
structure Sleeping (t ticks : Nat) (past : List Event) (s : Sys) : Prop where
  slot : t < yosMaxTaskCount
  status : s.kernel.status t = .waiting
  counter : s.critical = some (.delayTicks ticks) ∧ s.current = t ∧ realTicks past = 0 ∨
    (s.kernel.allTasks t).blockTicks = ticks - realTicks past ∧
      ∀ other, s.critical = some (.delayTicks other) → s.current ≠ t

namespace Sleeping

variable {t ticks : Nat} {past : List Event} {s s' : Sys}

/-- Outside `yos_task_delay`, the counter is set. -/
theorem counted (sleeping : Sleeping t ticks past s)
    (elsewhere : s.critical ≠ some (.delayTicks ticks)) :
    (s.kernel.allTasks t).blockTicks = ticks - realTicks past := by
  rcases sleeping.counter with ⟨here, _⟩ | ⟨counter, _⟩
  · exact absurd here elsewhere
  · exact counter

/-- An event other than a tick that leaves the sleeper's slot alone. -/
theorem frame (sleeping : Sleeping t ticks past s) {event : Event} (other : event ≠ .sysTick)
    (elsewhere : s.critical ≠ some (.delayTicks ticks))
    (status : s'.kernel.status t = s.kernel.status t)
    (blockTicks : (s'.kernel.allTasks t).blockTicks = (s.kernel.allTasks t).blockTicks)
    (place : ∀ ticks', s'.critical = some (.delayTicks ticks') → s'.current ≠ t) :
    Sleeping t ticks (past ++ [event]) s' := by
  refine ⟨sleeping.slot, status.trans sleeping.status, Or.inr ⟨?_, place⟩⟩
  rw [blockTicks, sleeping.counted elsewhere, realTicks_append, realTicks_other other, Nat.add_zero]

/-- A sleeper is not the task whose thread runs. -/
theorem away (sleeping : Sleeping t ticks past s) (inv : Inv s) (enabled : s.critical = none)
    (clear : s.kernel.pendsv = false) : s.current ≠ t := by
  rintro rfl
  exact inv.awake enabled clear sleeping.status

/-- A handler call by another task does not count. -/
theorem rescheduled (sleeping : Sleeping t ticks past s) (inv : Inv s)
    (place : s.critical = some .handler) :
    Sleeping t ticks (past ++ [.exec]) { s.afterHandler with critical := some .enable } := by
  have flag : s.kernel.isSystickTriggerByInt = false := inv.flag.mpr place
  obtain ⟨blockTicks, status⟩ :=
    sysTickHandler_sleeper s.kernel inv.currentInside sleeping.slot sleeping.status
  simp only [flag, Bool.false_eq_true, false_and, if_false] at blockTicks status
  have elsewhere : s.critical ≠ some (.delayTicks ticks) := by simp [place]
  exact sleeping.frame (by simp) elsewhere (status.trans sleeping.status.symm) blockTicks (by simp)

/-- **One real tick**: the sleeper stays asleep while ticks are left, and wakes at the last one. -/
theorem ticked (sleeping : Sleeping t ticks past s) (inv : Inv s) (enabled : s.critical = none) :
    (realTicks past + 1 < max 1 ticks → Sleeping t ticks (past ++ [.sysTick]) s.afterHandler) ∧
      (realTicks past + 1 = max 1 ticks → s.afterHandler.kernel.status t = .running) := by
  have flag : s.kernel.isSystickTriggerByInt = true := by
    by_contra cleared
    have place := inv.flag.mp (eq_false_of_ne_true cleared)
    rw [enabled] at place
    cases place
  have counter := sleeping.counted (by simp [enabled])
  obtain ⟨blockTicks, status⟩ :=
    sysTickHandler_sleeper s.kernel inv.currentInside sleeping.slot sleeping.status
  simp only [flag, if_true, true_and, counter] at blockTicks status
  constructor
  · intro early
    have left : ¬ ticks - realTicks past ≤ 1 := by omega
    refine ⟨sleeping.slot, by rw [Sys.afterHandler_kernel, status, if_neg left], Or.inr ⟨?_, ?_⟩⟩
    · rw [Sys.afterHandler_kernel, blockTicks, realTicks_append]
      exact Nat.sub_sub ..
    · intro other place
      rw [Sys.afterHandler_critical, enabled] at place
      cases place
  · intro last
    rw [Sys.afterHandler_kernel, status, if_pos (by omega)]

/-- **A switch goes to another task**: the next task can run, the sleeper cannot. -/
theorem switched (sleeping : Sleeping t ticks past s) (inv : Inv s) {tmpSp : Nat} {k : Kernel}
    (enabled : s.critical = none) (pended : s.kernel.pendsv = true)
    (switched : pendSvSwitch { s.kernel with pendsv := false } tmpSp = some k) :
    Sleeping t ticks (past ++ [.pendSv tmpSp]) { s with kernel := k } ∧
      t ∉ dispatched s (.pendSv tmpSp) := by
  have pending := inv.pending pended
  have other : t ≠ s.kernel.nextTaskId := by
    rintro rfl
    exact (pending.found.good_of_ne pending.away).ne_waiting sleeping.status
  obtain ⟨next, pointer, _, _, _, _, _, statuses, kept⟩ := pendSvSwitch_cases switched
  have same : next = s.kernel.nextTaskId := Option.some.inj (pointer.symm.trans pending.nextTask)
  constructor
  · refine sleeping.frame (by simp) (by simp [enabled]) ?_ (kept t).1 ?_
    · rw [statuses t, if_neg (same ▸ other)]
      rfl
    · intro ticks' place
      rw [enabled] at place
      cases place
  · simpa [dispatched, pending.nextTask] using other

/-- A store of the running task into its own slot. -/
theorem stored (sleeping : Sleeping t ticks past s) {event : Event} {task : YosTask}
    (away : s.current ≠ t) (other : event ≠ .sysTick)
    (elsewhere : s.critical ≠ some (.delayTicks ticks))
    (kernel : s'.kernel = s.kernel.setTask s.current task) :
    Sleeping t ticks (past ++ [event]) s' := by
  have kept : s'.kernel.allTasks t = s.kernel.allTasks t := by
    rw [kernel, Kernel.setTask_allTasks, Function.update_of_ne (Ne.symm away)]
  refine sleeping.frame other elsewhere (congrArg _ kept) (congrArg _ kept) fun _ _ => ?_
  rw [Sys.current, kernel, Kernel.setTask_currentTaskId]
  exact away

/-- **One event before the last tick**: the sleeper sleeps on, and is not dispatched. -/
theorem step (sleeping : Sleeping t ticks past s) (inv : Inv s) {event : Event}
    (one : s.step event = some s') (early : realTicks (past ++ [event]) < max 1 ticks) :
    Sleeping t ticks (past ++ [event]) s' ∧ t ∉ dispatched s event := by
  cases step_fired one with
  | sysTick enabled =>
      rw [realTicks_append] at early
      exact ⟨(sleeping.ticked inv enabled).1 early, List.not_mem_nil⟩
  | pendSv enabled pended switched => exact sleeping.switched inv enabled pended switched
  | @delayStatus other task place running =>
      obtain rfl := inv.running_eq running
      have away : s.current ≠ t := by
        rintro rfl
        rcases inv.waiting sleeping.status with pended | ⟨_, elsewhere⟩
        · exact absurd (inv.masked (by simp [OnTheWay, place]) ▸ pended) (by decide)
        · exact elsewhere other place
      exact ⟨sleeping.stored away (by simp) (by simp [place]) rfl, List.not_mem_nil⟩
  | @delayTicks other task place running =>
      obtain rfl := inv.running_eq running
      refine ⟨?_, List.not_mem_nil⟩
      rcases sleeping.counter with ⟨here, rfl, none⟩ | ⟨counter, elsewhere⟩
      · rw [place, Option.some.injEq, CriticalPoint.delayTicks.injEq] at here
        subst here
        refine ⟨sleeping.slot, ?_, Or.inr ⟨?_, by simp⟩⟩
        · rw [← sleeping.status]
          simp only [Kernel.status, Kernel.setTask_allTasks, Function.update_self]
        · rw [realTicks_append, none, realTicks_other (by simp)]
          simp only [Kernel.setTask_allTasks, Function.update_self, Nat.add_zero, Nat.sub_zero]
      · have kept : ∀ task, (s.kernel.setTask s.current task).allTasks t = s.kernel.allTasks t :=
          fun task => Function.update_of_ne (Ne.symm (elsewhere other place)) _ _
        refine ⟨sleeping.slot, ?_, Or.inr ⟨?_, by simp⟩⟩
        · rw [← sleeping.status]
          exact congrArg YosTask.status (kept _)
        · rw [realTicks_append, realTicks_other (by simp), Nat.add_zero, ← counter]
          exact congrArg YosTask.blockTicks (kept _)
  | scheduleFlag place =>
      exact ⟨sleeping.frame (by simp) (by simp [place]) rfl rfl (by simp), List.not_mem_nil⟩
  | handler place => exact ⟨sleeping.rescheduled inv place, List.not_mem_nil⟩
  | enable place =>
      exact ⟨sleeping.frame (by simp) (by simp [place]) rfl rfl (by simp), List.not_mem_nil⟩
  | @call call task point enabled clear running allowed resume =>
      refine ⟨sleeping.frame (by simp) (by simp [enabled]) rfl rfl ?_, List.not_mem_nil⟩
      cases call <;> simp [Call.entry]
  | enterTask enabled clear running entry function =>
      obtain rfl := inv.running_eq running
      have away := sleeping.away inv enabled clear
      exact ⟨sleeping.stored away (by simp) (by simp [enabled]) rfl, List.not_mem_nil⟩
  | enterNull enabled clear running entry function =>
      obtain rfl := inv.running_eq running
      have away := sleeping.away inv enabled clear
      exact ⟨sleeping.stored away (by simp) (by simp [enabled]) rfl, List.not_mem_nil⟩
  | returnTask enabled clear running inside user =>
      obtain rfl := inv.running_eq running
      have away := sleeping.away inv enabled clear
      exact ⟨sleeping.stored away (by simp) (by simp [enabled]) rfl, List.not_mem_nil⟩
  | @mutex _ id mutexes enabled clear kind =>
      have place : ∀ other, s.critical = some (.delayTicks other) → s.current ≠ t := by
        simp [enabled]
      rcases kind with rfl | rfl | rfl
      all_goals
        exact ⟨sleeping.frame (by simp) (by simp [enabled]) rfl rfl place, List.not_mem_nil⟩
  | @create task taskFunc data stackSize name enabled clear running inside =>
      refine ⟨?_, List.not_mem_nil⟩
      generalize result : (yosCreateTask s.kernel taskFunc data stackSize name).2 = k'
      have place : ∀ other, s.critical = some (.delayTicks other) → k'.currentTaskId ≠ t := by
        simp [enabled]
      rcases yosCreateTask_effect _ _ _ _ _ result with rfl | ⟨_, _, _, _, _, _, _, _, others⟩
      · exact sleeping.frame (by simp) (by simp [enabled]) rfl rfl place
      · have old : t ≠ s.kernel.taskIdForNext := by
          rintro rfl
          exact absurd (inv.tail _ (Nat.le_refl _) sleeping.slot ▸ sleeping.status) (by decide)
        exact sleeping.frame (by simp) (by simp [enabled]) (congrArg _ (others t old))
          (congrArg _ (others t old)) place

end Sleeping

/-! ### The whole delay -/

/-- After a call of `yos_task_delay`, the store of the WAITING status comes first. -/
theorem delay_first {s s₁ s₂ : Sys} {ticks : Nat} {events : List Event} (inv : Inv s)
    (called : s.step (.call (.delay ticks)) = some s₁) (run : runEvents Sys.step s₁ events = some s₂)
    (started : events ≠ []) :
    ∃ rest first, events = .exec :: rest ∧ s₁.step .exec = some first ∧
      runEvents Sys.step first rest = some s₂ ∧ Sleeping s.current ticks [.exec] first := by
  have inside := inv.currentInside
  cases events with
  | nil => exact absurd rfl started
  | cons event rest =>
      obtain ⟨first, one, run⟩ := runEvents_cons.mp run
      have inv₁ := inv.step called
      obtain ⟨_, _, task, point, _, _, _, rfl⟩ := call_fired called
      cases step_fired one with
      | @delayStatus other task place running =>
          cases place
          obtain rfl := inv₁.running_eq running
          refine ⟨rest, _, rfl, one, run, inside, ?_, Or.inl ⟨rfl, rfl, rfl⟩⟩
          exact (Kernel.setStatus_status ..).trans (if_pos rfl)
      | mutex enabled _ _ => cases enabled
      | sysTick enabled | pendSv enabled | call enabled | enterTask enabled
      | enterNull enabled | returnTask enabled | create enabled => cases enabled
      | delayTicks place | scheduleFlag place | handler place | enable place => cases place

/-- A sleeper sleeps through a run, short of the last tick. -/
theorem Sleeping.run {t ticks : Nat} {past events : List Event} {s s' : Sys} (inv : Inv s)
    (sleeping : Sleeping t ticks past s) (run : runEvents Sys.step s events = some s')
    (early : realTicks (past ++ events) < max 1 ticks) :
    Inv s' ∧ Sleeping t ticks (past ++ events) s' ∧ t ∉ dispatches s events := by
  induction events generalizing past s with
  | nil =>
      rw [runEvents_nil, Option.some.injEq] at run
      subst run
      rw [List.append_nil]
      exact ⟨inv, sleeping, List.not_mem_nil⟩
  | cons event rest ih =>
      obtain ⟨next, one, run⟩ := runEvents_cons.mp run
      rw [List.append_cons] at early ⊢
      have early' : realTicks (past ++ [event]) < max 1 ticks := by
        rw [realTicks_append] at early
        exact Nat.lt_of_le_of_lt (Nat.le_add_right _ _) early
      obtain ⟨sleeping', here⟩ := sleeping.step inv one early'
      obtain ⟨inv', sleeping'', later⟩ := ih (inv.step one) sleeping' run early
      refine ⟨inv', sleeping'', fun member => ?_⟩
      rw [dispatches, emitted_cons one, List.mem_append] at member
      exact member.elim here later

section Whole

variable {s s₁ s₂ : Sys} {ticks : Nat} {events : List Event}

/-- What a run puts out is put out after the first statement of the call. -/
theorem dispatches_exec {first : Sys} (one : s₁.step .exec = some first) (events : List Event) :
    dispatches s₁ (.exec :: events) = dispatches first events :=
  (emitted_cons one events).trans (List.nil_append _)

/-- Before the last tick, the caller sleeps. -/
theorem delay_asleep (inv : Inv s) (called : s.step (.call (.delay ticks)) = some s₁)
    (run : runEvents Sys.step s₁ events = some s₂) (started : events ≠ [])
    (early : realTicks events < max 1 ticks) :
    s₂.kernel.status s.current = .waiting ∧ s.current ∉ dispatches s₁ events ∧
      (s₂.critical = none → s₂.kernel.pendsv = false → s₂.current ≠ s.current) := by
  obtain ⟨rest, first, rfl, one, run, asleep⟩ := delay_first inv called run started
  obtain ⟨inv₂, asleep₂, absent⟩ := asleep.run ((inv.step called).step one) run early
  rw [dispatches_exec one]
  exact ⟨asleep₂.status, absent, asleep₂.away inv₂⟩

/-- The last tick wakes the caller. -/
theorem delay_wakes (inv : Inv s) (called : s.step (.call (.delay ticks)) = some s₁)
    (run : runEvents Sys.step s₁ events = some s₂) (started : events ≠ [])
    (last : realTicks events = max 1 ticks) (final : events.getLast? = some .sysTick) :
    s₂.kernel.status s.current = .running ∧ s.current ∉ dispatches s₁ events := by
  obtain ⟨rest, first, rfl, one, run, asleep⟩ := delay_first inv called run started
  rw [dispatches_exec one]
  obtain ⟨before, ended⟩ := List.getLast?_eq_some_iff.mp final
  cases before with
  | nil => cases ended
  | cons event before =>
      obtain ⟨rfl, tail⟩ := List.cons.inj ended
      obtain rfl : rest = before ++ [.sysTick] := tail
      obtain ⟨s₃, asleepRun, tick⟩ := runEvents_append.mp run
      obtain ⟨_, tick, same⟩ := runEvents_cons.mp tick
      cases same
      have count : realTicks (.exec :: before) + 1 = max 1 ticks := by
        rw [← last]
        exact (realTicks_append (.exec :: before) [.sysTick]).symm
      have early : realTicks (.exec :: before) < max 1 ticks := by omega
      obtain ⟨inv₃, asleep₃, absent⟩ := asleep.run ((inv.step called).step one) asleepRun early
      obtain ⟨enabled, rfl⟩ := sysTick_fired tick
      refine ⟨(asleep₃.ticked inv₃ enabled).2 count, fun member => ?_⟩
      rw [dispatches, emitted_append asleepRun, emitted_cons tick, List.mem_append] at member
      exact member.elim absent List.not_mem_nil

end Whole

/-- **Exact delay.** After a call of `yos_task_delay(ticks)`, whatever happens: before the
`max 1 ticks`-th real tick the caller is WAITING, its thread does not run and it is not dispatched;
at that tick it becomes RUNNING. -/
theorem yosTaskDelay_exact {s s₁ s₂ : Sys} {ticks : Nat} {events : List Event}
    (reachable : Reachable s) (called : s.step (.call (.delay ticks)) = some s₁)
    (run : runEvents Sys.step s₁ events = some s₂) (started : events ≠ []) :
    (realTicks events < max 1 ticks →
      s₂.kernel.status s.current = .waiting ∧ s.current ∉ dispatches s₁ events ∧
        (s₂.critical = none → s₂.kernel.pendsv = false → s₂.current ≠ s.current)) ∧
    (realTicks events = max 1 ticks → events.getLast? = some .sysTick →
      s₂.kernel.status s.current = .running ∧ s.current ∉ dispatches s₁ events) :=
  ⟨delay_asleep reachable.inv called run started, delay_wakes reachable.inv called run started⟩

/-- The user task sleeps for two ticks; the idle task runs meanwhile. -/
def sampleSleep : List Event :=
  [.exec, .exec, .exec, .exec, .exec, .pendSv 0x20004780, .sysTick, .sysTick]

theorem yosTaskDelay_exact_sampleSys :
    ∃ s₁ s₂, sampleSys.step (.call (.delay 2)) = some s₁ ∧
      runEvents Sys.step s₁ sampleSleep = some s₂ ∧
      s₂.kernel.status sampleSys.current = .running := by
  have finishes : ((sampleSys.step (.call (.delay 2))).bind fun s₁ =>
      runEvents Sys.step s₁ sampleSleep).isSome := by decide +kernel
  obtain ⟨s₂, both⟩ := Option.isSome_iff_exists.mp finishes
  obtain ⟨s₁, called, run⟩ := Option.bind_eq_some_iff.mp both
  have exact := yosTaskDelay_exact sampleSys_reachable called run (by decide)
  exact ⟨s₁, s₂, called, run, (exact.2 rfl rfl).1⟩

end YosStm32
