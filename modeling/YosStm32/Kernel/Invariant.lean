/-
**The scheduler invariant.**

`Fired` lists what each event can do to a system, one constructor per statement of the source, and
`step_fired` reads a step as one of them. `Inv` is the invariant over the globals and the task
table: `Inv.step` keeps it through every event, `Reachable.inv` gives it in every state after
`yos_start`. Two of its fields carry the arguments of the later modules: `idle` (the idle task can
always run, so a task that gives up the processor is always switched away) and `pending` (a pended
switch goes to the first runnable task after the current one).
-/

import YosStm32.Kernel.System

namespace YosStm32

open Lib Mutex

/-- What one event does. -/
inductive Fired (s : Sys) : Event → Sys → Prop where
  | sysTick (enabled : s.critical = none) : Fired s .sysTick s.afterHandler
  | pendSv {tmpSp : Nat} {k : Kernel} (enabled : s.critical = none) (pended : s.kernel.pendsv = true)
      (switched : pendSvSwitch { s.kernel with pendsv := false } tmpSp = some k) :
      Fired s (.pendSv tmpSp) { s with kernel := k }
  | delayStatus {ticks task : Nat} (place : s.critical = some (.delayStatus ticks))
      (running : s.kernel.currentTask = some task) :
      Fired s .exec
        { s with kernel := s.kernel.setStatus task .waiting, critical := some (.delayTicks ticks) }
  | delayTicks {ticks task : Nat} (place : s.critical = some (.delayTicks ticks))
      (running : s.kernel.currentTask = some task) :
      Fired s .exec
        { s with
          kernel := s.kernel.setTask task { s.kernel.allTasks task with blockTicks := ticks }
          critical := some .scheduleFlag }
  | scheduleFlag (place : s.critical = some .scheduleFlag) :
      Fired s .exec
        { s with
          kernel := { s.kernel with isSystickTriggerByInt := false }
          critical := some .handler }
  | handler (place : s.critical = some .handler) :
      Fired s .exec { s.afterHandler with critical := some .enable }
  | enable (place : s.critical = some .enable) : Fired s .exec { s with critical := none }
  | call {call : Call} {task : Nat} {point : ThreadPoint} (enabled : s.critical = none)
      (clear : s.kernel.pendsv = false) (running : s.kernel.currentTask = some task)
      (allowed : task = 0 → call = .schedule) (resume : call.resume (s.context task) = some point) :
      Fired s (.call call)
        { s with
          context := Function.update s.context task point
          critical := some call.entry }
  | enterTask {task func : Nat} (enabled : s.critical = none) (clear : s.kernel.pendsv = false)
      (running : s.kernel.currentTask = some task) (entry : s.context task = .shell)
      (function : (s.kernel.allTasks task).taskFunc = some func) :
      Fired s .enterTask
        { s with
          kernel := s.kernel.setStatus task .running
          context := Function.update s.context task .body }
  | enterNull {task : Nat} (enabled : s.critical = none) (clear : s.kernel.pendsv = false)
      (running : s.kernel.currentTask = some task) (entry : s.context task = .shell)
      (function : (s.kernel.allTasks task).taskFunc = none) :
      Fired s .enterTask
        { s with
          kernel := s.kernel.setStatus task .exited
          context := Function.update s.context task .resched }
  | returnTask {task : Nat} (enabled : s.critical = none) (clear : s.kernel.pendsv = false)
      (running : s.kernel.currentTask = some task) (inside : s.context task = .body)
      (user : task ≠ 0) :
      Fired s .returnTask
        { s with
          kernel := s.kernel.setStatus task .exited
          context := Function.update s.context task .resched }
  | mutex {event : Event} {id : Nat} {mutexes : Nat → Ymutex} (enabled : s.critical = none)
      (clear : s.kernel.pendsv = false)
      (kind : event = .tryLock id ∨ event = .unlock id ∨ event = .deinitStore id) :
      Fired s event { s with mutexes := mutexes }
  | create {task : Nat} {taskFunc : Option Nat} {data stackSize : Nat}
      {name : Option (List UInt8)} (enabled : s.critical = none) (clear : s.kernel.pendsv = false)
      (running : s.kernel.currentTask = some task) (inside : s.context task = .body) :
      Fired s (.create taskFunc data stackSize name)
        { s with kernel := (yosCreateTask s.kernel taskFunc data stackSize name).2 }

theorem asMutexUser_fired {s s' : Sys} {event : Event} {id : Nat} {act : Ymutex → Ymutex}
    (kind : event = .tryLock id ∨ event = .unlock id ∨ event = .deinitStore id)
    (one : s.asMutexUser id act = some s') : Fired s event s' := by
  obtain ⟨enabled, clear, task, _, done⟩ := Sys.asThread_eq_some.mp one
  split at done
  · cases done
    exact .mutex enabled clear kind
  · cases done

theorem execute_fired {s s' : Sys} (one : s.execute = some s') : Fired s .exec s' := by
  unfold Sys.execute at one
  split at one
  · cases one
  · rename_i ticks place
    obtain ⟨task, running, rfl⟩ := Option.map_eq_some_iff.mp one
    exact .delayStatus place running
  · rename_i ticks place
    obtain ⟨task, running, rfl⟩ := Option.map_eq_some_iff.mp one
    exact .delayTicks place running
  · cases one
    exact .scheduleFlag ‹_›
  · cases one
    exact .handler ‹_›
  · cases one
    exact .enable ‹_›

theorem sysTick_fired {s s' : Sys} (one : s.step .sysTick = some s') :
    s.critical = none ∧ s' = s.afterHandler := by
  simp only [Sys.step, Option.ite_none_right_eq_some, Option.some.injEq] at one
  exact ⟨one.1, one.2.symm⟩

theorem pendSv_fired {s s' : Sys} {tmpSp : Nat} (one : s.step (.pendSv tmpSp) = some s') :
    s.critical = none ∧ s.kernel.pendsv = true ∧
      ∃ k, pendSvSwitch { s.kernel with pendsv := false } tmpSp = some k ∧
        s' = { s with kernel := k } := by
  simp only [Sys.step, Option.ite_none_right_eq_some, Option.map_eq_some_iff] at one
  obtain ⟨⟨enabled, pended⟩, k, switched, rfl⟩ := one
  exact ⟨enabled, pended, k, switched, rfl⟩

theorem call_fired {s s' : Sys} {call : Call} (called : s.step (.call call) = some s') :
    s.critical = none ∧ s.kernel.pendsv = false ∧
      ∃ task point, s.kernel.currentTask = some task ∧ (task = 0 → call = .schedule) ∧
        call.resume (s.context task) = some point ∧
        s' = { s with
          context := Function.update s.context task point
          critical := some call.entry } := by
  obtain ⟨enabled, clear, task, running, done⟩ := Sys.asThread_eq_some.mp called
  simp only [Option.ite_none_left_eq_some, Option.map_eq_some_iff] at done
  obtain ⟨allowed, point, resume, rfl⟩ := done
  refine ⟨enabled, clear, task, point, running, fun idle => ?_, resume, rfl⟩
  by_contra other
  exact allowed ⟨idle, other⟩

/-- **Every step is one of the listed effects.** -/
theorem step_fired {s s' : Sys} {event : Event} (one : s.step event = some s') :
    Fired s event s' := by
  cases event with
  | sysTick =>
      obtain ⟨enabled, rfl⟩ := sysTick_fired one
      exact .sysTick enabled
  | pendSv tmpSp =>
      obtain ⟨enabled, pended, k, switched, rfl⟩ := pendSv_fired one
      exact .pendSv enabled pended switched
  | exec => exact execute_fired one
  | call call =>
      obtain ⟨enabled, clear, task, point, running, allowed, resume, rfl⟩ := call_fired one
      exact .call enabled clear running allowed resume
  | enterTask =>
      obtain ⟨enabled, clear, task, running, done⟩ := Sys.asThread_eq_some.mp one
      rw [Option.ite_none_right_eq_some] at done
      obtain ⟨entry, done⟩ := done
      split at done
      · cases done
        exact .enterTask enabled clear running entry ‹_›
      · cases done
        exact .enterNull enabled clear running entry ‹_›
  | returnTask =>
      obtain ⟨enabled, clear, task, running, done⟩ := Sys.asThread_eq_some.mp one
      simp only [Option.ite_none_right_eq_some, Option.some.injEq] at done
      obtain ⟨⟨inside, user⟩, rfl⟩ := done
      exact .returnTask enabled clear running inside user
  | tryLock id =>
      rw [Sys.step] at one
      exact asMutexUser_fired (Or.inl rfl) one
  | unlock id =>
      rw [Sys.step] at one
      exact asMutexUser_fired (Or.inr (Or.inl rfl)) one
  | deinitStore id => exact asMutexUser_fired (Or.inr (Or.inr rfl)) one
  | create taskFunc data stackSize name =>
      obtain ⟨enabled, clear, task, running, done⟩ := Sys.asThread_eq_some.mp one
      simp only [Option.ite_none_right_eq_some, Option.some.injEq] at done
      obtain ⟨inside, rfl⟩ := done
      exact .create enabled clear running inside

/-! ### The invariant -/

/-- The running code is on its way to `sys_tick_handler`, with interrupts disabled. -/
def OnTheWay (critical : Option CriticalPoint) : Prop :=
  critical ≠ none ∧ critical ≠ some .enable

/-- A pended switch goes to the first runnable task after the current one. -/
structure SwitchPended (k : Kernel) : Prop where
  nextTask : k.nextTask = some k.nextTaskId
  away : k.nextTaskId ≠ k.currentTaskId
  found : FirstAfter yosMaxTaskCount k.currentTaskId (fun j => (k.status j).Runnable) k.nextTaskId

/-- What holds of the globals at every statement, inside and outside the critical sections. -/
structure KernelInv (k : Kernel) : Prop where
  idle : (k.status 0).Runnable
  currentTask : k.currentTask = some k.currentTaskId
  currentLt : k.currentTaskId < k.taskIdForNext
  count : k.taskIdForNext ≤ yosMaxTaskCount
  tail : ∀ id, k.taskIdForNext ≤ id → id < yosMaxTaskCount → k.status id = .invalid
  alive : k.status k.currentTaskId ≠ .invalid
  functions : ∀ id, id < k.taskIdForNext → (k.allTasks id).taskFunc ≠ none
  pending : k.pendsv = true → SwitchPended k

/-- The invariant: the globals, and how they stand to the statement that is reached. -/
structure Inv (s : Sys) : Prop extends KernelInv s.kernel where
  flag : s.kernel.isSystickTriggerByInt = false ↔ s.critical = some .handler
  waiting : s.kernel.status s.current = .waiting → s.kernel.pendsv = true ∨
    OnTheWay s.critical ∧ ∀ ticks, s.critical ≠ some (.delayStatus ticks)
  delaying : ∀ ticks, s.critical = some (.delayStatus ticks) ∨ s.critical = some (.delayTicks ticks) →
    s.current ≠ 0
  masked : OnTheWay s.critical → s.kernel.pendsv = false

namespace YosTaskStatus

theorem Runnable.ne_waiting {status : YosTaskStatus} (runnable : status.Runnable) :
    status ≠ .waiting := by
  rintro rfl
  rcases runnable with created | running
  · cases created
  · cases running

theorem Runnable.ne_exited {status : YosTaskStatus} (runnable : status.Runnable) :
    status ≠ .exited := by
  rintro rfl
  rcases runnable with created | running
  · cases created
  · cases running

theorem Runnable.ne_invalid {status : YosTaskStatus} (runnable : status.Runnable) :
    status ≠ .invalid := by
  rintro rfl
  rcases runnable with created | running
  · cases created
  · cases running

end YosTaskStatus

/-- The tick handler keeps runnable tasks runnable. -/
theorem Handled.runnable {k k' : Kernel} (handled : Handled k k') {id : Nat}
    (runnable : (k.status id).Runnable) : (k'.status id).Runnable := by
  rcases handled.statuses id with kept | ⟨exited, _⟩ | ⟨waiting, _⟩
  · rwa [kept]
  · exact absurd exited runnable.ne_exited
  · exact absurd waiting runnable.ne_waiting

/-- The tick handler never puts a task to sleep. -/
theorem Handled.waiting {k k' : Kernel} (handled : Handled k k') {id : Nat}
    (waiting : k'.status id = .waiting) : k.status id = .waiting := by
  rcases handled.statuses id with kept | ⟨_, _, cleared⟩ | ⟨before, _⟩
  · exact kept ▸ waiting
  · rw [cleared] at waiting
    cases waiting
  · exact before

namespace KernelInv

variable {k k' : Kernel}

theorem currentInside (inv : KernelInv k) : k.currentTaskId < yosMaxTaskCount :=
  Nat.lt_of_lt_of_le inv.currentLt inv.count

/-- **The tick handler keeps the invariant.** A switch that was pended stays pended, to a task
chosen anew: the task it went to can still run. -/
theorem handled (inv : KernelInv k) : KernelInv (sysTickHandler k).2 := by
  have handled := sysTickHandler_handled k inv.currentInside
  refine ⟨handled.runnable inv.idle, ?_, ?_, ?_, fun id above below => ?_, ?_, fun id below => ?_,
    fun pended => ?_⟩
  · rw [handled.currentTask, handled.currentTaskId]
    exact inv.currentTask
  · rw [handled.currentTaskId, handled.taskIdForNext]
    exact inv.currentLt
  · rw [handled.taskIdForNext]
    exact inv.count
  · have before := inv.tail id (handled.taskIdForNext ▸ above) below
    rcases handled.statuses id with kept | ⟨_, _, cleared⟩ | ⟨waiting, _⟩
    · exact kept.trans before
    · exact cleared
    · exact absurd (before.symm.trans waiting) (by decide)
  · rw [handled.currentTaskId]
    rcases handled.statuses k.currentTaskId with kept | ⟨_, other, _⟩ | ⟨_, running⟩
    · rw [kept]
      exact inv.alive
    · exact absurd rfl other
    · rw [running]
      decide
  · have same : ((sysTickHandler k).2.allTasks id).taskFunc = (k.allTasks id).taskFunc :=
      congrArg Prod.fst (handled.fixed id)
    rw [same]
    exact inv.functions id (handled.taskIdForNext ▸ below)
  · have away : (sysTickHandler k).2.nextTaskId ≠ k.currentTaskId := by
      intro back
      rcases handled.outcome with ⟨_, same, _⟩ | ⟨away, _⟩
      · have old := inv.pending (same ▸ pended)
        exact handled.found.ne_of_good inv.currentInside old.found.inside
          (handled.runnable (old.found.good_of_ne old.away)) old.away back
      · exact away back
    rcases handled.outcome with ⟨back, _⟩ | ⟨_, _, pointer⟩
    · exact absurd back away
    · exact ⟨pointer, handled.currentTaskId ▸ away, handled.currentTaskId ▸ handled.found⟩

/-- A user task that enters the handler leaves it with a switch pended: the idle task can run. -/
theorem handler_pends (inv : KernelInv k) (user : k.currentTaskId ≠ 0) :
    (sysTickHandler k).2.pendsv = true := by
  have handled := sysTickHandler_handled k inv.currentInside
  have away := handled.found.ne_of_good inv.currentInside (by decide) (handled.runnable inv.idle)
    (Ne.symm user)
  rcases handled.outcome with ⟨back, _⟩ | ⟨_, pended, _⟩
  · exact absurd back away
  · exact pended

/-- A switch is pended to a task that was created. -/
theorem next_lt (inv : KernelInv k) (pended : k.pendsv = true) : k.nextTaskId < k.taskIdForNext := by
  have pending := inv.pending pended
  by_contra beyond
  have invalid := inv.tail _ (Nat.le_of_not_lt beyond) pending.found.inside
  exact (pending.found.good_of_ne pending.away).ne_invalid invalid

/-- **The switch keeps the invariant**, and the new current task is RUNNING. -/
theorem switch (inv : KernelInv k) {tmpSp : Nat} (pended : k.pendsv = true)
    (switched : pendSvSwitch { k with pendsv := false } tmpSp = some k') :
    KernelInv k' ∧ k'.currentTaskId = k.nextTaskId ∧ k'.status k'.currentTaskId = .running ∧
      k'.pendsv = false := by
  obtain ⟨next, pointer, currentTask, currentTaskId, count, _, clear, statuses, kept⟩ :=
    pendSvSwitch_cases switched
  have pending := inv.pending pended
  have same : next = k.nextTaskId := Option.some.inj (pointer.symm.trans pending.nextTask)
  subst same
  have statuses' : ∀ id, k'.status id = if id = k.nextTaskId then .running else k.status id :=
    statuses
  have running : k'.status k.nextTaskId = .running := by rw [statuses', if_pos rfl]
  have below := inv.next_lt pended
  refine ⟨⟨?_, ?_, ?_, ?_, fun id above inside => ?_, ?_, fun id below' => ?_, fun again => ?_⟩,
    currentTaskId, ?_, clear⟩
  · rw [statuses']
    split
    · exact Or.inr rfl
    · exact inv.idle
  · rw [currentTask, currentTaskId]
  · rw [currentTaskId, count]
    exact below
  · rw [count]
    exact inv.count
  · rw [count] at above
    rw [statuses', if_neg]
    · exact inv.tail id above inside
    · rintro rfl
      exact absurd below (Nat.not_lt.mpr above)
  · rw [currentTaskId]
    show k'.status k.nextTaskId ≠ .invalid
    rw [running]
    decide
  · have same : (k'.allTasks id).taskFunc = (k.allTasks id).taskFunc :=
      congrArg Prod.fst (kept id).2
    rw [same]
    exact inv.functions id (count ▸ below')
  · rw [clear] at again
    cases again
  · rw [currentTaskId]
    exact running

/-- A status store by the running task. -/
theorem store (inv : KernelInv k) (clear : k.pendsv = false) {status : YosTaskStatus}
    (alive : status ≠ .invalid) (idle : k.currentTaskId = 0 → status.Runnable) :
    KernelInv (k.setStatus k.currentTaskId status) := by
  refine ⟨?_, inv.currentTask, inv.currentLt, inv.count, fun id above inside => ?_, ?_,
    fun id below => ?_, fun pended => ?_⟩
  · rw [Kernel.setStatus_status]
    split
    · rename_i here
      exact idle here.symm
    · exact inv.idle
  · rw [Kernel.setStatus_status, if_neg]
    · exact inv.tail id above inside
    · rintro rfl
      exact absurd inv.currentLt (Nat.not_lt.mpr above)
  · rw [show (k.setStatus k.currentTaskId status).currentTaskId = k.currentTaskId from rfl,
      Kernel.setStatus_status, if_pos rfl]
    exact alive
  · have same := congrArg Prod.fst (Kernel.setTask_fixed k k.currentTaskId id
      { k.allTasks k.currentTaskId with status := status } rfl)
    exact fun null => inv.functions id below (same.symm.trans null)
  · rw [show (k.setStatus k.currentTaskId status).pendsv = k.pendsv from rfl, clear] at pended
    cases pended

/-- Changes that leave every status, the two counters and the current task alone. -/
theorem frame (inv : KernelInv k) (clear : k'.pendsv = false)
    (statuses : ∀ id, k'.status id = k.status id) (currentTask : k'.currentTask = k.currentTask)
    (currentTaskId : k'.currentTaskId = k.currentTaskId)
    (count : k'.taskIdForNext = k.taskIdForNext)
    (fixed : ∀ id, (k'.allTasks id).fixed = (k.allTasks id).fixed) : KernelInv k' := by
  refine ⟨?_, ?_, ?_, ?_, fun id above inside => ?_, ?_, fun id below => ?_, fun pended => ?_⟩
  · rw [statuses]
    exact inv.idle
  · rw [currentTask, currentTaskId]
    exact inv.currentTask
  · rw [currentTaskId, count]
    exact inv.currentLt
  · rw [count]
    exact inv.count
  · rw [statuses]
    exact inv.tail id (count ▸ above) inside
  · rw [statuses, currentTaskId]
    exact inv.alive
  · rw [show (k'.allTasks id).taskFunc = (k.allTasks id).taskFunc from
      congrArg Prod.fst (fixed id)]
    exact inv.functions id (count ▸ below)
  · rw [clear] at pended
    cases pended

/-- Filling the next slot. -/
theorem create (inv : KernelInv k) (clear : k.pendsv = false) {taskFunc : Option Nat}
    {data stackSize : Nat} {name : Option (List UInt8)}
    (result : (yosCreateTask k taskFunc data stackSize name).2 = k') : KernelInv k' := by
  rcases yosCreateTask_effect k taskFunc data stackSize name result with
    rfl | ⟨room, count, currentTask, currentTaskId, pendsv, _, created, given, others⟩
  · exact inv
  have kept : ∀ id, id ≠ k.taskIdForNext → k'.status id = k.status id :=
    fun id other => congrArg YosTask.status (others id other)
  refine ⟨?_, ?_, ?_, ?_, fun id above inside => ?_, ?_, fun id below => ?_, fun pended => ?_⟩
  · by_cases first : 0 = k.taskIdForNext
    · exact first ▸ Or.inl created
    · rw [kept 0 first]
      exact inv.idle
  · rw [currentTask, currentTaskId]
    exact inv.currentTask
  · rw [currentTaskId, count]
    exact Nat.lt_succ_of_lt inv.currentLt
  · rw [count]
    exact room
  · rw [count] at above
    rw [kept id (by omega)]
    exact inv.tail id (by omega) inside
  · rw [currentTaskId, kept _ (Nat.ne_of_lt inv.currentLt)]
    exact inv.alive
  · by_cases last : id = k.taskIdForNext
    · exact last ▸ given
    · rw [others id last]
      exact inv.functions id (by omega)
  · rw [pendsv, clear] at pended
    cases pended

end KernelInv

namespace Inv

variable {s s' : Sys}

/-- A WAITING current task is a user task. -/
theorem user_of_waiting (inv : Inv s) (waiting : s.kernel.status s.current = .waiting) :
    s.current ≠ 0 := by
  intro idle
  rw [idle] at waiting
  exact inv.idle.ne_waiting waiting

/-- While its thread runs, the current task is not WAITING. -/
theorem awake (inv : Inv s) (enabled : s.critical = none) (clear : s.kernel.pendsv = false) :
    s.kernel.status s.current ≠ .waiting := by
  intro waiting
  rcases inv.waiting waiting with pended | ⟨⟨disabled, _⟩, _⟩
  · exact absurd (clear.symm.trans pended) (by decide)
  · exact disabled enabled

/-- The thread that runs is the one `_CURRENT_TASK_ID` names. -/
theorem running_eq (inv : Inv s) {task : Nat} (running : s.kernel.currentTask = some task) :
    task = s.current :=
  Option.some.inj (running.symm.trans inv.currentTask)

/-- A statement with interrupts enabled that leaves the flag alone. -/
theorem of_enabled (inv : Inv s) (kernel : KernelInv s'.kernel) (enabled : s.critical = none)
    (enabled' : s'.critical = none)
    (flag : s'.kernel.isSystickTriggerByInt = s.kernel.isSystickTriggerByInt)
    (awake : s'.kernel.status s'.current ≠ .waiting) : Inv s' := by
  refine ⟨kernel, ?_, fun waiting => absurd waiting awake, ?_, ?_⟩
  · rw [flag, inv.flag, enabled, enabled']
  · rintro ticks (place | place) <;> rw [enabled'] at place <;> cases place
  · rintro ⟨disabled, _⟩
    exact absurd enabled' disabled

/-- **Every event keeps the invariant.** -/
theorem fired (inv : Inv s) {event : Event} (one : Fired s event s') : Inv s' := by
  cases one with
  | sysTick enabled =>
      have handled := sysTickHandler_handled s.kernel inv.currentInside
      refine ⟨inv.toKernelInv.handled, ?_, fun waiting => Or.inl ?_, ?_, ?_⟩
      · rw [Sys.afterHandler_kernel, handled.flag, Sys.afterHandler_critical, enabled]
        simp
      · have before : s.kernel.status s.current = .waiting := by
          have after := handled.waiting waiting
          rwa [Sys.current, Sys.afterHandler_kernel, handled.currentTaskId] at after
        have pended : s.kernel.pendsv = true := by
          rcases inv.waiting before with pended | ⟨⟨disabled, _⟩, _⟩
          · exact pended
          · exact absurd enabled disabled
        rcases handled.outcome with ⟨_, same, _⟩ | ⟨_, pended', _⟩
        · exact same.trans pended
        · exact pended'
      · rintro ticks (place | place) <;>
          rw [Sys.afterHandler_critical, enabled] at place <;> cases place
      · rintro ⟨disabled, _⟩
        exact absurd enabled disabled
  | @pendSv tmpSp k enabled pended switched =>
      obtain ⟨kernel, _, running, _⟩ := inv.toKernelInv.switch pended switched
      obtain ⟨_, _, _, _, _, flag, _⟩ := pendSvSwitch_cases switched
      refine inv.of_enabled kernel enabled enabled flag ?_
      show k.status k.currentTaskId ≠ .waiting
      rw [running]
      decide
  | @delayStatus ticks task place running =>
      obtain rfl := inv.running_eq running
      have user := inv.delaying ticks (Or.inl place)
      have clear : s.kernel.pendsv = false := inv.masked (by simp [OnTheWay, place])
      refine ⟨inv.toKernelInv.store clear (by decide) fun idle => absurd idle user, ?_,
        fun _ => Or.inr ⟨by simp [OnTheWay], by simp⟩, fun _ _ => user, fun _ => clear⟩
      have flag := inv.flag
      rw [place] at flag
      simpa [Kernel.setStatus] using flag
  | @delayTicks ticks task place running =>
      obtain rfl := inv.running_eq running
      have clear : s.kernel.pendsv = false := inv.masked (by simp [OnTheWay, place])
      refine ⟨inv.toKernelInv.frame clear (fun id => Kernel.setTask_sameStatus _ _ id _ rfl) rfl rfl rfl
        fun id => Kernel.setTask_fixed _ _ id _ rfl, ?_,
        fun _ => Or.inr ⟨by simp [OnTheWay], by simp⟩, by simp, fun _ => clear⟩
      have flag := inv.flag
      rw [place] at flag
      simpa using flag
  | scheduleFlag place =>
      have clear : s.kernel.pendsv = false := inv.masked (by simp [OnTheWay, place])
      exact ⟨inv.toKernelInv.frame clear (fun _ => rfl) rfl rfl rfl fun _ => rfl, by simp,
        fun _ => Or.inr ⟨by simp [OnTheWay], by simp⟩, by simp, fun _ => clear⟩
  | handler place =>
      have handled := sysTickHandler_handled s.kernel inv.currentInside
      refine ⟨inv.toKernelInv.handled, ?_, fun waiting => Or.inl ?_, by simp, by simp [OnTheWay]⟩
      · rw [Sys.afterHandler_kernel, handled.flag]
        simp
      · have before := handled.waiting waiting
        rw [Sys.current, Sys.afterHandler_kernel, handled.currentTaskId] at before
        exact inv.toKernelInv.handler_pends (inv.user_of_waiting before)
  | enable place =>
      have flag := inv.flag
      rw [place] at flag
      refine ⟨inv.toKernelInv, by simpa using flag, fun waiting => Or.inl ?_, by simp,
        by simp [OnTheWay]⟩
      rcases inv.waiting waiting with pended | ⟨⟨_, other⟩, _⟩
      · exact pended
      · exact absurd place other
  | @call call task point enabled clear running allowed resume =>
      obtain rfl := inv.running_eq running
      have flag := inv.flag
      rw [enabled] at flag
      have awake := inv.awake enabled clear
      refine ⟨inv.toKernelInv, ?_, fun waiting => absurd waiting awake, fun ticks place => ?_,
        fun _ => clear⟩
      · cases call <;> simpa [Call.entry] using flag
      · intro idle
        rw [allowed idle] at place
        simp [Call.entry] at place
  | @enterTask task func enabled clear running entry function =>
      obtain rfl := inv.running_eq running
      refine inv.of_enabled (inv.toKernelInv.store clear (by decide) fun _ => Or.inr rfl) enabled
        enabled rfl ?_
      show (s.kernel.setStatus s.current .running).status s.current ≠ .waiting
      rw [Kernel.setStatus_status, if_pos rfl]
      decide
  | @enterNull task enabled clear running entry function =>
      obtain rfl := inv.running_eq running
      exact absurd function (inv.functions _ inv.currentLt)
  | @returnTask task enabled clear running inside user =>
      obtain rfl := inv.running_eq running
      refine inv.of_enabled (inv.toKernelInv.store clear (by decide) fun idle => absurd idle user)
        enabled enabled rfl ?_
      show (s.kernel.setStatus s.current .exited).status s.current ≠ .waiting
      rw [Kernel.setStatus_status, if_pos rfl]
      decide
  | mutex enabled clear kind =>
      exact inv.of_enabled inv.toKernelInv enabled enabled rfl (inv.awake enabled clear)
  | @create task taskFunc data stackSize name enabled clear running inside =>
      generalize result : (yosCreateTask s.kernel taskFunc data stackSize name).2 = k'
      refine inv.of_enabled (inv.toKernelInv.create clear result) enabled enabled ?_ ?_
      · rcases yosCreateTask_effect _ _ _ _ _ result with rfl | ⟨_, _, _, _, _, flag, _⟩
        · rfl
        · exact flag
      · have awake := inv.awake enabled clear
        rcases yosCreateTask_effect _ _ _ _ _ result with rfl | ⟨_, _, _, same, _, _, _, _, others⟩
        · exact awake
        · show k'.status k'.currentTaskId ≠ .waiting
          rw [Kernel.status, same, others _ (Nat.ne_of_lt inv.currentLt)]
          exact awake

theorem step (inv : Inv s) {event : Event} (one : s.step event = some s') : Inv s' :=
  inv.fired (step_fired one)

end Inv

/-! ### The start -/

/-- `yos_start` makes the task that the search finds the current and the next one, and sets up its
stack. -/
theorem yosStart_found {k k' : Kernel} (inside : k.currentTaskId < yosMaxTaskCount)
    (started : yosStart k true = some k') :
    ∃ next tasks, FirstAfter yosMaxTaskCount k.currentTaskId (fun j => (k.status j).Runnable) next ∧
      Swept k.currentTaskId k.allTasks tasks ∧
      k' = yosInitTaskStack { k with allTasks := tasks, currentTaskId := next, currentTask := some next,
                                     nextTask := some next, nextTaskId := next } next next := by
  obtain ⟨found, tasks, swept, searched⟩ := findNextTaskToRun_found k inside
  unfold yosStart at started
  rcases result : findNextTaskToRun k with ⟨next, after⟩
  rw [result] at found searched started
  simp only at found searched started
  subst searched
  rw [if_neg (Nat.not_le.mpr found.inside), if_neg (by decide), Option.some.injEq] at started
  exact ⟨next, tasks, found, swept, started.symm⟩

/-- What `yos_start` leaves: the task that the search finds is the current one, and the slots that
were not EXITED keep their task. -/
theorem yosStart_effect {k k' : Kernel} (inside : k.currentTaskId < yosMaxTaskCount)
    (started : yosStart k true = some k') :
    FirstAfter yosMaxTaskCount k.currentTaskId (fun j => (k.status j).Runnable) k'.currentTaskId ∧
      k'.currentTask = some k'.currentTaskId ∧ k'.taskIdForNext = k.taskIdForNext ∧
      k'.pendsv = k.pendsv ∧ k'.isSystickTriggerByInt = k.isSystickTriggerByInt ∧
      ∀ id, k.status id ≠ .exited →
        k'.status id = k.status id ∧ (k'.allTasks id).taskFunc = (k.allTasks id).taskFunc := by
  obtain ⟨next, tasks, found, swept, rfl⟩ := yosStart_found inside started
  refine ⟨found, rfl, rfl, rfl, rfl, fun id notExited => ?_⟩
  have same : tasks id = k.allTasks id := swept.kept notExited
  obtain ⟨status, _, fixed⟩ := yosInitTaskStack_task
    { k with allTasks := tasks, currentTaskId := next, currentTask := some next,
             nextTask := some next, nextTaskId := next } next next id
  exact ⟨status.trans (congrArg YosTask.status same),
    (congrArg Prod.fst fixed).trans (congrArg YosTask.taskFunc same)⟩

/-- Before `yos_start`: CREATED tasks, then empty slots, and the idle task's id is current. -/
structure BootInv (k : Kernel) : Prop where
  first : k.currentTaskId = 0
  count : 0 < k.taskIdForNext ∧ k.taskIdForNext ≤ yosMaxTaskCount
  created : ∀ id, id < k.taskIdForNext →
    k.status id = .created ∧ (k.allTasks id).taskFunc ≠ none
  tail : ∀ id, k.taskIdForNext ≤ id → id < yosMaxTaskCount → k.status id = .invalid
  flag : k.isSystickTriggerByInt = true
  clear : k.pendsv = false

namespace BootInv

variable {k k' : Kernel}

theorem currentInside (inv : BootInv k) : k.currentTaskId < yosMaxTaskCount := by
  rw [inv.first]
  decide

theorem init (image : Image) (mem : WordMemory) : BootInv (yosInit (zeroedKernel image mem)) := by
  obtain ⟨count, clear, flag, idle, func, empty⟩ := yosInit_effect (zeroedKernel image mem)
  refine ⟨yosInit_taskId _, ?_, fun id below => ?_, fun id above inside => ?_, flag, clear⟩
  · rw [count]
    decide
  · rw [count] at below
    obtain rfl : id = 0 := by omega
    exact ⟨idle, func⟩
  · rw [count] at above
    exact empty id (by omega) inside

theorem create (inv : BootInv k) {taskFunc : Option Nat} {data stackSize : Nat}
    {name : Option (List UInt8)}
    (result : (yosCreateTask k taskFunc data stackSize name).2 = k') :
    BootInv k' ∧ k.taskIdForNext ≤ k'.taskIdForNext := by
  rcases yosCreateTask_effect k taskFunc data stackSize name result with
    rfl | ⟨room, count, _, currentTaskId, clear, flag, created, given, others⟩
  · exact ⟨inv, Nat.le_refl _⟩
  refine ⟨⟨currentTaskId.trans inv.first, ?_, fun id below => ?_, fun id above inside => ?_,
    flag.trans inv.flag, clear.trans inv.clear⟩, by omega⟩
  · rw [count]
    exact ⟨Nat.succ_pos _, room⟩
  · rw [count] at below
    by_cases last : id = k.taskIdForNext
    · exact last ▸ ⟨created, given⟩
    · rw [Kernel.status, others id last]
      exact inv.created id (by omega)
  · rw [count] at above
    rw [Kernel.status, others id (by omega)]
    exact inv.tail id (by omega) inside

theorem createTasks (inv : BootInv k) (calls : List CreateArgs) :
    BootInv (YosStm32.createTasks k calls) := by
  induction calls generalizing k with
  | nil => exact inv
  | cons call calls ih => exact ih (inv.create rfl).1

theorem ne_exited (inv : BootInv k) (id : Nat) (inside : id < yosMaxTaskCount) :
    k.status id ≠ .exited := by
  by_cases below : id < k.taskIdForNext
  · rw [(inv.created id below).1]
    decide
  · rw [inv.tail id (Nat.le_of_not_lt below) inside]
    decide

/-- The search of `yos_start` ends at one of the tasks. -/
theorem found_lt (inv : BootInv k) {next : Nat}
    (found : FirstAfter yosMaxTaskCount k.currentTaskId (fun j => (k.status j).Runnable) next) :
    next < k.taskIdForNext := by
  rcases found.stopped with back | runnable
  · rw [back, inv.first]
    exact inv.count.1
  · by_contra beyond
    exact runnable.ne_invalid (inv.tail next (Nat.le_of_not_lt beyond) found.inside)

theorem kernelInv (inv : BootInv k) (started : yosStart k true = some k') : KernelInv k' := by
  obtain ⟨found, currentTask, count, clear, _, kept⟩ := yosStart_effect inv.currentInside started
  have below := inv.found_lt found
  refine ⟨?_, currentTask, count ▸ below, count ▸ inv.count.2, fun id above inside => ?_, ?_,
    fun id below => ?_, fun pended => ?_⟩
  · rw [(kept 0 (inv.ne_exited 0 (by decide))).1]
    exact Or.inl (inv.created 0 inv.count.1).1
  · rw [(kept id (inv.ne_exited id inside)).1]
    exact inv.tail id (count ▸ above) inside
  · rw [(kept _ (inv.ne_exited _ found.inside)).1, (inv.created _ below).1]
    decide
  · rw [count] at below
    rw [(kept id (inv.ne_exited id (Nat.lt_of_lt_of_le below inv.count.2))).2]
    exact (inv.created id below).2
  · rw [clear, inv.clear] at pended
    cases pended

/-- **The invariant when `yos_start` enables interrupts.** -/
theorem start (inv : BootInv k) (started : yosStart k true = some k') (mutexes : Nat → Ymutex) :
    Inv (startedSys k' mutexes) := by
  obtain ⟨found, _, _, _, flag, kept⟩ := yosStart_effect inv.currentInside started
  have awake : k'.status k'.currentTaskId ≠ .waiting := by
    rw [(kept _ (inv.ne_exited _ found.inside)).1, (inv.created _ (inv.found_lt found)).1]
    decide
  refine ⟨inv.kernelInv started, ?_, fun waiting => absurd waiting awake, by simp [startedSys],
    by simp [startedSys, OnTheWay]⟩
  show k'.isSystickTriggerByInt = false ↔ none = some CriticalPoint.handler
  rw [flag, inv.flag]
  simp

end BootInv

theorem Started.inv {calls : List CreateArgs} {s : Sys} (started : Started calls s) : Inv s := by
  obtain ⟨image, mem, k, mutexes, start, rfl⟩ := started
  exact ((BootInv.init image mem).createTasks calls).start start mutexes

/-- **The invariant holds in every state after `yos_start`.** -/
theorem Reachable.inv {s : Sys} (reachable : Reachable s) : Inv s := by
  obtain ⟨calls, first, events, started, run⟩ := reachable
  exact runEvents_invariant Inv (fun _ _ _ inv one => inv.step one) started.inv run

theorem Reachable.step {s s' : Sys} (reachable : Reachable s) {event : Event}
    (one : s.step event = some s') : Reachable s' := by
  obtain ⟨calls, first, events, started, run⟩ := reachable
  exact ⟨calls, first, events ++ [event], started,
    runEvents_append.mpr ⟨s, run, runEvents_cons.mpr ⟨s', one, rfl⟩⟩⟩

end YosStm32
