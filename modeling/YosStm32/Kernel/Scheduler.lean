/-
**The scheduler** (`yos.c`): the search for the next task, the tick bookkeeping, the tick handler
and the C part of the PendSV handler.

Each function comes with the one lemma its callers use:

* `findNextTaskToRun_found`: the search stops at the first runnable slot after the current one, or
  back at the current one, and on its way only turns EXITED slots INVALID;
* `mapTasks_tickTask` with `tickTask_status`: a tick only turns WAITING into RUNNING;
* `scheduleTasks_cases`: what the second half of the handler leaves behind, at each exit it can take;
  `sysTickHandler_handled` and `sysTickHandler_sleeper` sum this up for the invariants;
* `pendSvSwitch_cases`: the switch itself.
-/

import YosStm32.Kernel.Task
import YosStm32.Lib.Cyclic

namespace YosStm32

open Lib

/-! ### The search -/

/-- The loop of `_find_next_task_to_run`. `_CURRENT_TASK_ID` is not written in it. -/
def findNextLoop (currentTaskId : Nat) : Nat → (Nat → YosTask) → Nat → Nat × (Nat → YosTask)
  | 0, tasks, id => (id, tasks)
  | fuel + 1, tasks, id =>
      if id = currentTaskId then (id, tasks)
      else if (tasks id).status.Runnable then (id, tasks)
      else if (tasks id).status = .exited then
        findNextLoop currentTaskId fuel
          (Function.update tasks id { tasks id with status := .invalid })
          ((id + 1) % yosMaxTaskCount)
      else findNextLoop currentTaskId fuel tasks ((id + 1) % yosMaxTaskCount)

/-- `_find_next_task_to_run`. One turn around the table is enough fuel (`findNextLoop_found`). -/
def findNextTaskToRun (k : Kernel) : Nat × Kernel :=
  let (id, tasks) := findNextLoop k.currentTaskId yosMaxTaskCount k.allTasks
    ((k.currentTaskId + 1) % yosMaxTaskCount)
  (id, { k with allTasks := tasks })

/-- All that the search may do to a slot: an EXITED one, not the current one, becomes INVALID. -/
def Swept (currentTaskId : Nat) (tasks tasks' : Nat → YosTask) : Prop :=
  ∀ id, tasks' id = tasks id ∨
    (tasks id).status = .exited ∧ id ≠ currentTaskId ∧
      tasks' id = { tasks id with status := .invalid }

theorem Swept.refl (currentTaskId : Nat) (tasks : Nat → YosTask) :
    Swept currentTaskId tasks tasks := fun _ => Or.inl rfl

/-- Sweeping one EXITED slot first. -/
theorem Swept.head {currentTaskId id : Nat} {tasks tasks' : Nat → YosTask}
    (other : id ≠ currentTaskId) (exited : (tasks id).status = .exited)
    (rest : Swept currentTaskId (Function.update tasks id { tasks id with status := .invalid })
      tasks') : Swept currentTaskId tasks tasks' := by
  intro slot
  by_cases same : slot = id
  · subst same
    refine Or.inr ⟨exited, other, ?_⟩
    rcases rest slot with kept | ⟨again, _⟩
    · rw [kept, Function.update_self]
    · rw [Function.update_self] at again
      cases again
  · have kept := rest slot
    rwa [Function.update_of_ne same] at kept

/-- A runnable slot is left alone, and no other slot becomes runnable. -/
theorem Swept.runnable_iff {currentTaskId : Nat} {tasks tasks' : Nat → YosTask}
    (swept : Swept currentTaskId tasks tasks') (id : Nat) :
    (tasks' id).status.Runnable ↔ (tasks id).status.Runnable := by
  rcases swept id with kept | ⟨exited, _, cleared⟩
  · rw [kept]
  · rw [cleared, exited]
    simp [YosTaskStatus.Runnable]

/-- A slot that is not EXITED is left alone. -/
theorem Swept.kept {currentTaskId id : Nat} {tasks tasks' : Nat → YosTask}
    (swept : Swept currentTaskId tasks tasks') (alive : (tasks id).status ≠ .exited) :
    tasks' id = tasks id := by
  rcases swept id with kept | ⟨exited, _⟩
  · exact kept
  · exact absurd exited alive

theorem Swept.statuses {currentTaskId : Nat} {tasks tasks' : Nat → YosTask}
    (swept : Swept currentTaskId tasks tasks') (id : Nat) :
    ((tasks' id).status = (tasks id).status ∨ (tasks id).status = .exited ∧ id ≠ currentTaskId ∧
      (tasks' id).status = .invalid) ∧ (tasks' id).blockTicks = (tasks id).blockTicks ∧
      (tasks' id).fixed = (tasks id).fixed := by
  rcases swept id with kept | ⟨exited, other, cleared⟩
  · rw [kept]
    exact ⟨Or.inl rfl, rfl, rfl⟩
  · rw [cleared]
    exact ⟨Or.inr ⟨exited, other, rfl⟩, rfl, rfl⟩

/-- **The search.** Induction on the fuel; the invariant is that no slot strictly between the
current one and `id` is runnable and that the fuel still reaches once around. -/
theorem findNextLoop_found {currentTaskId : Nat} (inside : currentTaskId < yosMaxTaskCount)
    (fuel : Nat) (tasks : Nat → YosTask) (id : Nat) (target : id < yosMaxTaskCount)
    (reach : yosMaxTaskCount < gap yosMaxTaskCount currentTaskId id + fuel)
    (passed : ∀ j, j < yosMaxTaskCount →
      gap yosMaxTaskCount currentTaskId j < gap yosMaxTaskCount currentTaskId id →
        ¬ (tasks j).status.Runnable) :
    FirstAfter yosMaxTaskCount currentTaskId (fun j => (tasks j).status.Runnable)
        (findNextLoop currentTaskId fuel tasks id).1 ∧
      Swept currentTaskId tasks (findNextLoop currentTaskId fuel tasks id).2 := by
  induction fuel generalizing tasks id with
  | zero => exact absurd (gap_le (i := currentTaskId) target) (Nat.not_le.mpr reach)
  | succ fuel ih =>
      unfold findNextLoop
      by_cases back : id = currentTaskId
      · rw [if_pos back]
        exact ⟨⟨target, passed, Or.inl back⟩, Swept.refl _ _⟩
      rw [if_neg back]
      by_cases runnable : (tasks id).status.Runnable
      · rw [if_pos runnable]
        exact ⟨⟨target, passed, Or.inr runnable⟩, Swept.refl _ _⟩
      rw [if_neg runnable]
      have next : (id + 1) % yosMaxTaskCount < yosMaxTaskCount := Nat.mod_lt _ (by decide)
      have further := gap_succ inside target back
      have further' : yosMaxTaskCount <
          gap yosMaxTaskCount currentTaskId ((id + 1) % yosMaxTaskCount) + fuel := by omega
      have passedHere : ∀ j, j < yosMaxTaskCount →
          gap yosMaxTaskCount currentTaskId j <
            gap yosMaxTaskCount currentTaskId ((id + 1) % yosMaxTaskCount) →
          ¬ (tasks j).status.Runnable := by
        intro j bound before
        rw [further] at before
        rcases Nat.lt_succ_iff_lt_or_eq.mp before with earlier | here
        · exact passed j bound earlier
        · rwa [gap_injective_right inside bound target here]
      by_cases exited : (tasks id).status = .exited
      · rw [if_pos exited]
        have sweep : Swept currentTaskId tasks
            (Function.update tasks id { tasks id with status := .invalid }) :=
          Swept.head back exited (Swept.refl _ _)
        obtain ⟨found, rest⟩ := ih _ _ next further' fun j bound before =>
          (sweep.runnable_iff j).not.mpr (passedHere j bound before)
        have sameGood : (fun j => (Function.update tasks id
            { tasks id with status := .invalid } j).status.Runnable) =
            fun j => (tasks j).status.Runnable := funext fun j => propext (sweep.runnable_iff j)
        exact ⟨sameGood ▸ found, Swept.head back exited rest⟩
      · rw [if_neg exited]
        exact ih tasks _ next further' passedHere

/-- What the search leaves in each slot: of the slots it has gone past none is EXITED any more, the
others are as they were. -/
theorem findNextLoop_swept {currentTaskId : Nat} (inside : currentTaskId < yosMaxTaskCount)
    (fuel : Nat) (tasks : Nat → YosTask) (id : Nat) (target : id < yosMaxTaskCount)
    (passed : ∀ j, j < yosMaxTaskCount →
      gap yosMaxTaskCount currentTaskId j < gap yosMaxTaskCount currentTaskId id →
        (tasks j).status ≠ .exited) :
    let result := findNextLoop currentTaskId fuel tasks id
    gap yosMaxTaskCount currentTaskId id ≤ gap yosMaxTaskCount currentTaskId result.1 ∧
      (∀ j, j < yosMaxTaskCount →
        gap yosMaxTaskCount currentTaskId j < gap yosMaxTaskCount currentTaskId result.1 →
          (result.2 j).status ≠ .exited) ∧
      ∀ j, gap yosMaxTaskCount currentTaskId result.1 ≤ gap yosMaxTaskCount currentTaskId j →
        result.2 j = tasks j := by
  induction fuel generalizing tasks id with
  | zero => exact ⟨Nat.le_refl _, passed, fun _ _ => rfl⟩
  | succ fuel ih =>
      unfold findNextLoop
      by_cases back : id = currentTaskId
      · rw [if_pos back]
        exact ⟨Nat.le_refl _, passed, fun _ _ => rfl⟩
      rw [if_neg back]
      by_cases runnable : (tasks id).status.Runnable
      · rw [if_pos runnable]
        exact ⟨Nat.le_refl _, passed, fun _ _ => rfl⟩
      rw [if_neg runnable]
      have next : (id + 1) % yosMaxTaskCount < yosMaxTaskCount := Nat.mod_lt _ (by decide)
      have further := gap_succ inside target back
      have before : ∀ j, j < yosMaxTaskCount → j ≠ id →
          gap yosMaxTaskCount currentTaskId j <
            gap yosMaxTaskCount currentTaskId ((id + 1) % yosMaxTaskCount) →
          (tasks j).status ≠ .exited := by
        intro j bound other near
        have distinct : gap yosMaxTaskCount currentTaskId j ≠ gap yosMaxTaskCount currentTaskId id :=
          fun same => other (gap_injective_right inside bound target same)
        exact passed j bound (by omega)
      by_cases exited : (tasks id).status = .exited
      · rw [if_pos exited]
        obtain ⟨ahead, clean, kept⟩ := ih
          (Function.update tasks id { tasks id with status := .invalid }) _ next
          fun j bound near => by
            rw [Function.update_apply]
            split
            · exact fun same => nomatch same
            · exact before j bound ‹_› near
        refine ⟨by omega, clean, fun j beyond => ?_⟩
        have other : j ≠ id := by
          rintro rfl
          omega
        rw [kept j beyond, Function.update_of_ne other]
      · rw [if_neg exited]
        obtain ⟨ahead, clean, kept⟩ := ih tasks _ next fun j bound near => by
          by_cases here : j = id
          · exact here ▸ exited
          · exact before j bound here near
        exact ⟨by omega, clean, kept⟩

/-- **`_find_next_task_to_run`** finds the first runnable slot after the current one. -/
theorem findNextTaskToRun_found (k : Kernel) (inside : k.currentTaskId < yosMaxTaskCount) :
    FirstAfter yosMaxTaskCount k.currentTaskId (fun j => (k.status j).Runnable)
        (findNextTaskToRun k).1 ∧
      ∃ tasks, Swept k.currentTaskId k.allTasks tasks ∧
        (findNextTaskToRun k).2 = { k with allTasks := tasks } := by
  have start := gap_start inside
  obtain ⟨found, swept⟩ := findNextLoop_found inside yosMaxTaskCount k.allTasks
    ((k.currentTaskId + 1) % yosMaxTaskCount) (Nat.mod_lt _ (by decide)) (by omega)
    fun j bound before => by
      have positive := gap_pos (j := j) inside
      omega
  exact ⟨found, _, swept, rfl⟩

/-- An EXITED slot becomes INVALID when the search goes past it, and not before. -/
theorem findNextTaskToRun_exited (k : Kernel) (inside : k.currentTaskId < yosMaxTaskCount) {id : Nat}
    (slot : id < yosMaxTaskCount) (exited : k.status id = .exited) :
    (findNextTaskToRun k).2.status id =
      if gap yosMaxTaskCount k.currentTaskId id <
          gap yosMaxTaskCount k.currentTaskId (findNextTaskToRun k).1 then .invalid
      else .exited := by
  have start := gap_start inside
  obtain ⟨_, past, ahead⟩ := findNextLoop_swept inside yosMaxTaskCount k.allTasks
    ((k.currentTaskId + 1) % yosMaxTaskCount) (Nat.mod_lt _ (by decide))
    fun j bound before => by
      have positive := gap_pos (j := j) inside
      omega
  obtain ⟨_, tasks, swept, searched⟩ := findNextTaskToRun_found k inside
  have table : tasks = (findNextLoop k.currentTaskId yosMaxTaskCount k.allTasks
      ((k.currentTaskId + 1) % yosMaxTaskCount)).2 := (congrArg Kernel.allTasks searched).symm
  split
  · rename_i near
    have gone := past id slot near
    rw [← table] at gone
    rw [searched]
    rcases (swept.statuses id).1 with kept | ⟨_, _, cleared⟩
    · exact absurd (kept.trans exited) gone
    · exact cleared
  · rename_i far
    have kept := ahead id (Nat.le_of_not_lt far)
    rw [← table] at kept
    rw [searched]
    exact (congrArg YosTask.status kept).trans exited

/-! ### The tick bookkeeping -/

/-- The body of the loop of `_update_task_block_ticks_irq`, for one task. -/
def tickTask (task : YosTask) : YosTask :=
  if task.status = .waiting then
    let task := if task.blockTicks > 0 then { task with blockTicks := task.blockTicks - 1 } else task
    if task.blockTicks = 0 then { task with status := .running } else task
  else task

/-- `_update_task_block_ticks_irq`. -/
def updateTaskBlockTicksIrq (k : Kernel) : Kernel :=
  { k with allTasks := mapTasks tickTask k.allTasks }

theorem tickTask_of_not_waiting {task : YosTask} (awake : task.status ≠ .waiting) :
    tickTask task = task := if_neg awake

/-- **One tick of a sleeper**: the counter goes down, and at zero the task is RUNNING. -/
theorem tickTask_of_waiting {task : YosTask} (waiting : task.status = .waiting) :
    (tickTask task).blockTicks = task.blockTicks - 1 ∧
      (tickTask task).status = if task.blockTicks ≤ 1 then .running else .waiting := by
  unfold tickTask
  rw [if_pos waiting]
  by_cases positive : task.blockTicks > 0
  · by_cases last : task.blockTicks ≤ 1
    · have zero : task.blockTicks - 1 = 0 := by omega
      simp [positive, zero, last]
    · have more : task.blockTicks - 1 ≠ 0 := by omega
      simp [positive, more, last, waiting]
  · have zero : task.blockTicks = 0 := by omega
    simp [zero]

/-- A tick changes a status from WAITING to RUNNING only. -/
theorem tickTask_status (task : YosTask) :
    (tickTask task).status = task.status ∨
      task.status = .waiting ∧ (tickTask task).status = .running := by
  by_cases waiting : task.status = .waiting
  · rw [(tickTask_of_waiting waiting).2]
    split
    · exact Or.inr ⟨waiting, rfl⟩
    · exact Or.inl waiting.symm
  · exact Or.inl (congrArg _ (tickTask_of_not_waiting waiting))

theorem tickTask_fixed (task : YosTask) : (tickTask task).fixed = task.fixed := by
  unfold tickTask
  split
  · by_cases positive : task.blockTicks > 0
    · rw [if_pos positive]
      simp only
      split <;> rfl
    · rw [if_neg positive]
      simp only
      split <;> rfl
  · rfl

/-! ### The tick handler -/

/-- `_yos_init_task_stack`: the sixteen words of a fresh frame, pushed from the top of the task's
region. -/
def yosInitTaskStack (k : Kernel) (taskId id : Nat) : Kernel :=
  let task := k.allTasks id
  let pushed := pushWords k.mem task.bp
    [0x01000000, k.image.yosTaskShell, k.image.yosStartError, 0x12, 0x03, 0x02, 0x01, taskId,
      0x11, 0x10, 0x09, 0x08, 0x07, 0x06, 0x05, 0x04]
  { k.setTask id { task with sp := pushed.2 } with mem := pushed.1 }

/-- The places where `sys_tick_handler` returns. -/
inductive TickExit where
  /-- No task but the current one can run. -/
  | noSwitch
  /-- PendSV is pended for a CREATED task, whose stack was just built. -/
  | switchCreated
  /-- PendSV is pended for a RUNNING task. -/
  | switchRunning
  /-- "Invalid task", the EXITED branch. -/
  | exitedTask
  /-- "Invalid task", the last branch. -/
  | invalidTask
  deriving DecidableEq, Repr

/-- The second half of `sys_tick_handler`, after the flag has been looked at. -/
def scheduleTasks (k : Kernel) : TickExit × Kernel :=
  let (id, k) := findNextTaskToRun k
  let k := { k with nextTaskId := id }
  if id = k.currentTaskId then (.noSwitch, k)
  else
    let k := { k with nextTask := some id }
    match k.status id with
    | .created => (.switchCreated, { yosInitTaskStack k id id with pendsv := true })
    | .running => (.switchRunning, { k with pendsv := true })
    | .exited => (.exitedTask, k.setStatus id .invalid)
    | _ => (.invalidTask, k)

/-- `sys_tick_handler`. -/
def sysTickHandler (k : Kernel) : TickExit × Kernel :=
  scheduleTasks
    (if k.isSystickTriggerByInt then updateTaskBlockTicksIrq k
      else { k with isSystickTriggerByInt := true })

/-- **What the second half of the handler does**, at the three exits it can take. -/
theorem scheduleTasks_cases (k : Kernel) (inside : k.currentTaskId < yosMaxTaskCount) :
    ∃ next tasks, FirstAfter yosMaxTaskCount k.currentTaskId (fun j => (k.status j).Runnable) next ∧
      Swept k.currentTaskId k.allTasks tasks ∧
      (next = k.currentTaskId ∧
          scheduleTasks k = (.noSwitch, { k with allTasks := tasks, nextTaskId := next }) ∨
        next ≠ k.currentTaskId ∧ k.status next = .created ∧
          scheduleTasks k = (.switchCreated,
            { yosInitTaskStack
                { k with allTasks := tasks, nextTaskId := next, nextTask := some next } next next with
              pendsv := true }) ∨
        next ≠ k.currentTaskId ∧ k.status next = .running ∧
          scheduleTasks k = (.switchRunning,
            { k with allTasks := tasks, nextTaskId := next, nextTask := some next, pendsv := true })) := by
  obtain ⟨found, tasks, swept, searched⟩ := findNextTaskToRun_found k inside
  unfold scheduleTasks
  rcases result : findNextTaskToRun k with ⟨next, after⟩
  rw [result] at found searched
  simp only at found searched
  subst searched
  refine ⟨next, tasks, found, swept, ?_⟩
  by_cases back : next = k.currentTaskId
  · exact Or.inl ⟨back, if_pos back⟩
  · have good := found.good_of_ne back
    have kept : tasks next = k.allTasks next := by
      refine swept.kept fun exited => ?_
      rcases good with created | running
      · exact absurd (created.symm.trans exited) (by decide)
      · exact absurd (running.symm.trans exited) (by decide)
    simp only [if_neg back]
    rcases good with created | running
    · refine Or.inr (Or.inl ⟨back, created, ?_⟩)
      simp only [Kernel.status, kept] at created ⊢
      rw [created]
    · refine Or.inr (Or.inr ⟨back, running, ?_⟩)
      simp only [Kernel.status, kept] at running ⊢
      rw [running]

/-- Neither "Invalid task" branch is taken. -/
theorem scheduleTasks_exit (k : Kernel) (inside : k.currentTaskId < yosMaxTaskCount) :
    (scheduleTasks k).1 ≠ .exitedTask ∧ (scheduleTasks k).1 ≠ .invalidTask := by
  obtain ⟨next, tasks, _, _, ⟨_, result⟩ | ⟨_, _, result⟩ | ⟨_, _, result⟩⟩ :=
    scheduleTasks_cases k inside
  all_goals simp [result]

/-- Building a frame only moves the stack pointer of its task. -/
theorem yosInitTaskStack_task (k : Kernel) (taskId id other : Nat) :
    ((yosInitTaskStack k taskId id).allTasks other).status = (k.allTasks other).status ∧
      ((yosInitTaskStack k taskId id).allTasks other).blockTicks = (k.allTasks other).blockTicks ∧
      ((yosInitTaskStack k taskId id).allTasks other).fixed = (k.allTasks other).fixed := by
  simp only [yosInitTaskStack, Kernel.setTask_allTasks]
  by_cases same : other = id
  · subst same
    simp [YosTask.fixed]
  · simp [Function.update_of_ne same]

/-- Which exit the handler takes, told by the task that it leaves as the next one. -/
inductive ExitFor (currentTaskId : Nat) : TickExit → Kernel → Prop where
  | noSwitch {k : Kernel} (back : k.nextTaskId = currentTaskId) : ExitFor currentTaskId .noSwitch k
  | switchCreated {k : Kernel} (away : k.nextTaskId ≠ currentTaskId)
      (created : k.status k.nextTaskId = .created) : ExitFor currentTaskId .switchCreated k
  | switchRunning {k : Kernel} (away : k.nextTaskId ≠ currentTaskId)
      (running : k.status k.nextTaskId = .running) : ExitFor currentTaskId .switchRunning k

theorem scheduleTasks_exitFor (k : Kernel) (inside : k.currentTaskId < yosMaxTaskCount) :
    ExitFor k.currentTaskId (scheduleTasks k).1 (scheduleTasks k).2 := by
  obtain ⟨next, tasks, _, swept, result⟩ := scheduleTasks_cases k inside
  rcases result with ⟨back, result⟩ | ⟨away, created, result⟩ | ⟨away, running, result⟩
  · rw [result]
    exact .noSwitch back
  · have kept : (tasks next).status = .created := by
      rw [swept.kept fun exited => nomatch created.symm.trans exited]
      exact created
    rw [result]
    exact .switchCreated away ((yosInitTaskStack_task _ next next next).1.trans kept)
  · have kept : (tasks next).status = .running := by
      rw [swept.kept fun exited => nomatch running.symm.trans exited]
      exact running
    rw [result]
    exact .switchRunning away kept

/-- The effect of the second half of the handler on everything but the stacks. -/
structure Rescheduled (k k' : Kernel) : Prop where
  currentTaskId : k'.currentTaskId = k.currentTaskId
  currentTask : k'.currentTask = k.currentTask
  taskIdForNext : k'.taskIdForNext = k.taskIdForNext
  flag : k'.isSystickTriggerByInt = k.isSystickTriggerByInt
  statuses : ∀ id, k'.status id = k.status id ∨
    k.status id = .exited ∧ id ≠ k.currentTaskId ∧ k'.status id = .invalid
  blockTicks : ∀ id, (k'.allTasks id).blockTicks = (k.allTasks id).blockTicks
  fixed : ∀ id, (k'.allTasks id).fixed = (k.allTasks id).fixed
  found : FirstAfter yosMaxTaskCount k.currentTaskId (fun j => (k'.status j).Runnable) k'.nextTaskId
  outcome : k'.nextTaskId = k.currentTaskId ∧ k'.pendsv = k.pendsv ∧ k'.nextTask = k.nextTask ∨
    k'.nextTaskId ≠ k.currentTaskId ∧ k'.pendsv = true ∧ k'.nextTask = some k'.nextTaskId

theorem scheduleTasks_rescheduled (k : Kernel) (inside : k.currentTaskId < yosMaxTaskCount) :
    Rescheduled k (scheduleTasks k).2 := by
  obtain ⟨next, tasks, found, swept, result⟩ := scheduleTasks_cases k inside
  have swapped : FirstAfter yosMaxTaskCount k.currentTaskId
      (fun j => (tasks j).status.Runnable) next := by
    have same : (fun j => (tasks j).status.Runnable) = fun j => (k.status j).Runnable :=
      funext fun j => propext (swept.runnable_iff j)
    exact same ▸ found
  rcases result with ⟨back, result⟩ | ⟨away, _, result⟩ | ⟨away, _, result⟩
  · rw [result]
    exact ⟨rfl, rfl, rfl, rfl, fun id => (swept.statuses id).1,
      fun id => (swept.statuses id).2.1, fun id => (swept.statuses id).2.2, swapped,
      Or.inl ⟨back, rfl, rfl⟩⟩
  · have built := yosInitTaskStack_task
      { k with allTasks := tasks, nextTaskId := next, nextTask := some next } next next
    rw [result]
    refine ⟨rfl, rfl, rfl, rfl, fun id => ?_, fun id => (built id).2.1.trans (swept.statuses id).2.1,
      fun id => (built id).2.2.trans (swept.statuses id).2.2, ?_, Or.inr ⟨away, rfl, rfl⟩⟩
    · simp only [Kernel.status, (built id).1]
      exact (swept.statuses id).1
    · have same : (fun j => (((yosInitTaskStack { k with
          allTasks := tasks, nextTaskId := next, nextTask := some next } next next).allTasks
            j).status).Runnable) = fun j => (tasks j).status.Runnable :=
        funext fun j => congrArg _ (built j).1
      exact same ▸ swapped
  · rw [result]
    exact ⟨rfl, rfl, rfl, rfl, fun id => (swept.statuses id).1,
      fun id => (swept.statuses id).2.1, fun id => (swept.statuses id).2.2, swapped,
      Or.inr ⟨away, rfl, rfl⟩⟩

/-- The second half of the handler turns an EXITED slot INVALID when its search goes past it. -/
theorem scheduleTasks_exited (k : Kernel) (inside : k.currentTaskId < yosMaxTaskCount) {id : Nat}
    (slot : id < yosMaxTaskCount) (exited : k.status id = .exited) :
    (scheduleTasks k).2.status id =
      if gap yosMaxTaskCount k.currentTaskId id <
          gap yosMaxTaskCount k.currentTaskId (scheduleTasks k).2.nextTaskId then .invalid
      else .exited := by
  have searched := findNextTaskToRun_exited k inside slot exited
  have branch := (scheduleTasks_exit k inside).1
  unfold scheduleTasks at branch ⊢
  rcases result : findNextTaskToRun k with ⟨next, after⟩
  rw [result] at searched branch
  simp only at searched branch ⊢
  split
  · exact searched
  · rename_i away
    rw [if_neg away] at branch
    split
    · rw [Kernel.status, (yosInitTaskStack_task _ next next id).1]
      exact searched
    · exact searched
    · rename_i isExited
      rw [isExited] at branch
      exact absurd rfl branch
    · exact searched

/-- The effect of `sys_tick_handler` on everything but the stacks. -/
structure Handled (k k' : Kernel) : Prop where
  currentTaskId : k'.currentTaskId = k.currentTaskId
  currentTask : k'.currentTask = k.currentTask
  taskIdForNext : k'.taskIdForNext = k.taskIdForNext
  flag : k'.isSystickTriggerByInt = true
  statuses : ∀ id, k'.status id = k.status id ∨
    k.status id = .exited ∧ id ≠ k.currentTaskId ∧ k'.status id = .invalid ∨
    k.status id = .waiting ∧ k'.status id = .running
  fixed : ∀ id, (k'.allTasks id).fixed = (k.allTasks id).fixed
  found : FirstAfter yosMaxTaskCount k.currentTaskId (fun j => (k'.status j).Runnable) k'.nextTaskId
  outcome : k'.nextTaskId = k.currentTaskId ∧ k'.pendsv = k.pendsv ∧ k'.nextTask = k.nextTask ∨
    k'.nextTaskId ≠ k.currentTaskId ∧ k'.pendsv = true ∧ k'.nextTask = some k'.nextTaskId

theorem sysTickHandler_handled (k : Kernel) (inside : k.currentTaskId < yosMaxTaskCount) :
    Handled k (sysTickHandler k).2 := by
  unfold sysTickHandler
  by_cases real : k.isSystickTriggerByInt = true
  · rw [if_pos real]
    have after := scheduleTasks_rescheduled (updateTaskBlockTicksIrq k) inside
    refine ⟨after.currentTaskId, after.currentTask, after.taskIdForNext, after.flag.trans real,
      fun id => ?_, fun id => ?_, after.found, after.outcome⟩
    · have ticked : (updateTaskBlockTicksIrq k).status id = k.status id ∨
          k.status id = .waiting ∧ (updateTaskBlockTicksIrq k).status id = .running := by
        simp only [Kernel.status, updateTaskBlockTicksIrq, mapTasks_apply]
        split
        · exact tickTask_status _
        · exact Or.inl rfl
      rcases after.statuses id with kept | ⟨exited, other, cleared⟩
      · rw [kept]
        exact ticked.imp_right Or.inr
      · rcases ticked with same | ⟨_, running⟩
        · exact Or.inr (Or.inl ⟨same ▸ exited, other, cleared⟩)
        · rw [running] at exited
          cases exited
    · rw [after.fixed]
      simp only [updateTaskBlockTicksIrq, mapTasks_apply]
      split
      · exact tickTask_fixed _
      · rfl
  · rw [if_neg real]
    have after := scheduleTasks_rescheduled { k with isSystickTriggerByInt := true } inside
    exact ⟨after.currentTaskId, after.currentTask, after.taskIdForNext, after.flag,
      fun id => (after.statuses id).imp_right Or.inl, after.fixed, after.found, after.outcome⟩

/-- A sleeper is counted down by a real tick and left alone by a voluntary call. -/
theorem sysTickHandler_sleeper (k : Kernel) (inside : k.currentTaskId < yosMaxTaskCount) {id : Nat}
    (slot : id < yosMaxTaskCount) (waiting : k.status id = .waiting) :
    ((sysTickHandler k).2.allTasks id).blockTicks =
        (if k.isSystickTriggerByInt then (k.allTasks id).blockTicks - 1
          else (k.allTasks id).blockTicks) ∧
      (sysTickHandler k).2.status id =
        (if k.isSystickTriggerByInt ∧ (k.allTasks id).blockTicks ≤ 1 then .running
          else .waiting) := by
  unfold sysTickHandler
  by_cases real : k.isSystickTriggerByInt = true
  · rw [if_pos real, if_pos real]
    have after := scheduleTasks_rescheduled (updateTaskBlockTicksIrq k) inside
    have ticked := tickTask_of_waiting waiting
    have table : (updateTaskBlockTicksIrq k).allTasks id = tickTask (k.allTasks id) := by
      simp only [updateTaskBlockTicksIrq, mapTasks_apply, if_pos slot]
    refine ⟨by rw [after.blockTicks, table, ticked.1], ?_⟩
    have status : (updateTaskBlockTicksIrq k).status id =
        if k.isSystickTriggerByInt ∧ (k.allTasks id).blockTicks ≤ 1 then .running
          else .waiting := by
      rw [Kernel.status, table, ticked.2]
      simp only [real, true_and]
    rcases after.statuses id with kept | ⟨exited, _⟩
    · rw [kept, status]
    · rw [status] at exited
      split at exited <;> cases exited
  · rw [if_neg real, if_neg real, if_neg fun both => real both.1]
    have after := scheduleTasks_rescheduled { k with isSystickTriggerByInt := true } inside
    refine ⟨after.blockTicks id, ?_⟩
    rcases after.statuses id with kept | ⟨exited, _⟩
    · exact kept.trans waiting
    · exact absurd (waiting.symm.trans exited) (by decide)

theorem sysTickHandler_exitFor (k : Kernel) (inside : k.currentTaskId < yosMaxTaskCount) :
    ExitFor k.currentTaskId (sysTickHandler k).1 (sysTickHandler k).2 := by
  unfold sysTickHandler
  split
  · exact scheduleTasks_exitFor (updateTaskBlockTicksIrq k) inside
  · exact scheduleTasks_exitFor { k with isSystickTriggerByInt := true } inside

/-- An EXITED slot becomes INVALID when the search of the handler goes past it, and not before. -/
theorem sysTickHandler_exited (k : Kernel) (inside : k.currentTaskId < yosMaxTaskCount) {id : Nat}
    (slot : id < yosMaxTaskCount) (exited : k.status id = .exited) :
    (sysTickHandler k).2.status id =
      if gap yosMaxTaskCount k.currentTaskId id <
          gap yosMaxTaskCount k.currentTaskId (sysTickHandler k).2.nextTaskId then .invalid
      else .exited := by
  unfold sysTickHandler
  split
  · have same : (updateTaskBlockTicksIrq k).status id = .exited := by
      simp only [Kernel.status, updateTaskBlockTicksIrq, mapTasks_apply, if_pos slot]
      rcases tickTask_status (k.allTasks id) with kept | ⟨waiting, _⟩
      · exact kept.trans exited
      · exact absurd (exited.symm.trans waiting) (by decide)
    exact scheduleTasks_exited (updateTaskBlockTicksIrq k) inside slot same
  · exact scheduleTasks_exited { k with isSystickTriggerByInt := true } inside slot exited

/-! ### The switch -/

/-- The two stores into the task that is switched out: its stack pointer, and the lowest stack
pointer so far. -/
def saveSp (task : YosTask) (sp : Nat) : YosTask :=
  let saved := { task with sp := sp }
  if saved.minSpByNow > saved.sp then { saved with minSpByNow := saved.sp } else saved

theorem saveSp_kept (task : YosTask) (sp : Nat) :
    (saveSp task sp).sp = sp ∧ (saveSp task sp).status = task.status ∧
      (saveSp task sp).blockTicks = task.blockTicks ∧ (saveSp task sp).fixed = task.fixed := by
  unfold saveSp
  simp only
  split <;> exact ⟨rfl, rfl, rfl, rfl⟩

/-- The C statements of `pend_sv_handler` between the saving and the restoring of the registers;
`tmpSp` is the stack pointer after `SAVE_REGS_TO_STACK`. A `NULL` pointer faults. -/
def pendSvSwitch (k : Kernel) (tmpSp : Nat) : Option Kernel :=
  match k.currentTask, k.nextTask with
  | some current, some next =>
      let k := k.setTask current (saveSp (k.allTasks current) tmpSp)
      let k := { k with currentTask := some next, currentTaskId := k.nextTaskId }
      let k := k.setStatus next .running
      some { k with tmpSp := (k.allTasks next).sp }
  | _, _ => none

/-- **What a switch does** to the kernel: the next task is current and RUNNING, everything else the
scheduler looks at stays. -/
theorem pendSvSwitch_cases {k k' : Kernel} {tmpSp : Nat} (switched : pendSvSwitch k tmpSp = some k') :
    ∃ next, k.nextTask = some next ∧ k'.currentTask = some next ∧ k'.currentTaskId = k.nextTaskId ∧
      k'.taskIdForNext = k.taskIdForNext ∧ k'.isSystickTriggerByInt = k.isSystickTriggerByInt ∧
      k'.pendsv = k.pendsv ∧
      (∀ id, k'.status id = if id = next then .running else k.status id) ∧
      ∀ id, (k'.allTasks id).blockTicks = (k.allTasks id).blockTicks ∧
        (k'.allTasks id).fixed = (k.allTasks id).fixed := by
  unfold pendSvSwitch at switched
  split at switched
  · rename_i current next _ pointer
    cases switched
    have saved : ∀ id, let task := (k.setTask current (saveSp (k.allTasks current) tmpSp)).allTasks id
        task.status = k.status id ∧ task.blockTicks = (k.allTasks id).blockTicks ∧
          task.fixed = (k.allTasks id).fixed := by
      intro id
      simp only [Kernel.setTask_allTasks, Function.update_apply]
      split
      · rename_i old
        subst old
        exact (saveSp_kept _ _).2
      · exact ⟨rfl, rfl, rfl⟩
    refine ⟨next, pointer, rfl, rfl, rfl, rfl, rfl, fun id => ?_, fun id => ?_⟩
    · by_cases same : id = next
      · rw [if_pos same, same]
        simp only [Kernel.status, Kernel.setStatus, Kernel.setTask_allTasks, Function.update_self]
      · rw [if_neg same]
        simp only [Kernel.status, Kernel.setStatus, Kernel.setTask_allTasks,
          Function.update_of_ne same]
        exact (saved id).1
    · by_cases same : id = next
      · rw [same]
        simp only [Kernel.setStatus, Kernel.setTask_allTasks, Function.update_self]
        exact (saved next).2
      · simp only [Kernel.setStatus, Kernel.setTask_allTasks, Function.update_of_ne same]
        exact (saved id).2
  · cases switched

end YosStm32
