/-
**Task contexts survive context switches.**

A run mixes what the running task does to the processor and to its own stack, what the kernel does to
the task table between switches, and `pend_sv_handler`. `lo` gives the lowest address of each task's
region, `bp` in the table its end. The layout and the two guards of `Machine.step` are what is
assumed of the tasks: the regions are disjoint, a task writes inside its own region only, and leaves
room for the saved frames below its stack pointer.

`Parked` says that a context lies on a task's stack, ready to be resumed. Saving parks the old task
(`parked_of_pendSv`), building a frame parks the task with a fresh context (`parked_of_built`), and every
step that neither resumes nor rebuilds the task keeps it parked (`Parked.step`). When a parked task is the
next one, the handler returns, and the task has its context again (`Parked.resume`).
-/

import YosStm32.Kernel.PendSv
import YosStm32.Lib.Run

namespace YosStm32

open Lib

/-! ### Steps -/

/-- What the kernel does to the table between two switches. -/
inductive KernelOp where
  /-- `sys_tick_handler`. -/
  | tick
  /-- `next_task = _all_tasks + id`, with PendSV pended. -/
  | select (id : Nat)
  /-- `_yos_init_task_stack(id, _all_tasks + id)`. -/
  | build (id : Nat)
  | setStatus (id : Nat) (status : YosTaskStatus)
  deriving DecidableEq, Repr

/-- One operation, on a task that was created. -/
def KernelOp.apply (k : Kernel) : KernelOp → Option Kernel
  | .tick =>
      if k.currentTaskId < yosMaxTaskCount ∧ (sysTickHandler k).2.nextTaskId < k.taskIdForNext then
        some (sysTickHandler k).2
      else none
  | .select id =>
      if id < k.taskIdForNext then
        some { k with nextTask := some id, nextTaskId := id, pendsv := true }
      else none
  | .build id => if id < k.taskIdForNext then some (yosInitTaskStack k id id) else none
  | .setStatus id status => some (k.setStatus id status)

/-- The tasks whose stacks an operation builds. -/
def KernelOp.rebuilt (k : Kernel) : KernelOp → List Nat
  | .tick =>
      if (sysTickHandler k).1 = .switchCreated then [(sysTickHandler k).2.nextTaskId] else []
  | .build id => [id]
  | _ => []

inductive SwitchEvent where
  /-- The running task computes: new register values, and writes to memory. -/
  | run (cpu : Cpu) (writes : List (Nat × Nat))
  | kernel (op : KernelOp)
  | pendSv

namespace Machine

/-- Words written at addresses. -/
def writeWords (mem : WordMemory) (writes : List (Nat × Nat)) : WordMemory :=
  writes.foldl (fun mem write => Function.update mem write.1 write.2) mem

/-- One step. -/
def step (lo : Nat → Nat) (m : Machine) : SwitchEvent → Option Machine
  | .run cpu writes => m.kernel.currentTask.bind fun task =>
      if task < m.kernel.taskIdForNext ∧
          ∀ write ∈ writes, lo task ≤ write.1 ∧ write.1 < (m.kernel.allTasks task).bp then
        some
          { m with
            cpu := cpu
            kernel := { m.kernel with mem := writeWords m.kernel.mem writes } }
      else none
  | .kernel op => (op.apply m.kernel).map fun kernel => { m with kernel := kernel }
  | .pendSv => m.kernel.currentTask.bind fun task =>
      if m.kernel.pendsv = true ∧ task < m.kernel.taskIdForNext ∧ lo task + 64 ≤ m.cpu.psp ∧
          m.cpu.psp ≤ (m.kernel.allTasks task).bp then
        m.pendSvHandler
      else none

/-- The tasks whose stacks a step builds. -/
def rebuilt (m : Machine) : SwitchEvent → List Nat
  | .kernel op => op.rebuilt m.kernel
  | _ => []

/-- The task that a step resumes. -/
def resumed (m : Machine) : SwitchEvent → List Nat
  | .pendSv => m.kernel.nextTask.toList
  | _ => []

end Machine

/-- The regions of the tasks: room for a frame, inside the address space, pairwise disjoint. -/
structure Layout (lo : Nat → Nat) (k : Kernel) : Prop where
  room : ∀ id, id < k.taskIdForNext → lo id + 64 ≤ (k.allTasks id).bp
  small : ∀ id, id < k.taskIdForNext → (k.allTasks id).bp < 2 ^ 32
  disjoint : ∀ id other, id < k.taskIdForNext → other < k.taskIdForNext → id ≠ other →
    (k.allTasks id).bp ≤ lo other ∨ (k.allTasks other).bp ≤ lo id

/-- The context that `_yos_init_task_stack` builds. -/
def freshCpu (image : Image) (id bp : Nat) : Cpu :=
  { hard :=
      { r0 := id, r1 := 1, r2 := 2, r3 := 3, r12 := 0x12
        lr := image.yosStartError, pc := image.yosTaskShell, xpsr := 0x01000000 }
    saved := { r4 := 4, r5 := 5, r6 := 6, r7 := 7, r8 := 8, r9 := 9, r10 := 0x10, r11 := 0x11 }
    psp := bp }

/-! ### The kernel's operations and the stacks -/

/-- What an operation that builds the stacks of some tasks leaves alone, and what it builds. -/
structure KernelMoved (k k' : Kernel) (built : List Nat) : Prop where
  currentTask : k'.currentTask = k.currentTask
  count : k'.taskIdForNext = k.taskIdForNext
  image : k'.image = k.image
  bp : ∀ id, (k'.allTasks id).bp = (k.allTasks id).bp
  sp : ∀ id, id ∉ built → (k'.allTasks id).sp = (k.allTasks id).sp
  frame : ∀ a, (∀ id ∈ built, a < (k.allTasks id).bp - 64 ∨ (k.allTasks id).bp ≤ a) →
    k'.mem a = k.mem a
  inside : ∀ id ∈ built, id < k.taskIdForNext
  built : ∀ id ∈ built, (k'.allTasks id).sp = (k.allTasks id).bp - 64 ∧
    HoldsWords k'.mem ((k.allTasks id).bp - 64) (freshCpu k.image id (k.allTasks id).bp).words

namespace KernelMoved

variable {k k' : Kernel} {lo : Nat → Nat}

/-- An operation on the table that moves no stack pointer. -/
theorem of_table (currentTask : k'.currentTask = k.currentTask)
    (count : k'.taskIdForNext = k.taskIdForNext) (image : k'.image = k.image)
    (mem : k'.mem = k.mem)
    (pointers : ∀ id, (k'.allTasks id).sp = (k.allTasks id).sp ∧
      (k'.allTasks id).bp = (k.allTasks id).bp) : KernelMoved k k' [] :=
  ⟨currentTask, count, image, fun id => (pointers id).2, fun id _ => (pointers id).1,
    fun a _ => congrFun mem a, fun _ member => absurd member List.not_mem_nil,
    fun _ member => absurd member List.not_mem_nil⟩

/-- **Building a frame.** -/
theorem of_build (k : Kernel) {id : Nat} (inside : id < k.taskIdForNext)
    (room : 64 ≤ (k.allTasks id).bp) (small : (k.allTasks id).bp < 2 ^ 32) :
    KernelMoved k (yosInitTaskStack k id id) [id] := by
  have words : [0x01000000, k.image.yosTaskShell, k.image.yosStartError, 0x12, 0x03, 0x02, 0x01, id,
      0x11, 0x10, 0x09, 0x08, 0x07, 0x06, 0x05, 0x04] =
        (freshCpu k.image id (k.allTasks id).bp).words.reverse := rfl
  obtain ⟨pointer, holds, frame⟩ := pushWords_spec k.mem (k.allTasks id).bp
    (freshCpu k.image id (k.allTasks id).bp).words.reverse room small
  unfold yosInitTaskStack
  simp only [words]
  rw [List.reverse_reverse] at holds
  have length : 4 * (freshCpu k.image id (k.allTasks id).bp).words.reverse.length = 64 := rfl
  rw [length] at pointer holds frame
  generalize pushWords k.mem (k.allTasks id).bp
    (freshCpu k.image id (k.allTasks id).bp).words.reverse = pushed at pointer holds frame ⊢
  refine ⟨rfl, rfl, rfl, fun other => ?_, fun other away => ?_, fun a outside => ?_,
    fun other member => ?_, fun other member => ?_⟩
  · rw [Kernel.setTask_allTasks, Function.update_apply]
    split
    · rename_i same
      rw [same]
    · rfl
  · have different : other ≠ id := fun same => away (List.mem_singleton.mpr same)
    rw [Kernel.setTask_allTasks, Function.update_of_ne different]
  · exact frame a (outside id (List.mem_singleton.mpr rfl))
  · rwa [List.mem_singleton.mp member]
  · rw [List.mem_singleton.mp member, Kernel.setTask_allTasks, Function.update_self]
    exact ⟨pointer, holds⟩

/-- An operation on the table first. -/
theorem after_table {middle : Kernel} {built : List Nat} (first : KernelMoved k middle [])
    (second : KernelMoved middle k' built) : KernelMoved k k' built := by
  refine ⟨second.currentTask.trans first.currentTask, second.count.trans first.count,
    second.image.trans first.image, fun id => (second.bp id).trans (first.bp id),
    fun id away => (second.sp id away).trans (first.sp id List.not_mem_nil), fun a outside => ?_,
    fun id member => first.count ▸ second.inside id member, fun id member => ?_⟩
  · have outside' : ∀ id ∈ built, a < (middle.allTasks id).bp - 64 ∨ (middle.allTasks id).bp ≤ a :=
      fun id member => by
        rw [first.bp id]
        exact outside id member
    rw [second.frame a outside', first.frame a fun id member => absurd member List.not_mem_nil]
  · have after := second.built id member
    rwa [first.bp id, first.image] at after

theorem tickTask_stack (task : YosTask) :
    (tickTask task).sp = task.sp ∧ (tickTask task).bp = task.bp := by
  unfold tickTask
  split
  · by_cases positive : task.blockTicks > 0
    · rw [if_pos positive]
      simp only
      split <;> exact ⟨rfl, rfl⟩
    · rw [if_neg positive]
      simp only
      split <;> exact ⟨rfl, rfl⟩
  · exact ⟨rfl, rfl⟩

/-- The tick bookkeeping moves no stack pointer. -/
theorem of_update (k : Kernel) : KernelMoved k (updateTaskBlockTicksIrq k) [] := by
  refine .of_table rfl rfl rfl rfl fun id => ?_
  simp only [updateTaskBlockTicksIrq, mapTasks_apply]
  split
  · exact tickTask_stack _
  · exact ⟨rfl, rfl⟩

/-- Nor does the sweep of the search. -/
theorem of_swept {tasks : Nat → YosTask} (swept : Swept k.currentTaskId k.allTasks tasks)
    (pendsv : Bool) (nextTaskId : Nat) (nextTask : Option Nat) :
    KernelMoved k
      { k with
        allTasks := tasks
        pendsv := pendsv
        nextTaskId := nextTaskId
        nextTask := nextTask } [] := by
  refine .of_table rfl rfl rfl rfl fun id => ?_
  show (tasks id).sp = _ ∧ (tasks id).bp = _
  rcases swept id with kept | ⟨_, _, cleared⟩
  · rw [kept]
    exact ⟨rfl, rfl⟩
  · rw [cleared]
    exact ⟨rfl, rfl⟩

/-- The pending bit has no part in it. -/
theorem pend {built : List Nat} (moved : KernelMoved k k' built) (pendsv : Bool) :
    KernelMoved k { k' with pendsv := pendsv } built :=
  ⟨moved.currentTask, moved.count, moved.image, moved.bp, moved.sp, moved.frame, moved.inside,
    moved.built⟩

/-- The regions stay where they are. -/
theorem layout {built : List Nat} (moved : KernelMoved k k' built) (layout : Layout lo k) :
    Layout lo k' := by
  refine ⟨fun id below => ?_, fun id below => ?_, fun id other below below' different => ?_⟩
  · rw [moved.bp]
    exact layout.room id (moved.count ▸ below)
  · rw [moved.bp]
    exact layout.small id (moved.count ▸ below)
  · rw [moved.bp, moved.bp]
    exact layout.disjoint id other (moved.count ▸ below) (moved.count ▸ below') different

/-- The second half of the handler builds the stack of a CREATED task. -/
theorem of_schedule (k : Kernel) (layout : Layout lo k) (current : k.currentTaskId < yosMaxTaskCount)
    (inside : (scheduleTasks k).2.nextTaskId < k.taskIdForNext) :
    KernelMoved k (scheduleTasks k).2
      (if (scheduleTasks k).1 = .switchCreated then [(scheduleTasks k).2.nextTaskId] else []) := by
  obtain ⟨next, tasks, _, swept, ⟨_, result⟩ | ⟨_, _, result⟩ | ⟨_, _, result⟩⟩ :=
    scheduleTasks_cases k current
  · rw [result, if_neg nofun]
    exact of_swept swept k.pendsv next k.nextTask
  · rw [result] at inside ⊢
    rw [if_pos rfl]
    have sweep := of_swept swept k.pendsv next (some next)
    have room := layout.room next inside
    have small := layout.small next inside
    rw [← sweep.bp next] at room small
    have build := of_build
      { k with allTasks := tasks, nextTaskId := next, nextTask := some next } inside
      (Nat.le_trans (Nat.le_add_left _ _) room) small
    exact sweep.after_table (build.pend true)
  · rw [result, if_neg nofun]
    exact of_swept swept true next (some next)

/-- The handler. -/
theorem of_tick (k : Kernel) (layout : Layout lo k) (current : k.currentTaskId < yosMaxTaskCount)
    (inside : (sysTickHandler k).2.nextTaskId < k.taskIdForNext) :
    KernelMoved k (sysTickHandler k).2 (KernelOp.tick.rebuilt k) := by
  unfold KernelOp.rebuilt
  simp only
  unfold sysTickHandler at inside ⊢
  by_cases real : k.isSystickTriggerByInt = true
  · rw [if_pos real] at inside ⊢
    have first := of_update k
    exact first.after_table (of_schedule _ (first.layout layout) current inside)
  · rw [if_neg real] at inside ⊢
    have layout' : Layout lo { k with isSystickTriggerByInt := true } :=
      ⟨layout.room, layout.small, layout.disjoint⟩
    have moved := of_schedule _ layout' current inside
    exact ⟨moved.currentTask, moved.count, moved.image, moved.bp, moved.sp, moved.frame,
      moved.inside, moved.built⟩

/-- **Every operation** builds the stacks it says, and leaves the others alone. -/
theorem of_apply {op : KernelOp} (layout : Layout lo k) (done : op.apply k = some k') :
    KernelMoved k k' (op.rebuilt k) := by
  cases op with
  | tick =>
      simp only [KernelOp.apply, Option.ite_none_right_eq_some, Option.some.injEq] at done
      obtain ⟨⟨current, inside⟩, rfl⟩ := done
      exact of_tick k layout current inside
  | select id =>
      simp only [KernelOp.apply, Option.ite_none_right_eq_some, Option.some.injEq] at done
      obtain ⟨_, rfl⟩ := done
      exact .of_table rfl rfl rfl rfl fun id => ⟨rfl, rfl⟩
  | build id =>
      simp only [KernelOp.apply, Option.ite_none_right_eq_some, Option.some.injEq] at done
      obtain ⟨inside, rfl⟩ := done
      have room := layout.room id inside
      exact of_build k inside (by omega) (layout.small id inside)
  | setStatus id status =>
      simp only [KernelOp.apply, Option.some.injEq] at done
      subst done
      refine .of_table rfl rfl rfl rfl fun other => ?_
      rw [Kernel.setStatus, Kernel.setTask_allTasks, Function.update_apply]
      split
      · rename_i same
        rw [same]
        exact ⟨rfl, rfl⟩
      · exact ⟨rfl, rfl⟩

end KernelMoved

/-! ### Parked contexts -/

/-- A task that is not running has a context on its stack, at its saved stack pointer. -/
structure Parked (lo : Nat → Nat) (m : Machine) (t : Nat) (cpu : Cpu) : Prop where
  inside : t < m.kernel.taskIdForNext
  away : m.kernel.currentTask ≠ some t
  sp : (m.kernel.allTasks t).sp = cpu.psp - 64
  low : lo t + 64 ≤ cpu.psp
  high : cpu.psp ≤ (m.kernel.allTasks t).bp
  holds : HoldsWords m.kernel.mem (cpu.psp - 64) cpu.words

theorem writeWords_of_ne (mem : WordMemory) {writes : List (Nat × Nat)} {a : Nat}
    (other : ∀ write ∈ writes, write.1 ≠ a) : Machine.writeWords mem writes a = mem a := by
  induction writes generalizing mem with
  | nil => rfl
  | cons write writes ih =>
      have later := ih (Function.update mem write.1 write.2) fun write member =>
        other write (List.mem_cons_of_mem _ member)
      rw [Machine.writeWords, List.foldl_cons]
      refine later.trans (Function.update_of_ne ?_ _ _)
      exact Ne.symm (other write (List.mem_cons_self ..))

section Steps

variable {lo : Nat → Nat} {m m' : Machine} {t : Nat} {cpu : Cpu}

/-- What a switch needs: PendSV is pended, and the running task leaves room for its context. -/
structure Switchable (lo : Nat → Nat) (m : Machine) (old : Nat) : Prop where
  pended : m.kernel.pendsv = true
  current : m.kernel.currentTask = some old
  inside : old < m.kernel.taskIdForNext
  low : lo old + 64 ≤ m.cpu.psp
  high : m.cpu.psp ≤ (m.kernel.allTasks old).bp

namespace Switchable

variable {old : Nat}

theorem room (switchable : Switchable lo m old) : 64 ≤ m.cpu.psp :=
  Nat.le_trans (Nat.le_add_left _ _) switchable.low

theorem small (switchable : Switchable lo m old) (layout : Layout lo m.kernel) : m.cpu.psp < 2 ^ 32 :=
  Nat.lt_of_le_of_lt switchable.high (layout.small old switchable.inside)

/-- The handler runs then. -/
theorem step (switchable : Switchable lo m old) : m.step lo .pendSv = m.pendSvHandler := by
  obtain ⟨pended, current, inside, low, high⟩ := switchable
  rw [Machine.step, current, Option.bind_some, if_pos ⟨pended, inside, low, high⟩]

end Switchable

/-- **A switch**: what it needs, and what it has done. -/
theorem step_pendSv (layout : Layout lo m.kernel) (one : m.step lo .pendSv = some m') :
    ∃ old next, Switchable lo m old ∧ m.kernel.nextTask = some next ∧ Switched m m'.kernel old next ∧
      ∀ cpu, ContextAt m'.kernel next cpu → m'.cpu = cpu := by
  obtain ⟨old, current, handled⟩ := Option.bind_eq_some_iff.mp one
  rw [Option.ite_none_right_eq_some] at handled
  obtain ⟨⟨pended, inside, low, high⟩, handled⟩ := handled
  have switchable : Switchable lo m old := ⟨pended, current, inside, low, high⟩
  obtain ⟨old', next, current', pointer, switched, restored⟩ :=
    pendSvHandler_effect handled switchable.room (switchable.small layout)
  obtain rfl : old = old' := Option.some.inj (current.symm.trans current')
  exact ⟨old, next, switchable, pointer, switched, restored⟩

/-- **A switch to a task with a saved context** is carried out, and gives it that context. -/
theorem Switchable.resumes {old next : Nat} (switchable : Switchable lo m old)
    (layout : Layout lo m.kernel) (pointer : m.kernel.nextTask = some next)
    (context : ∀ k, Switched m k old next → ContextAt k next cpu) :
    ∃ m', m.step lo .pendSv = some m' ∧ m'.kernel.currentTask = some next ∧ m'.cpu = cpu := by
  obtain ⟨k, switched, returns⟩ := pendSvHandler_returns switchable.current pointer switchable.room
    (switchable.small layout)
  obtain ⟨m', handled, kernel, restored⟩ := returns cpu (context k switched)
  exact ⟨m', switchable.step.trans handled, kernel ▸ switched.resumed, restored⟩

namespace Parked

/-- The block of a parked context lies in the region of its task. -/
theorem outside (parked : Parked lo m t cpu) (layout : Layout lo m.kernel) {other : Nat}
    (below : other < m.kernel.taskIdForNext) (different : other ≠ t) {a : Nat}
    (above : cpu.psp - 64 ≤ a) (under : a < cpu.psp - 64 + 4 * cpu.words.length) :
    a < lo other ∨ (m.kernel.allTasks other).bp ≤ a := by
  have length : 4 * cpu.words.length = 64 := rfl
  have low := parked.low
  have high := parked.high
  rcases layout.disjoint other t below parked.inside different with left | right
  · omega
  · omega

/-- A change of memory inside the region of another task. -/
theorem frame (parked : Parked lo m t cpu) (layout : Layout lo m.kernel) {other : Nat}
    (below : other < m.kernel.taskIdForNext) (different : other ≠ t)
    (away : m'.kernel.currentTask ≠ some t)
    (count : m'.kernel.taskIdForNext = m.kernel.taskIdForNext)
    (sp : (m'.kernel.allTasks t).sp = (m.kernel.allTasks t).sp)
    (bp : (m'.kernel.allTasks t).bp = (m.kernel.allTasks t).bp)
    (mem : ∀ a, a < lo other ∨ (m.kernel.allTasks other).bp ≤ a →
      m'.kernel.mem a = m.kernel.mem a) : Parked lo m' t cpu :=
  ⟨count ▸ parked.inside, away, sp.trans parked.sp, parked.low, bp ▸ parked.high,
    parked.holds.congr fun a above under => mem a (parked.outside layout below different above under)⟩

/-- An operation that does not build the task's stack. -/
theorem moved (parked : Parked lo m t cpu) (layout : Layout lo m.kernel) {k : Kernel}
    {built : List Nat} (moved : KernelMoved m.kernel k built) (kept : t ∉ built) :
    Parked lo { m with kernel := k } t cpu := by
  refine ⟨moved.count ▸ parked.inside, moved.currentTask ▸ parked.away,
    (moved.sp t kept).trans parked.sp, parked.low, moved.bp t ▸ parked.high,
    parked.holds.congr fun a above under => moved.frame a fun id member => ?_⟩
  have different : id ≠ t := fun same => kept (same ▸ member)
  have below := moved.inside id member
  have room := layout.room id below
  have apart := parked.outside layout below different above under
  omega

/-- **Every step keeps a context parked**, unless it resumes or rebuilds the task. -/
theorem step (parked : Parked lo m t cpu) (layout : Layout lo m.kernel) {event : SwitchEvent}
    (one : m.step lo event = some m') (kept : t ∉ m.rebuilt event) (out : t ∉ m.resumed event) :
    Parked lo m' t cpu := by
  cases event with
  | run cpu' writes =>
      obtain ⟨task, current, done⟩ := Option.bind_eq_some_iff.mp one
      simp only [Option.ite_none_right_eq_some, Option.some.injEq] at done
      obtain ⟨⟨below, inside⟩, rfl⟩ := done
      have different : task ≠ t := fun same => parked.away (same ▸ current)
      refine parked.frame layout below different parked.away rfl rfl rfl fun a apart => ?_
      refine writeWords_of_ne _ fun write member same => ?_
      have bounds := inside write member
      omega
  | kernel op =>
      obtain ⟨k, done, rfl⟩ := Option.map_eq_some_iff.mp one
      exact parked.moved layout (KernelMoved.of_apply layout done) kept
  | pendSv =>
      obtain ⟨old, next, switchable, pointer, switched, _⟩ := step_pendSv layout one
      have different : old ≠ t := fun same => parked.away (same ▸ switchable.current)
      have away : next ≠ t := fun same => out (by simp [Machine.resumed, pointer, same])
      have low := switchable.low
      have high := switchable.high
      refine parked.frame layout switchable.inside different ?_ switched.count ?_ (switched.bp t)
        fun a apart => switched.frame a ?_
      · rw [switched.resumed]
        exact fun same => away (Option.some.inj same)
      · rw [switched.sp, if_neg (Ne.symm different)]
      · omega

/-- The context is still there when another task has been saved. -/
theorem contextAt (parked : Parked lo m t cpu) (layout : Layout lo m.kernel) {old : Nat}
    (switchable : Switchable lo m old) {k : Kernel} (switched : Switched m k old t) :
    ContextAt k t cpu := by
  have different : old ≠ t := fun same => parked.away (same ▸ switchable.current)
  have low := switchable.low
  have high := switchable.high
  have lowest := parked.low
  refine ⟨?_, by omega, Nat.lt_of_le_of_lt parked.high (layout.small t parked.inside),
    parked.holds.congr fun a above under => switched.frame a ?_⟩
  · rw [switched.sp, if_neg (Ne.symm different)]
    exact parked.sp
  · have apart := parked.outside layout switchable.inside different above under
    omega

/-- **Resuming**: when the task is the next one, the handler returns, and its context is back. -/
theorem resume (parked : Parked lo m t cpu) (layout : Layout lo m.kernel) {running : Nat}
    (switchable : Switchable lo m running) (pointer : m.kernel.nextTask = some t) :
    ∃ m', m.step lo .pendSv = some m' ∧ m'.kernel.currentTask = some t ∧ m'.cpu = cpu :=
  switchable.resumes layout pointer fun _ switched => parked.contextAt layout switchable switched

end Parked

/-- The regions stay where they are. -/
theorem Layout.step (layout : Layout lo m.kernel) {event : SwitchEvent}
    (one : m.step lo event = some m') : Layout lo m'.kernel := by
  cases event with
  | run cpu' writes =>
      obtain ⟨task, _, done⟩ := Option.bind_eq_some_iff.mp one
      simp only [Option.ite_none_right_eq_some, Option.some.injEq] at done
      obtain ⟨_, rfl⟩ := done
      exact ⟨layout.room, layout.small, layout.disjoint⟩
  | kernel op =>
      obtain ⟨k, done, rfl⟩ := Option.map_eq_some_iff.mp one
      exact (KernelMoved.of_apply layout done).layout layout
  | pendSv =>
      obtain ⟨_, _, _, _, switched, _⟩ := step_pendSv layout one
      have bp := switched.bp
      refine ⟨fun id below => ?_, fun id below => ?_, fun id other below below' => ?_⟩
      · rw [bp]
        exact layout.room id (switched.count ▸ below)
      · rw [bp]
        exact layout.small id (switched.count ▸ below)
      · rw [bp, bp]
        exact layout.disjoint id other (switched.count ▸ below) (switched.count ▸ below')

/-- **Saving**: after a switch to another task, the context of the old one is parked. -/
theorem parked_of_pendSv (layout : Layout lo m.kernel) (running : m.kernel.currentTask = some t)
    (one : m.step lo .pendSv = some m') (away : m'.kernel.currentTask ≠ some t) :
    Parked lo m' t m.cpu := by
  obtain ⟨old, next, switchable, _, switched, _⟩ := step_pendSv layout one
  obtain rfl : old = t := Option.some.inj (switchable.current.symm.trans running)
  refine ⟨switched.count ▸ switchable.inside, away, ?_, switchable.low,
    switched.bp old ▸ switchable.high, switched.holds⟩
  rw [switched.sp, if_pos rfl]

/-- A switch from a task back to itself gives it its own context. -/
theorem Switchable.self (switchable : Switchable lo m t) (layout : Layout lo m.kernel)
    (pointer : m.kernel.nextTask = some t) :
    ∃ m', m.step lo .pendSv = some m' ∧ m'.kernel.currentTask = some t ∧ m'.cpu = m.cpu :=
  switchable.resumes layout pointer fun k switched =>
    ⟨by rw [switched.sp, if_pos rfl], switchable.room, switchable.small layout, switched.holds⟩

/-- **Building**: the task is parked with a fresh context. -/
theorem parked_of_built (layout : Layout lo m.kernel) {event : SwitchEvent}
    (one : m.step lo event = some m') (away : m.kernel.currentTask ≠ some t)
    (built : t ∈ m.rebuilt event) :
    Parked lo m' t (freshCpu m.kernel.image t (m.kernel.allTasks t).bp) := by
  cases event with
  | run cpu writes => exact absurd built List.not_mem_nil
  | pendSv => exact absurd built List.not_mem_nil
  | kernel op =>
      obtain ⟨k, done, rfl⟩ := Option.map_eq_some_iff.mp one
      have moved := KernelMoved.of_apply layout done
      have below := moved.inside t built
      obtain ⟨sp, holds⟩ := moved.built t built
      exact ⟨moved.count ▸ below, moved.currentTask ▸ away, sp, layout.room t below,
        Nat.le_of_eq (moved.bp t).symm, holds⟩

/-- The tasks whose stacks a run builds, and the tasks that it resumes. -/
def rebuilds (lo : Nat → Nat) (m : Machine) (events : List SwitchEvent) : List Nat :=
  emitted (Machine.step lo) Machine.rebuilt m events

def resumes (lo : Nat → Nat) (m : Machine) (events : List SwitchEvent) : List Nat :=
  emitted (Machine.step lo) Machine.resumed m events

/-- A whole run keeps a context parked. -/
theorem Parked.run {events : List SwitchEvent} (parked : Parked lo m t cpu)
    (layout : Layout lo m.kernel) (run : runEvents (Machine.step lo) m events = some m')
    (kept : t ∉ rebuilds lo m events) (out : t ∉ resumes lo m events) :
    Parked lo m' t cpu ∧ Layout lo m'.kernel := by
  induction events generalizing m with
  | nil =>
      rw [runEvents_nil, Option.some.injEq] at run
      exact run ▸ ⟨parked, layout⟩
  | cons event events ih =>
      obtain ⟨next, one, run⟩ := runEvents_cons.mp run
      rw [rebuilds, emitted_cons one, List.mem_append, not_or] at kept
      rw [resumes, emitted_cons one, List.mem_append, not_or] at out
      exact ih (parked.step layout one kept.1 out.1) (layout.step one) run kept.2 out.2

end Steps

/-- **Context switches preserve contexts.** From any state with such a layout, whenever a task is the
next one at a switch, the switch is carried out and the task is resumed: with what it had on the
processor when it was switched out last, unless its stack was rebuilt in between; or in
`_yos_task_shell`, when its stack was just built. -/
theorem pendSvHandler_preserves {lo : Nat → Nat} {m : Machine} (layout : Layout lo m.kernel)
    (t : Nat) :
    (Switchable lo m t → m.kernel.nextTask = some t →
      ∃ m₁, m.step lo .pendSv = some m₁ ∧ m₁.kernel.currentTask = some t ∧ m₁.cpu = m.cpu) ∧
    (∀ m₁ events m₂ running, m.kernel.currentTask = some t → m.step lo .pendSv = some m₁ →
      m₁.kernel.currentTask ≠ some t → runEvents (Machine.step lo) m₁ events = some m₂ →
      t ∉ rebuilds lo m₁ events → t ∉ resumes lo m₁ events → Switchable lo m₂ running →
      m₂.kernel.nextTask = some t →
        ∃ m₃, m₂.step lo .pendSv = some m₃ ∧ m₃.kernel.currentTask = some t ∧ m₃.cpu = m.cpu) ∧
    (∀ event m₁ events m₂ running, m.kernel.currentTask ≠ some t → m.step lo event = some m₁ →
      t ∈ m.rebuilt event → runEvents (Machine.step lo) m₁ events = some m₂ →
      t ∉ rebuilds lo m₁ events → t ∉ resumes lo m₁ events → Switchable lo m₂ running →
      m₂.kernel.nextTask = some t →
        ∃ m₃, m₂.step lo .pendSv = some m₃ ∧ m₃.kernel.currentTask = some t ∧
          m₃.cpu.hard.pc = m.kernel.image.yosTaskShell ∧ m₃.cpu.hard.r0 = t ∧
          m₃.cpu.hard.lr = m.kernel.image.yosStartError ∧
          m₃.cpu.psp = (m.kernel.allTasks t).bp) := by
  refine ⟨fun switchable pointer => switchable.self layout pointer, ?_, ?_⟩
  · intro m₁ events m₂ running current one away run kept out switchable pointer
    have parked := parked_of_pendSv layout current one away
    obtain ⟨parked', layout'⟩ := parked.run (layout.step one) run kept out
    exact parked'.resume layout' switchable pointer
  · intro event m₁ events m₂ running away one built run kept out switchable pointer
    have parked := parked_of_built layout one away built
    obtain ⟨parked', layout'⟩ := parked.run (layout.step one) run kept out
    obtain ⟨m₃, again, back, cpu⟩ := parked'.resume layout' switchable pointer
    refine ⟨m₃, again, back, ?_⟩
    rw [cpu]
    exact ⟨rfl, rfl, rfl, rfl⟩

/-- Two tasks with regions of 1 KiB, the first one running. -/
def twoStacks : Machine :=
  { kernel :=
      { image := ⟨0x08000101, 0x08000201, 0x08000301⟩
        allTasks := fun id =>
          { taskFunc := some 0x08000401, data := 0, bp := 0x20001000 + 0x400 * id
            sp := 0x20001000 + 0x400 * id, minSpByNow := 0, stackSize := 0x400, status := .created
            blockTicks := 0, name := [] }
        stackBpForNextTask := 0x20001800, taskIdForNext := 2, currentTaskId := 0
        currentTask := some 0, tmpSp := 0, nextTaskId := 0, nextTask := some 0
        isSystickTriggerByInt := true, pendsv := false, mem := fun _ => 0 }
    cpu := freshCpu ⟨0x08000101, 0x08000201, 0x08000301⟩ 0 0x20001000
    mainStack := [] }

def twoStacksLo (id : Nat) : Nat := 0x20000C00 + 0x400 * id

theorem twoStacks_layout : Layout twoStacksLo twoStacks.kernel := by
  refine ⟨fun id below => ?_, fun id below => ?_, fun id other below below' different => ?_⟩ <;>
    simp only [twoStacks, twoStacksLo] at * <;> omega

/-- The stack of task 1 is built, and task 1 is the next one. -/
def twoStacksReady : Machine :=
  { twoStacks with
    kernel :=
      { yosInitTaskStack twoStacks.kernel 1 1 with
        nextTask := some 1, nextTaskId := 1, pendsv := true } }

/-- What task 1 has on the processor after a while. -/
def laterCpu : Cpu :=
  { freshCpu twoStacks.kernel.image 1 0x20001380 with saved := ⟨9, 9, 9, 9, 9, 9, 9, 9⟩ }

/-- Task 1 computes, and task 0 is chosen again. -/
def computing : List SwitchEvent := [.run laterCpu [(0x200013F0, 7)], .kernel (.select 0)]

/-- **There and back**: task 1 begins in `_yos_task_shell`, and task 0 comes back with all it had. -/
theorem pendSvHandler_preserves_twoStacks :
    (∃ m, runEvents (Machine.step twoStacksLo) twoStacks
        [.kernel (.build 1), .kernel (.select 1), .pendSv] = some m ∧
      m.kernel.currentTask = some 1 ∧ m.cpu.hard.pc = 0x08000101 ∧ m.cpu.hard.r0 = 1 ∧
      m.cpu.hard.lr = 0x08000201 ∧ m.cpu.psp = 0x20001400) ∧
    ∃ m, runEvents (Machine.step twoStacksLo) twoStacks
        ([.kernel (.build 1), .kernel (.select 1)] ++ .pendSv :: computing ++ [.pendSv]) = some m ∧
      m.kernel.currentTask = some 0 ∧ m.cpu = twoStacks.cpu := by
  have build : twoStacks.step twoStacksLo (.kernel (.build 1)) =
      some { twoStacks with kernel := yosInitTaskStack twoStacks.kernel 1 1 } := rfl
  have ready : runEvents (Machine.step twoStacksLo) twoStacks
      [.kernel (.build 1), .kernel (.select 1)] = some twoStacksReady := rfl
  obtain ⟨_, build', select⟩ := runEvents_cons.mp ready
  obtain ⟨_, select', same⟩ := runEvents_cons.mp select
  cases same
  have layout := (twoStacks_layout.step build').step select'
  obtain ⟨m₁, switch, current, pc, r0, lr, psp⟩ := (pendSvHandler_preserves twoStacks_layout 1).2.2
    _ _ [.kernel (.select 1)] twoStacksReady 0 (by decide) build (List.mem_singleton.mpr rfl) rfl
    List.not_mem_nil List.not_mem_nil ⟨rfl, rfl, by decide, by decide, by decide⟩ rfl
  refine ⟨⟨m₁, runEvents_append.mpr ⟨_, ready, runEvents_cons.mpr ⟨m₁, switch, rfl⟩⟩, current, pc, r0,
    lr, psp⟩, ?_⟩
  have computes : (runEvents (Machine.step twoStacksLo) twoStacksReady (.pendSv :: computing)).map
      (fun m => (m.kernel.currentTask, m.kernel.nextTask, m.kernel.pendsv, m.kernel.taskIdForNext,
        m.cpu.psp, (m.kernel.allTasks 1).bp)) =
        some (some 1, some 0, true, 2, 0x20001380, 0x20001400) := by decide +kernel
  obtain ⟨m₂, run, facts⟩ := Option.map_eq_some_iff.mp computes
  simp only [Prod.mk.injEq] at facts
  obtain ⟨running, next, pended, count, psp', bp⟩ := facts
  obtain ⟨m₁', switch', later⟩ := runEvents_cons.mp run
  obtain rfl : m₁ = m₁' := Option.some.inj (switch.symm.trans switch')
  obtain ⟨_, compute, rest⟩ := runEvents_cons.mp later
  obtain ⟨_, choose, _⟩ := runEvents_cons.mp rest
  have kept : 0 ∉ rebuilds twoStacksLo m₁ computing := by
    rw [rebuilds, computing, emitted_cons compute, emitted_cons choose]
    exact List.not_mem_nil
  have out : 0 ∉ resumes twoStacksLo m₁ computing := by
    rw [resumes, computing, emitted_cons compute, emitted_cons choose]
    exact List.not_mem_nil
  have switchable : Switchable twoStacksLo m₂ 1 :=
    ⟨pended, running, by omega, by rw [psp']; decide, by omega⟩
  obtain ⟨m₃, again, back, cpu⟩ := (pendSvHandler_preserves layout 0).2.1 m₁ computing m₂ 1 rfl switch
    (by rw [current]; decide) later kept out switchable next
  refine ⟨m₃, runEvents_append.mpr ⟨m₂, runEvents_append.mpr ⟨_, ready, run⟩,
    runEvents_cons.mpr ⟨m₃, again, rfl⟩⟩, back, cpu⟩

end YosStm32
