/-
**What is recorded of the stacks** (`YOS_RECORD_STACK_USAGE`).

`pend_sv_handler` saves the stack pointer of the task that goes, and the slot keeps the lowest one so far,
from the top of the stack on (`Recorded`). `yos_get_task_info` gives out how far below the top that is. In
every run from `yos_init` on it is the greatest depth at a switch, in sixteen bits; while the stack
pointers lie in the RAM these are enough, and the depth given out is within the size of the stack exactly
when every stack pointer that was saved is (`yosGetTaskInfo_stackUsage`). Nothing is seen of what a task
reaches between two switches.
-/

import Mathlib.Order.Bounds.Image
import YosStm32.Kernel.Creation

namespace YosStm32

open Lib Mutex

/-! ### Who writes the lowest stack pointer -/

section Kept

variable {k k' : Kernel}

theorem Swept.minSpByNow {currentTaskId : Nat} {tasks tasks' : Nat → YosTask}
    (swept : Swept currentTaskId tasks tasks') (id : Nat) :
    (tasks' id).minSpByNow = (tasks id).minSpByNow := by
  rcases swept id with kept | ⟨_, _, cleared⟩
  · rw [kept]
  · rw [cleared]

/-- A store that keeps it in one slot keeps it in all. -/
theorem setTask_minSpByNow (k : Kernel) (id other : Nat) {task : YosTask}
    (same : task.minSpByNow = (k.allTasks id).minSpByNow) :
    ((k.setTask id task).allTasks other).minSpByNow = (k.allTasks other).minSpByNow := by
  rw [Kernel.setTask_allTasks]
  by_cases here : other = id
  · rw [here, Function.update_self, same]
  · rw [Function.update_of_ne here]

theorem setStatus_minSpByNow (k : Kernel) (id other : Nat) (status : YosTaskStatus) :
    ((k.setStatus id status).allTasks other).minSpByNow = (k.allTasks other).minSpByNow :=
  setTask_minSpByNow k id other rfl

theorem tickTask_minSpByNow (task : YosTask) : (tickTask task).minSpByNow = task.minSpByNow := by
  unfold tickTask
  split
  · by_cases positive : task.blockTicks > 0
    · rw [if_pos positive]
      simp only
      split <;> rfl
    · rw [if_neg positive]
      simp only
      split <;> rfl
  · rfl

theorem yosInitTaskStack_minSpByNow (k : Kernel) (taskId id other : Nat) :
    ((yosInitTaskStack k taskId id).allTasks other).minSpByNow = (k.allTasks other).minSpByNow := by
  simp only [yosInitTaskStack, Kernel.setTask_allTasks]
  by_cases same : other = id
  · subst same
    simp
  · simp [Function.update_of_ne same]

theorem scheduleTasks_minSpByNow (k : Kernel) (inside : k.currentTaskId < yosMaxTaskCount) (id : Nat) :
    ((scheduleTasks k).2.allTasks id).minSpByNow = (k.allTasks id).minSpByNow := by
  obtain ⟨next, tasks, _, swept, ⟨_, result⟩ | ⟨_, _, result⟩ | ⟨_, _, result⟩⟩ :=
    scheduleTasks_cases k inside
  · rw [result]
    exact swept.minSpByNow id
  · rw [result]
    exact (yosInitTaskStack_minSpByNow _ next next id).trans (swept.minSpByNow id)
  · rw [result]
    exact swept.minSpByNow id

/-- The handler leaves it alone. -/
theorem sysTickHandler_minSpByNow (k : Kernel) (inside : k.currentTaskId < yosMaxTaskCount) (id : Nat) :
    ((sysTickHandler k).2.allTasks id).minSpByNow = (k.allTasks id).minSpByNow := by
  unfold sysTickHandler
  split
  · rw [scheduleTasks_minSpByNow (updateTaskBlockTicksIrq k) inside]
    simp only [updateTaskBlockTicksIrq, mapTasks_apply]
    split
    · exact tickTask_minSpByNow _
    · rfl
  · exact scheduleTasks_minSpByNow { k with isSystickTriggerByInt := true } inside id

theorem saveSp_minSpByNow (task : YosTask) (sp : Nat) :
    (saveSp task sp).minSpByNow = min sp task.minSpByNow := by
  unfold saveSp
  simp only
  split
  · rename_i lower
    exact (Nat.min_eq_left (Nat.le_of_lt lower)).symm
  · rename_i higher
    exact (Nat.min_eq_right (Nat.not_lt.mp higher)).symm

/-- **A switch lowers it** for the task that goes. -/
theorem pendSvSwitch_minSpByNow {task tmpSp : Nat} (current : k.currentTask = some task)
    (switched : pendSvSwitch k tmpSp = some k') (id : Nat) :
    (k'.allTasks id).minSpByNow =
      if id = task then min tmpSp (k.allTasks id).minSpByNow else (k.allTasks id).minSpByNow := by
  unfold pendSvSwitch at switched
  rw [current] at switched
  split at switched
  · rename_i old next same _
    obtain rfl := Option.some.inj same
    obtain rfl := Option.some.inj switched
    refine (setStatus_minSpByNow _ next id .running).trans ?_
    show ((k.setTask task (saveSp (k.allTasks task) tmpSp)).allTasks id).minSpByNow = _
    rw [Kernel.setTask_allTasks]
    by_cases goes : id = task
    · rw [if_pos goes, goes, Function.update_self, saveSp_minSpByNow]
    · rw [if_neg goes, Function.update_of_ne goes]
  · cases switched

end Kept

/-! ### Runs -/

/-- The stack pointer that a step saves, with the task whose it is. -/
def Life.saved : Life → LifeEvent → List (Nat × Nat)
  | .running s, .run (.pendSv tmpSp) => [(s.current, tmpSp)]
  | _, _ => []

/-- The stack pointers that have been saved for a task. -/
def savedFor (saves : List (Nat × Nat)) (id : Nat) : Set Nat := {sp | (id, sp) ∈ saves}

/-- **The slots have the lowest stack pointers so far**, the tops of the stacks included. -/
structure Recorded (k : Kernel) (saves : List (Nat × Nat)) : Prop where
  least : ∀ id, id < k.taskIdForNext →
    IsLeast (insert (k.allTasks id).bp (savedFor saves id)) (k.allTasks id).minSpByNow
  own : ∀ save ∈ saves, save.1 < k.taskIdForNext

section Recorded

variable {k k' : Kernel} {saves : List (Nat × Nat)}

theorem savedFor_other {id task sp : Nat} (other : id ≠ task) :
    savedFor (saves ++ [(task, sp)]) id = savedFor saves id := by
  ext pointer
  simp [savedFor, other]

theorem savedFor_own (task sp : Nat) :
    savedFor (saves ++ [(task, sp)]) task = insert sp (savedFor saves task) := by
  ext pointer
  simp [savedFor, or_comm]

namespace Recorded

theorem kept (recorded : Recorded k saves) (same : SameSlots k k')
    (lowest : ∀ id, (k'.allTasks id).minSpByNow = (k.allTasks id).minSpByNow) : Recorded k' saves := by
  have bp : ∀ id, (k'.allTasks id).bp = (k.allTasks id).bp :=
    fun id => congrArg (fun fields => fields.2.2.1) (same.fixed id)
  refine ⟨fun id below => ?_, fun save member => same.count ▸ recorded.own save member⟩
  rw [bp, lowest]
  exact recorded.least id (same.count ▸ below)

/-- A slot that is filled has no stack pointer saved yet. -/
theorem create (recorded : Recorded k saves) (call : CreateArgs) :
    Recorded (yosCreateTask k call.taskFunc call.data call.stackSize call.name).2 saves := by
  unfold yosCreateTask
  split
  · exact recorded
  · refine ⟨fun id below => ?_, fun save member => Nat.lt_succ_of_lt (recorded.own save member)⟩
    simp only [Kernel.setTask_allTasks]
    rcases Nat.lt_succ_iff_lt_or_eq.mp below with before | rfl
    · rw [Function.update_of_ne (Nat.ne_of_lt before)]
      exact recorded.least id before
    · have none : savedFor saves k.taskIdForNext = ∅ := by
        refine Set.eq_empty_of_forall_notMem fun sp saved => ?_
        exact absurd (recorded.own _ saved) (Nat.lt_irrefl _)
      rw [Function.update_self, none, insert_empty_eq]
      exact isLeast_singleton

/-- **A switch** adds the stack pointer of the task that goes. -/
theorem switch (recorded : Recorded k saves) {task tmpSp : Nat} (current : k.currentTask = some task)
    (below : task < k.taskIdForNext) (switched : pendSvSwitch k tmpSp = some k') :
    Recorded k' (saves ++ [(task, tmpSp)]) := by
  obtain ⟨_, _, _, _, count, _, _, _, kept⟩ := pendSvSwitch_cases switched
  have bp : ∀ id, (k'.allTasks id).bp = (k.allTasks id).bp :=
    fun id => congrArg (fun fields => fields.2.2.1) (kept id).2
  refine ⟨fun id inside => ?_, fun save member => ?_⟩
  · have before := recorded.least id (count ▸ inside)
    rw [bp, pendSvSwitch_minSpByNow current switched]
    by_cases goes : id = task
    · rw [if_pos goes, goes, savedFor_own, Set.insert_comm]
      exact (goes ▸ before).insert tmpSp
    · rw [if_neg goes, savedFor_other goes]
      exact before
  · rw [count]
    rcases List.mem_append.mp member with before | here
    · exact recorded.own save before
    · rw [List.mem_singleton.mp here]
      exact below

/-- A store into a slot that is no concern of the stack. -/
theorem setTask (recorded : Recorded k saves) {id : Nat} {task : YosTask}
    (same : task.fixed = (k.allTasks id).fixed) (lowest : task.minSpByNow = (k.allTasks id).minSpByNow) :
    Recorded (k.setTask id task) saves :=
  recorded.kept (.setTask k same) fun other => setTask_minSpByNow k id other lowest

theorem handler (recorded : Recorded k saves) (inside : k.currentTaskId < yosMaxTaskCount) :
    Recorded (sysTickHandler k).2 saves :=
  recorded.kept (.handler k inside) (sysTickHandler_minSpByNow k inside)

theorem fired {s s' : Sys} {event : Event} (inv : KernelInv s.kernel) (recorded : Recorded s.kernel saves)
    (one : Fired s event s') :
    Recorded s'.kernel (saves ++ Life.saved (.running s) (.run event)) := by
  have quiet := (List.append_nil saves).symm
  cases one with
  | @pendSv tmpSp k enabled pended switched =>
      exact switch (k := { s.kernel with pendsv := false }) ⟨recorded.least, recorded.own⟩
        inv.currentTask inv.currentLt switched
  | sysTick | handler => exact quiet ▸ recorded.handler inv.currentInside
  | delayStatus | delayTicks | enterTask | enterNull | returnTask =>
      exact quiet ▸ recorded.setTask rfl rfl
  | scheduleFlag => exact quiet ▸ ⟨recorded.least, recorded.own⟩
  | enable | call => exact quiet ▸ recorded
  | mutex enabled clear kind => rcases kind with rfl | rfl | rfl <;> exact quiet ▸ recorded
  | create => exact quiet ▸ recorded.create ⟨_, _, _, _⟩

theorem step {l l' : Life} {event : LifeEvent} (ok : l.Ok) (recorded : Recorded l.kernel saves)
    (one : l.step event = some l') : Recorded l'.kernel (saves ++ l.saved event) := by
  have quiet := (List.append_nil saves).symm
  cases lifeStep_of_step one with
  | @create k call => exact quiet ▸ recorded.create call
  | @start k k' mutexes user started =>
      obtain ⟨next, tasks, -, swept, same⟩ := yosStart_found (BootInv.currentInside ok) started
      refine quiet ▸ recorded.kept (yosStart_sameSlots ok started) fun id => ?_
      show (k'.allTasks id).minSpByNow = _
      rw [same]
      exact (yosInitTaskStack_minSpByNow _ next next id).trans (swept.minSpByNow id)
  | @run s s' event stepped =>
      have inv : LifeInv s := ok
      exact fired inv.toKernelInv recorded (step_fired stepped)

/-- **The run lemma**, from `yos_init` on: it has filled the idle task's slot. -/
theorem run {image : Image} {mem : WordMemory} {events : List LifeEvent} {l : Life}
    (run : runEvents Life.step (Life.init image mem) events = some l) :
    Recorded l.kernel (emitted Life.step Life.saved (Life.init image mem) events) := by
  have start : Recorded (Life.init image mem).kernel [] :=
    have emptied : ∀ k : Kernel, k.taskIdForNext = 0 → Recorded k [] := fun k empty =>
      ⟨fun id below => absurd (empty ▸ below) (Nat.not_lt_zero id),
        fun _ member => absurd member List.not_mem_nil⟩
    have created := (emptied { zeroedKernel image mem with
      stackBpForNextTask := yosProcessStackAddress
      allTasks := mapTasks (fun task => { task with status := .invalid }) (zeroedKernel image mem).allTasks }
      rfl).create (idleCall image)
    ⟨created.least, created.own⟩
  exact (emitted_history Life.saved (fun l past => l.Ok ∧ Recorded l.kernel past)
    (fun l past event next ⟨ok, recorded⟩ one => ⟨ok.step one, step ok recorded one⟩)
    ⟨Life.Ok.init image mem, start⟩ run).2

end Recorded

end Recorded

/-- The depths of a stack: none, at the beginning, and those that the stack pointers show. -/
def depths (bp : Nat) (pointers : Set Nat) : Set Nat := insert 0 ((bp - ·) '' pointers)

/-- The lowest stack pointer shows the greatest depth. -/
theorem isGreatest_depths {bp lowest : Nat} {pointers : Set Nat}
    (least : IsLeast (insert bp pointers) lowest) :
    IsGreatest (depths bp pointers) (bp - lowest) := by
  have antitone : Antitone (bp - ·) := fun _ _ le => Nat.sub_le_sub_left le bp
  have greatest := antitone.map_isLeast least
  rw [Set.image_insert_eq, Nat.sub_self] at greatest
  exact greatest

/-- A depth is within a size when the stack pointers are. -/
theorem greatest_le_iff {bp size depth : Nat} {pointers : Set Nat}
    (greatest : IsGreatest (depths bp pointers) depth) :
    depth ≤ size ↔ ∀ sp ∈ pointers, bp - size ≤ sp := by
  rw [isLUB_le_iff greatest.isLUB, depths, mem_upperBounds]
  constructor
  · intro within sp member
    have here : bp - sp ≤ size := within _ (Set.mem_insert_of_mem _ (Set.mem_image_of_mem _ member))
    omega
  · rintro above _ (rfl | ⟨sp, member, rfl⟩)
    · exact Nat.zero_le size
    · have here := above sp member
      show bp - sp ≤ size
      omega

/-- What a question that succeeds has found. -/
theorem yosGetTaskInfo_found {k : Kernel} {id : Nat} {info info' : YosTaskInfo}
    (asked : yosGetTaskInfo k id (some info) = some (0, some info')) :
    id < yosMaxTaskCount ∧ k.status id ≠ .invalid ∧ info'.stackSize = (k.allTasks id).stackSize ∧
      info'.stackMaxReachedSize = wrapSub (k.allTasks id).bp (k.allTasks id).minSpByNow % 2 ^ 16 := by
  unfold yosGetTaskInfo at asked
  split at asked
  · cases asked
  · rename_i checked
    rw [Int.toNat_natCast] at asked
    dsimp only at asked
    split at asked
    · rename_i known
      obtain ⟨name, -, same⟩ := Option.map_eq_some_iff.mp asked
      cases same
      refine ⟨by omega, fun invalid => ?_, rfl, rfl⟩
      rw [Kernel.status] at invalid
      rw [invalid] at known
      simp at known
    · cases asked

/-- **The greatest depth is what the two fields show**, after any run from `yos_init` on. -/
theorem stackUsage_depth {image : Image} {mem : WordMemory} {events : List LifeEvent} {l : Life} {id : Nat}
    (typed : ∀ call ∈ creations events, call.Typed)
    (run : runEvents Life.step (Life.init image mem) events = some l) (created : id < l.kernel.taskIdForNext) :
    IsGreatest (depths (l.kernel.allTasks id).bp
        (savedFor (emitted Life.step Life.saved (Life.init image mem) events) id))
      (wrapSub (l.kernel.allTasks id).bp (l.kernel.allTasks id).minSpByNow) := by
  have laid := Life.laid_init_run typed run
  obtain ⟨-, top⟩ := laid.noWrap (laid.count ▸ created)
  have least := (Recorded.run run).least id created
  have lowest : (l.kernel.allTasks id).minSpByNow ≤ (l.kernel.allTasks id).bp :=
    least.2 (Set.mem_insert _ _)
  rw [wrapSub_of_le lowest (Nat.lt_of_le_of_lt top (by decide))]
  exact isGreatest_depths least

/-- **What the stack usage says**, in every run from `yos_init` on. The largest size reached that
`yos_get_task_info` gives for a task is the greatest depth of its stack at the switches away from it so far,
in sixteen bits. When the stack pointers saved are addresses of the RAM, that is the depth itself, and it
is no more than the size of the stack exactly when none of them has been below the stack. -/
theorem yosGetTaskInfo_stackUsage {image : Image} {mem : WordMemory} {events : List LifeEvent} {l : Life}
    {id : Nat} {info info' : YosTaskInfo} (typed : ∀ call ∈ creations events, call.Typed)
    (run : runEvents Life.step (Life.init image mem) events = some l)
    (asked : yosGetTaskInfo l.kernel id (some info) = some (0, some info')) :
    let saved := savedFor (emitted Life.step Life.saved (Life.init image mem) events) id
    ∃ depth, IsGreatest (depths (l.kernel.allTasks id).bp saved) depth ∧
      info'.stackMaxReachedSize = depth % 2 ^ 16 ∧
      ((∀ sp ∈ saved, yosSramBaseAddress ≤ sp) →
        info'.stackMaxReachedSize = depth ∧
          (info'.stackMaxReachedSize ≤ info'.stackSize ↔
            ∀ sp ∈ saved, (l.kernel.allTasks id).bp - info'.stackSize ≤ sp)) := by
  intro saved
  obtain ⟨inside, valid, -, reached⟩ := yosGetTaskInfo_found asked
  have laid := Life.laid_init_run typed run
  have created : id < l.kernel.taskIdForNext := by
    by_contra beyond
    exact valid (((Life.Ok.init image mem).run run).tail (Nat.not_lt.mp beyond) inside)
  have greatest := stackUsage_depth typed run created
  refine ⟨_, greatest, reached, fun inRam => ?_⟩
  obtain ⟨-, top⟩ := laid.noWrap (laid.count ▸ created)
  have address : yosProcessStackAddress = yosSramBaseAddress + 19456 := rfl
  have fits : wrapSub (l.kernel.allTasks id).bp (l.kernel.allTasks id).minSpByNow ≤ 19456 :=
    (greatest_le_iff greatest).mpr fun sp member => by
      have low := inRam sp member
      omega
  rw [Nat.mod_eq_of_lt (Nat.lt_of_le_of_lt fits (by decide))] at reached
  rw [reached]
  exact ⟨rfl, greatest_le_iff greatest⟩

/-- The running task gives the processor up, with this stack pointer. -/
def giveUp (tmpSp : Nat) : List Event := [.call .schedule, .exec, .exec, .exec, .pendSv tmpSp]

/-- All tasks have a turn, then the first one goes with 128 bytes on its stack. -/
def sampleUsage : List LifeEvent :=
  sampleCreations.map .create ++ .start (fun _ => ⟨ymutexOwnerNone⟩) ::
    (giveUp 0x20004B60 ++ [Event.enterTask] ++ giveUp 0x20004740 ++ [Event.enterTask] ++
      giveUp 0x20004BC0 ++ [Event.enterTask] ++ giveUp 0x20004B00).map .run

/-- The stack pointers that are saved in it. -/
def sampleSaves : List (Nat × Nat) := [(1, 0x20004B60), (2, 0x20004740), (0, 0x20004BC0), (1, 0x20004B00)]

theorem yosGetTaskInfo_stackUsage_sample :
    ∃ l info', runEvents Life.step (Life.init ⟨0x08000101, 0x08000201, 0x08000301⟩ fun _ => 0)
        sampleUsage = some l ∧
      yosGetTaskInfo l.kernel 1 (some ⟨0, .invalid, 0, 0, List.replicate 8 0⟩) = some (0, some info') ∧
      info'.stackMaxReachedSize = 128 ∧
      IsGreatest (depths (l.kernel.allTasks 1).bp (savedFor sampleSaves 1)) 128 := by
  have typed : ∀ call ∈ creations sampleUsage, call.Typed := by
    have same : creations sampleUsage = creations (sampleCreations.map .create) := rfl
    rw [same]
    exact sampleCreations_typed
  have found : ((runEvents Life.step (Life.init ⟨0x08000101, 0x08000201, 0x08000301⟩ fun _ => 0)
      sampleUsage).bind fun l => yosGetTaskInfo l.kernel 1
        (some ⟨0, .invalid, 0, 0, List.replicate 8 0⟩)) =
      some (0, some ⟨1, .running, 1024, 128, [98, 108, 105, 110, 107, 45, 108, 0]⟩) := by
    decide +kernel
  have saves : emitted Life.step Life.saved (Life.init ⟨0x08000101, 0x08000201, 0x08000301⟩ fun _ => 0)
      sampleUsage = sampleSaves := by
    decide +kernel
  obtain ⟨l, run, asked⟩ := Option.bind_eq_some_iff.mp found
  obtain ⟨depth, greatest, -, whole⟩ := yosGetTaskInfo_stackUsage typed run asked
  rw [saves] at greatest whole
  have inRam : ∀ save ∈ sampleSaves, yosSramBaseAddress ≤ save.2 := by decide
  obtain ⟨same, -⟩ := whole fun sp member => inRam _ member
  rw [← same] at greatest
  exact ⟨l, _, run, asked, rfl, greatest⟩

end YosStm32
