/-
**What `ts` lists** (`_cmd_tasks_info` in `cmdline.c` over `yos_get_task_info`).

`ts` asks for one slot after the other while the other tasks go on, so each line shows its slot at a
moment of its own. Whatever these moments are, in runs from `yos_init` on the lines are those of the slots
that are not INVALID, in the order of their ids; the stack size and the name are those of the call that
created the task (`cmdTasksInfo_rows`), the last number is what the switches have recorded of its stack
(`tasksInfoRow_stackUsage`), and no question goes wrong in memory.
-/

import YosStm32.Cmdline.Commands
import YosStm32.Kernel.StackUsage

namespace YosStm32.Cmdline

open Lib

/-- The line for a slot; `made` are the calls that filled the slots. -/
def tasksInfoRow (k : Kernel) (made : List CreateArgs) (id : Nat) : List Act :=
  if k.status id = .invalid then []
  else
    match made[id]? with
    | none => []
    | some call =>
        [tasksInfoLine id (statusValue (k.status id)) call.stackSize
          (wrapSub (k.allTasks id).bp (k.allTasks id).minSpByNow % 2 ^ 16 : Nat) (taskName id call.name)]

/-- The calls fill the slots, and the slots behind them are INVALID. -/
structure Tabled (k : Kernel) (made : List CreateArgs) : Prop extends Laid k made where
  free : ∀ id, made.length ≤ id → id < yosMaxTaskCount → k.status id = .invalid

section Tabled

variable {k : Kernel} {made : List CreateArgs} {id : Nat} {ti : YosTaskInfo}

theorem tabled_run {image : Image} {mem : WordMemory} {events : List LifeEvent} {l : Life}
    (typed : ∀ call ∈ creations events, call.Typed)
    (run : runEvents Life.step (Life.init image mem) events = some l) :
    Tabled l.kernel (accepted image (creations events)) := by
  have laid := Life.laid_init_run typed run
  exact ⟨laid, fun id beyond inside =>
    ((Life.Ok.init image mem).run run).tail (laid.count ▸ beyond) inside⟩

/-- A slot that is not INVALID has its call. -/
theorem Tabled.below (tabled : Tabled k made) (inside : id < yosMaxTaskCount)
    (valid : k.status id ≠ .invalid) : id < made.length := by
  by_contra beyond
  exact valid (tabled.free id (Nat.not_lt.mp beyond) inside)

/-- **A question about a slot** that is not INVALID. -/
theorem yosGetTaskInfo_tabled (tabled : Tabled k made) (inside : id < yosMaxTaskCount)
    (valid : k.status id ≠ .invalid) (field : ti.name.length = yosTaskNameMaxLength) :
    ∃ call name, made[id]? = some call ∧ name.length = yosTaskNameMaxLength ∧
      cString name = some (taskName id call.name) ∧
      yosGetTaskInfo k id (some ti) = some (0, some
        { id := id
          status := k.status id
          stackSize := call.stackSize
          stackMaxReachedSize := wrapSub (k.allTasks id).bp (k.allTasks id).minSpByNow % 2 ^ 16
          name := name }) := by
  have below := tabled.below inside valid
  have here : made[id]? = some made[id] := List.getElem?_eq_getElem below
  have filled := tabled.filled id _ here
  have fits : (taskName id made[id].name).length < ti.name.length := by
    rw [field]
    exact taskName_length _ _
  obtain ⟨name, copied, length, reads⟩ := strcpy_fits filled.name fits
  obtain ⟨checked, known⟩ := yosGetTaskInfo_known inside valid
  refine ⟨_, name, here, length.trans field, reads, ?_⟩
  rw [Kernel.status] at known
  rw [yosGetTaskInfo, if_neg checked]
  simp only [Int.toNat_natCast, if_pos known, copied, Option.map_some, filled.stackSize, Kernel.status]

/-- **The last number of a line** is the greatest depth of the task's stack at the switches away from it, in
sixteen bits. -/
theorem tasksInfoRow_stackUsage {image : Image} {mem : WordMemory} {events : List LifeEvent} {l : Life}
    (typed : ∀ call ∈ creations events, call.Typed)
    (run : runEvents Life.step (Life.init image mem) events = some l) (inside : id < yosMaxTaskCount)
    (valid : l.kernel.status id ≠ .invalid) :
    ∃ call depth, (accepted image (creations events))[id]? = some call ∧
      IsGreatest (depths (l.kernel.allTasks id).bp
        (savedFor (emitted Life.step Life.saved (Life.init image mem) events) id)) depth ∧
      tasksInfoRow l.kernel (accepted image (creations events)) id =
        [tasksInfoLine id (statusValue (l.kernel.status id)) call.stackSize (depth % 2 ^ 16 : Nat)
          (taskName id call.name)] := by
  have tabled := tabled_run typed run
  have below := tabled.below inside valid
  have here := List.getElem?_eq_getElem below
  refine ⟨_, _, here, stackUsage_depth typed run (tabled.count ▸ below), ?_⟩
  rw [tasksInfoRow, if_neg valid, here]

/-- The loop over some slots. -/
theorem tasksInfoActs_rows {kernels : Nat → Kernel} {made : Nat → List CreateArgs} {ids : List Nat}
    (tabled : ∀ i, Tabled (kernels i) (made i)) (inside : ∀ id ∈ ids, id < yosMaxTaskCount)
    (field : ti.name.length = yosTaskNameMaxLength) :
    tasksInfoActs kernels ids ti = some (ids.flatMap fun id => tasksInfoRow (kernels id) (made id) id) := by
  induction ids generalizing ti with
  | nil => rfl
  | cons id ids ih =>
      have later : ∀ id ∈ ids, id < yosMaxTaskCount := fun id member =>
        inside id (List.mem_cons_of_mem _ member)
      rw [List.flatMap_cons, tasksInfoRow]
      by_cases invalid : (kernels id).status id = .invalid
      · rw [if_pos invalid, List.nil_append, tasksInfoActs, yosGetTaskInfo_invalid invalid]
        exact ih later field
      · obtain ⟨call, name, here, length, reads, asked⟩ := yosGetTaskInfo_tabled (tabled id)
          (inside id (List.mem_cons_self ..)) invalid field
        rw [if_neg invalid, here, tasksInfoActs, asked]
        simp only [Option.bind_some, reads]
        rw [ih later length]
        rfl

end Tabled

/-- What the commands find outside comes from runs from `yos_init` on, one for each question of `ts`; the
field for the name is as long as it is declared. -/
structure Outside.FromRuns (outside : Outside) (image : Image) (mem : WordMemory)
    (events : Nat → List LifeEvent) : Prop where
  typed : ∀ i, ∀ call ∈ creations (events i), call.Typed
  runs : ∀ i, (runEvents Life.step (Life.init image mem) (events i)).map Life.kernel =
    some (outside.kernels i)
  field : outside.ti.name.length = yosTaskNameMaxLength

section Runs

variable {outside : Outside} {image : Image} {mem : WordMemory} {events : Nat → List LifeEvent}

theorem Outside.FromRuns.rows (found : outside.FromRuns image mem events) :
    tasksInfoActs outside.kernels (List.range yosMaxTaskCount) outside.ti =
      some ((List.range yosMaxTaskCount).flatMap fun id =>
        tasksInfoRow (outside.kernels id) (accepted image (creations (events id))) id) := by
  refine tasksInfoActs_rows (fun i => ?_)
    (fun id member => List.mem_range.mp member) found.field
  obtain ⟨l, run, same⟩ := Option.map_eq_some_iff.mp (found.runs i)
  exact same ▸ tabled_run (found.typed i) run

/-- No question goes wrong in memory. -/
theorem Outside.FromRuns.listed (found : outside.FromRuns image mem events) :
    ∃ rows, cmdTasksInfo outside.kernels outside.ti = some rows := by
  rw [cmdTasksInfo, found.rows]
  exact ⟨_, rfl⟩

/-- **What `ts` lists.** For whatever moments of runs from `yos_init` on its questions see: the head, and
one line for each slot that is not INVALID at its moment, in the order of the ids, with the stack size and
the first seven characters of the name of the call that created the task. -/
theorem cmdTasksInfo_rows (found : outside.FromRuns image mem events) :
    cmdTasksInfo outside.kernels outside.ti =
      some (.printf (ascii "ID    ST      SS     MSS    NAME\n") [] ::
        (List.range yosMaxTaskCount).flatMap fun id =>
          tasksInfoRow (outside.kernels id) (accepted image (creations (events id))) id) := by
  rw [cmdTasksInfo, found.rows]
  rfl

end Runs

/-- The first question sees `main` before it creates its tasks, the others after it. -/
def sampleMoments (i : Nat) : List LifeEvent := if i = 0 then [] else sampleCreations.map .create

/-- The kernel at these moments. -/
def sampleKernels (i : Nat) : Kernel :=
  createTasks (yosInit (zeroedKernel ⟨0x08000101, 0x08000201, 0x08000301⟩ fun _ => 0))
    (if i = 0 then [] else sampleCreations)

/-- What the commands find at these moments. -/
def sampleOutside : Outside :=
  { kernels := sampleKernels
    ti := ⟨0, .invalid, 0, 0, List.replicate 8 0⟩
    beyond := fun _ => 0 }

theorem sampleOutside_fromRuns :
    sampleOutside.FromRuns ⟨0x08000101, 0x08000201, 0x08000301⟩ (fun _ => 0) sampleMoments where
  typed := fun i => by
    rw [sampleMoments]
    split
    · exact fun call member => absurd member List.not_mem_nil
    · exact sampleCreations_typed
  runs := fun i => by
    rw [sampleMoments]
    show _ = some (sampleKernels i)
    rw [sampleKernels]
    split
    · rfl
    · rfl
  field := rfl

theorem cmdTasksInfo_rows_sampleMoments :
    ∃ acts, cmdTasksInfo sampleKernels sampleOutside.ti = some acts ∧
      acts.tail.map Act.said = [ascii "000    0     128       0    yosidle\n",
        ascii "001    0    1024       0    blink-l\n", ascii "002    0     512       0    Tsk002\n"] :=
  ⟨_, cmdTasksInfo_rows sampleOutside_fromRuns, by decide +kernel⟩

end YosStm32.Cmdline
