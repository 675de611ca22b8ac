/-
**The whole program**, from `main` on.

`main` prepares the ports, creates the three tasks and starts the kernel. Its checks of `yos_create_task`
never fail (`main_cases`): the shell, the display's task and the sensor's task get the ids 1, 2 and 3, after
the idle task, and keep them. From then on the kernel runs the tasks, and what the tasks do on the bus is
what `Tasks` says of any interleaving, with the turns that the round robin gives.
-/

import YosStm32.Cmdline.Format
import YosStm32.Iic.Scheduled
import YosStm32.Kernel.Creation
import YosStm32.Main.Tasks

namespace YosStm32.Main

open Lib Iic Oled Aht20 Cmdline Mutex

/-! ### `main` -/

/-- Where the task functions of `main.c` are. -/
structure Entries where
  cmdlineTask : Nat
  oledTask : Nat
  aht20Task : Nat

/-- The calls of `yos_create_task` in `main`. -/
def mainCalls (entries : Entries) : List CreateArgs :=
  [⟨some entries.cmdlineTask, 0, 1024, some (ascii "cmdtask")⟩,
    ⟨some entries.oledTask, 0, 1024, some (ascii "oledtak")⟩,
    ⟨some entries.aht20Task, 0, 1024, some (ascii "ahttsk")⟩]

/-- The calls with what `main` prints when they fail. -/
def mainChecks (entries : Entries) : List (CreateArgs × List UInt8) :=
  (mainCalls entries).zip
    [ascii "Failed to create cmdline task\n", ascii "Failed to create oled task\n",
      ascii "Failed to create aht20 task\n"]

/-- The calls one after the other, each checked: the kernel when none fails, or the text for the one that
does. -/
def createChecked (k : Kernel) : List (CreateArgs × List UInt8) → Except (List UInt8) Kernel
  | [] => .ok k
  | (call, text) :: checks =>
      let (id, k) := yosCreateTask k call.taskFunc call.data call.stackSize call.name
      if id < 0 then .error text else createChecked k checks

/-- The creations of `main`, after `yos_init`. -/
def mainCreations (image : Image) (mem : WordMemory) (entries : Entries) : Except (List UInt8) Kernel :=
  createChecked (yosInit (zeroedKernel image mem)) (mainChecks entries)

/-- `main`: the system when `yos_start` enables interrupts, or what `main` returns. The first results are those
of `basic_io_init` and `yiic_master_init`, `systickSetFrequency` is that of the library call in `yos_start`. -/
def main (image : Image) (mem : WordMemory) (entries : Entries) (mutexes : Nat → Ymutex)
    (basicIoInit yiicMasterInit : Int) (systickSetFrequency : Bool) : Except Int Sys :=
  if basicIoInit ≠ 0 then .error (-1)
  else if yiicMasterInit ≠ 0 then .error (-1)
  else match mainCreations image mem entries with
    | .error _ => .error (-1)
    | .ok k =>
        match yosStart k systickSetFrequency with
        | none => .error 0
        | some k => .ok (startedSys k mutexes)

section Boot

variable {image : Image} {mem : WordMemory} {entries : Entries} {mutexes : Nat → Ymutex}
  {basicIoInit yiicMasterInit : Int} {systickSetFrequency : Bool} {first : Sys}

/-- No call fails while there is room. -/
theorem createChecked_eq {k : Kernel} {checks : List (CreateArgs × List UInt8)}
    (valid : ∀ check ∈ checks, check.1.Valid) (room : k.taskIdForNext + checks.length ≤ yosMaxTaskCount) :
    createChecked k checks = .ok (createTasks k (checks.map Prod.fst)) := by
  induction checks generalizing k with
  | nil => rfl
  | cons check checks ih =>
      obtain ⟨call, text⟩ := check
      rw [List.length_cons] at room
      obtain ⟨result, count, -⟩ :=
        yosCreateTask_accepted (k := k) (valid _ (List.mem_cons_self ..)) (by omega)
      have given : ¬ (yosCreateTask k call.taskFunc call.data call.stackSize call.name).1 < 0 := by
        rw [result]
        exact Int.not_lt.mpr (Int.natCast_nonneg _)
      rw [createChecked]
      simp only [given, if_false]
      exact ih (fun check member => valid check (List.mem_cons_of_mem _ member)) (by rw [count]; omega)

/-- The calls fill the next slots. -/
theorem createTasks_laid {k : Kernel} {made calls : List CreateArgs} (laid : Laid k made)
    (typed : ∀ call ∈ calls, call.Typed) (valid : ∀ call ∈ calls, call.Valid)
    (room : made.length + calls.length ≤ yosMaxTaskCount) : Laid (createTasks k calls) (made ++ calls) := by
  induction calls generalizing k made with
  | nil => exact (List.append_nil made).symm ▸ laid
  | cons call calls ih =>
      rw [List.length_cons] at room
      have one := laid.create (typed call (List.mem_cons_self ..)) (valid call (List.mem_cons_self ..))
        (by omega)
      have all := ih one (fun call member => typed call (List.mem_cons_of_mem _ member))
        (fun call member => valid call (List.mem_cons_of_mem _ member))
        (by rw [List.length_append, List.length_singleton]; omega)
      rw [List.append_assoc] at all
      exact all

theorem mainCalls_valid : ∀ call ∈ mainCalls entries, call.Valid := by
  simp [mainCalls, CreateArgs.Valid]

theorem mainCalls_typed : ∀ call ∈ mainCalls entries, call.Typed := by
  have clean : 0 ∉ ascii "cmdtask" ∧ 0 ∉ ascii "oledtak" ∧ 0 ∉ ascii "ahttsk" := by
    rw [ascii_ofList, ascii_ofList, ascii_ofList]
    decide
  simp only [mainCalls, List.forall_mem_cons]
  have small : 1024 < 2 ^ 16 := by decide
  refine ⟨⟨small, ?_⟩, ⟨small, ?_⟩, ⟨small, ?_⟩, fun _ member => absurd member List.not_mem_nil⟩
  · exact fun text given => Option.some.inj given ▸ clean.1
  · exact fun text given => Option.some.inj given ▸ clean.2.1
  · exact fun text given => Option.some.inj given ▸ clean.2.2

/-- **No creation of `main` fails.** -/
theorem mainCreations_eq (image : Image) (mem : WordMemory) (entries : Entries) :
    mainCreations image mem entries =
      .ok (createTasks (yosInit (zeroedKernel image mem)) (mainCalls entries)) := by
  have count : (yosInit (zeroedKernel image mem)).taskIdForNext = 1 := (yosInit_effect _).1
  rw [mainCreations, createChecked_eq]
  · rfl
  · exact fun check member => mainCalls_valid _ (List.of_mem_zip member).1
  · rw [count]
    exact (by decide : 1 + 3 ≤ yosMaxTaskCount)

/-- `yos_start` gives up only when the library does. -/
theorem yosStart_eq {k : Kernel} (inside : k.currentTaskId < yosMaxTaskCount) :
    yosStart k false = none ∧ ∃ k', yosStart k true = some k' := by
  obtain ⟨found, -⟩ := findNextTaskToRun_found k inside
  have below : ¬ (findNextTaskToRun k).1 ≥ yosMaxTaskCount := Nat.not_le.mpr found.inside
  unfold yosStart
  simp only [below, if_false, if_true]
  exact ⟨trivial, _, rfl⟩

/-- **What becomes of `main`.** It returns -1 when a port cannot be prepared and 0 when the library refuses the
tick frequency; otherwise the kernel runs. No creation fails. -/
theorem main_cases (image : Image) (mem : WordMemory) (entries : Entries) (mutexes : Nat → Ymutex)
    (basicIoInit yiicMasterInit : Int) (systickSetFrequency : Bool) :
    let result := main image mem entries mutexes basicIoInit yiicMasterInit systickSetFrequency
    (basicIoInit ≠ 0 ∨ yiicMasterInit ≠ 0) ∧ result = .error (-1) ∨
      (basicIoInit = 0 ∧ yiicMasterInit = 0) ∧
        (systickSetFrequency = false ∧ result = .error 0 ∨
          ∃ k, yosStart (createTasks (yosInit (zeroedKernel image mem)) (mainCalls entries)) true = some k ∧
            result = .ok (startedSys k mutexes)) := by
  have created := mainCreations_eq image mem entries
  have inv := (BootInv.init image mem).createTasks (mainCalls entries)
  obtain ⟨refused, k, started⟩ := yosStart_eq inv.currentInside
  intro result
  by_cases io : basicIoInit = 0
  · by_cases iic : yiicMasterInit = 0
    · refine Or.inr ⟨⟨io, iic⟩, ?_⟩
      have here : result = match yosStart (createTasks (yosInit (zeroedKernel image mem)) (mainCalls entries))
          systickSetFrequency with
        | none => .error 0
        | some k => .ok (startedSys k mutexes) := by
        simp only [result, main, io, iic, created, ne_eq, not_true_eq_false, if_false]
      cases systickSetFrequency with
      | false => exact Or.inl ⟨rfl, by rw [here, refused]⟩
      | true => exact Or.inr ⟨k, started, by rw [here, started]⟩
    · exact Or.inl ⟨Or.inr iic, by simp [result, main, io, iic]⟩
  · exact Or.inl ⟨Or.inl io, by simp [result, main, io]⟩

/-- The table when the kernel runs. -/
theorem main_laid (boots : main image mem entries mutexes basicIoInit yiicMasterInit systickSetFrequency =
      .ok first) : Reachable first ∧ Laid first.kernel (idleCall image :: mainCalls entries) := by
  rcases main_cases image mem entries mutexes basicIoInit yiicMasterInit systickSetFrequency with
    ⟨_, fails⟩ | ⟨_, ⟨_, fails⟩ | ⟨k, started, runs⟩⟩
  · rw [boots] at fails
    cases fails
  · rw [boots] at fails
    cases fails
  · obtain rfl := Except.ok.inj (boots.symm.trans runs)
    have room : [idleCall image].length + (mainCalls entries).length = 4 := rfl
    have created := createTasks_laid (Laid.init image mem) mainCalls_typed mainCalls_valid
      (by rw [room]; decide)
    have inv := (BootInv.init image mem).createTasks (mainCalls entries)
    exact ⟨⟨mainCalls entries, _, [], ⟨image, mem, k, mutexes, started, rfl⟩, rfl⟩,
      created.sameSlots (yosStart_sameSlots inv started)⟩

/-- A step of the kernel leaves the fixed fields of the tasks as they are. -/
theorem fixed_step {s s' : Sys} {event : Event} (inv : Inv s) (one : s.step event = some s') :
    s.kernel.taskIdForNext ≤ s'.kernel.taskIdForNext ∧
      ∀ id < s.kernel.taskIdForNext, (s'.kernel.allTasks id).fixed = (s.kernel.allTasks id).fixed := by
  rcases fired_sameSlots inv.currentInside (step_fired one) with
    ⟨same, _⟩ | ⟨taskFunc, data, stackSize, name, rfl, rfl⟩
  · exact ⟨same.count.symm.le, fun id _ => same.fixed id⟩
  · rcases yosCreateTask_effect s.kernel taskFunc data stackSize name rfl with
      same | ⟨_, count, _, _, _, _, _, _, others⟩
    · rw [same]
      exact ⟨Nat.le_refl _, fun _ _ => rfl⟩
    · exact ⟨count ▸ Nat.le_succ _, fun id below => congrArg YosTask.fixed (others id (Nat.ne_of_lt below))⟩

/-- **The tasks that `main` creates keep their slots**, whatever runs on the kernel. -/
theorem main_filled {Shared Local Action : Type} {program : Program Shared Local Action}
    {first last : Hosted Shared Local} {events : List (HostedEvent Action)}
    (boots : main image mem entries mutexes basicIoInit yiicMasterInit systickSetFrequency = .ok first.sys)
    (run : runEvents (Hosted.step program) first events = some last) (id : Nat) (call : CreateArgs)
    (here : (idleCall image :: mainCalls entries)[id]? = some call) :
    Filled (last.sys.kernel.allTasks id) id call := by
  obtain ⟨reachable, laid⟩ := main_laid boots
  obtain ⟨-, -, kept⟩ := Hosted.kernel_run
    (fun sys => Inv sys ∧ first.sys.kernel.taskIdForNext ≤ sys.kernel.taskIdForNext ∧
      ∀ id < first.sys.kernel.taskIdForNext,
        (sys.kernel.allTasks id).fixed = (first.sys.kernel.allTasks id).fixed)
    (fun sys event next ⟨inv, more, same⟩ one => by
      obtain ⟨more', same'⟩ := fixed_step inv one
      exact ⟨inv.step one, Nat.le_trans more more', fun id below =>
        (same' id (Nat.lt_of_lt_of_le below more)).trans (same id below)⟩)
    ⟨reachable.inv, Nat.le_refl _, fun _ _ => rfl⟩ run
  have below : id < first.sys.kernel.taskIdForNext := laid.count ▸ (List.getElem?_eq_some_iff.mp here).1
  exact (laid.filled id call here).of_fixed (kept id below)

end Boot

/-! ### The tasks on the kernel -/

section System

variable {image : Image} {mem : WordMemory} {entries : Entries} {mutexes : Nat → Ymutex}
  {basicIoInit yiicMasterInit : Int} {systickSetFrequency signed : Bool} {statusWord : UInt8}
  {buf : List UInt8} {events : List MainEvent} {first last : Hosted Bus Task}

/-- **At any moment after `main` has started the kernel**, the tasks 2 and 3, which use the bus, are
`_oled_task` and `_aht20_task`, and the display has what `_oled_task` has sent it, whole messages in their
order and at most a part of one more, whatever ticks, switches, other tasks and the sensor's transactions came
in between. -/
theorem main_system {turns : List (HostedEvent Unit)}
    (boots : main image mem entries mutexes basicIoInit yiicMasterInit systickSetFrequency = .ok first.sys)
    (initialised : IicInitialised (mainPrograms signed buf statusWord events) first.threads)
    (run : runEvents (Hosted.step iicProgram) first turns = some last) (display : Display) :
    (last.sys.kernel.allTasks oledTaskId).taskFunc = some entries.oledTask ∧
      (last.sys.kernel.allTasks aht20TaskId).taskFunc = some entries.aht20Task ∧
      Served (oledMessages signed buf (readingsRead [] events)) display
        (Receiver.hearAll ⟨display, .nothing⟩ (heard 0x3C false (last.shared.log.map Prod.snd))) := by
  obtain ⟨reachable, -⟩ := main_laid boots
  obtain ⟨-, threads⟩ := Hosted.threads_run reachable.inv run
  refine ⟨(main_filled boots run oledTaskId _ rfl).taskFunc,
    (main_filled boots run aht20TaskId _ rfl).taskFunc, ?_⟩
  exact display_alone initialised (if_pos rfl) mainPrograms_alone threads display

/-- **What the display shows in the end**, when the kernel runs the tasks that `main` has created and each of
them that is not finished has two turns or a chance in each round: the texts of the last round, with the
readings as they were when they were read, under them a last fourth character, under that the title. -/
theorem main_shows (room : buf.length = 16) {rounds : List (List (HostedEvent Unit))}
    (boots : main image mem entries mutexes basicIoInit yiicMasterInit systickSetFrequency = .ok first.sys)
    (initialised : IicInitialised (mainPrograms signed buf statusWord events) first.threads)
    (fair : EachStep (runEvents (Hosted.step iicProgram)) Chances first rounds)
    (enough : ∑ id ∈ Finset.range yosMaxTaskCount,
      ((mainPrograms signed buf statusWord events id).flatMap Transaction.steps).length ≤ rounds.length)
    (run : runEvents (Hosted.step iicProgram) first rounds.flatten = some last) (display : Display) :
    ∃ shows, Receiver.hearAll ⟨display, .nothing⟩ (heard 0x3C false (last.shared.log.map Prod.snd)) =
        ⟨shows, .nothing⟩ ∧
      ∀ page column, page < 8 → column < 128 → shows.screen page column =
        (latest signed (readingsRead [] events) page column).or
          ((lastWide signed (readingsRead [] events) page column).or (titleAt signed page column)) := by
  have limited : ∀ id, yosMaxTaskCount ≤ id → mainPrograms signed buf statusWord events id = [] :=
    fun id large => mainPrograms_limited id (Nat.le_trans (by decide) large)
  obtain ⟨start, all⟩ := initialised_left initialised.2.2 limited
  obtain ⟨_, inv⟩ := iic_inv initialised (runEvents_nil first.threads)
  obtain ⟨whole, log, finished⟩ :=
    hosted_finish (main_laid boots).1.inv inv start fair (all.trans enough) run
  exact finished_screen room log finished display

end System

/-! ### A run from `main` on -/

def sampleMain : Except Int Sys :=
  main ⟨0x08000101, 0x08000201, 0x08000301⟩ (fun _ => 0) ⟨0x08000401, 0x08000501, 0x08000601⟩
    (fun _ => ⟨ymutexOwnerNone⟩) 0 0 true

/-- `yos_start` gives way to the display's task. -/
def toDisplay : List Event := [.call .schedule, .exec, .exec, .exec, .pendSv 0x20004700, .enterTask]

/-- A tick gives the processor to the sensor's task. -/
def toSensor : List Event := [.sysTick, .pendSv 0x20004300, .enterTask]

theorem sampleMain_bodies :
    ∃ started display sensor, sampleMain = .ok started ∧ runEvents Sys.step started toDisplay = some display ∧
      InBody display oledTaskId ∧ runEvents Sys.step display toSensor = some sensor ∧
      InBody sensor aht20TaskId := by
  have ran : (sampleMain.toOption.bind fun started => (runEvents Sys.step started toDisplay).bind fun display =>
      (runEvents Sys.step display toSensor).map fun sensor =>
        decide (InBody display oledTaskId ∧ InBody sensor aht20TaskId)) = some true := by decide +kernel
  obtain ⟨started, boots, ran⟩ := Option.bind_eq_some_iff.mp ran
  obtain ⟨display, first, ran⟩ := Option.bind_eq_some_iff.mp ran
  obtain ⟨sensor, second, bodies⟩ := Option.map_eq_some_iff.mp ran
  obtain ⟨here, there⟩ := of_decide_eq_true bodies
  refine ⟨started, display, sensor, ?_, first, here, second, there⟩
  cases result : sampleMain with
  | error code =>
      rw [result] at boots
      cases boots
  | ok sys =>
      rw [result] at boots
      exact congrArg Except.ok (Option.some.inj boots)

/-- Both tasks get through their programs, one after the other. -/
theorem sampleMain_finishes :
    ∃ (first : Hosted Bus Task) (events : List (HostedEvent Unit)) (last : Hosted Bus Task),
      sampleMain = .ok first.sys ∧
      IicInitialised (mainPrograms true (List.replicate 16 0) 0x18 sampleEvents) first.threads ∧
      runEvents (Hosted.step iicProgram) first events = some last ∧ ∀ id, (last.locals id).left = 0 := by
  obtain ⟨started, display, sensor, boots, toFirst, first, toSecond, second⟩ := sampleMain_bodies
  let start : Hosted Bus Task := ⟨started, sampleStart.shared, sampleStart.locals⟩
  have initialised : IicInitialised (mainPrograms true (List.replicate 16 0) 0x18 sampleEvents) start.threads :=
    sampleStart_initialised
  have unowned : sampleStart.shared.mutex.owner < 0 := by decide
  obtain ⟨count, bus, task, run, done, free⟩ := program_alone (s := { start with sys := display }) first
    unowned (initialised.2.2 oledTaskId)
  obtain ⟨count', bus', task', run', done', -⟩ :=
    program_alone (s := { put start oledTaskId bus task with sys := sensor }) second free
      (initialised.2.2 aht20TaskId)
  have begins : runEvents (Hosted.step iicProgram) start (toDisplay.map .kernel) =
      some { start with sys := display } := Hosted.kernel_events toFirst
  have goesOn : runEvents (Hosted.step iicProgram) (put { start with sys := display } oledTaskId bus task)
      (toSensor.map .kernel) = some { put start oledTaskId bus task with sys := sensor } :=
    Hosted.kernel_events toSecond
  refine ⟨start, _, _, boots, initialised, runEvents_append.mpr ⟨_, begins, runEvents_append.mpr ⟨_, run,
    runEvents_append.mpr ⟨_, goesOn, run'⟩⟩⟩, fun id => ?_⟩
  show (Function.update (Function.update sampleStart.locals oledTaskId task) aht20TaskId task' id).left = 0
  by_cases sensors : id = aht20TaskId
  · rw [sensors, Function.update_self, Task.left, done']
    rfl
  by_cases displays : id = oledTaskId
  · rw [Function.update_of_ne sensors, displays, Function.update_self, Task.left, done]
    rfl
  · have nothing : (sampleStart.locals id).code = [] := (initialised.2.2 id).trans (by
      rw [mainPrograms, if_neg displays, if_neg sensors]
      rfl)
    rw [Function.update_of_ne sensors, Function.update_of_ne displays, Task.left, nothing]
    rfl

/-- After a run in which all tasks finish, the display has been sent whole messages of `_oled_task`. -/
theorem main_system_sample :
    ∃ (first last : Hosted Bus Task) (turns : List (HostedEvent Unit)), sampleMain = .ok first.sys ∧
      runEvents (Hosted.step iicProgram) first turns = some last ∧ (∀ id, (last.locals id).left = 0) ∧
      (last.sys.kernel.allTasks oledTaskId).taskFunc = some 0x08000501 ∧
      (last.sys.kernel.allTasks aht20TaskId).taskFunc = some 0x08000601 ∧
      Served (oledMessages true (List.replicate 16 0) (readingsRead [] sampleEvents)) ⟨0, 0, false, []⟩
        (Receiver.hearAll ⟨⟨0, 0, false, []⟩, .nothing⟩ (heard 0x3C false (last.shared.log.map Prod.snd))) := by
  obtain ⟨first, turns, last, boots, initialised, run, finished⟩ := sampleMain_finishes
  obtain ⟨oled, sensor, served⟩ := main_system boots initialised run ⟨0, 0, false, []⟩
  exact ⟨first, last, turns, boots, run, finished, oled, sensor, served⟩

/-- The second column of the `2` of `T:  23`, as in `main_screen_sample`. -/
theorem main_shows_sample :
    ∃ (first last : Hosted Bus Task) (rounds : List (List (HostedEvent Unit))) (shows : Display),
      sampleMain = .ok first.sys ∧ runEvents (Hosted.step iicProgram) first rounds.flatten = some last ∧
      Receiver.hearAll ⟨⟨0, 0, false, []⟩, .nothing⟩ (heard 0x3C false (last.shared.log.map Prod.snd)) =
        ⟨shows, .nothing⟩ ∧ shows.screen 4 25 = some 0x42 := by
  obtain ⟨first, turns, last, boots, initialised, run, finished⟩ := sampleMain_finishes
  obtain ⟨count, enough⟩ : ∃ count, ∑ id ∈ Finset.range yosMaxTaskCount,
      ((mainPrograms true (List.replicate 16 0) 0x18 sampleEvents id).flatMap Transaction.steps).length ≤ count :=
    ⟨_, Nat.le_refl _⟩
  have fair : EachStep (runEvents (Hosted.step iicProgram)) Chances first (turns :: List.replicate count []) :=
    ⟨chances_finished run fun id _ => finished id, fun next one =>
      Option.some.inj (run.symm.trans one) ▸ chances_idle (fun id _ => finished id) count⟩
  have all : runEvents (Hosted.step iicProgram) first (turns :: List.replicate count []).flatten =
      some last := by
    rw [List.flatten_cons, List.flatten_replicate_nil, List.append_nil]
    exact run
  obtain ⟨shows, got, screen⟩ := main_shows (List.length_replicate ..) boots initialised fair
    (by rw [List.length_cons, List.length_replicate]; exact Nat.le_succ_of_le enough) all ⟨0, 0, false, []⟩
  refine ⟨first, last, _, shows, boots, all, got, (screen 4 25 (by decide) (by decide)).trans ?_⟩
  decide +kernel

end YosStm32.Main
