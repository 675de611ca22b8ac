/-
**The bus on the kernel.**

The tasks of `yiic.c` on the kernel: `ymutex_lock` calls `schedule()`, and SysTick and PendSV come whenever they
come. All that holds of any interleaving of the tasks holds here (`Hosted.threads_run`). What an interleaving
does not give is that a task which keeps trying gets its turns; here the round robin gives them
(`Chances.twoTurns`), so the transactions are finished (`iic_scheduled`). Tasks may sleep in between, and every
tick may take the processor away after a single turn.
-/

import YosStm32.Iic.Progress
import YosStm32.Kernel.Hosted

namespace YosStm32.Iic

open Lib

/-- The code of the tasks on the kernel. -/
def iicProgram : Program Bus Task Unit where
  act := iicAct
  call := fun task => if task.code.head? = some .schedule then some .schedule else none

/-- Each task has two turns within the events, or a chance, or no step left after them. -/
def Chances (s : Hosted Bus Task) (events : List (HostedEvent Unit)) : Prop :=
  ∀ last ∈ runEvents (Hosted.step iicProgram) s events, ∀ id < yosMaxTaskCount,
    (last.locals id).left ≠ 0 → 2 ≤ (Hosted.activities iicProgram s events).count (.turn id) ∨
      ∃ before window after, events = before ++ window ++ after ∧
        ∀ here ∈ runEvents (Hosted.step iicProgram) s before, Hosted.Chance iicProgram here window id

section Turns

variable {s last : Hosted Bus Task} {events : List (HostedEvent Unit)}

/-- A switch is nobody's turn. -/
theorem turns_switches (s : Threads Bus Task) (ids : List Nat) : turns s (ids.map .switchTo) = [] := by
  induction ids generalizing s with
  | nil => rfl
  | cons id ids ih =>
      have switch : Threads.step iicAct s (.switchTo id) = some { s with running := id } := rfl
      rw [turns, List.map_cons, emitted_cons switch]
      exact ih _

theorem count_dispatches (id : Nat) (ids : List Nat) :
    (ids.map Activity.dispatch).count (.turn id) = 0 := by
  refine List.count_eq_zero.mpr fun member => ?_
  obtain ⟨_, _, same⟩ := List.mem_map.mp member
  cases same

/-- **The turns of the threads are those on the kernel.** -/
theorem count_turns (inv : Inv s.sys) (run : runEvents (Hosted.step iicProgram) s events = some last)
    (id : Nat) : (turns s.threads (Hosted.threadEvents iicProgram s events)).count id =
      (Hosted.activities iicProgram s events).count (.turn id) := by
  induction events generalizing s with
  | nil => rfl
  | cons event events ih =>
      obtain ⟨next, one, rest⟩ := runEvents_cons.mp run
      obtain ⟨inv', threads, -⟩ := Hosted.step_cases inv one
      replace threads : runEvents (Threads.step iicAct) s.threads (s.threadEvent event) =
        some next.threads := threads
      have later := ih inv' rest
      have here : (turns s.threads (s.threadEvent event)).count id =
          (s.activity event).count (.turn id) := by
        cases event with
        | kernel event =>
            rw [Hosted.threadEvent, turns_switches, Hosted.activity, count_dispatches]
            rfl
        | act action =>
            obtain ⟨_, turn, _⟩ := runEvents_cons.mp threads
            rw [turns, Hosted.threadEvent, emitted_cons turn, Hosted.activity, emitted_nil, taker,
              List.append_nil, List.count_singleton, List.count_singleton]
            exact if_congr (by simp [Hosted.threads]) rfl rfl
      rw [Hosted.threadEvents, Hosted.activities, emitted_cons one, emitted_cons one, turns,
        emitted_append threads, List.count_append, List.count_append]
      exact congrArg₂ _ here later

/-- **Chances give turns.** -/
theorem Chances.twoTurns (chances : Chances s events) (inv : Inv s.sys)
    (run : runEvents (Hosted.step iicProgram) s events = some last) :
    TwoTurns yosMaxTaskCount s.threads (Hosted.threadEvents iicProgram s events) := by
  obtain ⟨-, threads⟩ := Hosted.threads_run inv run
  intro final same id slot left
  obtain rfl := Option.some.inj (threads.symm.trans same)
  rw [count_turns inv run]
  rcases chances last run id slot left with turns | ⟨before, window, after, rfl, chance⟩
  · exact turns
  obtain ⟨later, first, rest⟩ := runEvents_append.mp run
  obtain ⟨here, run', second⟩ := runEvents_append.mp first
  obtain ⟨inv', -⟩ := Hosted.threads_run inv run'
  have turns := (chance here run').turns inv' slot second
  rw [Hosted.activities, emitted_append first, emitted_append run', List.count_append, List.count_append]
  rw [Hosted.activities] at turns
  omega

/-- Nobody needs a chance when everybody has finished. -/
theorem chances_finished {s last : Hosted Bus Task} {events : List (HostedEvent Unit)}
    (run : runEvents (Hosted.step iicProgram) s events = some last)
    (finished : ∀ id < yosMaxTaskCount, (last.locals id).left = 0) : Chances s events := by
  intro same here id slot left
  obtain rfl := Option.some.inj (run.symm.trans here)
  exact absurd (finished id slot) left

theorem chances_idle (finished : ∀ id < yosMaxTaskCount, (s.locals id).left = 0) (count : Nat) :
    EachStep (runEvents (Hosted.step iicProgram)) Chances s (List.replicate count []) := by
  induction count with
  | zero => trivial
  | succ count ih =>
      exact ⟨chances_finished (runEvents_nil s) finished, fun next one => Option.some.inj one ▸ ih⟩

end Turns

/-! ### A task alone -/

section Alone

variable {s : Hosted Bus Task} {id : Nat} {bus : Bus} {task : Task} {rest : List Step}

/-- The task is in its function, and nothing is about to take the processor away. -/
structure InBody (sys : Sys) (id : Nat) : Prop where
  enabled : sys.critical = none
  clear : sys.kernel.pendsv = false
  running : sys.kernel.currentTask = some id
  current : sys.current = id
  inside : sys.context id = .body

instance (sys : Sys) (id : Nat) : Decidable (InBody sys id) :=
  decidable_of_iff (sys.critical = none ∧ sys.kernel.pendsv = false ∧ sys.kernel.currentTask = some id ∧
    sys.current = id ∧ sys.context id = .body)
    ⟨fun ⟨enabled, clear, running, current, inside⟩ => ⟨enabled, clear, running, current, inside⟩,
      fun body => ⟨body.enabled, body.clear, body.running, body.current, body.inside⟩⟩

/-- What the task has made of the bus and of itself. -/
def put (s : Hosted Bus Task) (id : Nat) (bus : Bus) (task : Task) : Hosted Bus Task :=
  { s with shared := bus, locals := Function.update s.locals id task }

@[simp]
theorem put_own : (put s id bus task).locals id = task := Function.update_self ..

theorem put_put {bus' : Bus} {task' : Task} : put (put s id bus task) id bus' task' = put s id bus' task' := by
  simp [put]

/-- A step that does not give the processor away. -/
theorem act_alone {step : Step} (body : InBody s.sys id) (code : (s.locals id).code = step :: rest)
    (own : step ≠ .schedule) (acted : iicAct id () s.shared (s.locals id) = some (bus, task)) :
    Hosted.step iicProgram s (.act ()) = some (put s id bus task) := by
  have call : iicProgram.call (s.locals id) = none := by
    show (if (s.locals id).code.head? = some .schedule then some Call.schedule else none) = none
    rw [code, List.head?_cons]
    exact if_neg fun same => own (Option.some.inj same)
  have stays : s.sys.statement none = some s.sys :=
    Sys.asThread_eq_some.mpr ⟨body.enabled, body.clear, id, body.running, if_pos body.inside⟩
  have acted' : iicProgram.act s.sys.current () s.shared (s.locals id) = some (bus, task) :=
    body.current.symm ▸ acted
  rw [Hosted.step, body.running, Option.bind_some, acted', Option.bind_some, call, stays]
  rfl

/-- Steps between the lock and the unlock. -/
theorem middle_alone {steps : List Step} (body : InBody s.sys id)
    (plain : ∀ step ∈ steps, step ≠ .lock ∧ step ≠ .schedule ∧ step ≠ .unlock)
    (code : (s.locals id).code = steps ++ rest) :
    ∃ bus task, runEvents (Hosted.step iicProgram) s (List.replicate steps.length (.act ())) =
        some (put s id bus task) ∧ task.code = rest ∧ bus.mutex = s.shared.mutex := by
  induction steps generalizing s with
  | nil => exact ⟨s.shared, s.locals id, by simp [put], code, rfl⟩
  | cons step steps ih =>
      obtain ⟨lock, schedule, unlock⟩ := plain step (List.mem_cons_self ..)
      obtain ⟨bus, task, acted, code', mutex⟩ : ∃ bus task, iicAct id () s.shared (s.locals id) =
          some (bus, task) ∧ task.code = steps ++ rest ∧ bus.mutex = s.shared.mutex :=
        ⟨_, _, iicAct_eq id code lock unlock, rfl, rfl⟩
      have one := act_alone body code schedule acted
      obtain ⟨bus', task', run, left, mutex'⟩ := ih (s := put s id bus task) body
        (fun step member => plain step (List.mem_cons_of_mem _ member)) (by rw [put_own, code'])
      rw [put_put] at run
      exact ⟨bus', task', runEvents_cons.mpr ⟨_, one, run⟩, left, mutex'.trans mutex⟩

/-- A transaction, when the mutex is free. -/
theorem transaction_alone {tr : Transaction} (body : InBody s.sys id) (free : s.shared.mutex.owner < 0)
    (code : (s.locals id).code = tr.steps ++ rest) :
    ∃ bus task, runEvents (Hosted.step iicProgram) s (List.replicate tr.steps.length (.act ())) =
        some (put s id bus task) ∧ task.code = rest ∧ bus.mutex.owner < 0 := by
  rw [Transaction.steps_eq, List.cons_append, List.append_assoc] at code
  obtain ⟨locked, inside, takes, middle, owner⟩ : ∃ bus task, iicAct id () s.shared (s.locals id) =
      some (bus, task) ∧ task.code = tr.middle ++ ([.unlock] ++ rest) ∧ bus.mutex.owner = id := by
    rw [iicAct, code, Mutex.tryLockSection_of_free free]
    exact ⟨_, _, rfl, rfl, rfl⟩
  have first := act_alone body code Step.noConfusion takes
  obtain ⟨sent, behind, run, unlock, mutex⟩ := middle_alone (s := put s id locked inside) body
    (fun step member => (Transaction.mem_middle member).imp_right fun later => later.imp_right And.left)
    (by rw [put_own, middle])
  obtain ⟨bus, task, gives, left, free'⟩ : ∃ bus task, iicAct id () sent behind =
      some (bus, task) ∧ task.code = rest ∧ bus.mutex.owner < 0 := by
    rw [iicAct, unlock]
    refine ⟨_, _, rfl, rfl, ?_⟩
    rw [mutex]
    show (Mutex.unlockSection locked.mutex id).2.owner < 0
    rw [Mutex.unlockSection_of_owner owner]
    exact Int.negSucc_lt_zero 0
  rw [put_put] at run
  have code' : ((put s id sent behind).locals id).code = .unlock :: rest := by
    rw [put_own, unlock]
    rfl
  have last := act_alone (s := put s id sent behind) body code' Step.noConfusion (by rw [put_own]; exact gives)
  rw [put_put] at last
  refine ⟨bus, task, ?_, left, free'⟩
  rw [Transaction.steps_eq, List.length_cons, List.length_append, List.length_singleton, List.replicate_succ,
    List.replicate_succ']
  exact runEvents_cons.mpr ⟨_, first, runEvents_append.mpr ⟨_, run, runEvents_cons.mpr ⟨_, last, rfl⟩⟩⟩

/-- **A task that is alone gets through its program**, without any call of the kernel. -/
theorem program_alone {trs : List Transaction} (body : InBody s.sys id) (free : s.shared.mutex.owner < 0)
    (code : (s.locals id).code = trs.flatMap Transaction.steps) :
    ∃ count bus task, runEvents (Hosted.step iicProgram) s (List.replicate count (.act ())) =
        some (put s id bus task) ∧ task.code = [] ∧ bus.mutex.owner < 0 := by
  induction trs generalizing s with
  | nil => exact ⟨0, s.shared, s.locals id, by simp [put], code, free⟩
  | cons tr trs ih =>
      rw [List.flatMap_cons] at code
      obtain ⟨bus, task, run, left, free'⟩ := transaction_alone body free code
      obtain ⟨count, bus', task', run', left', free''⟩ := ih (s := put s id bus task) body free'
        (by rw [put_own, left])
      rw [put_put] at run'
      refine ⟨tr.steps.length + count, bus', task', ?_, left', free''⟩
      rw [List.replicate_add]
      exact runEvents_append.mpr ⟨_, run, run'⟩

end Alone

/-! ### Rounds -/

section Rounds

variable {programs : Nat → List Transaction} {first last : Hosted Bus Task}
  {rounds : List (List (HostedEvent Unit))}

/-- From any state of a run on, every transaction is finished after as many rounds as there are steps left. -/
theorem hosted_finish {before : List (Nat × Transaction)} (kernel : Inv first.sys)
    (inv : IicInv programs before first.shared first.locals) (start : Limited yosMaxTaskCount first.locals)
    (fair : EachStep (runEvents (Hosted.step iicProgram)) Chances first rounds)
    (enough : stepsLeft yosMaxTaskCount first.locals ≤ rounds.length)
    (run : runEvents (Hosted.step iicProgram) first rounds.flatten = some last) :
    ∃ whole, last.shared.log = traces whole ∧ ∀ id, doneBy whole id = programs id := by
  rw [← runEvents_blocks] at run
  obtain ⟨⟨_, limited', whole, inv⟩, most⟩ := runEvents_measure (fun s => stepsLeft yosMaxTaskCount s.locals)
    (fun s => Inv s.sys ∧ Limited yosMaxTaskCount s.locals ∧ ∃ whole, IicInv programs whole s.shared s.locals)
    (fun s events next ⟨kernel, limited, whole, inv⟩ chances one => by
      obtain ⟨kernel', threads⟩ := Hosted.threads_run kernel one
      have falls := round_left (s := s.threads) inv limited (chances.twoTurns kernel one) threads
      exact ⟨⟨kernel', (run_left (s := s.threads) limited threads).1, inv.run (s := s.threads) threads⟩, falls⟩)
    ⟨kernel, start, before, inv⟩ fair run
  exact ⟨whole, inv.finished limited' (Nat.le_zero.mp (le_trans most (Nat.sub_eq_zero_of_le enough).le))⟩

/-- **Every transaction is finished on the kernel.** In any run from a reachable state of the kernel on, with
the bus as `yiic_master_init` leaves it: when each task that is not finished has two turns or a chance in each
round, after as many rounds as there are steps the bus has carried all transactions of all tasks, each whole,
and those of each task in the order of its program. -/
theorem iic_scheduled (reachable : Reachable first.sys) (initialised : IicInitialised programs first.threads)
    (limited : ∀ id, yosMaxTaskCount ≤ id → programs id = [])
    (fair : EachStep (runEvents (Hosted.step iicProgram)) Chances first rounds)
    (enough : ∑ id ∈ Finset.range yosMaxTaskCount, ((programs id).flatMap Transaction.steps).length ≤
      rounds.length)
    (run : runEvents (Hosted.step iicProgram) first rounds.flatten = some last) :
    ∃ whole, last.shared.log = traces whole ∧ ∀ id, doneBy whole id = programs id := by
  obtain ⟨start, all⟩ := initialised_left initialised.2.2 limited
  obtain ⟨_, inv⟩ := iic_inv initialised (runEvents_nil first.threads)
  exact hosted_finish reachable.inv inv start fair (all.trans enough) run

/-- The user task has three bytes to send. -/
def userProgram (id : Nat) : List Transaction :=
  if id = 1 then [⟨.transmit, 0x3C, [.transmit (some [0, 1, 2])]⟩] else []

def userStart : Hosted Bus Task where
  sys := sampleSys
  shared := { mutex := ⟨-1⟩, currentTranType := .transmit, log := [] }
  locals := fun id => ⟨(userProgram id).flatMap Transaction.steps, .write⟩

/-- Twelve times, a tick gives the idle task the processor, and the next tick gives it back for one turn. -/
def userRound : List (HostedEvent Unit) :=
  (List.replicate 12 [HostedEvent.kernel .sysTick, .kernel (.pendSv 0x20004780), .kernel .sysTick,
    .kernel (.pendSv 0x20003F80), .act ()]).flatten

def userRest : List (HostedEvent Unit) := List.replicate 5 (.act ())

theorem userRound_chance : Hosted.Chance iicProgram userStart userRound 1 where
  awake := by decide +kernel
  often := by decide +kernel
  used := by decide +kernel

/-- After the first round the user task has five steps left, which it makes in the second one. -/
theorem iic_scheduled_user :
    ∃ last, runEvents (Hosted.step iicProgram) userStart
        (userRound :: userRest :: List.replicate 15 []).flatten = some last ∧
      ∃ whole, last.shared.log = traces whole ∧ ∀ id, doneBy whole id = userProgram id := by
  have all : ((runEvents (Hosted.step iicProgram) userStart userRound).bind fun middle =>
      (runEvents (Hosted.step iicProgram) middle userRest).map fun last =>
        ((List.range yosMaxTaskCount).all fun id => decide (id ≠ 1 → (middle.locals id).left = 0),
          (List.range yosMaxTaskCount).all fun id => decide ((last.locals id).left = 0))) =
      some (true, true) := by decide +kernel
  obtain ⟨middle, run, all⟩ := Option.bind_eq_some_iff.mp all
  obtain ⟨last, rest, all⟩ := Option.map_eq_some_iff.mp all
  obtain ⟨before, after⟩ := Prod.mk.inj all
  have others : ∀ id < yosMaxTaskCount, (middle.locals id).left ≠ 0 → id = 1 := fun id slot left => by
    by_contra other
    exact left (of_decide_eq_true (List.all_eq_true.mp before id (List.mem_range.mpr slot)) other)
  have finished : ∀ id < yosMaxTaskCount, (last.locals id).left = 0 := fun id slot =>
    of_decide_eq_true (List.all_eq_true.mp after id (List.mem_range.mpr slot))
  have reachable : Reachable userStart.sys := by
    dsimp only [userStart]
    exact sampleSys_reachable
  have initialised : IicInitialised userProgram userStart.threads := ⟨⟨⟨0⟩, rfl⟩, rfl, fun _ => rfl⟩
  have limited : ∀ id, yosMaxTaskCount ≤ id → userProgram id = [] := fun id large =>
    if_neg (by unfold yosMaxTaskCount at large; omega)
  have fair : EachStep (runEvents (Hosted.step iicProgram)) Chances userStart
      (userRound :: userRest :: List.replicate 15 []) := by
    refine ⟨fun same here id slot left => ?_, fun next one => ?_⟩
    · obtain rfl := Option.some.inj (run.symm.trans here)
      obtain rfl := others id slot left
      refine Or.inr ⟨[], userRound, [], (List.append_nil _).symm, fun start nothing => ?_⟩
      exact Option.some.inj nothing ▸ userRound_chance
    · obtain rfl := Option.some.inj (run.symm.trans one)
      exact ⟨chances_finished rest finished, fun next one => Option.some.inj (rest.symm.trans one) ▸
        chances_idle finished 15⟩
  have whole : runEvents (Hosted.step iicProgram) userStart
      (userRound :: userRest :: List.replicate 15 []).flatten = some last := by
    rw [List.flatten_cons, List.flatten_cons, List.flatten_replicate_nil, List.append_nil]
    exact runEvents_append.mpr ⟨middle, run, rest⟩
  exact ⟨last, whole, iic_scheduled reachable initialised limited fair (by decide) whole⟩

end Rounds

end YosStm32.Iic
