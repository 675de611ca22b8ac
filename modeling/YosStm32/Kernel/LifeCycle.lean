/-
**The life cycle of a task.**

The status of a task is stored from six functions; what each store finds there follows from the point
its task's code has reached. `PointFits` pairs the two, and `LifeInv` adds it to the scheduler's
invariant, with what the first tail of `yos_start` and the next switch need. From it every event
changes a status along one of six arrows only (`LifeInv.changes`), and a task that has left its task
function never comes back (`LifeInv.gone`).
-/

import YosStm32.Kernel.RoundRobin
import YosStm32.Kernel.TaskInfo

namespace YosStm32

open Lib Mutex

/-! ### Points and statuses -/

/-- The statuses that a task can have at a point of its code. -/
def PointFits (status : YosTaskStatus) : ThreadPoint → Prop
  | .start | .startDone => status = .created
  | .shell => status.Runnable
  | .body => status = .running ∨ status = .waiting
  | .resched | .reschedDone => status = .exited ∨ status = .invalid

/-- The scheduler's invariant, and where every task's code stands. -/
structure LifeInv (s : Sys) : Prop extends Inv s where
  points : ∀ id, id < s.kernel.taskIdForNext → PointFits (s.kernel.status id) (s.context id)
  unborn : ∀ id, s.kernel.taskIdForNext ≤ id → s.context id = .shell
  entered : s.context s.current = .shell → s.kernel.status s.current = .running
  delays : ∀ ticks, s.critical = some (.delayStatus ticks) → s.context s.current = .body
  next : s.kernel.pendsv = true →
    s.context s.kernel.nextTaskId ≠ .start ∧ s.context s.kernel.nextTaskId ≠ .startDone

/-- The changes of status that there are. -/
inductive StatusChange : YosTaskStatus → YosTaskStatus → Prop where
  | create : StatusChange .invalid .created
  | dispatch : StatusChange .created .running
  | delay : StatusChange .running .waiting
  | wake : StatusChange .waiting .running
  | exit : StatusChange .running .exited
  | sweep : StatusChange .exited .invalid

/-- The handler moves a runnable task's point to the shell's entry or leaves it. -/
theorem PointFits.of_runnable {status : YosTaskStatus} {point : ThreadPoint}
    (fits : PointFits status point) (runnable : status.Runnable) (notStart : point ≠ .start)
    (notDone : point ≠ .startDone) : point = .shell ∨ point = .body ∧ status = .running := by
  cases point with
  | start => exact absurd rfl notStart
  | startDone => exact absurd rfl notDone
  | shell => exact Or.inl rfl
  | body =>
      rcases fits with running | waiting
      · exact Or.inr ⟨rfl, running⟩
      · exact absurd waiting runnable.ne_waiting
  | resched | reschedDone =>
      rcases fits with exited | invalid
      · exact absurd exited runnable.ne_exited
      · exact absurd invalid runnable.ne_invalid

/-- The tick handler's changes fit the point of their task. -/
theorem PointFits.handled {k k' : Kernel} {id : Nat} {point : ThreadPoint} (handled : Handled k k')
    (fits : PointFits (k.status id) point) : PointFits (k'.status id) point := by
  rcases handled.statuses id with kept | ⟨exited, _, cleared⟩ | ⟨waiting, running⟩
  · rwa [kept]
  · rw [exited] at fits
    rw [cleared]
    cases point with
    | start | startDone => cases fits
    | shell => rcases fits with created | running <;> contradiction
    | body => rcases fits with running | waiting <;> contradiction
    | resched | reschedDone => exact Or.inr rfl
  · rw [waiting] at fits
    rw [running]
    cases point with
    | start | startDone => cases fits
    | shell => exact Or.inr rfl
    | body => exact Or.inl rfl
    | resched | reschedDone => rcases fits with exited | invalid <;> contradiction

/-- A call goes on at a point that fits what the task was doing. -/
theorem Call.resume_fits (call : Call) {status : YosTaskStatus} {point point' : ThreadPoint}
    (resume : call.resume point = some point') (fits : PointFits status point) :
    PointFits status point' ∧ point' ≠ .shell ∧ ∀ ticks, call = .delay ticks → point' = .body := by
  cases call with
  | schedule =>
      cases point <;> cases resume
      · exact ⟨fits, by decide, fun _ other => nomatch other⟩
      · exact ⟨fits, by decide, fun _ other => nomatch other⟩
      · exact ⟨fits, by decide, fun _ other => nomatch other⟩
  | delay ticks =>
      cases point <;> cases resume
      exact ⟨fits, by decide, fun _ _ => rfl⟩

/-- The search of the handler call that the event makes goes past slot `id`. -/
def Passes (s : Sys) (event : Event) (id : Nat) : Prop :=
  CallsHandler s event ∧
    gap yosMaxTaskCount s.current id <
      gap yosMaxTaskCount s.current (sysTickHandler s.kernel).2.nextTaskId

/-! ### Ids given out -/

/-- The id that a creation gives out; a negative result is a refusal. -/
def newTask (result : Int) : List Nat := if result < 0 then [] else [result.toNat]

/-- The ids that an event gives out. -/
def given (s : Sys) : Event → List Nat
  | .create taskFunc data stackSize name =>
      newTask (yosCreateTask s.kernel taskFunc data stackSize name).1
  | _ => []

/-- A creation gives out the next id, or nothing and changes nothing. -/
theorem newTask_yosCreateTask (k : Kernel) (taskFunc : Option Nat) (data stackSize : Nat)
    (name : Option (List UInt8)) :
    newTask (yosCreateTask k taskFunc data stackSize name).1 = [] ∧
        (yosCreateTask k taskFunc data stackSize name).2 = k ∨
      newTask (yosCreateTask k taskFunc data stackSize name).1 = [k.taskIdForNext] ∧
        (yosCreateTask k taskFunc data stackSize name).2.taskIdForNext = k.taskIdForNext + 1 := by
  rcases yosCreateTask_cases k taskFunc data stackSize name with
    refused | ⟨_, task, _, _, _, made⟩
  · rw [refused]
    exact Or.inl ⟨rfl, rfl⟩
  · rw [made]
    exact Or.inr ⟨if_neg (Int.not_lt.mpr (Int.natCast_nonneg _)), rfl⟩

/-- The only slot whose status a creation changes was INVALID, and is the one given out. -/
theorem yosCreateTask_changes (k : Kernel)
    (tail : ∀ id, k.taskIdForNext ≤ id → id < yosMaxTaskCount → k.status id = .invalid)
    (taskFunc : Option Nat) (data stackSize : Nat) (name : Option (List UInt8)) (id : Nat) :
    (yosCreateTask k taskFunc data stackSize name).2.status id = k.status id ∨
      k.status id = .invalid ∧ (yosCreateTask k taskFunc data stackSize name).2.status id = .created ∧
        newTask (yosCreateTask k taskFunc data stackSize name).1 = [id] := by
  rcases yosCreateTask_effect k taskFunc data stackSize name rfl with
    same | ⟨room, count, _, _, _, _, created, _, others⟩
  · rw [same]
    exact Or.inl rfl
  · rcases newTask_yosCreateTask k taskFunc data stackSize name with ⟨_, same⟩ | ⟨out, _⟩
    · rw [same] at count
      omega
    · by_cases here : id = k.taskIdForNext
      · rw [here, created]
        exact Or.inr ⟨tail _ (Nat.le_refl _) room, rfl, out⟩
      · exact Or.inl (congrArg YosTask.status (others id here))

namespace LifeInv

variable {s s' : Sys}

/-- While its thread runs, a task in its task function is RUNNING. -/
theorem running_of_body (inv : LifeInv s) (enabled : s.critical = none)
    (clear : s.kernel.pendsv = false) (body : s.context s.current = .body) :
    s.kernel.status s.current = .running := by
  have fits := inv.points _ inv.currentLt
  rw [body] at fits
  exact fits.resolve_right (inv.awake enabled clear)

theorem afterHandler_context (s : Sys) :
    s.afterHandler.context =
      if (sysTickHandler s.kernel).1 = .switchCreated then
        Function.update s.context (sysTickHandler s.kernel).2.nextTaskId .shell
      else s.context := rfl

/-- **A call of the handler.** A frame is built for a CREATED task only, and a switch is never pended
to a task whose code would go on in `yos_start`. -/
theorem ofHandler (inv : LifeInv s) (inv' : Inv s')
    (kernel : s'.kernel = (sysTickHandler s.kernel).2) (context : s'.context = s.afterHandler.context)
    (outside : ∀ ticks, s'.critical ≠ some (.delayStatus ticks)) : LifeInv s' := by
  have handled := sysTickHandler_handled s.kernel inv.currentInside
  have exit := sysTickHandler_exitFor s.kernel inv.currentInside
  rw [afterHandler_context] at context
  rw [← kernel] at handled exit context
  generalize (sysTickHandler s.kernel).1 = leave at exit context
  have fits : ∀ id, id < s'.kernel.taskIdForNext → PointFits (s'.kernel.status id) (s.context id) := by
    intro id below
    rw [handled.taskIdForNext] at below
    exact (inv.points id below).handled handled
  have current : s'.current = s.current := handled.currentTaskId
  have entered : s.context s.current = .shell → s'.kernel.status s.current = .running := by
    intro shell
    have running := inv.entered shell
    rcases handled.statuses s.current with kept | ⟨exited, _⟩ | ⟨_, awake⟩
    · exact kept.trans running
    · exact nomatch running.symm.trans exited
    · exact awake
  -- Without a new frame every point stays.
  have noFrame (same : s'.context = s.context) (next : s'.kernel.pendsv = true →
      s.context s'.kernel.nextTaskId ≠ .start ∧ s.context s'.kernel.nextTaskId ≠ .startDone) :
      LifeInv s' := by
    refine ⟨inv', ?_, ?_, ?_, fun ticks place => absurd place (outside ticks), ?_⟩
    · rwa [same]
    · rw [same, handled.taskIdForNext]
      exact inv.unborn
    · rwa [same, current]
    · rwa [same]
  cases exit with
  | noSwitch back =>
      rw [if_neg (by decide)] at context
      exact noFrame context fun pended => absurd (back.trans current.symm) (inv'.pending pended).away
  | switchCreated away created =>
      rw [if_pos rfl] at context
      refine ⟨inv', fun id below => ?_, fun id above => ?_, ?_,
        fun ticks place => absurd place (outside ticks), fun _ => ?_⟩
      · rw [context, Function.update_apply]
        split
        · rename_i here
          exact Or.inl (here ▸ created)
        · exact fits id below
      · rw [context, Function.update_apply]
        split
        · rfl
        · exact inv.unborn id (handled.taskIdForNext ▸ above)
      · rw [context, current, Function.update_of_ne (Ne.symm away)]
        exact entered
      · rw [context, Function.update_self]
        exact ⟨fun same => (nomatch same), fun same => nomatch same⟩
  | switchRunning away running =>
      rw [if_neg (by decide)] at context
      refine noFrame context fun pended => ?_
      have point := fits _ (inv'.next_lt pended)
      rw [running] at point
      constructor
      · intro start
        rw [start] at point
        cases point
      · intro done
        rw [done] at point
        cases point

/-- A statement that changes neither statuses nor points nor ids, with no switch pended. -/
theorem frame (inv : LifeInv s) (inv' : Inv s') (clear : s'.kernel.pendsv = false)
    (statuses : ∀ id, s'.kernel.status id = s.kernel.status id) (context : s'.context = s.context)
    (count : s'.kernel.taskIdForNext = s.kernel.taskIdForNext) (current : s'.current = s.current)
    (outside : ∀ ticks, s'.critical ≠ some (.delayStatus ticks)) : LifeInv s' := by
  refine ⟨inv', fun id below => ?_, fun id above => ?_, ?_,
    fun ticks place => absurd place (outside ticks),
    fun pended => absurd (clear.symm.trans pended) Bool.false_ne_true⟩
  · rw [statuses, context]
    exact inv.points id (count ▸ below)
  · rw [context]
    exact inv.unborn id (count ▸ above)
  · rw [context, current, statuses]
    exact inv.entered

/-- A status store of the running task, which moves its code to a point that fits. -/
theorem store (inv : LifeInv s) (inv' : Inv s') {status : YosTaskStatus} {point : ThreadPoint}
    (clear : s'.kernel.pendsv = false) (kernel : s'.kernel = s.kernel.setStatus s.current status)
    (context : s'.context = Function.update s.context s.current point)
    (fits : PointFits status point) (inside : point ≠ .shell)
    (outside : ∀ ticks, s'.critical ≠ some (.delayStatus ticks)) : LifeInv s' := by
  have count : s'.kernel.taskIdForNext = s.kernel.taskIdForNext := by rw [kernel]; rfl
  have current : s'.current = s.current := by rw [Sys.current, kernel]; rfl
  refine ⟨inv', fun id below => ?_, fun id above => ?_, ?_,
    fun ticks place => absurd place (outside ticks),
    fun pended => absurd (clear.symm.trans pended) Bool.false_ne_true⟩
  · rw [kernel, context, Kernel.setStatus_status, Function.update_apply]
    split
    · exact fits
    · exact inv.points id (count ▸ below)
  · rw [count] at above
    rw [context, Function.update_of_ne (Nat.ne_of_gt (Nat.lt_of_lt_of_le inv.currentLt above))]
    exact inv.unborn id above
  · rw [context, current, Function.update_self]
    exact fun shell => absurd shell inside

/-- **The switch.** A task that is dispatched is at the shell's entry or in its task function. -/
theorem switch (inv : LifeInv s) (inv' : Inv s') {tmpSp : Nat} {k : Kernel}
    (enabled : s'.critical = none) (pended : s.kernel.pendsv = true)
    (switched : pendSvSwitch { s.kernel with pendsv := false } tmpSp = some k)
    (kernel : s'.kernel = k) (context : s'.context = s.context) : LifeInv s' := by
  obtain ⟨_, current, running, clear⟩ := inv.toKernelInv.switch pended switched
  obtain ⟨next, pointer, _, _, count, _, _, statuses, _⟩ := pendSvSwitch_cases switched
  have pending := inv.pending pended
  obtain rfl : next = s.kernel.nextTaskId := Option.some.inj (pointer.symm.trans pending.nextTask)
  subst kernel
  refine ⟨inv', fun id below => ?_, fun id above => ?_, fun _ => running,
    fun ticks place => absurd (enabled.symm.trans place) (by simp),
    fun again => absurd (clear.symm.trans again) Bool.false_ne_true⟩
  · rw [statuses, context]
    have fits := inv.points id (count ▸ below)
    split
    · rename_i here
      rw [here] at fits ⊢
      obtain ⟨notStart, notDone⟩ := inv.next pended
      rcases fits.of_runnable (pending.found.good_of_ne pending.away) notStart notDone with
        shell | ⟨body, _⟩
      · rw [shell]
        exact Or.inr rfl
      · rw [body]
        exact Or.inl rfl
    · exact fits
  · rw [context]
    exact inv.unborn id (count ▸ above)

/-- A creation: the new slot's task will begin at the shell's entry. -/
theorem create (inv : LifeInv s) (inv' : Inv s') (enabled : s'.critical = none)
    (clear : s.kernel.pendsv = false) {taskFunc : Option Nat} {data stackSize : Nat}
    {name : Option (List UInt8)}
    (result : (yosCreateTask s.kernel taskFunc data stackSize name).2 = s'.kernel)
    (context : s'.context = s.context) : LifeInv s' := by
  have outside : ∀ ticks, s'.critical ≠ some (.delayStatus ticks) := by simp [enabled]
  rcases yosCreateTask_effect s.kernel taskFunc data stackSize name result with
    same | ⟨room, count, _, currentTaskId, pendsv, _, created, _, others⟩
  · exact inv.frame inv' (by rw [same, clear]) (fun id => by rw [same]) context (by rw [same])
      (by rw [Sys.current, same]) outside
  refine ⟨inv', fun id below => ?_, fun id above => ?_, fun shell => ?_,
    fun ticks place => absurd place (outside ticks),
    fun pended => absurd ((pendsv.trans clear).symm.trans pended) Bool.false_ne_true⟩
  · rw [context]
    by_cases last : id = s.kernel.taskIdForNext
    · rw [last, created, inv.unborn _ (Nat.le_refl _)]
      exact Or.inl rfl
    · rw [Kernel.status, others id last]
      exact inv.points id (by omega)
  · rw [context]
    exact inv.unborn id (by omega)
  · have current : s'.current = s.current := currentTaskId
    rw [context, current] at shell
    rw [current, Kernel.status, others _ (Nat.ne_of_lt inv.currentLt)]
    exact inv.entered shell

/-- **Every event keeps the invariant.** -/
theorem fired (inv : LifeInv s) {event : Event} (one : Fired s event s') : LifeInv s' := by
  have inv' := inv.toInv.fired one
  cases one with
  | sysTick enabled => exact inv.ofHandler inv' rfl rfl (by simp [enabled])
  | pendSv enabled pended switched => exact inv.switch inv' enabled pended switched rfl rfl
  | @delayStatus ticks task place running =>
      obtain rfl := inv.running_eq running
      have clear := inv.masked (by simp [OnTheWay, place])
      have fits : PointFits .waiting .body := Or.inr rfl
      refine inv.store inv' clear rfl ?_ fits (by decide) (by simp)
      exact (Function.update_eq_self_iff.mpr (inv.delays ticks place).symm).symm
  | @delayTicks ticks task place running =>
      obtain rfl := inv.running_eq running
      have clear := inv.masked (by simp [OnTheWay, place])
      exact inv.frame inv' clear (fun id => Kernel.setTask_sameStatus _ _ id _ rfl) rfl rfl rfl (by simp)
  | scheduleFlag place =>
      have clear := inv.masked (by simp [OnTheWay, place])
      exact inv.frame inv' clear (fun _ => rfl) rfl rfl rfl (by simp)
  | handler place => exact inv.ofHandler inv' rfl rfl (by simp)
  | enable place =>
      exact ⟨inv', inv.points, inv.unborn, inv.entered, by simp, inv.next⟩
  | @call call task point enabled clear running allowed resume =>
      obtain rfl := inv.running_eq running
      obtain ⟨fits, outside, delays⟩ := call.resume_fits resume (inv.points _ inv.currentLt)
      refine ⟨inv', fun id below => ?_, fun id above => ?_, fun shell => ?_, fun ticks place => ?_,
        fun pended => absurd (clear.symm.trans pended) Bool.false_ne_true⟩
      · show PointFits (s.kernel.status id) (Function.update s.context s.current point id)
        rw [Function.update_apply]
        split
        · rename_i here
          exact here ▸ fits
        · exact inv.points id below
      · have other : id ≠ s.current := Nat.ne_of_gt (Nat.lt_of_lt_of_le inv.currentLt above)
        exact (Function.update_of_ne other _ _).trans (inv.unborn id above)
      · change Function.update s.context s.current point s.current = .shell at shell
        rw [Function.update_self] at shell
        exact absurd shell outside
      · show Function.update s.context s.current point s.current = .body
        rw [Function.update_self]
        cases call with
        | schedule => cases place
        | delay ticks => exact delays ticks rfl
  | @enterTask task func enabled clear running entry function =>
      obtain rfl := inv.running_eq running
      exact inv.store inv' clear rfl rfl (Or.inl rfl) (by decide) (by simp [enabled])
  | @enterNull task enabled clear running entry function =>
      obtain rfl := inv.running_eq running
      exact inv.store inv' clear rfl rfl (Or.inl rfl) (by decide) (by simp [enabled])
  | @returnTask task enabled clear running inside user =>
      obtain rfl := inv.running_eq running
      exact inv.store inv' clear rfl rfl (Or.inl rfl) (by decide) (by simp [enabled])
  | mutex enabled clear kind =>
      exact inv.frame inv' clear (fun _ => rfl) rfl rfl rfl (by simp [enabled])
  | create enabled clear running inside => exact inv.create inv' enabled clear rfl rfl

theorem step (inv : LifeInv s) {event : Event} (one : s.step event = some s') : LifeInv s' :=
  inv.fired (step_fired one)

/-- A task that is about to wait was RUNNING. -/
theorem running_of_delays (inv : LifeInv s) {ticks : Nat}
    (place : s.critical = some (.delayStatus ticks)) :
    s.kernel.status s.current = .running := by
  have fits := inv.points _ inv.currentLt
  rw [inv.delays ticks place] at fits
  refine fits.resolve_right fun waiting => ?_
  rcases inv.waiting waiting with pended | ⟨_, elsewhere⟩
  · exact nomatch (inv.masked (by simp [OnTheWay, place])).symm.trans pended
  · exact elsewhere ticks place

/-- **What an event does to a status.** Only a creation touches a slot that is INVALID, and only the
search of the handler makes one INVALID. -/
theorem changes (inv : LifeInv s) {event : Event} (one : Fired s event s') (id : Nat) :
    s'.kernel.status id = s.kernel.status id ∨
      StatusChange (s.kernel.status id) (s'.kernel.status id) ∧ s.kernel.status id ≠ .invalid ∧
        (s'.kernel.status id = .invalid → CallsHandler s event) ∨
      s.kernel.status id = .invalid ∧ s'.kernel.status id = .created ∧ given s event = [id] := by
  have ofHandled : Handled s.kernel s'.kernel → CallsHandler s event →
      s'.kernel.status id = s.kernel.status id ∨
        StatusChange (s.kernel.status id) (s'.kernel.status id) ∧ s.kernel.status id ≠ .invalid ∧
          (s'.kernel.status id = .invalid → CallsHandler s event) := by
    intro handled calls
    rcases handled.statuses id with kept | ⟨exited, _, cleared⟩ | ⟨waiting, running⟩
    · exact Or.inl kept
    · rw [exited, cleared]
      exact Or.inr ⟨.sweep, by decide, fun _ => calls⟩
    · rw [waiting, running]
      exact Or.inr ⟨.wake, by decide, fun _ => calls⟩
  have ofStore : ∀ {status : YosTaskStatus}, StatusChange (s.kernel.status s.current) status →
      status ≠ .invalid → (s.kernel.setStatus s.current status).status id = s.kernel.status id ∨
        StatusChange (s.kernel.status id) ((s.kernel.setStatus s.current status).status id) ∧
          s.kernel.status id ≠ .invalid ∧
          ((s.kernel.setStatus s.current status).status id = .invalid → CallsHandler s event) := by
    intro status arrow valid
    rw [Kernel.setStatus_status]
    split
    · rename_i here
      exact here ▸ Or.inr ⟨arrow, inv.alive, fun invalid => absurd invalid valid⟩
    · exact Or.inl rfl
  cases one with
  | sysTick enabled =>
      exact (ofHandled (sysTickHandler_handled _ inv.currentInside) (Or.inl rfl)).imp_right Or.inl
  | handler place =>
      exact (ofHandled (sysTickHandler_handled _ inv.currentInside)
        (Or.inr ⟨rfl, place⟩)).imp_right Or.inl
  | @pendSv tmpSp k enabled pended switched =>
      obtain ⟨next, pointer, _, _, _, _, _, statuses, _⟩ := pendSvSwitch_cases switched
      have pending := inv.pending pended
      obtain rfl : next = s.kernel.nextTaskId :=
        Option.some.inj (pointer.symm.trans pending.nextTask)
      show k.status id = _ ∨ StatusChange _ (k.status id) ∧ _ ∨ _
      rw [statuses]
      split
      · rename_i here
        rw [here]
        rcases pending.found.good_of_ne pending.away with created | running
        · rw [created]
          exact Or.inr (Or.inl ⟨.dispatch, by decide, fun other => nomatch other⟩)
        · exact Or.inl running.symm
      · exact Or.inl rfl
  | @delayStatus ticks task place running =>
      obtain rfl := inv.running_eq running
      have arrow : StatusChange (s.kernel.status s.current) .waiting := by
        rw [inv.running_of_delays place]
        exact .delay
      exact (ofStore arrow (by decide)).imp_right Or.inl
  | @delayTicks ticks task place running =>
      obtain rfl := inv.running_eq running
      exact Or.inl (Kernel.setTask_sameStatus _ _ id _ rfl)
  | @enterTask task func enabled clear running entry function =>
      obtain rfl := inv.running_eq running
      refine Or.inl ?_
      show (s.kernel.setStatus s.current _).status id = _
      rw [Kernel.setStatus_status]
      split
      · rename_i here
        rw [here, inv.entered entry]
      · rfl
  | @enterNull task enabled clear running entry function =>
      obtain rfl := inv.running_eq running
      exact absurd function (inv.functions _ inv.currentLt)
  | @returnTask task enabled clear running inside user =>
      obtain rfl := inv.running_eq running
      have arrow : StatusChange (s.kernel.status s.current) .exited := by
        rw [inv.running_of_body enabled clear inside]
        exact .exit
      exact (ofStore arrow (by decide)).imp_right Or.inl
  | @create task taskFunc data stackSize name enabled clear running inside =>
      exact (yosCreateTask_changes s.kernel inv.tail taskFunc data stackSize name id).imp_right
        Or.inr
  | scheduleFlag | enable | call | mutex => exact Or.inl rfl

/-- An event gives out the next id, or none. -/
theorem given_step (inv : LifeInv s) {event : Event} (one : Fired s event s') :
    given s event = [] ∧ s'.kernel.taskIdForNext = s.kernel.taskIdForNext ∨
      given s event = [s.kernel.taskIdForNext] ∧
        s'.kernel.taskIdForNext = s.kernel.taskIdForNext + 1 := by
  cases one with
  | sysTick enabled =>
      exact Or.inl ⟨rfl, (sysTickHandler_handled _ inv.currentInside).taskIdForNext⟩
  | handler place =>
      exact Or.inl ⟨rfl, (sysTickHandler_handled _ inv.currentInside).taskIdForNext⟩
  | pendSv enabled pended switched =>
      obtain ⟨_, _, _, _, count, _⟩ := pendSvSwitch_cases switched
      exact Or.inl ⟨rfl, count⟩
  | @create task taskFunc data stackSize name enabled clear running inside =>
      exact (newTask_yosCreateTask s.kernel taskFunc data stackSize name).imp_left
        fun ⟨out, same⟩ => ⟨out, congrArg Kernel.taskIdForNext same⟩
  | mutex enabled clear kind =>
      rcases kind with rfl | rfl | rfl <;> exact Or.inl ⟨rfl, rfl⟩
  | delayStatus | delayTicks | scheduleFlag | enable | call | enterTask | enterNull | returnTask =>
      exact Or.inl ⟨rfl, rfl⟩

/-- An EXITED slot is swept by the searches that go past it and by nothing else. -/
theorem exited (inv : LifeInv s) {event : Event} (one : s.step event = some s') {id : Nat}
    (slot : id < yosMaxTaskCount) (exited : s.kernel.status id = .exited) :
    s'.kernel.status id = .exited ∧ ¬ Passes s event id ∨
      s'.kernel.status id = .invalid ∧ Passes s event id := by
  by_cases calls : CallsHandler s event
  · have swept := sysTickHandler_exited s.kernel inv.currentInside slot exited
    rw [← kernel_of_callsHandler one calls] at swept
    by_cases near : gap yosMaxTaskCount s.current id <
        gap yosMaxTaskCount s.current s'.kernel.nextTaskId
    · rw [if_pos near] at swept
      rw [kernel_of_callsHandler one calls] at near
      exact Or.inr ⟨swept, calls, near⟩
    · rw [if_neg near] at swept
      rw [kernel_of_callsHandler one calls] at near
      exact Or.inl ⟨swept, fun passes => near passes.2⟩
  · refine Or.inl ⟨?_, fun passes => calls passes.1⟩
    rcases inv.changes (step_fired one) id with kept | ⟨arrow, _, sweeps⟩ | ⟨invalid, _⟩
    · exact kept.trans exited
    · rw [exited] at arrow
      generalize after : s'.kernel.status id = status at arrow sweeps
      cases arrow
      exact absurd (sweeps rfl) calls
    · exact nomatch exited.symm.trans invalid

end LifeInv

end YosStm32
