/-
**Concurrent `yos_create_task`.**

Two calls that both read `task_id_for_next` before either has counted it up fill one slot and return one
id; two that both read `stack_bp_for_next_task` before either has moved it share a stack. `Separate`
excludes that. The table then stays laid out (`Laid`) for the calls that have counted up, with the
pointer for the next stack one call late while that call has not moved it, and a call that holds the
next id is filling the slot behind them (`Building`).
-/

import Mathlib.Data.List.Nodup
import YosStm32.Kernel.CreateSteps

namespace YosStm32

open Lib Mutex

/-! ### The processor -/

/-- The task that runs is in the table, and so is the one that PendSV would switch to. -/
structure Grounded (k : Kernel) : Prop where
  current : k.currentTaskId < yosMaxTaskCount
  running : ∀ task, k.currentTask = some task → task < yosMaxTaskCount
  next : k.pendsv = true →
    k.nextTaskId < yosMaxTaskCount ∧ ∀ task, k.nextTask = some task → task < yosMaxTaskCount

theorem KernelInv.grounded {k : Kernel} (inv : KernelInv k) : Grounded k := by
  refine ⟨inv.currentInside, fun task running => ?_, fun pended => ?_⟩
  · obtain rfl := Option.some.inj (inv.currentTask.symm.trans running)
    exact inv.currentInside
  · have inside := Nat.lt_of_lt_of_le (inv.next_lt pended) inv.count
    refine ⟨inside, fun task next => ?_⟩
    obtain rfl := Option.some.inj ((inv.pending pended).nextTask.symm.trans next)
    exact inside

theorem Grounded.handler {k : Kernel} (grounded : Grounded k) : Grounded (sysTickHandler k).2 := by
  have handled := sysTickHandler_handled k grounded.current
  refine ⟨?_, ?_, fun pended => ⟨handled.found.inside, fun task next => ?_⟩⟩
  · rw [handled.currentTaskId]
    exact grounded.current
  · rw [handled.currentTask]
    exact grounded.running
  · rcases handled.outcome with ⟨_, clear, same⟩ | ⟨_, _, same⟩
    · rw [same] at next
      exact (grounded.next (clear ▸ pended)).2 task next
    · obtain rfl := Option.some.inj (same.symm.trans next)
      exact handled.found.inside

theorem Grounded.fired {s s' : Sys} (grounded : Grounded s.kernel) {event : Event}
    (one : Fired s event s') : Grounded s'.kernel := by
  cases one with
  | sysTick | handler => exact grounded.handler
  | @pendSv tmpSp k enabled pended switched =>
      obtain ⟨next, pointer, running, current, _, _, clear, _⟩ := pendSvSwitch_cases switched
      obtain ⟨inside, points⟩ := grounded.next pended
      refine ⟨current ▸ inside, fun task here => ?_, fun again => ?_⟩
      · obtain rfl := Option.some.inj (running.symm.trans here)
        exact points _ pointer
      · rw [clear] at again
        cases again
  | @create task taskFunc data stackSize name =>
      rcases yosCreateTask_cases s.kernel taskFunc data stackSize name with
        refused | ⟨_, _, _, _, _, made⟩
      · rw [refused]
        exact grounded
      · rw [made]
        exact ⟨grounded.current, grounded.running, grounded.next⟩
  | delayStatus | delayTicks | scheduleFlag | enable | call | enterTask | enterNull | returnTask
  | mutex => exact ⟨grounded.current, grounded.running, grounded.next⟩

/-! ### Calls that keep apart -/

/-- Another task's call is at such a point. -/
def Elsewhere (s : CreationSys) (task : Nat) (point : CreationPoint → Bool) : Prop :=
  ∃ other, other < yosMaxTaskCount ∧ other ≠ task ∧ ∃ c ∈ s.calls other, point c.point = true

instance (s : CreationSys) (task : Nat) (point : CreationPoint → Bool) :
    Decidable (Elsewhere s task point) :=
  inferInstanceAs (Decidable (∃ other, other < yosMaxTaskCount ∧ other ≠ task ∧
    ∃ c ∈ s.calls other, point c.point = true))

/-- The calls do not get in each other's way: none reads `task_id_for_next` while another one holds it,
or when the last slot has just been taken, and none reads `stack_bp_for_next_task` while another one
holds that. -/
def Separate (s : CreationSys) : CreationEvent → Prop
  | .statement =>
      ∀ task ∈ s.thread, ∀ c ∈ s.calls task,
        (c.point = .readId → s.sys.kernel.taskIdForNext < yosMaxTaskCount ∧
          ¬ Elsewhere s task CreationPoint.holdsId) ∧
        (c.point = .bp → ¬ Elsewhere s task CreationPoint.holdsBp)
  | _ => True

instance (s : CreationSys) : ∀ event, Decidable (Separate s event)
  | .statement =>
      inferInstanceAs (Decidable (∀ task ∈ s.thread, ∀ c ∈ s.calls task,
        (c.point = .readId → s.sys.kernel.taskIdForNext < yosMaxTaskCount ∧
          ¬ Elsewhere s task CreationPoint.holdsId) ∧
        (c.point = .bp → ¬ Elsewhere s task CreationPoint.holdsBp)))
  | .sys _ | .begin _ => isTrue trivial

/-- The call has counted up and has not returned. -/
def CreationPoint.owns : CreationPoint → Bool
  | .moveBp | .leave => true
  | _ => false

/-- Two calls keep apart. -/
structure Creation.Apart (c other : Creation) : Prop where
  ids : ¬ (c.point.holdsId = true ∧ other.point.holdsId = true)
  bps : ¬ (c.point.holdsBp = true ∧ other.point.holdsBp = true)
  slots : c.point.owns = true → other.point.owns = true → c.taskId ≠ other.taskId

theorem Creation.Apart.symm {c other : Creation} (apart : c.Apart other) : other.Apart c :=
  ⟨fun both => apart.ids both.symm, fun both => apart.bps both.symm,
    fun mine its => (apart.slots its mine).symm⟩

/-- Where a call stands: `slots` are the calls that have counted up, `bp` is where the next stack will
begin when all of these have moved the pointer, `returned` are the calls that have ended. -/
structure Creation.Ok (c : Creation) (k : Kernel) (slots : List CreateArgs) (bp base : Nat)
    (returned : List (CreateCall × Nat)) : Prop where
  filling : c.point.holdsId = true → c.taskId = slots.length ∧ slots.length < yosMaxTaskCount ∧
    Filled (c.finish (k.allTasks c.taskId)) c.taskId c.args.toCreateArgs
  stack : c.point.holdsId = true → c.point.holdsBp = true → (k.allTasks c.taskId).bp = bp
  moving : c.point = .moveBp → bp = wrapSub k.stackBpForNextTask c.args.stackSize
  owner : c.point.owns = true → slots[c.taskId]? = some c.args.toCreateArgs ∧ base ≤ c.taskId ∧
    c.taskId ∉ returned.map Prod.snd

/-- The calls that have ended have a slot each. -/
structure Returned (slots : List CreateArgs) (base : Nat) (returned : List (CreateCall × Nat)) :
    Prop where
  distinct : (returned.map Prod.snd).Nodup
  filled : ∀ made ∈ returned, base ≤ made.2 ∧ slots[made.2]? = some made.1.toCreateArgs

/-- **The invariant.** -/
structure Building (s : CreationSys) (slots : List CreateArgs) (bp base : Nat)
    (returned : List (CreateCall × Nat)) : Prop where
  grounded : Grounded s.sys.kernel
  laid : Laid { s.sys.kernel with stackBpForNextTask := bp } slots
  settled : (∀ task c, s.calls task = some c → c.point ≠ .moveBp) →
    s.sys.kernel.stackBpForNextTask = bp
  inside : ∀ task c, s.calls task = some c → task < yosMaxTaskCount
  calls : ∀ task c, s.calls task = some c → c.Ok s.sys.kernel slots bp base returned
  apart : ∀ task other c c', s.calls task = some c → s.calls other = some c' → task ≠ other →
    c.Apart c'
  returned : Returned slots base returned
  later : base ≤ slots.length

/-! ### The other steps -/

/-- The stores of a call to the fixed fields only read these. -/
theorem Creation.finish_fixed (c : Creation) {task task' : YosTask} (same : task'.fixed = task.fixed) :
    (c.finish task').fixed = (c.finish task).fixed := by
  simp only [YosTask.fixed, Prod.mk.injEq] at same
  obtain ⟨taskFunc, data, bp, stackSize, name⟩ := same
  rcases c with ⟨args, taskId, point⟩
  cases point <;>
    simp only [Creation.finish, YosTask.fixed, Creation.named, taskFunc, data, bp, stackSize, name]

section Steps

variable {s : CreationSys} {slots : List CreateArgs} {bp base : Nat}
  {returned : List (CreateCall × Nat)}

/-- **Anything but a creation.** -/
theorem Building.other (building : Building s slots bp base returned) {sys : Sys}
    (grounded : Grounded sys.kernel) (same : SameSlots s.sys.kernel sys.kernel) :
    Building { s with sys := sys } slots bp base returned := by
  refine ⟨grounded, building.laid.sameSlots ⟨same.count, rfl, same.fixed⟩, fun still => ?_,
    building.inside, fun task c call => ?_, building.apart, building.returned, building.later⟩
  · exact same.next.trans (building.settled still)
  · obtain ⟨filling, stack, moving, owner⟩ := building.calls task c call
    refine ⟨fun holds => ?_, fun holds late => ?_, fun place => ?_, owner⟩
    · obtain ⟨id, room, filled⟩ := filling holds
      exact ⟨id, room, filled.of_fixed (c.finish_fixed (same.fixed c.taskId))⟩
    · have place := congrArg (fun fields => fields.2.2.1) (same.fixed c.taskId)
      exact place.trans (stack holds late)
    · rw [same.next]
      exact moving place

/-- **A call goes on**: what it does must leave the other calls right, and be right for itself. -/
theorem Building.goesOn (building : Building s slots bp base returned) {task : Nat} {k : Kernel}
    {own : Option Creation} {slots' : List CreateArgs} {bp' : Nat}
    {returned' : List (CreateCall × Nat)} (inside : task < yosMaxTaskCount) (grounded : Grounded k)
    (laid : Laid { k with stackBpForNextTask := bp' } slots')
    (settled : (∀ other c, other ≠ task → s.calls other = some c → c.point ≠ .moveBp) →
      (∀ c, own = some c → c.point ≠ .moveBp) → k.stackBpForNextTask = bp')
    (others : ∀ other c, other ≠ task → s.calls other = some c → c.Ok k slots' bp' base returned')
    (sound : ∀ c, own = some c → c.Ok k slots' bp' base returned')
    (apart : ∀ c, own = some c → ∀ other c', other ≠ task → s.calls other = some c' → c.Apart c')
    (ended : Returned slots' base returned') (later : base ≤ slots'.length) :
    Building { s with
        sys := { s.sys with kernel := k }
        calls := Function.update s.calls task own } slots' bp' base returned' := by
  have callOf : ∀ {other c}, Function.update s.calls task own other = some c →
      other = task ∧ own = some c ∨ other ≠ task ∧ s.calls other = some c := by
    intro other c call
    by_cases mine : other = task
    · rw [mine, Function.update_self] at call
      exact Or.inl ⟨mine, call⟩
    · rw [Function.update_of_ne mine] at call
      exact Or.inr ⟨mine, call⟩
  refine ⟨grounded, laid, fun still => settled (fun other c away call => still other c ?_)
    (fun c call => still task c ?_), fun other c call => ?_, fun other c call => ?_,
    fun first second c c' call call' differ => ?_, ended, later⟩
  · exact (Function.update_of_ne away _ _).trans call
  · exact (Function.update_self ..).trans call
  · rcases callOf call with ⟨rfl, -⟩ | ⟨-, its⟩
    · exact inside
    · exact building.inside other c its
  · rcases callOf call with ⟨-, mine⟩ | ⟨away, its⟩
    · exact sound c mine
    · exact others other c away its
  · rcases callOf call with ⟨rfl, mine⟩ | ⟨away, its⟩
    · rcases callOf call' with ⟨rfl, -⟩ | ⟨away, its⟩
      · exact absurd rfl differ
      · exact apart c mine second c' away its
    · rcases callOf call' with ⟨rfl, mine⟩ | ⟨-, its'⟩
      · exact (apart c' mine first c away its).symm
      · exact building.apart first second c c' its its' differ

/-- A call that holds nothing yet. -/
def CreationPoint.early : CreationPoint → Bool
  | .check | .readId => true
  | _ => false

theorem CreationPoint.early_holds {point : CreationPoint} (early : point.early = true) :
    point.holdsId = false ∧ point.holdsBp = false ∧ point.owns = false ∧ point ≠ .moveBp := by
  cases point with
  | check | readId => exact ⟨rfl, rfl, rfl, by simp⟩
  | _ => cases early

/-- A call begins, passes its tests, or is refused. -/
theorem Building.looks (building : Building s slots bp base returned) {task : Nat}
    (inside : task < yosMaxTaskCount) {own : Option Creation} (early : ∀ c, own = some c → c.point.early = true)
    (before : ∀ c, s.calls task = some c → c.point.early = true) :
    Building { s with calls := Function.update s.calls task own } slots bp base returned := by
  refine building.goesOn (k := s.sys.kernel) inside building.grounded building.laid (fun still _ => ?_)
    (fun other c _ call => building.calls other c call) (fun c mine => ?_)
    (fun c mine other c' _ _ => ?_) building.returned building.later
  · refine building.settled fun other c call => ?_
    by_cases mine : other = task
    · exact (CreationPoint.early_holds (before c (mine ▸ call))).2.2.2
    · exact still other c mine call
  · obtain ⟨noId, noBp, noSlot, notMoving⟩ := CreationPoint.early_holds (early c mine)
    exact ⟨by simp [noId], by simp [noId], fun moving => absurd moving notMoving, by simp [noSlot]⟩
  · obtain ⟨noId, noBp, noSlot, -⟩ := CreationPoint.early_holds (early c mine)
    exact ⟨by simp [noId], by simp [noBp], by simp [noSlot]⟩

/-- The pointer is settled when the only call that may be moving it is not. -/
theorem Building.settled_of (building : Building s slots bp base returned) {task : Nat} {c : Creation}
    (call : s.calls task = some c) (mine : c.point ≠ .moveBp)
    (still : ∀ other c, other ≠ task → s.calls other = some c → c.point ≠ .moveBp) :
    s.sys.kernel.stackBpForNextTask = bp := by
  refine building.settled fun other c' call' => ?_
  by_cases same : other = task
  · subst same
    rw [call, Option.some.injEq] at call'
    exact call' ▸ mine
  · exact still other c' same call'

/-- No other call is at a point that this one's point excludes. -/
theorem Building.others_apart (building : Building s slots bp base returned) {task : Nat}
    {c : Creation} (call : s.calls task = some c) {other : Nat} {c' : Creation} (away : other ≠ task)
    (call' : s.calls other = some c') : c.Apart c' :=
  building.apart task other c c' call call' away.symm

/-- **The call reads the next id.** -/
theorem Building.readId (building : Building s slots bp base returned) {task : Nat} {c : Creation}
    (call : s.calls task = some c) (place : c.point = .readId)
    (room : s.sys.kernel.taskIdForNext < yosMaxTaskCount)
    (alone : ¬ Elsewhere s task CreationPoint.holdsId) :
    Building { s with
        calls := Function.update s.calls task
          (some { c with taskId := s.sys.kernel.taskIdForNext, point := .taskFunc }) }
      slots bp base returned := by
  have count : s.sys.kernel.taskIdForNext = slots.length := building.laid.count
  have names : (s.sys.kernel.allTasks s.sys.kernel.taskIdForNext).name.length =
      yosTaskNameMaxLength := building.laid.names _
  refine building.goesOn (k := s.sys.kernel) (building.inside task c call) building.grounded building.laid
    (fun still _ => ?_)
    (fun other c' _ its => building.calls other c' its) (fun c' mine => ?_)
    (fun c' mine other c'' away its => ?_) building.returned building.later
  · exact building.settled_of call (by simp [place]) still
  · cases mine
    refine ⟨fun _ => ⟨count, count ▸ room, rfl, rfl, rfl, ?_⟩, fun _ late => (by cases late),
      fun moving => (by cases moving), fun owns => (by cases owns)⟩
    exact (namedField _ c.args.typed.name names).2
  · cases mine
    refine ⟨fun both => alone ⟨other, building.inside other c'' its, away, c'', its, both.2⟩,
      fun both => ?_, fun owns => ?_⟩
    · exact Bool.false_ne_true both.1
    · exact absurd owns Bool.false_ne_true

theorem CreationPoint.holdsId_not_owns {point : CreationPoint} (holds : point.holdsId = true) :
    point.owns = false ∧ point ≠ .moveBp := by
  cases point with
  | check | readId | moveBp | leave => cases holds
  | _ => exact ⟨rfl, by simp⟩

/-- **The call fills its slot.** -/
theorem Building.fills (building : Building s slots bp base returned) {task : Nat} {c : Creation}
    (call : s.calls task = some c) (holds : c.point.holdsId = true) {slot : YosTask}
    {next : CreationPoint} (holds' : next.holdsId = true)
    (size : slot.name.length = yosTaskNameMaxLength)
    (filled : Filled ({ c with point := next }.finish slot) c.taskId c.args.toCreateArgs)
    (stack : next.holdsBp = true → slot.bp = bp)
    (alone : next.holdsBp = true → ¬ Elsewhere s task CreationPoint.holdsBp) :
    Building { s with
        sys := { s.sys with kernel := s.sys.kernel.setTask c.taskId slot }
        calls := Function.update s.calls task (some { c with point := next }) }
      slots bp base returned := by
  obtain ⟨id, room, -⟩ := (building.calls task c call).filling holds
  obtain ⟨notOwner, notMoving⟩ := CreationPoint.holdsId_not_owns holds'
  have laid := building.laid
  refine building.goesOn (building.inside task c call)
    ⟨building.grounded.current, building.grounded.running, building.grounded.next⟩ ?_ (fun still _ => ?_)
    (fun other c' away its => ?_) (fun c' mine => ?_) (fun c' mine other c'' away its => ?_)
    building.returned building.later
  · have kept : ∀ other, other < slots.length →
        Function.update s.sys.kernel.allTasks c.taskId slot other = s.sys.kernel.allTasks other :=
      fun other below => Function.update_of_ne (by omega) _ _
    refine ⟨laid.count, laid.room, laid.sizes, laid.next, fun other => ?_, fun other args here => ?_,
      fun other below => ?_⟩
    · show (Function.update s.sys.kernel.allTasks c.taskId slot other).name.length = _
      rw [Function.update_apply]
      split_ifs
      · exact size
      · exact laid.names other
    · show Filled (Function.update s.sys.kernel.allTasks c.taskId slot other) other args
      rw [kept other (List.getElem?_eq_some_iff.mp here).1]
      exact laid.filled other args here
    · show (Function.update s.sys.kernel.allTasks c.taskId slot other).bp + _ = _
      rw [kept other below]
      exact laid.bp other below
  · exact building.settled_of call (CreationPoint.holdsId_not_owns holds).2 still
  · have free : ¬ c'.point.holdsId = true :=
      fun both => (building.others_apart call away its).ids ⟨holds, both⟩
    have ok := building.calls other c' its
    exact ⟨fun both => absurd both free, fun both => absurd both free, ok.moving, ok.owner⟩
  · cases mine
    refine ⟨fun _ => ⟨id, room, ?_⟩, fun _ late => ?_, fun moving => absurd moving notMoving,
      fun owns => absurd (notOwner.symm.trans owns) Bool.false_ne_true⟩
    · rw [Kernel.setTask_allTasks, Function.update_self]
      exact filled
    · rw [Kernel.setTask_allTasks, Function.update_self]
      exact stack late
  · cases mine
    refine ⟨fun both => ?_, fun both => ?_, fun owns => ?_⟩
    · exact (building.others_apart call away its).ids ⟨holds, both.2⟩
    · exact alone both.1 ⟨other, building.inside other c'' its, away, c'', its, both.2⟩
    · exact absurd (notOwner.symm.trans owns) Bool.false_ne_true

/-- A slot that a call has counted up stays its own when another one is added. -/
theorem getElem?_counted {slots : List CreateArgs} {id : Nat} {call added : CreateArgs}
    (here : slots[id]? = some call) : (slots ++ [added])[id]? = some call :=
  (List.getElem?_append_left (List.getElem?_eq_some_iff.mp here).1).trans here

/-- **The call counts the id up.** -/
theorem Building.countUp (building : Building s slots bp base returned) {task : Nat} {c : Creation}
    (call : s.calls task = some c) (place : c.point = .countUp) :
    Building { s with
        sys := { s.sys with
          kernel := { s.sys.kernel with taskIdForNext := s.sys.kernel.taskIdForNext + 1 } }
        calls := Function.update s.calls task (some { c with point := .moveBp }) }
      (slots ++ [c.args.toCreateArgs]) (wrapSub bp c.args.stackSize) base returned := by
  have holds : c.point.holdsId = true := by rw [place]; rfl
  have late : c.point.holdsBp = true := by rw [place]; rfl
  obtain ⟨filling, stack, -, -⟩ := building.calls task c call
  obtain ⟨id, room, filled⟩ := filling holds
  have here := stack holds late
  have laid := building.laid
  rw [Creation.finish, place] at filled
  rw [id] at filled here
  have still (other : Nat) (c' : Creation) (away : other ≠ task) (its : s.calls other = some c') :
      ¬ c'.point.holdsId = true ∧ ¬ c'.point.holdsBp = true :=
    have apart := building.others_apart call away its
    ⟨fun both => apart.ids ⟨holds, both⟩, fun both => apart.bps ⟨late, both⟩⟩
  refine building.goesOn (building.inside task c call)
    ⟨building.grounded.current, building.grounded.running, building.grounded.next⟩ ?_ (fun _ moved => ?_)
    (fun other c' away its => ?_) (fun c' mine => ?_) (fun c' mine other c'' away its => ?_) ?_ ?_
  · exact laid.append c.args.typed.stackSize room rfl rfl (fun _ _ => rfl) here (laid.names _) filled
  · exact absurd rfl (moved _ rfl)
  · obtain ⟨noId, noBp⟩ := still other c' away its
    refine ⟨fun both => absurd both noId, fun both => absurd both noId, fun moving => ?_, fun owns => ?_⟩
    · exact absurd (by rw [moving]; rfl) noBp
    · obtain ⟨slot, rest⟩ := (building.calls other c' its).owner owns
      exact ⟨getElem?_counted slot, rest⟩
  · cases mine
    refine ⟨fun both => (by cases both), fun both => (by cases both), fun _ => ?_, fun _ => ?_⟩
    · have settled := building.settled_of call (by simp [place]) fun other c' away its moving =>
        (still other c' away its).2 (by rw [moving]; rfl)
      rw [settled]
    · refine ⟨?_, id ▸ building.later, fun member => ?_⟩
      · rw [id]
        exact List.getElem?_concat_length
      · obtain ⟨made, inReturned, same⟩ := List.mem_map.mp member
        have slot := (building.returned.filled made inReturned).2
        have below := (List.getElem?_eq_some_iff.mp slot).1
        dsimp only at same
        omega
  · cases mine
    obtain ⟨noId, noBp⟩ := still other c'' away its
    refine ⟨fun both => noId both.2, fun both => noBp both.2, fun _ owns same => ?_⟩
    have slot := ((building.calls other c'' its).owner owns).1
    have below := (List.getElem?_eq_some_iff.mp slot).1
    dsimp only at same
    omega
  · obtain ⟨distinct, filled⟩ := building.returned
    refine ⟨distinct, fun made member => ?_⟩
    exact ⟨(filled made member).1, getElem?_counted (filled made member).2⟩
  · rw [List.length_append]
    exact Nat.le_add_right_of_le building.later

/-- **The call moves the pointer for the next stack.** -/
theorem Building.moveBp (building : Building s slots bp base returned) {task : Nat} {c : Creation}
    (call : s.calls task = some c) (place : c.point = .moveBp) :
    Building { s with
        sys := { s.sys with
          kernel := { s.sys.kernel with
            stackBpForNextTask := wrapSub s.sys.kernel.stackBpForNextTask c.args.stackSize } }
        calls := Function.update s.calls task (some { c with point := .leave }) }
      slots bp base returned := by
  have late : c.point.holdsBp = true := by rw [place]; rfl
  have owns : c.point.owns = true := by rw [place]; rfl
  have ok := building.calls task c call
  refine building.goesOn (building.inside task c call)
    ⟨building.grounded.current, building.grounded.running, building.grounded.next⟩ building.laid
    (fun _ _ => (ok.moving place).symm) (fun other c' away its => ?_) (fun c' mine => ?_)
    (fun c' mine other c'' away its => ?_) building.returned building.later
  · have noBp : ¬ c'.point.holdsBp = true :=
      fun both => (building.others_apart call away its).bps ⟨late, both⟩
    obtain ⟨filling, stack, -, owner⟩ := building.calls other c' its
    exact ⟨filling, stack, fun moving => absurd (by rw [moving]; rfl) noBp, owner⟩
  · cases mine
    exact ⟨fun both => (by cases both), fun both => (by cases both), fun moving => (by cases moving),
      fun _ => ok.owner owns⟩
  · cases mine
    have apart := building.others_apart call away its
    exact ⟨fun both => Bool.false_ne_true both.1, fun both => Bool.false_ne_true both.1,
      fun _ its => apart.slots owns its⟩

/-- **The call returns its id.** -/
theorem Building.leave (building : Building s slots bp base returned) {task : Nat} {c : Creation}
    (call : s.calls task = some c) (place : c.point = .leave) :
    Building { s with calls := Function.update s.calls task none } slots bp base
      (returned ++ [(c.args, c.taskId)]) := by
  have owns : c.point.owns = true := by rw [place]; rfl
  obtain ⟨slot, later, new⟩ := (building.calls task c call).owner owns
  refine building.goesOn (k := s.sys.kernel) (building.inside task c call) building.grounded building.laid
    (fun still _ => ?_)
    (fun other c' away its => ?_) (fun c' mine => by cases mine) (fun c' mine => by cases mine)
    ⟨?_, fun made member => ?_⟩ building.later
  · exact building.settled_of call (by simp [place]) still
  · obtain ⟨filling, stack, moving, owner⟩ := building.calls other c' its
    refine ⟨filling, stack, moving, fun its' => ?_⟩
    obtain ⟨slot, later, new⟩ := owner its'
    refine ⟨slot, later, fun member => ?_⟩
    rw [List.map_append, List.map_singleton, List.mem_append, List.mem_singleton] at member
    rcases member with before | same
    · exact new before
    · exact (building.others_apart call away its).slots owns its' same.symm
  · rw [List.map_append, List.map_singleton]
    refine List.nodup_append.mpr ⟨building.returned.distinct, List.nodup_singleton _, ?_⟩
    intro id before last same same'
    obtain rfl : id = c.taskId := same'.trans (List.mem_singleton.mp same)
    exact new before
  · rcases List.mem_append.mp member with before | last
    · exact building.returned.filled made before
    · rw [List.mem_singleton.mp last]
      exact ⟨later, slot⟩

/-- **A statement of a call.** -/
theorem Building.statement (building : Building s slots bp base returned) {task : Nat} {c : Creation}
    (call : s.calls task = some c)
    (reads : c.point = .readId → s.sys.kernel.taskIdForNext < yosMaxTaskCount ∧
      ¬ Elsewhere s task CreationPoint.holdsId)
    (takes : c.point = .bp → ¬ Elsewhere s task CreationPoint.holdsBp)
    {k : Kernel} {next : Creation ⊕ Int} (one : CreationFor s.sys.kernel c (k, next)) :
    ∃ slots' bp', Building { s with
        sys := { s.sys with kernel := k }
        calls := Function.update s.calls task next.getLeft? }
      slots' bp' base (returned ++ c.given) := by
  have stays (elsewhere : c.point ≠ .leave) : returned ++ c.given = returned := by
    rw [Creation.given, if_neg elsewhere, List.append_nil]
  have early (place : c.point.early = true) (c' : Creation) (its : s.calls task = some c') :
      c'.point.early = true := by
    rw [call, Option.some.injEq] at its
    exact its ▸ place
  cases one with
  | refuse place =>
      rw [stays (by simp [place])]
      exact ⟨slots, bp, building.looks (building.inside task c call) (fun _ mine => (by cases mine))
        (early (by rw [place]; rfl))⟩
  | pass place =>
      rw [stays (by simp [place])]
      exact ⟨slots, bp, building.looks (building.inside task c call)
        (fun _ mine => (by cases mine; rfl)) (early (by rw [place]; rfl))⟩
  | readId place =>
      rw [stays (by simp [place])]
      exact ⟨slots, bp, building.readId call place (reads place).1 (reads place).2⟩
  | bp place =>
      rw [stays (by simp [place])]
      have holds : c.point.holdsId = true := by rw [place]; rfl
      obtain ⟨id, room, filled⟩ := (building.calls task c call).filling holds
      rw [Creation.finish, place] at filled
      refine ⟨slots, bp, building.fills call holds rfl (building.laid.names _)
        ⟨filled.taskFunc, filled.data, filled.stackSize, filled.name⟩ (fun _ => ?_)
        fun _ => takes place⟩
      refine building.settled_of call (by simp [place]) fun other c' away its moving => ?_
      exact takes place ⟨other, building.inside other c' its, away, c', its, by rw [moving]; rfl⟩
  | store holds holds' late kept size finish =>
      have notLeaving : c.point ≠ .leave := by
        intro place
        rw [place] at holds
        cases holds
      rw [stays notLeaving]
      obtain ⟨filling, stack, -⟩ := building.calls task c call
      obtain ⟨-, -, filled⟩ := filling holds
      refine ⟨slots, bp, building.fills call holds holds' (size (building.laid.names _))
        (finish _ _ filled) (fun both => ?_) fun both => ?_⟩
      · rw [kept]
        exact stack holds (late ▸ both)
      · rintro ⟨other, -, away, c', its, both'⟩
        exact (building.others_apart call away its).bps ⟨late ▸ both, both'⟩
  | countUp place =>
      rw [stays (by simp [place])]
      exact ⟨_, _, building.countUp call place⟩
  | moveBp place =>
      rw [stays (by simp [place])]
      exact ⟨slots, bp, building.moveBp call place⟩
  | leave place =>
      rw [Creation.given, if_pos place]
      exact ⟨slots, bp, building.leave call place⟩

theorem CreationSys.thread_current {task : Nat} (running : s.thread = some task) :
    s.sys.kernel.currentTask = some task := by
  rw [CreationSys.thread] at running
  split_ifs at running
  exact running

/-- What a step outside the calls is. -/
theorem CreationSys.step_sys {event : Event} {s' : CreationSys}
    (one : s.step (.sys event) = some s') :
    (∀ taskFunc data stackSize name, event ≠ .create taskFunc data stackSize name) ∧
      ∃ sys, s.sys.step event = some sys ∧ s' = { s with sys := sys } := by
  cases event with
  | create => cases one
  | _ =>
      simp only [CreationSys.step, Option.ite_none_right_eq_some, Option.map_eq_some_iff] at one
      obtain ⟨-, sys, fired, rfl⟩ := one
      exact ⟨by simp, sys, fired, rfl⟩

/-- **One step.** -/
theorem Building.step (building : Building s slots bp base returned) {event : CreationEvent}
    {s' : CreationSys} (separate : Separate s event) (one : s.step event = some s') :
    ∃ slots' bp', Building s' slots' bp' base (returned ++ s.given event) := by
  cases event with
  | sys event =>
      obtain ⟨other, sys, fired, rfl⟩ := CreationSys.step_sys one
      have fired := step_fired fired
      show ∃ slots' bp', Building _ slots' bp' base (returned ++ [])
      rw [List.append_nil]
      refine ⟨slots, bp, building.other (building.grounded.fired fired) ?_⟩
      rcases fired_sameSlots building.grounded.current fired with ⟨same, -⟩ | ⟨_, _, _, _, rfl, -⟩
      · exact same
      · exact absurd rfl (other _ _ _ _)
  | begin args =>
      obtain ⟨task, running, begun⟩ := Option.bind_eq_some_iff.mp one
      rw [Option.ite_none_right_eq_some] at begun
      obtain ⟨⟨-, idle⟩, begun⟩ := begun
      obtain rfl := Option.some.inj begun
      show ∃ slots' bp', Building _ slots' bp' base (returned ++ [])
      rw [List.append_nil]
      refine ⟨slots, bp, building.looks
        (building.grounded.running task (CreationSys.thread_current running))
        (fun c mine => (by cases mine; rfl)) fun c its => ?_⟩
      rw [its] at idle
      cases idle
  | statement =>
      obtain ⟨task, running, goesOn⟩ := Option.bind_eq_some_iff.mp one
      obtain ⟨c, call, rfl⟩ := Option.map_eq_some_iff.mp goesOn
      obtain ⟨reads, takes⟩ := separate task running c call
      have given : s.given .statement = c.given := by
        rw [CreationSys.given, running, Option.bind_some, call, Option.elim_some]
      rw [given]
      exact building.statement call reads takes (creationStatement_for s.sys.kernel c)

end Steps

/-- **Concurrent creation**, in every run after `yos_start` whose calls keep apart. The calls that return
an id return different ones, all new; each slot has the function, the data, the stack size and the name
of its call, and no two stacks have an address in common. -/
theorem yosCreateTask_concurrent {image : Image} {mem : WordMemory} {before : List LifeEvent}
    {sys : Sys} (typed : ∀ call ∈ creations before, call.Typed)
    (boot : runEvents Life.step (Life.init image mem) before = some (.running sys))
    {events : List CreationEvent} {last : CreationSys}
    (separate : EachStep CreationSys.step Separate ⟨sys, fun _ => none⟩ events)
    (run : runEvents CreationSys.step ⟨sys, fun _ => none⟩ events = some last) :
    let returned := emitted CreationSys.step CreationSys.given ⟨sys, fun _ => none⟩ events
    let k := last.sys.kernel
    (returned.map Prod.snd).Nodup ∧
    (∀ made ∈ returned, sys.kernel.taskIdForNext ≤ made.2 ∧ made.2 < k.taskIdForNext ∧
      Filled (k.allTasks made.2) made.2 made.1.toCreateArgs) ∧
    k.taskIdForNext ≤ yosMaxTaskCount ∧
    ∀ i j, i < k.taskIdForNext → j < k.taskIdForNext → i ≠ j →
      StacksApart (k.allTasks i) (k.allTasks j) := by
  intro returned k
  have inv : LifeInv sys := (Life.Ok.init image mem).run boot
  have laid : Laid sys.kernel (accepted image (creations before)) := Life.laid_init_run typed boot
  have count := laid.count
  have start : Building ⟨sys, fun _ => none⟩ (accepted image (creations before))
      sys.kernel.stackBpForNextTask sys.kernel.taskIdForNext [] :=
    ⟨inv.toKernelInv.grounded, laid, fun _ => rfl, fun _ _ call => (by cases call),
      fun _ _ call => (by cases call), fun _ _ _ _ call => (by cases call),
      ⟨List.nodup_nil, fun _ member => (by cases member)⟩, Nat.le_of_eq count⟩
  obtain ⟨slots, bp, final⟩ := emitted_invariant
    (fun s past => ∃ slots bp, Building s slots bp sys.kernel.taskIdForNext past)
    (fun _ _ _ _ ⟨_, _, building⟩ separate one => building.step separate one)
    ⟨_, _, start⟩ separate run
  have count : k.taskIdForNext = slots.length := final.laid.count
  refine ⟨final.returned.distinct, fun made member => ?_, count ▸ final.laid.room,
    fun i j inside below other => ?_⟩
  · obtain ⟨later, slot⟩ := final.returned.filled made member
    refine ⟨later, ?_, final.laid.filled _ _ slot⟩
    rw [count]
    exact (List.getElem?_eq_some_iff.mp slot).1
  · rw [count] at inside below
    exact final.laid.apart inside below other

/-! ### Two tasks -/

/-- A task gives the processor up. -/
def sampleYield : List Event := [.call .schedule, .exec, .exec, .exec, .pendSv 0x20004000]

/-- Two user tasks are created and started, and enter their task functions. -/
def sampleBoth : List LifeEvent :=
  sampleCreations.map .create ++ .start (fun _ => ⟨ymutexOwnerNone⟩) ::
    (sampleYield ++ [Event.enterTask] ++ sampleYield ++ [Event.enterTask] ++ sampleYield ++
      [Event.enterTask]).map .run

/-- A call for a task with this `data`. -/
def sampleCall (data : Nat) : CreateCall :=
  ⟨⟨some 0x08000601, data, 256, none⟩, (by decide : 256 < 2 ^ 16), fun _ given => (by cases given)⟩

def sampleStatements (count : Nat) : List CreationEvent := List.replicate count .statement

/-- Task 1 is switched out by a tick after some statements of its call; task 2 makes a whole call; the
other tasks take their turns until task 1 goes on. -/
def interleaved (first : Nat) : List CreationEvent :=
  .begin (sampleCall 1) :: sampleStatements first ++ [.sys .sysTick, .sys (.pendSv 0x20004000)] ++
    .begin (sampleCall 2) :: sampleStatements 15 ++
    (sampleYield ++ [Event.enterTask] ++ sampleYield ++ sampleYield).map .sys ++
    sampleStatements (15 - first)

/-- The `data` of the calls that return, and their ids. -/
def sampleReturned (sys : Sys) (first : Nat) : List (Nat × Nat) :=
  (emitted CreationSys.step CreationSys.given ⟨sys, fun _ => none⟩ (interleaved first)).map fun made =>
    (made.1.data, made.2)

/-- The last state of a run of the two calls is such. -/
def endsIn (sys : Sys) (first : Nat) (holds : CreationSys → Bool) : Bool :=
  (runEvents CreationSys.step ⟨sys, fun _ => none⟩ (interleaved first)).any holds

/-- A check of the state in which both tasks are in their task functions. -/
def checkBoth (holds : Sys → Bool) : Bool :=
  (runEvents Life.step (Life.init ⟨0x08000101, 0x08000201, 0x08000301⟩ fun _ => 0) sampleBoth).any
    fun
    | .boot _ => false
    | .running sys => holds sys

theorem exists_of_checkBoth {holds : Sys → Bool} (checked : checkBoth holds = true) :
    ∃ sys, runEvents Life.step (Life.init ⟨0x08000101, 0x08000201, 0x08000301⟩ fun _ => 0)
      sampleBoth = some (.running sys) ∧ holds sys = true := by
  obtain ⟨l, boot, here⟩ := (Option.any_eq_true _ _).mp checked
  cases l with
  | boot k => cases here
  | running sys => exact ⟨sys, boot, here⟩

/-- Only `main` has created tasks. -/
theorem sampleBoth_typed : ∀ call ∈ creations sampleBoth, call.Typed := by
  have same : creations sampleBoth = creations (sampleCreations.map .create) := rfl
  rw [same]
  exact sampleCreations_typed

/-- Task 1 has not read the id yet: the tasks get different slots. -/
theorem yosCreateTask_concurrent_interleaved :
    ∃ sys last, runEvents Life.step (Life.init ⟨0x08000101, 0x08000201, 0x08000301⟩ fun _ => 0)
        sampleBoth = some (.running sys) ∧
      runEvents CreationSys.step ⟨sys, fun _ => none⟩ (interleaved 1) = some last ∧
      sampleReturned sys 1 = [(2, 3), (1, 4)] ∧
      StacksApart (last.sys.kernel.allTasks 3) (last.sys.kernel.allTasks 4) := by
  have checked : checkBoth (fun sys =>
      decide (EachStep CreationSys.step Separate ⟨sys, fun _ => none⟩ (interleaved 1)) &&
        endsIn sys 1 (fun last => decide (last.sys.kernel.taskIdForNext = 5)) &&
        decide (sampleReturned sys 1 = [(2, 3), (1, 4)])) = true := by decide +kernel
  obtain ⟨sys, boot, here⟩ := exists_of_checkBoth checked
  rw [Bool.and_eq_true, Bool.and_eq_true, decide_eq_true_iff, decide_eq_true_iff] at here
  obtain ⟨⟨separate, counted⟩, returned⟩ := here
  obtain ⟨last, run, count⟩ := (Option.any_eq_true _ _).mp counted
  rw [decide_eq_true_iff] at count
  obtain ⟨-, -, -, apart⟩ := yosCreateTask_concurrent sampleBoth_typed boot separate run
  have inside : 3 < last.sys.kernel.taskIdForNext := by omega
  have below : 4 < last.sys.kernel.taskIdForNext := by omega
  exact ⟨sys, last, boot, run, returned, apart 3 4 inside below (by decide)⟩

/-- **Task 1 has read the id**: both tasks get the id 3, and the slot has the data of one of them. -/
theorem yosCreateTask_tangled :
    ∃ sys last, runEvents Life.step (Life.init ⟨0x08000101, 0x08000201, 0x08000301⟩ fun _ => 0)
        sampleBoth = some (.running sys) ∧
      runEvents CreationSys.step ⟨sys, fun _ => none⟩ (interleaved 2) = some last ∧
      sampleReturned sys 2 = [(2, 3), (1, 3)] ∧ (last.sys.kernel.allTasks 3).data = 1 := by
  have checked : checkBoth (fun sys =>
      endsIn sys 2 (fun last => decide ((last.sys.kernel.allTasks 3).data = 1)) &&
        decide (sampleReturned sys 2 = [(2, 3), (1, 3)])) = true := by decide +kernel
  obtain ⟨sys, boot, here⟩ := exists_of_checkBoth checked
  rw [Bool.and_eq_true, decide_eq_true_iff] at here
  obtain ⟨ends, returned⟩ := here
  obtain ⟨last, run, data⟩ := (Option.any_eq_true _ _).mp ends
  exact ⟨sys, last, boot, run, returned, decide_eq_true_iff.mp data⟩

end YosStm32
