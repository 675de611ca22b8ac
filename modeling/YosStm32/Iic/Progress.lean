/-
**Every transaction is finished.**

A task that finds the mutex taken gives the processor away and tries again, so a turn of a task may achieve
nothing. But as long as something is left to do, the holder of the mutex, or anybody if it is free, gets on
within two turns (`IicInv.works`), and nobody ever falls back (`act_left`). So when every task that is not
finished has two turns in each round, each round lowers the number of steps that are left, and the bus
has carried all transactions after as many rounds as there are steps (`iic_completed`).
-/

import Mathlib.Algebra.Order.BigOperators.Group.Finset
import YosStm32.Iic.Devices

namespace YosStm32.Iic

open Lib

/-! ### Turns -/

/-- The steps that a task has left; `schedule()` is not one of its program. -/
def Task.left (task : Task) : Nat := task.code.countP fun step => decide (step ≠ .schedule)

/-- The task gets on within some turns, if the others do nothing. -/
def Works (bus : Bus) : (turns : Nat) → List Step → Prop
  | 0, _ => False
  | turns + 1, code =>
      (∃ step rest, code = step :: rest ∧ step ≠ .schedule ∧ (step = .lock → bus.mutex.owner < 0)) ∨
        ∃ rest, code = .schedule :: rest ∧ Works bus turns rest

section Turns

variable {id : Nat} {bus bus' : Bus} {task task' : Task}

/-- What a turn can be: a step, a lock that fails, or the processor given away. -/
theorem iicAct_cases (one : iicAct id () bus task = some (bus', task')) :
    ∃ step rest, task.code = step :: rest ∧
      ((step ≠ .schedule ∧ task'.code = rest) ∨
        (bus' = bus ∧ step = .lock ∧ ¬ bus.mutex.owner < 0 ∧ task'.code = .schedule :: task.code) ∨
        (bus' = bus ∧ step = .schedule ∧ task'.code = rest)) := by
  cases code : task.code with
  | nil => simp [iicAct, code] at one
  | cons step rest =>
      refine ⟨step, rest, rfl, ?_⟩
      by_cases lock : step = .lock
      · subst lock
        by_cases free : bus.mutex.owner < 0
        · simp only [iicAct, code, Mutex.tryLockSection_of_free free, if_true] at one
          cases one
          exact Or.inl ⟨Step.noConfusion, rfl⟩
        · simp only [iicAct, code, Mutex.tryLockSection_of_owned free] at one
          cases one
          exact Or.inr (Or.inl ⟨rfl, rfl, free, rfl⟩)
      · by_cases unlock : step = .unlock
        · subst unlock
          rw [iicAct, code] at one
          cases one
          exact Or.inl ⟨Step.noConfusion, rfl⟩
        · rw [iicAct_eq id code lock unlock] at one
          cases one
          by_cases turn : step = .schedule
          · subst turn
            exact Or.inr (Or.inr ⟨congrArg (Bus.mk _ _) (List.append_nil _), rfl, rfl⟩)
          · exact Or.inl ⟨turn, rfl⟩

/-- A task that has something to do can do it. -/
theorem iicAct_some (id : Nat) (bus : Bus) (someCode : task.code ≠ []) :
    ∃ next, iicAct id () bus task = some next := by
  unfold iicAct
  cases code : task.code with
  | nil => exact absurd code someCode
  | cons step rest =>
      cases step with
      | lock =>
          dsimp only
          split <;> exact ⟨_, rfl⟩
      | _ => exact ⟨_, rfl⟩

theorem Task.left_step {step : Step} {rest : List Step} (code : task.code = step :: rest)
    (own : step ≠ .schedule) (next : task'.code = rest) : task'.left + 1 = task.left := by
  rw [Task.left, Task.left, code, next, List.countP_cons_of_pos (by simpa using own)]

theorem Task.left_schedule (code : task'.code = .schedule :: task.code) : task'.left = task.left := by
  rw [Task.left, Task.left, code, List.countP_cons_of_neg (by simp)]

/-- **Nobody falls back**, and who does not get on leaves the bus as it is. -/
theorem act_left (one : iicAct id () bus task = some (bus', task')) :
    task'.left < task.left ∨ (task'.left = task.left ∧ bus' = bus) := by
  obtain ⟨step, rest, code, ⟨own, next⟩ | ⟨rfl, _, _, next⟩ | ⟨rfl, rfl, next⟩⟩ := iicAct_cases one
  · exact Or.inl (Nat.lt_of_succ_le (Task.left_step code own next).le)
  · exact Or.inr ⟨Task.left_schedule next, rfl⟩
  · exact Or.inr ⟨(Task.left_schedule (next ▸ code)).symm, rfl⟩

/-- A turn of a task that gets on within some. -/
theorem Works.act {turns : Nat} (works : Works bus (turns + 1) task.code)
    (one : iicAct id () bus task = some (bus', task')) :
    task'.left < task.left ∨ (bus' = bus ∧ Works bus turns task'.code) := by
  obtain ⟨step, rest, code, turn⟩ := iicAct_cases one
  rw [code] at works
  rcases works with ⟨_, _, same, own, free⟩ | ⟨_, same, later⟩
  · obtain ⟨rfl, rfl⟩ := List.cons.inj same
    rcases turn with ⟨_, next⟩ | ⟨_, lock, taken, _⟩ | ⟨_, schedule, _⟩
    · exact Or.inl (Nat.lt_of_succ_le (Task.left_step code own next).le)
    · exact absurd (free lock) taken
    · exact absurd schedule own
  · obtain ⟨rfl, rfl⟩ := List.cons.inj same
    rcases turn with ⟨own, _⟩ | ⟨_, lock, _⟩ | ⟨rfl, _, next⟩
    · exact absurd rfl own
    · exact absurd lock Step.noConfusion
    · exact Or.inr ⟨rfl, next ▸ later⟩

end Turns

/-! ### Rounds -/

/-- The steps that the first `n` tasks have left. -/
def stepsLeft (n : Nat) (tasks : Nat → Task) : Nat := ∑ id ∈ Finset.range n, (tasks id).left

/-- The task that takes its turn in an event. -/
def taker (s : Threads Bus Task) : ThreadEvent Unit → List Nat
  | .switchTo _ => []
  | .act _ => [s.running]

/-- The turns in some events. -/
def turns (s : Threads Bus Task) (events : List (ThreadEvent Unit)) : List Nat :=
  emitted (Threads.step iicAct) taker s events

/-- In these events each of the first `n` tasks has two turns, or has no step left after them. -/
def TwoTurns (n : Nat) (s : Threads Bus Task) (events : List (ThreadEvent Unit)) : Prop :=
  ∀ last ∈ runEvents (Threads.step iicAct) s events, ∀ id < n,
    (last.locals id).left ≠ 0 → 2 ≤ (turns s events).count id

instance (n : Nat) (s : Threads Bus Task) (events : List (ThreadEvent Unit)) :
    Decidable (TwoTurns n s events) :=
  inferInstanceAs (Decidable (∀ last ∈ runEvents (Threads.step iicAct) s events, ∀ id < n,
    (last.locals id).left ≠ 0 → 2 ≤ (turns s events).count id))

section Rounds

variable {n : Nat} {s next last : Threads Bus Task} {events : List (ThreadEvent Unit)}

/-- Only the first `n` tasks have anything to do. -/
def Limited (n : Nat) (tasks : Nat → Task) : Prop := ∀ id, n ≤ id → (tasks id).code = []

theorem stepsLeft_le (falls : ∀ id, (next.locals id).left ≤ (s.locals id).left) :
    stepsLeft n next.locals ≤ stepsLeft n s.locals := Finset.sum_le_sum fun id _ => falls id

theorem stepsLeft_lt (falls : ∀ id, (next.locals id).left ≤ (s.locals id).left) {id : Nat}
    (inside : id < n) (lower : (next.locals id).left < (s.locals id).left) :
    stepsLeft n next.locals < stepsLeft n s.locals :=
  Finset.sum_lt_sum (fun id _ => falls id) ⟨id, Finset.mem_range.mpr inside, lower⟩

/-- **What an event does**: somebody gets on, or only the one who takes his turn changes. -/
theorem step_left {event : ThreadEvent Unit} (limited : Limited n s.locals)
    (one : Threads.step iicAct s event = some next) :
    Limited n next.locals ∧ (∀ id, (next.locals id).left ≤ (s.locals id).left) ∧
      (stepsLeft n next.locals < stepsLeft n s.locals ∨
        (next.shared = s.shared ∧ (∀ id ∉ taker s event, next.locals id = s.locals id) ∧
          ∀ id ∈ taker s event, taker s event = [id] ∧
            ∀ turns, Works s.shared (turns + 1) (s.locals id).code →
              Works next.shared turns (next.locals id).code)) := by
  cases event with
  | switchTo other =>
      cases one
      exact ⟨limited, fun _ => Nat.le_refl _,
        Or.inr ⟨rfl, fun _ _ => rfl, fun _ member => absurd member List.not_mem_nil⟩⟩
  | act action =>
      obtain ⟨⟨bus, task⟩, done, same⟩ := Option.map_eq_some_iff.mp one
      obtain rfl : next = ⟨bus, Function.update s.locals s.running task, s.running⟩ := same.symm
      have inside : s.running < n := by
        by_contra outside
        obtain ⟨step, rest, code, _⟩ := iicAct_cases done
        rw [limited _ (Nat.le_of_not_lt outside)] at code
        cases code
      have falls : ∀ id, (Function.update s.locals s.running task id).left ≤ (s.locals id).left := by
        refine (Function.forall_update_iff s.locals fun id task => task.left ≤ (s.locals id).left).mpr
          ⟨?_, fun _ _ => Nat.le_refl _⟩
        exact (act_left done).elim Nat.le_of_lt fun same => same.1.le
      refine ⟨fun id large => ?_, falls, ?_⟩
      · have other : id ≠ s.running := by omega
        exact (congrArg Task.code (Function.update_of_ne other ..)).trans (limited id large)
      · by_cases lower : task.left < (s.locals s.running).left
        · refine Or.inl (stepsLeft_lt falls inside ?_)
          show (Function.update s.locals s.running task s.running).left < _
          rwa [Function.update_self]
        · refine Or.inr ⟨((act_left done).resolve_left lower).2, fun id other => ?_, fun id own => ?_⟩
          · exact Function.update_of_ne (List.ne_of_not_mem_cons other) ..
          · obtain rfl := List.mem_singleton.mp own
            refine ⟨rfl, fun turns works => ?_⟩
            obtain ⟨rfl, later⟩ := (works.act done).resolve_left lower
            show Works _ turns (Function.update s.locals s.running task s.running).code
            rwa [Function.update_self]

/-- **Nobody falls back in a run.** -/
theorem run_left (limited : Limited n s.locals)
    (run : runEvents (Threads.step iicAct) s events = some last) :
    Limited n last.locals ∧ ∀ id, (last.locals id).left ≤ (s.locals id).left := by
  refine runEvents_invariant
    (fun now => Limited n now.locals ∧ ∀ id, (now.locals id).left ≤ (s.locals id).left)
    (fun now event next inside one => ?_) ⟨limited, fun _ => Nat.le_refl _⟩ run
  obtain ⟨limited, falls, _⟩ := step_left inside.1 one
  exact ⟨limited, fun id => Nat.le_trans (falls id) (inside.2 id)⟩

/-- **A task that gets on within some turns does**, when it has them: it, or somebody else before. -/
theorem works_turns {id some' : Nat} (limited : Limited n s.locals)
    (works : Works s.shared some' (s.locals id).code) (enough : some' ≤ (turns s events).count id)
    (run : runEvents (Threads.step iicAct) s events = some last) :
    stepsLeft n last.locals < stepsLeft n s.locals := by
  induction events generalizing s some' with
  | nil =>
      obtain rfl : some' = 0 := Nat.le_zero.mp enough
      exact works.elim
  | cons event events ih =>
      obtain ⟨next, one, rest⟩ := runEvents_cons.mp run
      obtain ⟨limited', falls, changed⟩ := step_left limited one
      rcases changed with lower | ⟨shared, others, own⟩
      · exact Nat.lt_of_le_of_lt (stepsLeft_le (run_left limited' rest).2) lower
      rw [turns, emitted_cons one, List.count_append] at enough
      refine Nat.lt_of_lt_of_le ?_ (stepsLeft_le falls)
      by_cases turn : id ∈ taker s event
      · obtain ⟨only, later⟩ := own id turn
        rw [only, List.count_singleton_self] at enough
        cases some' with
        | zero => exact works.elim
        | succ some' => exact ih limited' (later some' works) (by unfold turns; omega) rest
      · rw [List.count_eq_zero.mpr turn, Nat.zero_add] at enough
        refine ih limited' ?_ enough rest
        rw [shared, others id turn]
        exact works

end Rounds

/-! ### Every run -/

section Runs

variable {programs : Nat → List Transaction} {whole : List (Nat × Transaction)} {bus : Bus}
  {tasks : Nat → Task} {n : Nat}

/-- A task between two transactions that has something left. -/
theorem Outside.works {id : Nat} {task : Task} (outside : Outside programs whole id task)
    (free : bus.mutex.owner < 0) (something : task.left ≠ 0) : Works bus 2 task.code := by
  obtain ⟨rest, _, code | code⟩ := outside
  · cases rest with
    | nil => exact absurd (by rw [Task.left, code]; rfl) something
    | cons tr rest =>
        rw [List.flatMap_cons, Transaction.steps_eq] at code
        exact Or.inl ⟨_, _, code, Step.noConfusion, fun _ => free⟩
  · cases rest with
    | nil => exact absurd (by rw [Task.left, code]; rfl) something
    | cons tr rest =>
        rw [List.flatMap_cons, Transaction.steps_eq] at code
        exact Or.inr ⟨_, code, Or.inl ⟨_, _, rfl, Step.noConfusion, fun _ => free⟩⟩

/-- The task inside a transaction has its next step, or the unlock. -/
theorem Inside.works {id : Nat} {task : Task} {tr : Transaction} {rest : List Transaction}
    {done left : List Step} (inside : Inside programs whole id bus task tr rest done left) :
    ∃ step after, task.code = step :: after ∧ step ≠ .schedule ∧ step ≠ .lock := by
  cases left with
  | nil => exact ⟨_, _, inside.code, Step.noConfusion, Step.noConfusion⟩
  | cons step left =>
      have member : step ∈ tr.middle := inside.middle ▸ List.mem_append_right done (List.mem_cons_self ..)
      obtain ⟨lock, schedule, _⟩ := Transaction.mem_middle member
      exact ⟨step, _, inside.code, schedule, lock⟩

/-- **As long as something is left, somebody gets on within two turns.** -/
theorem IicInv.works (inv : IicInv programs whole bus tasks) (something : stepsLeft n tasks ≠ 0) :
    ∃ id, (tasks id).left ≠ 0 ∧ Works bus 2 (tasks id).code := by
  cases inv with
  | free owner log outside =>
      obtain ⟨id, _, here⟩ := Finset.exists_ne_zero_of_sum_ne_zero something
      exact ⟨id, here, (outside id).works owner here⟩
  | held holder owner tr rest done left inside outside =>
      obtain ⟨step, after, code, schedule, lock⟩ := inside.works
      refine ⟨holder, ?_, Or.inl ⟨step, after, code, schedule, fun same => absurd same lock⟩⟩
      rw [Task.left, code, List.countP_cons_of_pos (by simpa using schedule)]
      exact Nat.succ_ne_zero _

/-- Nothing is left when all transactions are finished. -/
theorem IicInv.finished (inv : IicInv programs whole bus tasks) (limited : Limited n tasks)
    (nothing : stepsLeft n tasks = 0) :
    bus.log = traces whole ∧ ∀ id, doneBy whole id = programs id := by
  have none : ∀ id, (tasks id).left = 0 := by
    intro id
    by_cases inside : id < n
    · exact Finset.sum_eq_zero_iff.mp nothing id (Finset.mem_range.mpr inside)
    · rw [Task.left, limited id (Nat.le_of_not_lt inside)]
      rfl
  cases inv with
  | free owner log outside =>
      refine ⟨log, fun id => ?_⟩
      obtain ⟨rest, program, code⟩ := outside id
      cases rest with
      | nil => rw [program, List.append_nil]
      | cons tr rest =>
          rw [List.flatMap_cons, Transaction.steps_eq] at code
          have left := none id
          rcases code with code | code <;> simp [Task.left, code] at left
  | held holder owner tr rest done left inside outside =>
      obtain ⟨step, after, code, schedule, _⟩ := inside.works
      have left := none holder
      simp [Task.left, code, schedule] at left

/-- A round lowers what is left. -/
theorem round_left {s last : Threads Bus Task} {events : List (ThreadEvent Unit)}
    (inv : IicInv programs whole s.shared s.locals) (limited : Limited n s.locals)
    (fair : TwoTurns n s events) (run : runEvents (Threads.step iicAct) s events = some last) :
    stepsLeft n last.locals ≤ stepsLeft n s.locals - 1 := by
  obtain ⟨_, falls⟩ := run_left limited run
  by_cases nothing : stepsLeft n s.locals = 0
  · have least : stepsLeft n last.locals ≤ stepsLeft n s.locals := stepsLeft_le falls
    omega
  obtain ⟨id, here, works⟩ := inv.works nothing
  have inside : id < n := by
    by_contra outside
    rw [Task.left, limited id (Nat.le_of_not_lt outside)] at here
    exact here rfl
  refine Nat.le_sub_one_of_lt ?_
  by_cases finished : (last.locals id).left = 0
  · refine stepsLeft_lt falls inside ?_
    rw [finished]
    exact Nat.pos_of_ne_zero here
  · exact works_turns limited works (fair last run id inside finished) run

/-- **There are such rounds**: nobody waits for anybody who waits. -/
theorem works_run {turns : Nat} {s : Threads Bus Task} (limited : Limited n s.locals)
    (works : Works s.shared turns (s.locals s.running).code) :
    ∃ events last, runEvents (Threads.step iicAct) s events = some last ∧
      stepsLeft n last.locals < stepsLeft n s.locals := by
  induction turns generalizing s with
  | zero => exact works.elim
  | succ turns ih =>
      have someCode : (s.locals s.running).code ≠ [] := by
        rcases works with ⟨step, rest, code, _⟩ | ⟨rest, code, _⟩ <;> simp [code]
      obtain ⟨⟨bus, task⟩, done⟩ := iicAct_some s.running s.shared someCode
      have one : Threads.step iicAct s (.act ()) =
          some ⟨bus, Function.update s.locals s.running task, s.running⟩ := by
        rw [Threads.step, done]
        rfl
      obtain ⟨limited', falls, lower | ⟨_, _, own⟩⟩ := step_left limited one
      · exact ⟨[.act ()], _, runEvents_cons.mpr ⟨_, one, rfl⟩, lower⟩
      · obtain ⟨_, later⟩ := own s.running (List.mem_singleton_self _)
        obtain ⟨events, last, run, lower⟩ := ih limited' (later turns works)
        exact ⟨.act () :: events, last, runEvents_cons.mpr ⟨_, one, run⟩,
          Nat.lt_of_lt_of_le lower (stepsLeft_le falls)⟩

/-- From every state of a run, all tasks can finish. -/
theorem IicInv.canFinish {s : Threads Bus Task} (inv : IicInv programs whole s.shared s.locals)
    (limited : Limited n s.locals) :
    ∃ events last, runEvents (Threads.step iicAct) s events = some last ∧ stepsLeft n last.locals = 0 := by
  induction count : stepsLeft n s.locals using Nat.strong_induction_on generalizing s whole with
  | _ count ih =>
      by_cases nothing : stepsLeft n s.locals = 0
      · exact ⟨[], s, rfl, nothing⟩
      · obtain ⟨id, _, works⟩ := inv.works nothing
        have switch : Threads.step iicAct s (.switchTo id) = some { s with running := id } := rfl
        obtain ⟨events, next, run, lower⟩ := works_run (s := { s with running := id }) limited works
        obtain ⟨_, inv'⟩ := IicInv.run (s := { s with running := id }) inv run
        obtain ⟨more, last, run', finished⟩ :=
          ih _ (count ▸ lower) inv' (run_left (s := { s with running := id }) limited run).1 rfl
        refine ⟨.switchTo id :: (events ++ more), last, ?_, finished⟩
        exact runEvents_cons.mpr ⟨_, switch, runEvents_append.mpr ⟨next, run, run'⟩⟩

/-- At the start only the first tasks have something to do, no more than the steps of their programs. -/
theorem initialised_left (code : ∀ id, (tasks id).code = (programs id).flatMap Transaction.steps)
    (limited : ∀ id, n ≤ id → programs id = []) :
    Limited n tasks ∧
      stepsLeft n tasks ≤ ∑ id ∈ Finset.range n, ((programs id).flatMap Transaction.steps).length := by
  refine ⟨fun id large => ?_, Finset.sum_le_sum fun id _ => ?_⟩
  · rw [code, limited id large]
    rfl
  · rw [Task.left, code]
    exact List.countP_le_length

/-- Rounds after which nothing is left, and as many as one likes. -/
theorem rounds_exist {first : Threads Bus Task} (initialised : IicInitialised programs first)
    (limited : ∀ id, n ≤ id → programs id = []) (count : Nat) :
    ∃ rounds last, EachStep (runEvents (Threads.step iicAct)) (TwoTurns n) first rounds ∧
      count ≤ rounds.length ∧ runEvents (Threads.step iicAct) first rounds.flatten = some last := by
  obtain ⟨start, -⟩ := initialised_left initialised.2.2 limited
  obtain ⟨whole, inv⟩ := iic_inv initialised (runEvents_nil first)
  obtain ⟨events, last, run, nothing⟩ := inv.canFinish start
  have finished : ∀ id < n, (last.locals id).left = 0 := fun id inside =>
    Finset.sum_eq_zero_iff.mp nothing id (Finset.mem_range.mpr inside)
  have idle : EachStep (runEvents (Threads.step iicAct)) (TwoTurns n) last (List.replicate count []) := by
    induction count with
    | zero => trivial
    | succ count ih =>
        refine ⟨fun same here id inside left => ?_, fun next one => ?_⟩
        · obtain rfl := Option.some.inj here
          exact absurd (finished id inside) left
        · obtain rfl := Option.some.inj one
          exact ih
  refine ⟨events :: List.replicate count [], last, ⟨fun same here id inside left => ?_, fun next one => ?_⟩,
    by simp, ?_⟩
  · obtain rfl := Option.some.inj (run.symm.trans here)
    exact absurd (finished id inside) left
  · obtain rfl := Option.some.inj (run.symm.trans one)
    exact idle
  · rw [List.flatten_cons, List.flatten_replicate_nil, List.append_nil]
    exact run

/-- From any state of a run on, in rounds in which every task that is not finished has two turns, as many as
there are steps left, all tasks finish. -/
theorem rounds_finish {first last : Threads Bus Task} {rounds : List (List (ThreadEvent Unit))}
    {before : List (Nat × Transaction)} (inv : IicInv programs before first.shared first.locals)
    (start : Limited n first.locals)
    (fair : EachStep (runEvents (Threads.step iicAct)) (TwoTurns n) first rounds)
    (enough : stepsLeft n first.locals ≤ rounds.length)
    (run : runEvents (Threads.step iicAct) first rounds.flatten = some last) :
    ∃ whole, last.shared.log = traces whole ∧ ∀ id, doneBy whole id = programs id := by
  rw [← runEvents_blocks] at run
  obtain ⟨⟨limited', whole, inv⟩, most⟩ := runEvents_measure (fun s => stepsLeft n s.locals)
    (fun s => Limited n s.locals ∧ ∃ whole, IicInv programs whole s.shared s.locals)
    (fun s events next ⟨limited, whole, inv⟩ fair one =>
      ⟨⟨(run_left limited one).1, inv.run one⟩, round_left inv limited fair one⟩)
    ⟨start, before, inv⟩ fair run
  exact ⟨whole, inv.finished limited' (by omega)⟩

/-- **Every transaction is finished.** After such rounds the log holds all transactions of all tasks, each
whole, and those of each task in the order of its program. -/
theorem iic_completed {first last : Threads Bus Task} {rounds : List (List (ThreadEvent Unit))}
    (initialised : IicInitialised programs first) (limited : ∀ id, n ≤ id → programs id = [])
    (fair : EachStep (runEvents (Threads.step iicAct)) (TwoTurns n) first rounds)
    (enough : ∑ id ∈ Finset.range n, ((programs id).flatMap Transaction.steps).length ≤ rounds.length)
    (run : runEvents (Threads.step iicAct) first rounds.flatten = some last) :
    ∃ whole, last.shared.log = traces whole ∧ ∀ id, doneBy whole id = programs id := by
  obtain ⟨start, all⟩ := initialised_left initialised.2.2 limited
  obtain ⟨_, inv⟩ := iic_inv initialised (runEvents_nil first)
  exact rounds_finish inv start fair (all.trans enough) run

/-- Task 1 tries again and again while task 2 is inside its transaction, and has the bus afterwards. -/
def twoMastersRounds : List (List (ThreadEvent Unit)) :=
  List.replicate 6 [.switchTo 2, .act (), .act (), .switchTo 1, .act (), .act ()] ++
    [[.switchTo 2, .act (), .switchTo 1] ++ List.replicate 14 (.act ())] ++ List.replicate 20 []

theorem iic_completed_twoMasters :
    ∃ last, runEvents (Threads.step iicAct) twoMasters twoMastersRounds.flatten = some last ∧
      ∃ whole, last.shared.log = traces whole ∧ ∀ id, doneBy whole id = twoPrograms id := by
  have initialised : IicInitialised twoPrograms twoMasters := ⟨⟨⟨0⟩, rfl⟩, rfl, fun _ => rfl⟩
  have limited : ∀ id, 3 ≤ id → twoPrograms id = [] := by
    intro id large
    rw [twoPrograms, if_neg (by omega), if_neg (by omega)]
  have run : runEvents (Threads.step iicAct) twoMasters twoMastersRounds.flatten = some _ := rfl
  exact ⟨_, run, iic_completed initialised limited (by decide +kernel) (by decide) run⟩

end Runs

end YosStm32.Iic
