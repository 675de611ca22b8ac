/-
**Mutual exclusion.**

Any number of tasks use one mutex, and a switch can come between any two critical sections. A task
is known by its id: `pend_sv_handler` sets `_CURRENT_TASK_ID` together with the task it resumes, so
the id that the sections read is that of the running task. `MutexPoint` is where a task stands in
the mutex functions; `Guarded` keeps, beside the mutex, the successes of all tasks in order.
`Holder` is read off from these: a task holds from its success of `ymutex_try_lock` or `ymutex_lock`
until its success of `ymutex_unlock` or its store in `ymutex_deinit`.
-/

import YosStm32.Lib.Threads
import YosStm32.Mutex.Ymutex

namespace YosStm32.Mutex

open Lib

/-- Where a task stands. In `ymutex_lock`, `deinit` says whether `ymutex_deinit` called it. -/
inductive MutexPoint where
  | outside
  /-- In `ymutex_lock`, before `ymutex_try_lock`. -/
  | lockTry (deinit : Bool)
  /-- In `ymutex_lock`, in `schedule()`. -/
  | lockSchedule (deinit : Bool)
  /-- In `ymutex_deinit`, before the store. -/
  | deinitStore
  deriving DecidableEq, Repr

/-- A call of one of the functions, or the next step inside one. -/
inductive MutexAction where
  | tryLock
  | lock
  | unlock
  | deinit
  | proceed
  deriving DecidableEq, Repr

/-- What makes a task a holder, and what ends it. -/
inductive Outcome where
  | taken (id : Nat)
  | released (id : Nat)
  deriving DecidableEq, Repr

/-- The mutex, with the outcomes so far. -/
structure Guarded where
  mutex : Ymutex
  outcomes : List Outcome

namespace Guarded

/-- `ymutex_try_lock` of task `id`. -/
def tryLock (g : Guarded) (id : Nat) : Guarded :=
  { mutex := (tryLockSection g.mutex id).2
    outcomes := if (tryLockSection g.mutex id).1 = 0 then g.outcomes ++ [.taken id] else g.outcomes }

/-- `ymutex_unlock` of task `id`. -/
def unlock (g : Guarded) (id : Nat) : Guarded :=
  { mutex := (unlockSection g.mutex id).2
    outcomes := if (unlockSection g.mutex id).1 = 0 then g.outcomes ++ [.released id]
      else g.outcomes }

/-- The store of task `id` in `ymutex_deinit`. -/
def store (g : Guarded) (id : Nat) : Guarded :=
  { mutex := deinitStore g.mutex
    outcomes := g.outcomes ++ [.released id] }

end Guarded

/-- One step of task `id`. -/
def mutexAct (id : Nat) (action : MutexAction) (g : Guarded) (point : MutexPoint) :
    Option (Guarded × MutexPoint) :=
  match action, point with
  | .tryLock, .outside => some (g.tryLock id, .outside)
  | .unlock, .outside => some (g.unlock id, .outside)
  | .lock, .outside => some (g, .lockTry false)
  | .deinit, .outside => some (g, .lockTry true)
  | .proceed, .lockTry deinit =>
      if (tryLockSection g.mutex id).1 = 0 then
        some (g.tryLock id, if deinit then .deinitStore else .outside)
      else some (g.tryLock id, .lockSchedule deinit)
  | .proceed, .lockSchedule deinit => some (g, .lockTry deinit)
  | .proceed, .deinitStore => some (g.store id, .outside)
  | _, _ => none

/-- Task `id` holds after these outcomes: the last one of its own is a success. -/
def holdsAfter (outcomes : List Outcome) (id : Nat) : Bool :=
  outcomes.foldl (fun holds outcome =>
    match outcome with
    | .taken other => if other = id then true else holds
    | .released other => if other = id then false else holds) false

theorem holdsAfter_taken (outcomes : List Outcome) (other id : Nat) :
    holdsAfter (outcomes ++ [.taken other]) id = true ↔
      id = other ∨ holdsAfter outcomes id = true := by
  rw [holdsAfter, List.foldl_append]
  show (if other = id then true else holdsAfter outcomes id) = true ↔ _
  by_cases same : other = id
  · simp [same]
  · simp [same, Ne.symm same]

theorem holdsAfter_released (outcomes : List Outcome) (other id : Nat) :
    holdsAfter (outcomes ++ [.released other]) id = true ↔
      id ≠ other ∧ holdsAfter outcomes id = true := by
  rw [holdsAfter, List.foldl_append]
  show (if other = id then false else holdsAfter outcomes id) = true ↔ _
  by_cases same : other = id
  · simp [same]
  · simp [same, Ne.symm same]

/-! ### The owner field names the holder -/

/-- `owner` is the id of the holder. -/
def Owned (g : Guarded) : Prop :=
  ∀ id : Nat, holdsAfter g.outcomes id = true ↔ g.mutex.owner = id

namespace Owned

variable {g : Guarded} {id : Nat}

/-- A success takes a free mutex, which has no holder. -/
theorem tryLock (owned : Owned g) (id : Nat) : Owned (g.tryLock id) := by
  intro other
  by_cases free : g.mutex.owner < 0
  · have none : holdsAfter g.outcomes other ≠ true := fun holds => by
      have owner := (owned other).mp holds
      omega
    rw [Guarded.tryLock, tryLockSection_of_free free]
    refine (holdsAfter_taken g.outcomes id other).trans ?_
    constructor
    · rintro (rfl | holds)
      · rfl
      · exact absurd holds none
    · intro owner
      exact Or.inl (Int.ofNat.inj owner).symm
  · rw [Guarded.tryLock, tryLockSection_of_owned free]
    exact owned other

/-- A success releases the mutex of the task itself. -/
theorem unlock (owned : Owned g) (id : Nat) : Owned (g.unlock id) := by
  intro other
  by_cases own : g.mutex.owner = id
  · have unique : holdsAfter g.outcomes other = true → other = id := fun holds => by
      have owner := (owned other).mp holds
      omega
    simp only [Guarded.unlock, unlockSection_of_owner own, if_true, holdsAfter_released,
      ymutexOwnerNone]
    constructor
    · rintro ⟨different, holds⟩
      exact absurd (unique holds) different
    · intro negative
      omega
  · rw [Guarded.unlock, unlockSection_of_other own]
    exact owned other

/-- The store in `ymutex_deinit` releases the mutex when the task holds it. -/
theorem store (owned : Owned g) (own : g.mutex.owner = id) : Owned (g.store id) := by
  have same : g.store id = g.unlock id := by
    rw [Guarded.store, Guarded.unlock, unlockSection_of_owner own]
    rfl
  rw [same]
  exact owned.unlock id

end Owned

/-- The owner is the holder, and a task before the store of `ymutex_deinit` is the owner. -/
structure MutexInv (g : Guarded) (points : Nat → MutexPoint) : Prop where
  owned : Owned g
  storing : ∀ id, points id = .deinitStore → g.mutex.owner = id

namespace MutexInv

variable {g g' : Guarded} {points : Nat → MutexPoint} {id : Nat} {point : MutexPoint}

/-- A step of task `id` that ends away from the store, and leaves the mutex to any other owner. -/
theorem next (inv : MutexInv g points) (owned : Owned g') (elsewhere : point ≠ .deinitStore)
    (kept : ∀ other, other ≠ id → g.mutex.owner = (other : Nat) → g'.mutex.owner = other) :
    MutexInv g' (Function.update points id point) := by
  refine ⟨owned, fun other storing => ?_⟩
  by_cases same : other = id
  · rw [same, Function.update_self] at storing
    exact absurd storing elsewhere
  · rw [Function.update_of_ne same] at storing
    exact kept other same (inv.storing other storing)

theorem tryLock_keeps (id other : Nat) (owner : g.mutex.owner = other) :
    (g.tryLock id).mutex.owner = other := by
  have owned : ¬ g.mutex.owner < 0 := by omega
  rw [Guarded.tryLock, tryLockSection_of_owned owned]
  exact owner

theorem unlock_keeps {other : Nat} (different : other ≠ id) (owner : g.mutex.owner = other) :
    (g.unlock id).mutex.owner = other := by
  have stays : g.mutex.owner ≠ id := by omega
  rw [Guarded.unlock, unlockSection_of_other stays]
  exact owner

/-- **Every step keeps the invariant.** -/
theorem step (inv : MutexInv g points) {action : MutexAction}
    (one : mutexAct id action g (points id) = some (g', point)) :
    MutexInv g' (Function.update points id point) := by
  unfold mutexAct at one
  split at one
  · cases one
    exact inv.next (inv.owned.tryLock id) (by simp) fun other _ => tryLock_keeps id other
  · cases one
    exact inv.next (inv.owned.unlock id) (by simp) fun other => unlock_keeps
  · cases one
    exact inv.next inv.owned (by simp) fun _ _ owner => owner
  · cases one
    exact inv.next inv.owned (by simp) fun _ _ owner => owner
  · split at one
    · rename_i deinit _ success
      cases one
      have free := tryLockSection_eq_zero.mp success
      refine ⟨inv.owned.tryLock id, fun other storing => ?_⟩
      by_cases same : other = id
      · rw [Guarded.tryLock, tryLockSection_of_free free, same]
      · rw [Function.update_of_ne same] at storing
        exact tryLock_keeps id other (inv.storing other storing)
    · cases one
      exact inv.next (inv.owned.tryLock id) (by simp) fun other _ => tryLock_keeps id other
  · cases one
    exact inv.next inv.owned (by simp) fun _ _ owner => owner
  · rename_i here
    cases one
    have own := inv.storing id here
    exact inv.next (inv.owned.store own) (by simp) fun other different owner =>
      absurd (Int.ofNat.inj (owner.symm.trans own)) different
  · cases one

end MutexInv

/-! ### Mutual exclusion -/

/-- The mutex has just been initialised by `ymutex_init`, and no task has called anything. -/
def MutexInitialised (s : Threads Guarded MutexPoint) : Prop :=
  (∃ before, ymutexInit (some before) = some s.shared.mutex) ∧ s.shared.outcomes = [] ∧
    ∀ id, s.locals id = .outside

def Holder (s : Threads Guarded MutexPoint) (id : Nat) : Prop :=
  holdsAfter s.shared.outcomes id = true

/-- What mutual exclusion means at one moment. -/
structure Exclusive (s : Threads Guarded MutexPoint) : Prop where
  unique : ∀ first second, Holder s first → Holder s second → first = second
  owner : ∀ id : Nat, Holder s id ↔ s.shared.mutex.owner = id
  free : s.shared.mutex.owner < 0 ↔ ∀ id, ¬ Holder s id
  tryLock : ∀ id, (ymutexTryLock (some s.shared.mutex) id).1 = 0 ↔ ∀ other, ¬ Holder s other
  unlock : ∀ id, ¬ Holder s id →
    ymutexUnlock (some s.shared.mutex) id = (-1, some s.shared.mutex)

theorem Owned.exclusive {s : Threads Guarded MutexPoint} (owned : Owned s.shared) : Exclusive s := by
  have free : s.shared.mutex.owner < 0 ↔ ∀ id, ¬ Holder s id := by
    constructor
    · intro negative id holds
      have owner := (owned id).mp holds
      omega
    · intro none
      by_contra positive
      exact none s.shared.mutex.owner.toNat ((owned _).mpr (by omega))
  refine ⟨fun first second holds holds' => ?_, owned, free, fun id => ?_, fun id other => ?_⟩
  · have owner := (owned first).mp holds
    have owner' := (owned second).mp holds'
    omega
  · rw [ymutexTryLock, tryLockSection_eq_zero, free]
  · have stays : s.shared.mutex.owner ≠ id := fun owner => other ((owned id).mpr owner)
    rw [ymutexUnlock, unlockSection_of_other stays]

/-- **Mutual exclusion.** -/
theorem ymutex_exclusion {first last : Threads Guarded MutexPoint}
    {events : List (ThreadEvent MutexAction)} (initialised : MutexInitialised first)
    (run : runEvents (Threads.step mutexAct) first events = some last) : Exclusive last := by
  obtain ⟨⟨before, init⟩, none, outside⟩ := initialised
  have start : MutexInv first.shared first.locals := by
    have owner : first.shared.mutex.owner = -1 :=
      congrArg Ymutex.owner (Option.some.inj init).symm
    refine ⟨fun id => ?_, fun id storing => ?_⟩
    · rw [none, owner]
      constructor
      · intro holds
        cases holds
      · intro negative
        omega
    · rw [outside id] at storing
      cases storing
  have inv := threads_invariant MutexInv (fun _ _ _ _ _ _ inside one => inside.step one) start run
  exact inv.owned.exclusive

/-- Task 1 is about to take the mutex. -/
def twoTasks : Threads Guarded MutexPoint :=
  { shared := { mutex := ⟨-1⟩, outcomes := [] }
    locals := fun _ => .outside
    running := 1 }

/-- Task 2 fails to lock what task 1 has taken; task 1 unlocks and then deinits. -/
def twoTasksRun : List (ThreadEvent MutexAction) :=
  [.act .tryLock, .switchTo 2, .act .lock, .act .proceed, .switchTo 1, .act .unlock, .act .deinit,
    .act .proceed]

theorem ymutex_exclusion_twoTasks :
    ∃ last, runEvents (Threads.step mutexAct) twoTasks twoTasksRun = some last ∧
      Holder last 1 ∧ Exclusive last := by
  have initialised : MutexInitialised twoTasks := ⟨⟨⟨0⟩, rfl⟩, rfl, fun _ => rfl⟩
  have run : runEvents (Threads.step mutexAct) twoTasks twoTasksRun = some _ := rfl
  exact ⟨_, run, rfl, ymutex_exclusion initialised run⟩

end YosStm32.Mutex
