/-
**The mutex functions** (`ymutex.h`, the end of `yos.c`).

A mutex is its owner field. A `struct ymutex *` is `none` for `NULL` and `some` of what it points to.
The two sections between `cm_disable_interrupts` and `cm_enable_interrupts` are functions of their
own: they are what other tasks can come between.
-/

import Mathlib.Logic.Function.Basic

namespace YosStm32.Mutex

/-- `struct ymutex`. -/
structure Ymutex where
  owner : Int
  deriving DecidableEq, Repr

/-- `_YMUTEX_OWNER_NONE`. -/
def ymutexOwnerNone : Int := -1

/-- `ymutex_init`. -/
def ymutexInit (mutex : Option Ymutex) : Option Ymutex :=
  mutex.map fun mutex => { mutex with owner := ymutexOwnerNone }

/-- The critical section of `ymutex_try_lock`: the result and the mutex. -/
def tryLockSection (mutex : Ymutex) (currentTaskId : Nat) : Int × Ymutex :=
  if mutex.owner < 0 then (0, { mutex with owner := currentTaskId }) else (-1, mutex)

/-- `ymutex_try_lock`. -/
def ymutexTryLock (mutex : Option Ymutex) (currentTaskId : Nat) : Int × Option Ymutex :=
  match mutex with
  | none => (-1, none)
  | some mutex => ((tryLockSection mutex currentTaskId).1, some (tryLockSection mutex currentTaskId).2)

/-- The critical section of `ymutex_unlock`: the result and the mutex. -/
def unlockSection (mutex : Ymutex) (currentTaskId : Nat) : Int × Ymutex :=
  if mutex.owner = currentTaskId then (0, { mutex with owner := ymutexOwnerNone }) else (-1, mutex)

/-- `ymutex_unlock`. -/
def ymutexUnlock (mutex : Option Ymutex) (currentTaskId : Nat) : Int × Option Ymutex :=
  match mutex with
  | none => (-1, none)
  | some mutex => ((unlockSection mutex currentTaskId).1, some (unlockSection mutex currentTaskId).2)

/-- The last statement of `ymutex_deinit`, outside any critical section. -/
def deinitStore (mutex : Ymutex) : Ymutex := { mutex with owner := ymutexOwnerNone }

section Sections

variable {mutex : Ymutex} {id : Nat}

/-- A free mutex is taken. -/
theorem tryLockSection_of_free (free : mutex.owner < 0) :
    tryLockSection mutex id = (0, { mutex with owner := id }) := if_pos free

theorem tryLockSection_of_owned (owned : ¬ mutex.owner < 0) :
    tryLockSection mutex id = (-1, mutex) := if_neg owned

theorem tryLockSection_eq_zero : (tryLockSection mutex id).1 = 0 ↔ mutex.owner < 0 := by
  unfold tryLockSection
  split <;> simp_all

theorem unlockSection_of_owner (owner : mutex.owner = id) :
    unlockSection mutex id = (0, { mutex with owner := ymutexOwnerNone }) := if_pos owner

theorem unlockSection_of_other (other : mutex.owner ≠ id) :
    unlockSection mutex id = (-1, mutex) := if_neg other

end Sections

end YosStm32.Mutex
