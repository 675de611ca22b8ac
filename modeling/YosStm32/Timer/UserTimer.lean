/-
**The software timers** (`ytimer.c`, `ytimer.h`).

`_user_timer_list` is a table of slots by number; the slots from `USER_TIMER_MAX_COUNT` on stand for
the memory behind it, which the guard `timer_id > USER_TIMER_MAX_COUNT` lets one id reach. An
`on_timeout` is the address of a function, `none` for `NULL`. Each interrupt brings its own `Code`,
which says which calls of this API its callbacks make: the same function can make others the next time.
The interrupt does not come in the middle of a call, nor in the middle of itself.
-/

import YosStm32.Lib.Run

namespace YosStm32.Timer

/-- `USER_TIMER_MAX_COUNT`. -/
def userTimerMaxCount : Nat := 8

/-- `struct user_timer`. -/
structure UserTimer where
  onTimeout : Option Nat
  para : Nat
  remainingMs : UInt32
  initMs : UInt32
  autoRestart : UInt8
  isPaused : Bool
  isUsed : Bool
  deriving DecidableEq, Repr

/-- `_user_timer_list`. -/
abbrev Table := Nat → UserTimer

/-- `_user_timer_list_init`. -/
def userTimerListInit (t : Table) : Table := fun i =>
  if i < userTimerMaxCount then
    { onTimeout := none, para := 0, remainingMs := 0, initMs := 0, autoRestart := 0,
      isPaused := false, isUsed := false }
  else t i

/-- The slot that the loop of `user_timer_create` stops at. -/
def firstFree (t : Table) : Option Nat :=
  (List.range userTimerMaxCount).find? fun i => !(t i).isUsed

/-- `user_timer_create`; storing `auto_restart` in a `uint8_t` keeps its low byte. -/
def userTimerCreate (t : Table) (timeoutMs : UInt32) (autoRestart : Int) (onTimeout : Option Nat)
    (timeoutPara : Nat) : Int × Table :=
  match firstFree t with
  | some i =>
      (i, Function.update t i
        { onTimeout := onTimeout
          para := timeoutPara
          remainingMs := timeoutMs
          initMs := timeoutMs
          autoRestart := UInt8.ofInt autoRestart
          isPaused := false
          isUsed := true })
  | none => (-1, t)

/-- The functions on an id: its guard, then a change of the slot when it is used. -/
def onSlot (t : Table) (timerId : Int) (change : UserTimer → UserTimer) : Int × Table :=
  if timerId < 0 ∨ timerId > userTimerMaxCount then (-1, t)
  else
    (0, if (t timerId.toNat).isUsed then
        Function.update t timerId.toNat (change (t timerId.toNat))
      else t)

/-- `_user_timer_pause_set`. -/
def userTimerPauseSet (t : Table) (timerId : Int) (pause : Bool) : Int × Table :=
  onSlot t timerId fun ut => { ut with isPaused := pause }

/-- `user_timer_pause`. -/
def userTimerPause (t : Table) (timerId : Int) : Int × Table := userTimerPauseSet t timerId true

/-- `user_timer_restore`. -/
def userTimerRestore (t : Table) (timerId : Int) : Int × Table := userTimerPauseSet t timerId false

/-- `user_timer_reset`. -/
def userTimerReset (t : Table) (timerId : Int) (timeoutMs : UInt32) : Int × Table :=
  onSlot t timerId fun ut => { ut with remainingMs := timeoutMs, initMs := timeoutMs }

/-- `user_timer_destroy`. -/
def userTimerDestroy (t : Table) (timerId : Int) : Int × Table :=
  onSlot t timerId fun ut => { ut with isUsed := false }

/-- `user_timer_get_remaining_ms`. -/
def userTimerGetRemainingMs (t : Table) (timerId : Int) : UInt32 :=
  if timerId < 0 ∨ timerId > userTimerMaxCount then 0
  else if (t timerId.toNat).isUsed then (t timerId.toNat).remainingMs
  else 0

/-- A call that changes the table. -/
inductive TimerCall where
  | create (timeoutMs : UInt32) (autoRestart : Int) (onTimeout : Option Nat) (timeoutPara : Nat)
  | pause (timerId : Int)
  | restore (timerId : Int)
  | reset (timerId : Int) (timeoutMs : UInt32)
  | destroy (timerId : Int)
  deriving DecidableEq, Repr

/-- What a call returns, and the table after it. -/
def TimerCall.run (t : Table) : TimerCall → Int × Table
  | .create timeoutMs autoRestart onTimeout timeoutPara =>
      userTimerCreate t timeoutMs autoRestart onTimeout timeoutPara
  | .pause timerId => userTimerPause t timerId
  | .restore timerId => userTimerRestore t timerId
  | .reset timerId timeoutMs => userTimerReset t timerId timeoutMs
  | .destroy timerId => userTimerDestroy t timerId

/-- The table after some calls. -/
def afterCalls (t : Table) (calls : List TimerCall) : Table :=
  calls.foldl (fun t call => (call.run t).2) t

/-- A call of an `on_timeout`. -/
structure Firing where
  slot : Nat
  onTimeout : Nat
  para : Nat
  deriving DecidableEq, Repr

/-- The call of `on_timeout` for slot `i`, unless it is `NULL`. -/
def UserTimer.firings (i : Nat) (ut : UserTimer) : List Firing :=
  match ut.onTimeout with
  | some onTimeout => [⟨i, onTimeout, ut.para⟩]
  | none => []

/-- The calls of this API that the callbacks of one interrupt make. A callback may choose its calls by
what it reads, by what its calls return or by a state of its own: `code` has the calls that it has made
in the end. -/
abbrev Code := Firing → List TimerCall

/-- The calls that the `on_timeout` of slot `i` makes. -/
def UserTimer.calls (code : Code) (i : Nat) (ut : UserTimer) : List TimerCall :=
  (ut.firings i).flatMap code

/-- After `on_timeout`: the slot is read again, as the callback has left it. -/
def rearm (t : Table) (i : Nat) : Table :=
  Function.update t i
    (if (t i).autoRestart ≠ 0 then { t i with remainingMs := (t i).initMs }
    else { t i with isUsed := false })

/-- The body of the loop of `_user_timer_list_check_in_irq`. -/
def checkSlot (code : Code) (t : Table) (i : Nat) : Table × List Firing :=
  if (t i).isUsed then
    if (t i).isPaused then (t, [])
    else if (t i).remainingMs = 0 then
      (rearm (afterCalls t ((t i).calls code i)) i, (t i).firings i)
    else (Function.update t i { t i with remainingMs := (t i).remainingMs - 1 }, [])
  else (t, [])

/-- The rounds of the loop for some slots. -/
def checkSlots (code : Code) : Table → List Nat → Table × List Firing
  | t, [] => (t, [])
  | t, i :: rest =>
      let (t, first) := checkSlot code t i
      let (t, others) := checkSlots code t rest
      (t, first ++ others)

/-- `_user_timer_list_check_in_irq`. -/
def userTimerListCheckInIrq (code : Code) (t : Table) : Table × List Firing :=
  checkSlots code t (List.range userTimerMaxCount)

/-- The interrupt, or a call outside it. -/
inductive TimerEvent where
  | irq (code : Code)
  | call (call : TimerCall)

def timerStep (t : Table) : TimerEvent → Option Table
  | .irq code => some (userTimerListCheckInIrq code t).1
  | .call call => some (call.run t).2

/-- The callbacks that an event calls. -/
def fired (t : Table) : TimerEvent → List Firing
  | .irq code => (userTimerListCheckInIrq code t).2
  | .call _ => []

/-- The id that an event returns to the creator of a timer. -/
def createdIds (t : Table) : TimerEvent → List Int
  | .call (.create timeoutMs autoRestart onTimeout timeoutPara) =>
      [(userTimerCreate t timeoutMs autoRestart onTimeout timeoutPara).1]
  | _ => []

end YosStm32.Timer
