/-
**`user_timer_create`, statement by statement.**

Any number of tasks call `user_timer_create`, and a switch can come between any two statements:
`_user_timer_interrupt_enable(0)` masks the timer's interrupt and nothing else, and a task that ends its
call unmasks it for all. `CreateFrame` holds the arguments and the locals of a call, and its next
statement. The interrupt comes as a whole, with its callbacks, while it is not masked, and each one brings
its own `Code`.

`TimerMark` is what a run says about its timers: which slot a call has claimed with the store into
`is_used`, what it has returned, and which timers the interrupt has fired, destroyed or reset. The
timers that are live are read off from the marks (`liveTimers`).
-/

import YosStm32.Lib.Threads
import YosStm32.Timer.Callbacks

namespace YosStm32.Timer

open Lib

/-- The arguments of `user_timer_create`. -/
structure TimerArgs where
  timeoutMs : UInt32
  autoRestart : Int
  onTimeout : Option Nat
  timeoutPara : Nat
  deriving DecidableEq, Repr

/-- The next statement of a call. -/
inductive CreatePoint where
  /-- `_user_timer_interrupt_enable(0)`. -/
  | disable
  /-- The loop's condition, and the test of `ut->is_used`. -/
  | test
  /-- The stores into the slot. -/
  | onTimeout
  | para
  | remainingMs
  | initMs
  | autoRestart
  | isPaused
  | isUsed
  /-- `timer_id = i`, and `break`. -/
  | found
  /-- `_user_timer_interrupt_enable(1)`. -/
  | enable
  /-- `return timer_id`. -/
  | leave
  deriving DecidableEq, Repr

/-- A call of `user_timer_create`. -/
structure CreateFrame where
  args : TimerArgs
  i : Nat
  timerId : Int
  point : CreatePoint
  deriving DecidableEq, Repr

/-- `_user_timer_list`, and the enable bit of the timer's interrupt. -/
structure TimerShared where
  table : Table
  irqEnabled : Bool

/-- A store into the slot of a call. -/
def CreateFrame.store (f : CreateFrame) (shared : TimerShared) (ut : UserTimer)
    (next : CreatePoint) : TimerShared × (CreateFrame ⊕ Int) :=
  ({ shared with table := Function.update shared.table f.i ut }, .inl { f with point := next })

/-- One statement: the call goes on, or returns. -/
def createStatement (shared : TimerShared) (f : CreateFrame) : TimerShared × (CreateFrame ⊕ Int) :=
  let ut := shared.table f.i
  match f.point with
  | .disable => ({ shared with irqEnabled := false }, .inl { f with point := .test })
  | .test =>
      if f.i < userTimerMaxCount then
        if ut.isUsed then (shared, .inl { f with i := f.i + 1 })
        else (shared, .inl { f with point := .onTimeout })
      else (shared, .inl { f with point := .enable })
  | .onTimeout => f.store shared { ut with onTimeout := f.args.onTimeout } .para
  | .para => f.store shared { ut with para := f.args.timeoutPara } .remainingMs
  | .remainingMs => f.store shared { ut with remainingMs := f.args.timeoutMs } .initMs
  | .initMs => f.store shared { ut with initMs := f.args.timeoutMs } .autoRestart
  | .autoRestart =>
      f.store shared { ut with autoRestart := UInt8.ofInt f.args.autoRestart } .isPaused
  | .isPaused => f.store shared { ut with isPaused := false } .isUsed
  | .isUsed => f.store shared { ut with isUsed := true } .found
  | .found => (shared, .inl { f with timerId := f.i, point := .enable })
  | .enable => ({ shared with irqEnabled := true }, .inl { f with point := .leave })
  | .leave => (shared, .inr f.timerId)

/-- A call at its first statement. -/
def TimerArgs.frame (args : TimerArgs) : CreateFrame := ⟨args, 0, -1, .disable⟩

/-- What the running task or the interrupt does. -/
inductive TimerAction where
  | begin (args : TimerArgs)
  | statement
  | irq (code : Code)

/-- One action; the interrupt leaves the task's own state alone. -/
def timerAct (_task : Nat) :
    TimerAction → TimerShared → Option CreateFrame → Option (TimerShared × Option CreateFrame)
  | .begin args, shared, none => some (shared, some args.frame)
  | .statement, shared, some f =>
      match createStatement shared f with
      | (shared, .inl f) => some (shared, some f)
      | (shared, .inr _) => some (shared, none)
  | .irq code, shared, own =>
      if shared.irqEnabled then
        some ({ shared with table := (userTimerListCheckInIrq code shared.table).1 }, own)
      else none
  | _, _, _ => none

/-! ### What a run says about its timers -/

inductive TimerMark where
  /-- A call of a task has claimed slot `id`. -/
  | claimed (task : Nat) (args : TimerArgs) (id : Nat)
  /-- A call of a task has returned `id`. -/
  | returned (task : Nat) (args : TimerArgs) (id : Nat)
  /-- The timer in slot `id` has fired or is destroyed. -/
  | lost (id : Nat)
  /-- `user_timer_reset(id, timeoutMs)`. -/
  | reset (id : Nat) (timeoutMs : UInt32)
  deriving DecidableEq, Repr

/-- The task of a mark, `none` when it is from the interrupt. -/
def TimerMark.task : TimerMark → Option Nat
  | .claimed task _ _ | .returned task _ _ => some task
  | .lost _ | .reset _ _ => none

/-- The last mark of a task. -/
def lastMark (task : Nat) (marks : List TimerMark) : Option TimerMark :=
  (marks.filter fun mark => mark.task = some task).getLast?

/-- The mark of a statement. -/
def CreateFrame.marks (f : CreateFrame) (task : Nat) : List TimerMark :=
  if f.point = .isUsed then [.claimed task f.args f.i]
  else if f.point = .leave ∧ 0 ≤ f.timerId then [.returned task f.args f.timerId.toNat]
  else []

/-- The mark of a call that a callback makes. -/
def TimerCall.mark : TimerCall → Option TimerMark
  | .reset timerId timeoutMs => if 0 ≤ timerId then some (.reset timerId.toNat timeoutMs) else none
  | .destroy timerId => if 0 ≤ timerId then some (.lost timerId.toNat) else none
  | _ => none

/-- The timer fires in its round. -/
def UserTimer.Due (ut : UserTimer) : Prop :=
  ut.isUsed = true ∧ ut.isPaused = false ∧ ut.remainingMs = 0

instance : DecidablePred UserTimer.Due :=
  fun ut => inferInstanceAs (Decidable (ut.isUsed = true ∧ ut.isPaused = false ∧ ut.remainingMs = 0))

/-- The round of a timer that does not fire ticks it. -/
theorem checkSlot_waits {t : Table} {i : Nat} (waits : ¬ (t i).Due) (code : Code) :
    (checkSlot code t i).1 = Function.update t i (t i).tick := by
  rw [checkSlot, UserTimer.tick]
  by_cases used : (t i).isUsed = true
  · by_cases paused : (t i).isPaused = true
    · simp [used, paused]
    · have left : (t i).remainingMs ≠ 0 := fun zero => waits ⟨used, by simpa using paused, zero⟩
      simp [used, paused, left]
  · simp [used]

/-- It stays as it is, or it counts down. -/
theorem UserTimer.tick_waits {ut : UserTimer} (waits : ¬ ut.Due) :
    ut.tick = ut ∨ ut.remainingMs ≠ 0 ∧ ut.tick = { ut with remainingMs := ut.remainingMs - 1 } := by
  rw [UserTimer.tick]
  split_ifs with active zero
  · exact absurd ⟨active.1, active.2, zero⟩ waits
  · exact absurd ⟨active.1, active.2, zero⟩ waits
  · exact Or.inr ⟨zero, rfl⟩
  · exact Or.inl rfl

/-- The marks of one round of the interrupt's loop. -/
def roundMarks (code : Code) (t : Table) (i : Nat) : List TimerMark :=
  if (t i).Due then .lost i :: ((t i).calls code i).filterMap TimerCall.mark else []

/-- The marks of some rounds. -/
def irqMarks (code : Code) : Table → List Nat → List TimerMark
  | _, [] => []
  | t, i :: rest => roundMarks code t i ++ irqMarks code (checkSlot code t i).1 rest

/-- The slots that some calls take. -/
def callsTake : Table → List TimerCall → List Nat
  | _, [] => []
  | t, call :: calls =>
      (match call with
      | .create .. => (firstFree t).toList
      | _ => []) ++ callsTake (call.run t).2 calls

/-- The slots that the callbacks take in some rounds. -/
def irqTakes (code : Code) : Table → List Nat → List Nat
  | _, [] => []
  | t, i :: rest =>
      (if (t i).Due then callsTake t ((t i).calls code i) else []) ++
        irqTakes code (checkSlot code t i).1 rest

/-- The state of the system: the table and every task's call. -/
abbrev Creators := Threads TimerShared (Option CreateFrame)

def timerMarks (s : Creators) : ThreadEvent TimerAction → List TimerMark
  | .act .statement => (s.locals s.running).elim [] fun f => f.marks s.running
  | .act (.irq code) => irqMarks code s.shared.table (List.range userTimerMaxCount)
  | _ => []

/-- The live timers after one more mark: the arguments, with the timeout set last, and the id. -/
def liveStep (live : List (TimerArgs × Nat)) : TimerMark → List (TimerArgs × Nat)
  | .claimed _ args id => live ++ [(args, id)]
  | .returned .. => live
  | .lost id => live.filter fun timer => timer.2 ≠ id
  | .reset id timeoutMs =>
      live.map fun timer =>
        if timer.2 = id then ({ timer.1 with timeoutMs := timeoutMs }, timer.2) else timer

/-- The timers that tasks have claimed and that have neither fired nor been destroyed since. -/
def liveTimers (marks : List TimerMark) : List (TimerArgs × Nat) := marks.foldl liveStep []

/-! ### A call that is not interrupted -/

/-- The slot when the stores from a point on are done. -/
def TimerArgs.finish (args : TimerArgs) : CreatePoint → UserTimer → UserTimer
  | .onTimeout, _ =>
      createdTimer args.timeoutMs args.autoRestart args.onTimeout args.timeoutPara
  | .para, ut =>
      { ut with
        para := args.timeoutPara, remainingMs := args.timeoutMs, initMs := args.timeoutMs
        autoRestart := UInt8.ofInt args.autoRestart, isPaused := false, isUsed := true }
  | .remainingMs, ut =>
      { ut with
        remainingMs := args.timeoutMs, initMs := args.timeoutMs
        autoRestart := UInt8.ofInt args.autoRestart, isPaused := false, isUsed := true }
  | .initMs, ut =>
      { ut with
        initMs := args.timeoutMs, autoRestart := UInt8.ofInt args.autoRestart
        isPaused := false, isUsed := true }
  | .autoRestart, ut =>
      { ut with
        autoRestart := UInt8.ofInt args.autoRestart, isPaused := false, isUsed := true }
  | .isPaused, ut => { ut with isPaused := false, isUsed := true }
  | .isUsed, ut => { ut with isUsed := true }
  | _, ut => ut

/-- The points of the stores: the call has found its slot free, and has not claimed it yet. -/
def CreatePoint.stores : CreatePoint → Bool
  | .onTimeout | .para | .remainingMs | .initMs | .autoRestart | .isPaused | .isUsed => true
  | _ => false

/-- **What one statement does.** -/
inductive StatementFor (shared : TimerShared) (f : CreateFrame) :
    TimerShared × (CreateFrame ⊕ Int) → Prop where
  /-- The call goes on looking, or has found no slot. -/
  | scan {irqEnabled : Bool} {i : Nat} {next : CreatePoint}
      (place : f.point = .disable ∨ f.point = .test) (next' : next = .test ∨ next = .enable) :
      StatementFor shared f
        ({ shared with irqEnabled := irqEnabled }, .inl { f with i := i, point := next })
  /-- A free slot is found. -/
  | free (place : f.point = .test) (inside : f.i < userTimerMaxCount)
      (free : (shared.table f.i).isUsed = false) :
      StatementFor shared f (shared, .inl { f with point := .onTimeout })
  /-- A store that does not claim the slot. -/
  | store {ut : UserTimer} {next : CreatePoint} (window : f.point.stores = true)
      (marks : ∀ task, f.marks task = []) (window' : next.stores = true)
      (used : ut.isUsed = (shared.table f.i).isUsed)
      (finish : f.args.finish next ut = f.args.finish f.point (shared.table f.i)) :
      StatementFor shared f (f.store shared ut next)
  /-- The store that does. -/
  | claim (place : f.point = .isUsed) :
      StatementFor shared f (f.store shared (f.args.finish .isUsed (shared.table f.i)) .found)
  | found (place : f.point = .found) :
      StatementFor shared f (shared, .inl { f with timerId := f.i, point := .enable })
  | enable (place : f.point = .enable) :
      StatementFor shared f ({ shared with irqEnabled := true }, .inl { f with point := .leave })
  | leave (place : f.point = .leave) : StatementFor shared f (shared, .inr f.timerId)

theorem createStatement_for (shared : TimerShared) (f : CreateFrame) :
    StatementFor shared f (createStatement shared f) := by
  rcases f with ⟨args, i, timerId, point⟩
  cases point with
  | disable => exact .scan (Or.inl rfl) (Or.inl rfl)
  | test =>
      rw [createStatement]
      dsimp only
      split_ifs with inside used
      · exact .scan (Or.inr rfl) (Or.inl rfl)
      · exact .free rfl inside (by simpa using used)
      · exact .scan (Or.inr rfl) (Or.inr rfl)
  | onTimeout | para | remainingMs | initMs | autoRestart | isPaused =>
      exact .store rfl (fun _ => rfl) rfl rfl rfl
  | isUsed => exact .claim rfl
  | found => exact .found rfl
  | enable => exact .enable rfl
  | leave => exact .leave rfl

/-- The loop, once the slots before `i` are found in use. -/
theorem loop_alone (shared : TimerShared) (args : TimerArgs) (left i : Nat)
    (count : left + i = userTimerMaxCount) (before : ∀ j, j < i → (shared.table j).isUsed = true) :
    let made := userTimerCreate shared.table args.timeoutMs args.autoRestart args.onTimeout
      args.timeoutPara
    ∃ fuel, runAlone createStatement fuel shared ⟨args, i, -1, .test⟩ =
      some (⟨made.2, true⟩, made.1) := by
  intro made
  induction left generalizing i with
  | zero =>
      have full : firstFree shared.table = none := by
        refine List.find?_eq_none.mpr fun j member => ?_
        rw [List.mem_range] at member
        simp [before j (by omega)]
      have result : made = (-1, shared.table) := by
        show userTimerCreate .. = _
        rw [userTimerCreate, full]
      have outside : ¬ i < userTimerMaxCount := by omega
      refine ⟨3, ?_⟩
      rw [result]
      simp [runAlone, createStatement, outside]
  | succ left ih =>
      have inside : i < userTimerMaxCount := by omega
      cases used : (shared.table i).isUsed with
      | true =>
          have before' : ∀ j, j < i + 1 → (shared.table j).isUsed = true := by
            intro j below
            rcases Nat.lt_succ_iff_lt_or_eq.mp below with earlier | rfl
            · exact before j earlier
            · exact used
          obtain ⟨fuel, alone⟩ := ih (i + 1) (by omega) before'
          refine ⟨fuel + 1, (runAlone_next ?_).trans alone⟩
          simp [createStatement, inside, used]
      | false =>
          have found : firstFree shared.table = some i := by
            refine List.find?_range_eq_some.mpr ⟨by simp [used], List.mem_range.mpr inside, ?_⟩
            intro j below
            simp [before j below]
          refine ⟨11, ?_⟩
          rw [show made = userTimerCreate .. from rfl, userTimerCreate, found]
          simp [runAlone, createStatement, CreateFrame.store, inside, used]

/-- **Without interruption** the statements are `user_timer_create`. -/
theorem createStatement_alone (shared : TimerShared) (args : TimerArgs) :
    let made := userTimerCreate shared.table args.timeoutMs args.autoRestart args.onTimeout
      args.timeoutPara
    ∃ fuel, runAlone createStatement fuel shared args.frame = some (⟨made.2, true⟩, made.1) := by
  intro made
  obtain ⟨fuel, alone⟩ := loop_alone { shared with irqEnabled := false } args userTimerMaxCount 0 rfl
    fun j below => absurd below (Nat.not_lt_zero j)
  exact ⟨fuel + 1, (runAlone_next rfl).trans alone⟩

end YosStm32.Timer
