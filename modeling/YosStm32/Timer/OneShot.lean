/-
**One-shot timers.**

`Meter` is what the creator of a timer can see: the timeout that was set last, the interrupts counted
since then, and the pause. It is read off from the events, whatever the table does. As long as no
interrupt has found the meter due, the slot agrees with it (`Pending`), because no event on another
slot reaches this one; the first interrupt that finds it due calls the callback and frees the slot,
and a free slot stays free until its id is handed out again.
-/

import YosStm32.Timer.Slot

namespace YosStm32.Timer

open Lib

structure Meter where
  timeout : UInt32
  counted : Nat
  paused : Bool
  deriving DecidableEq, Repr

/-- A call on timer `id`. -/
def Meter.call (id : Nat) (m : Meter) : TimerCall → Meter
  | .pause timerId => if timerId = id then { m with paused := true } else m
  | .restore timerId => if timerId = id then { m with paused := false } else m
  | .reset timerId timeoutMs =>
      if timerId = id then { m with timeout := timeoutMs, counted := 0 } else m
  | _ => m

theorem Meter.call_reset (id : Nat) (m : Meter) (timeoutMs : UInt32) :
    m.call id (.reset id timeoutMs) = { m with timeout := timeoutMs, counted := 0 } :=
  if_pos rfl

/-- Other calls leave the timeout and the count. -/
theorem Meter.call_other {id : Nat} (m : Meter) {call : TimerCall}
    (other : ∀ timeoutMs, call ≠ .reset id timeoutMs) :
    (m.call id call).timeout = m.timeout ∧ (m.call id call).counted = m.counted := by
  cases call with
  | reset timerId timeoutMs =>
      have notOwn : ¬ timerId = id := by
        rintro rfl
        exact other timeoutMs rfl
      rw [Meter.call, if_neg notOwn]
      exact ⟨rfl, rfl⟩
  | create | destroy => exact ⟨rfl, rfl⟩
  | _ =>
      simp only [Meter.call]
      split_ifs <;> exact ⟨rfl, rfl⟩

/-- An interrupt counts unless the timer is paused. -/
def Meter.see (id : Nat) (m : Meter) : TimerEvent → Meter
  | .irq _ => if m.paused then m else { m with counted := m.counted + 1 }
  | .call call => m.call id call

/-- The next interrupt is the one that calls the callback. -/
def Meter.Due (m : Meter) : Prop := m.paused = false ∧ m.counted = m.timeout.toNat

instance (m : Meter) : Decidable m.Due := inferInstanceAs (Decidable (_ ∧ _))

/-- The meter of a timer that was created with timeout `n`, after some events. -/
def meter (id : Nat) (n : UInt32) (events : List TimerEvent) : Meter :=
  events.foldl (Meter.see id) ⟨n, 0, false⟩

/-- A pause is seen by the slot and by the meter. -/
theorem Meter.call_paused {id : Nat} {m : Meter} {ut : UserTimer} (paused : ut.isPaused = m.paused)
    (call : TimerCall) : (ut.call id call).isPaused = (m.call id call).paused := by
  cases call with
  | create => exact paused
  | pause timerId =>
      simp only [Meter.call, UserTimer.call]
      split_ifs
      · rfl
      · exact paused
  | restore timerId =>
      simp only [Meter.call, UserTimer.call]
      split_ifs
      · rfl
      · exact paused
  | reset timerId timeoutMs =>
      simp only [Meter.call, UserTimer.call]
      split_ifs <;> exact paused
  | destroy timerId =>
      simp only [Meter.call, UserTimer.call]
      split_ifs <;> exact paused

/-- The slot of a one-shot timer agrees with its meter. -/
structure Pending (onTimeout : Option Nat) (para : Nat) (m : Meter) (ut : UserTimer) : Prop where
  used : ut.isUsed = true
  once : ut.autoRestart = 0
  paused : ut.isPaused = m.paused
  counted : ut.remainingMs.toNat + m.counted = m.timeout.toNat
  onTimeout : ut.onTimeout = onTimeout
  para : ut.para = para

namespace Pending

variable {onTimeout : Option Nat} {para id : Nat} {m : Meter} {ut : UserTimer}

theorem call (pending : Pending onTimeout para m ut) {call : TimerCall}
    (kept : call ≠ .destroy id) : Pending onTimeout para (m.call id call) (ut.call id call) := by
  obtain ⟨used, once, paused, counted, rfl, rfl⟩ := pending
  obtain ⟨onTimeout, para, autoRestart⟩ := UserTimer.call_kept id ut call
  refine ⟨(UserTimer.call_used used).mpr kept, autoRestart.trans once,
    Meter.call_paused paused call, ?_, onTimeout, para⟩
  rcases UserTimer.call_timeouts id ut call with ⟨timeoutMs, rfl, remaining, -⟩ | ⟨other, remaining, -⟩
  · rw [remaining, Meter.call_reset]
    exact Nat.add_zero _
  · rw [remaining, (m.call_other other).1, (m.call_other other).2]
    exact counted

/-- An interrupt that does not find the meter due counts, or passes a paused timer. -/
theorem tick (pending : Pending onTimeout para m ut) (early : ¬ m.Due) (code : Code) :
    Pending onTimeout para (m.see id (.irq code)) ut.tick ∧ ut.tickFirings id = [] := by
  obtain ⟨used, once, paused, counted, same, samePara⟩ := pending
  cases stopped : m.paused with
  | true =>
      have notRunning : ut.isPaused ≠ false := by simp [paused, stopped]
      rw [Meter.see, if_pos stopped, UserTimer.tick, if_neg fun active => notRunning active.2,
        UserTimer.tickFirings, if_neg fun active => notRunning active.2.1]
      exact ⟨⟨used, once, paused, counted, same, samePara⟩, rfl⟩
  | false =>
      have running : ut.isPaused = false := paused.trans stopped
      have notStopped : ¬ m.paused = true := by simp [stopped]
      have left : ut.remainingMs.toNat ≠ 0 := fun zero => early ⟨stopped, by omega⟩
      have nonzero : ut.remainingMs ≠ 0 := by
        intro zero
        exact left (by rw [zero]; rfl)
      have minus := toNat_pred nonzero
      rw [Meter.see, if_neg notStopped, UserTimer.tick, if_pos ⟨used, running⟩, if_neg nonzero,
        UserTimer.tickFirings, if_neg fun active => nonzero active.2.2]
      refine ⟨⟨used, once, paused, ?_, same, samePara⟩, rfl⟩
      show (ut.remainingMs - 1).toNat + (m.counted + 1) = m.timeout.toNat
      omega

/-- The interrupt that finds the meter due. -/
theorem due (pending : Pending onTimeout para m ut) (due : m.Due) :
    ut.tick.isUsed = false ∧
      ut.tickFirings id = onTimeout.toList.map fun callback => ⟨id, callback, para⟩ := by
  obtain ⟨used, once, paused, counted, rfl, rfl⟩ := pending
  obtain ⟨running, all⟩ := due
  have zero : ut.remainingMs = 0 := by
    refine UInt32.toNat_inj.mp ?_
    show ut.remainingMs.toNat = 0
    omega
  rw [running] at paused
  rw [UserTimer.tick, UserTimer.tickFirings, UserTimer.firings]
  cases callback : ut.onTimeout <;> simp [used, paused, zero, once]

end Pending

section Runs

variable {id : Nat} (valid : id < userTimerMaxCount)

include valid

/-- Until an interrupt finds the meter due, nothing but the timer's own events counts. -/
theorem pending_run {onTimeout : Option Nat} {para : Nat} {events : List TimerEvent} {t last : Table}
    {m : Meter} (quiet : AllQuiet events) (start : Pending onTimeout para m (t id))
    (kept : .call (.destroy id) ∉ events)
    (early : ∀ before code after, events = before ++ .irq code :: after →
      ¬ (before.foldl (Meter.see id) m).Due)
    (run : runEvents timerStep t events = some last) :
    Pending onTimeout para (events.foldl (Meter.see id) m) (last id) ∧
      firingsOf id (emitted timerStep fired t events) = [] := by
  induction events generalizing t m with
  | nil =>
      cases run
      exact ⟨start, rfl⟩
  | cons event events ih =>
      obtain ⟨next, one, run⟩ := runEvents_cons.mp run
      have first : Pending onTimeout para (m.see id event) (next id) ∧
          firingsOf id (fired t event) = [] := by
        cases event with
        | irq code =>
            cases one
            obtain ⟨table, firings⟩ := irq_apply quiet.head valid t
            rw [table, fired, firings]
            exact start.tick (early [] code events rfl) code
        | call call =>
            cases one
            have other : call ≠ .destroy id := by
              rintro rfl
              exact kept (List.mem_cons_self ..)
            rw [run_apply_of_used valid start.used]
            exact ⟨start.call other, rfl⟩
      obtain ⟨pending, none⟩ := ih quiet.tail first.1 (fun later => kept (List.mem_cons_of_mem _ later))
        (fun before code after split =>
          early (event :: before) code after (congrArg (event :: ·) split)) run
      refine ⟨pending, ?_⟩
      rw [emitted_cons one, firingsOf_append, first.2, none]
      rfl

/-- A free slot stays free until its id is handed out. -/
theorem free_run {events : List TimerEvent} {t last : Table} (quiet : AllQuiet events)
    (start : (t id).isUsed = false)
    (unused : (id : Int) ∉ emitted timerStep createdIds t events)
    (run : runEvents timerStep t events = some last) :
    (last id).isUsed = false ∧ firingsOf id (emitted timerStep fired t events) = [] := by
  induction events generalizing t with
  | nil =>
      cases run
      exact ⟨start, rfl⟩
  | cons event events ih =>
      obtain ⟨next, one, run⟩ := runEvents_cons.mp run
      rw [emitted_cons one, List.mem_append, not_or] at unused
      have first : (next id).isUsed = false ∧ firingsOf id (fired t event) = [] := by
        cases event with
        | irq code =>
            cases one
            obtain ⟨table, firings⟩ := irq_apply quiet.head valid t
            rw [table, fired, firings, UserTimer.tick, UserTimer.tickFirings]
            simp [start]
        | call call =>
            cases one
            refine ⟨?_, rfl⟩
            rcases run_apply_of_free valid start call with
              ⟨same, _⟩ | ⟨timeoutMs, autoRestart, onTimeout, timeoutPara, found, rfl, _⟩
            · rw [same]
              exact start
            · refine absurd ?_ unused.1
              rw [createdIds, List.mem_singleton]
              exact (userTimerCreate_fst_eq.mpr found).symm
      obtain ⟨free, none⟩ := ih quiet.tail first.1 unused.2 run
      refine ⟨free, ?_⟩
      rw [emitted_cons one, firingsOf_append, first.2, none]
      rfl

end Runs

/-- **One-shot timers are exact.** Timer `id` has been created with `auto_restart = 0`, `events` do
not destroy it, and no interrupt among them has found its meter due. Then it is in use with the rest
of its time, and has not called back. When the meter is due, the next interrupt calls back and frees
the slot, and nothing calls back for the slot until the id is handed out again. -/
theorem userTimer_oneShot {table started now : Table} {n : UInt32} {onTimeout : Option Nat}
    {para id : Nat} {events : List TimerEvent} (quiet : AllQuiet events)
    (created : userTimerCreate table n 0 onTimeout para = ((id : Int), started))
    (kept : .call (.destroy id) ∉ events)
    (early : ∀ before code after, events = before ++ .irq code :: after → ¬ (meter id n before).Due)
    (run : runEvents timerStep started events = some now) :
    (now id).isUsed = true ∧
      (userTimerGetRemainingMs now id).toNat + (meter id n events).counted =
        (meter id n events).timeout.toNat ∧
      firingsOf id (emitted timerStep fired started events) = [] ∧
      ((meter id n events).Due → ∀ code next after last,
        AllQuiet (.irq code :: after) → timerStep now (.irq code) = some next →
        runEvents timerStep next after = some last →
        (id : Int) ∉ emitted timerStep createdIds next after →
          firingsOf id (fired now (.irq code)) =
            (onTimeout.toList.map fun callback => ⟨id, callback, para⟩) ∧
          (next id).isUsed = false ∧ (last id).isUsed = false ∧
          firingsOf id (emitted timerStep fired next after) = []) := by
  have found : firstFree table = some id :=
    userTimerCreate_fst_eq.mp (congrArg Prod.fst created)
  have valid : id < userTimerMaxCount := (firstFree_eq_some found).1
  have start : Pending onTimeout para ⟨n, 0, false⟩ (started id) := by
    have same : started = _ := (congrArg Prod.snd created).symm.trans (userTimerCreate_snd_eq found)
    rw [same, Function.update_self]
    exact ⟨rfl, rfl, rfl, rfl, rfl, rfl⟩
  obtain ⟨pending, none⟩ := pending_run valid quiet start kept early run
  refine ⟨pending.used, ?_, none, fun due code next after last quiet one run unused => ?_⟩
  · have inside : ¬ ((id : Int) < 0 ∨ (id : Int) > userTimerMaxCount) := by omega
    rw [userTimerGetRemainingMs, if_neg inside, Int.toNat_natCast, if_pos pending.used]
    exact pending.counted
  · cases one
    obtain ⟨ticked, firings⟩ := irq_apply quiet.head valid now
    obtain ⟨freed, called⟩ : _ ∧ (now id).tickFirings id = _ := pending.due due
    have free : ((userTimerListCheckInIrq code now).1 id).isUsed = false := by
      rw [ticked]
      exact freed
    obtain ⟨still, silent⟩ := free_run valid quiet.tail free unused run
    exact ⟨firings.trans called, free, still, silent⟩

/-- Slot 0 is a periodic timer; the other slots were paused when they were given up. -/
def onePeriodic : Table := fun i =>
  { onTimeout := some 7, para := 0, remainingMs := 3, initMs := 3, autoRestart := 1,
    isPaused := decide (i ≠ 0), isUsed := decide (i = 0) }

/-- The timer with id 1 counts one interrupt, and misses one. -/
def oneShotEvents : List TimerEvent :=
  [.irq noCalls, .call (.pause 1), .irq noCalls, .call (.restore 1)]

theorem userTimer_oneShot_onePeriodic :
    ∃ started now next last : Table,
      userTimerCreate onePeriodic 1 0 (some 5) 9 = (1, started) ∧
      runEvents timerStep started oneShotEvents = some now ∧
      timerStep now (.irq noCalls) = some next ∧
      runEvents timerStep next [.irq noCalls] = some last ∧
      (now 1).isUsed = true ∧ (userTimerGetRemainingMs now 1).toNat + 1 = 1 ∧
      firingsOf 1 (fired now (.irq noCalls)) = [⟨1, 5, 9⟩] ∧ (last 1).isUsed = false := by
  have early : ∀ before code after, oneShotEvents = before ++ .irq code :: after →
      ¬ (meter 1 1 before).Due := by
    intro before code after split
    rcases before with _ | ⟨_, _ | ⟨_, _ | ⟨_, _ | ⟨_, _⟩⟩⟩⟩ <;>
      simp only [oneShotEvents, List.nil_append, List.cons_append, List.cons.injEq, reduceCtorEq,
        false_and, and_false, List.nil_eq, List.append_eq_nil_iff] at split
    · decide
    · obtain ⟨rfl, rfl, -⟩ := split
      decide
  have quiet {events : List TimerEvent} (irqs : ∀ code, .irq code ∈ events → code = noCalls) :
      AllQuiet events := fun code member => irqs code member ▸ noCalls_quiet
  have created : userTimerCreate onePeriodic 1 0 (some 5) 9 =
      (((1 : Nat) : Int), (userTimerCreate onePeriodic 1 0 (some 5) 9).2) := rfl
  obtain ⟨used, remaining, _, later⟩ :=
    userTimer_oneShot (quiet (by simp [oneShotEvents])) created (by simp [oneShotEvents]) early rfl
  obtain ⟨called, _, free, _⟩ := later (by decide) noCalls _ [.irq noCalls] _ (quiet (by simp)) rfl rfl
    (by decide)
  exact ⟨_, _, _, _, rfl, rfl, rfl, rfl, used, remaining, called, free⟩

end YosStm32.Timer
