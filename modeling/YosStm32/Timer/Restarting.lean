/-
**Timers that restart.**

A timer that restarts stays in its slot through pauses, restores, resets and interrupts, and each
interrupt that fires it loads the timeout that its meter shows (`Restarting.run`). `user_timer_create`
takes an `int` and stores its low byte: when that is 0 the timer counts its time down once, as a
one-shot timer does (`Pending`), and is freed.
-/

import YosStm32.Timer.Periodic

namespace YosStm32.Timer

open Lib

/-- A timer in use that restarts with the timeout of its meter. -/
structure Restarting (onTimeout : Option Nat) (para : Nat) (m : Meter) (ut : UserTimer) : Prop where
  used : ut.isUsed = true
  again : ut.autoRestart ≠ 0
  initMs : ut.initMs = m.timeout
  paused : ut.isPaused = m.paused
  onTimeout : ut.onTimeout = onTimeout
  para : ut.para = para

/-- Timer `id`, created with timeout `n`, stays in use with its callback until it is destroyed, and each
interrupt that fires it arms it again with the timeout that was set last; no callback makes a call. -/
def Lasts (id : Nat) (n : UInt32) (onTimeout : Option Nat) (para : Nat) (started : Table) : Prop :=
  ∀ events now, AllQuiet events → .call (.destroy id) ∉ events →
    runEvents timerStep started events = some now →
      ((now id).isUsed = true ∧ (now id).onTimeout = onTimeout ∧ (now id).para = para) ∧
      ∀ code next, Quiet code → timerStep now (.irq code) = some next → (now id).Due →
        (next id).isUsed = true ∧ (next id).isPaused = false ∧
          (next id).remainingMs = (meter id n events).timeout

namespace Restarting

variable {onTimeout : Option Nat} {para id : Nat} {m : Meter} {ut : UserTimer}

theorem call (restarting : Restarting onTimeout para m ut) {call : TimerCall}
    (kept : call ≠ .destroy id) : Restarting onTimeout para (m.call id call) (ut.call id call) := by
  obtain ⟨used, again, initMs, paused, rfl, rfl⟩ := restarting
  obtain ⟨onTimeout, para, autoRestart⟩ := UserTimer.call_kept id ut call
  refine ⟨(UserTimer.call_used used).mpr kept, ?_, ?_, Meter.call_paused paused call, onTimeout, para⟩
  · rw [autoRestart]
    exact again
  · rcases UserTimer.call_timeouts id ut call with ⟨timeoutMs, rfl, -, reset⟩ | ⟨other, -, same⟩
    · rw [reset, Meter.call_reset]
    · rw [same, (m.call_other other).1]
      exact initMs

theorem tick (restarting : Restarting onTimeout para m ut) (code : Code) :
    Restarting onTimeout para (m.see id (.irq code)) ut.tick := by
  obtain ⟨used, again, initMs, paused, same, samePara⟩ := restarting
  have counted : Restarting onTimeout para (m.see id (.irq code)) ut := by
    rw [Meter.see]
    split_ifs <;> exact ⟨used, again, initMs, paused, same, samePara⟩
  rw [UserTimer.tick]
  split_ifs <;>
    exact ⟨counted.used, counted.again, counted.initMs, counted.paused, counted.onTimeout, counted.para⟩

/-- The interrupt that fires it. -/
theorem fire (restarting : Restarting onTimeout para m ut) (due : ut.Due) :
    ut.tick.remainingMs = m.timeout := by
  rw [UserTimer.tick, if_pos ⟨due.1, due.2.1⟩, if_pos due.2.2, if_pos restarting.again]
  exact restarting.initMs

theorem run (valid : id < userTimerMaxCount) {t now : Table} {events : List TimerEvent}
    (quiet : AllQuiet events) (start : Restarting onTimeout para m (t id))
    (kept : .call (.destroy id) ∉ events) (run : runEvents timerStep t events = some now) :
    Restarting onTimeout para (events.foldl (Meter.see id) m) (now id) := by
  induction events generalizing t m with
  | nil =>
      cases run
      exact start
  | cons event events ih =>
      obtain ⟨next, one, run⟩ := runEvents_cons.mp run
      refine ih quiet.tail ?_ (fun later => kept (List.mem_cons_of_mem _ later)) run
      cases event with
      | irq code =>
          cases one
          rw [(irq_apply quiet.head valid t).1]
          exact start.tick code
      | call call =>
          cases one
          rw [run_apply_of_used valid start.used]
          refine start.call ?_
          rintro rfl
          exact kept (List.mem_cons_self ..)

end Restarting

/-- Interrupts alone, before the timer is due for the first time. -/
theorem meter_irqs (id : Nat) (n : UInt32) (k : Nat) :
    meter id n (quietIrqs k) = ⟨n, k, false⟩ := by
  induction k with
  | zero => rfl
  | succ k ih =>
      rw [quietIrqs, List.replicate_succ', meter, List.foldl_append]
      exact congrArg (fun m => Meter.see id m (.irq noCalls)) ih

/-- **A timer restarts for ever exactly when the low byte of its `auto_restart` is not 0.** -/
theorem userTimer_lasts_iff {table started : Table} {n : UInt32} {autoRestart : Int}
    {onTimeout : Option Nat} {para id : Nat}
    (created : userTimerCreate table n autoRestart onTimeout para = ((id : Int), started)) :
    Lasts id n onTimeout para started ↔ autoRestart % 256 ≠ 0 := by
  have found : firstFree table = some id := userTimerCreate_fst_eq.mp (congrArg Prod.fst created)
  have valid : id < userTimerMaxCount := (firstFree_eq_some found).1
  have new : started id = createdTimer n autoRestart onTimeout para := by
    have same : started = _ := (congrArg Prod.snd created).symm.trans (userTimerCreate_snd_eq found)
    rw [same, Function.update_self]
  constructor
  · intro lasts zero
    have once : (started id).autoRestart = 0 := by
      rw [new]
      exact (ofInt_eq_zero autoRestart).mpr zero
    have start : Pending onTimeout para ⟨n, 0, false⟩ (started id) := by
      refine ⟨?_, once, ?_, ?_, ?_, ?_⟩ <;> rw [new] <;> rfl
    -- `n` interrupts count the time down, and the next one fires
    have early : ∀ before code after, quietIrqs n.toNat = before ++ .irq code :: after →
        ¬ (before.foldl (Meter.see id) ⟨n, 0, false⟩).Due := by
      intro before code after split due
      have only : before = quietIrqs before.length :=
        List.eq_replicate_of_mem fun event member =>
          eq_of_mem_quietIrqs (split ▸ List.mem_append_left _ member)
      have counted := meter_irqs id n before.length
      rw [← only] at counted
      have length := congrArg List.length split
      rw [quietIrqs, List.length_replicate, List.length_append, List.length_cons] at length
      have all : (meter id n before).counted = n.toNat := due.2.trans (by rw [← meter, counted])
      rw [counted] at all
      dsimp only at all
      omega
    have kept (count : Nat) : TimerEvent.call (.destroy id) ∉ quietIrqs count := fun member => by
      cases eq_of_mem_quietIrqs member
    obtain ⟨now, run⟩ := run_isSome started (quietIrqs n.toNat)
    obtain ⟨pending, -⟩ := pending_run valid (allQuiet_quietIrqs _) start (kept _) early run
    have elapsed : (meter id n (quietIrqs n.toNat)).Due := by
      rw [meter_irqs]
      exact ⟨rfl, rfl⟩
    obtain ⟨free, -⟩ : _ ∧ (now id).tickFirings id = _ := pending.due elapsed
    have more : quietIrqs (n.toNat + 1) = quietIrqs n.toNat ++ [.irq noCalls] := List.replicate_succ'
    have fires : runEvents timerStep started (quietIrqs (n.toNat + 1)) =
        some (userTimerListCheckInIrq noCalls now).1 := by
      rw [more]
      exact runEvents_append.mpr ⟨now, run, rfl⟩
    have used := (lasts _ _ (allQuiet_quietIrqs _) (kept _) fires).1.1
    rw [(irq_apply noCalls_quiet valid now).1, free] at used
    cases used
  · intro lowByte events now quiet kept run
    have start : Restarting onTimeout para ⟨n, 0, false⟩ (started id) := by
      rw [new]
      exact ⟨rfl, fun zero => lowByte ((ofInt_eq_zero autoRestart).mp zero), rfl, rfl, rfl, rfl⟩
    have restarting := start.run valid quiet kept run
    refine ⟨⟨restarting.used, restarting.onTimeout, restarting.para⟩, fun code next silent one due => ?_⟩
    cases one
    obtain ⟨ticked, -⟩ := irq_apply silent valid now
    rw [ticked]
    have again : Restarting onTimeout para (Meter.see id _ (.irq code)) (now id).tick :=
      restarting.tick code
    refine ⟨again.used, ?_, restarting.fire due⟩
    rw [UserTimer.tick, if_pos ⟨due.1, due.2.1⟩, if_pos due.2.2, if_pos restarting.again]
    exact due.2.1

theorem userTimer_lasts_iff_minusOne :
    ∃ started, userTimerCreate noTimers 3 (-1) (some 7) 5 = (0, started) ∧
      Lasts 0 3 (some 7) 5 started := by
  have created : userTimerCreate noTimers 3 (-1) (some 7) 5 =
      (((0 : Nat) : Int), (userTimerCreate noTimers 3 (-1) (some 7) 5).2) := rfl
  exact ⟨_, created, (userTimer_lasts_iff created).mpr (by decide)⟩

/-- With `auto_restart = 256` a timer is gone after it has fired once. -/
theorem userTimer_lasts_not_256 :
    ∃ started, userTimerCreate noTimers 0 256 (some 7) 5 = (0, started) ∧
      firingsOf 0 (fired started (.irq noCalls)) = [⟨0, 7, 5⟩] ∧
      ((userTimerListCheckInIrq noCalls started).1 0).isUsed = false ∧
      ¬ Lasts 0 0 (some 7) 5 started := by
  refine ⟨_, rfl, by decide +kernel, by decide +kernel, fun lasts => ?_⟩
  have used := (lasts (quietIrqs 1) _ (allQuiet_quietIrqs 1) (by simp [quietIrqs]) rfl).1.1
  exact absurd used (by decide +kernel)

end YosStm32.Timer
