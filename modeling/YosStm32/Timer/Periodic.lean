/-
**Periodic timers.**

The interrupt that finds a timer elapsed fires it and reloads `remaining_ms`, and the counting goes on
with the next interrupt. So a timer with timeout `n` that nobody pauses, resets or destroys is, after
`k` interrupts, in phase `k % (n + 1)` (`Ticking`), whatever the callbacks and the other timers do, and
its period is `n + 1` interrupts (`userTimer_period`).
-/

import Mathlib.Data.List.Induction
import YosStm32.Timer.CreateSteps

namespace YosStm32.Timer

open Lib

/-- A call that does not pause, reset or destroy timer `id`. -/
def Spares (id : Nat) (call : TimerCall) : Prop :=
  call ≠ .pause id ∧ (∀ timeoutMs, call ≠ .reset id timeoutMs) ∧ call ≠ .destroy id

/-- The calls that the callbacks make in some rounds of the interrupt. -/
def irqCalls (code : Code) : Table → List Nat → List TimerCall
  | _, [] => []
  | t, i :: rest =>
      (if (t i).Due then (t i).calls code i else []) ++ irqCalls code (checkSlot code t i).1 rest

/-- The calls of an event, those of the callbacks included. -/
def callsMade (t : Table) : TimerEvent → List TimerCall
  | .irq code => irqCalls code t (List.range userTimerMaxCount)
  | .call call => [call]

/-- Timer `id` is never paused, reset or destroyed in a run. -/
def Undisturbed (id : Nat) (t : Table) (events : List TimerEvent) : Prop :=
  ∀ call ∈ emitted timerStep callsMade t events, Spares id call

def TimerEvent.isIrq : TimerEvent → Bool
  | .irq _ => true
  | .call _ => false

/-- The interrupts among some events. -/
def irqCount (events : List TimerEvent) : Nat := events.countP TimerEvent.isIrq

theorem irqCount_quietIrqs (count : Nat) : irqCount (quietIrqs count) = count := by
  have every : (quietIrqs count).countP TimerEvent.isIrq = (quietIrqs count).length :=
    List.countP_eq_length.mpr fun event member => by rw [eq_of_mem_quietIrqs member]; rfl
  rw [irqCount, every, quietIrqs, List.length_replicate]

/-- A timer that runs with period `n`, and restarts. -/
structure Periodic (n : UInt32) (onTimeout : Option Nat) (para : Nat) (ut : UserTimer) : Prop where
  used : ut.isUsed = true
  running : ut.isPaused = false
  again : ut.autoRestart ≠ 0
  initMs : ut.initMs = n
  onTimeout : ut.onTimeout = onTimeout
  para : ut.para = para

section Spared

variable {n : UInt32} {onTimeout : Option Nat} {para id : Nat} {ut : UserTimer} {t : Table}
  {code : Code}

theorem Spares.call (running : ut.isPaused = false) {call : TimerCall} (spares : Spares id call) :
    ut.call id call = ut := by
  obtain ⟨pause, reset, destroy⟩ := spares
  cases call with
  | create => rfl
  | pause timerId =>
      refine if_neg ?_
      rintro rfl
      exact pause rfl
  | restore timerId =>
      rw [UserTimer.call, ← running]
      exact ite_self ut
  | reset timerId timeoutMs =>
      refine if_neg ?_
      rintro rfl
      exact reset timeoutMs rfl
  | destroy timerId =>
      refine if_neg ?_
      rintro rfl
      exact destroy rfl

theorem afterCalls_spared (valid : id < userTimerMaxCount) (used : (t id).isUsed = true)
    (running : (t id).isPaused = false) {calls : List TimerCall}
    (spared : ∀ call ∈ calls, Spares id call) : afterCalls t calls id = t id := by
  induction calls generalizing t with
  | nil => rfl
  | cons call calls ih =>
      have one : (call.run t).2 id = t id :=
        (run_apply_of_used valid used call).trans ((spared call (List.mem_cons_self ..)).call running)
      have rest := ih (t := (call.run t).2) (by rw [one, used]) (by rw [one, running])
        fun later member => spared later (List.mem_cons_of_mem _ member)
      exact rest.trans one

theorem Periodic.tick (periodic : Periodic n onTimeout para ut) : Periodic n onTimeout para ut.tick := by
  obtain ⟨used, running, again, initMs, same, samePara⟩ := periodic
  rw [UserTimer.tick, if_pos ⟨used, running⟩]
  split_ifs with zero
  · exact ⟨used, running, again, initMs, same, samePara⟩
  · exact ⟨used, running, again, initMs, same, samePara⟩

/-- A round of the interrupt, when its callback spares timer `id`. -/
theorem checkSlot_spared (valid : id < userTimerMaxCount)
    (periodic : Periodic n onTimeout para (t id)) {i : Nat}
    (spared : (t i).Due → ∀ call ∈ (t i).calls code i, Spares id call) :
    (checkSlot code t i).1 id = if i = id then (t id).tick else t id := by
  by_cases due : (t i).Due
  · have kept : afterCalls t ((t i).calls code i) id = t id :=
      afterCalls_spared valid periodic.used periodic.running (spared due)
    obtain ⟨used, running, zero⟩ := due
    rw [checkSlot_fires used running zero]
    by_cases own : i = id
    · subst own
      have again : (afterCalls t ((t i).calls code i) i).autoRestart ≠ 0 := by
        rw [kept]
        exact periodic.again
      rw [if_pos rfl, rearm_again again, kept, UserTimer.tick, if_pos ⟨used, running⟩, if_pos zero,
        if_pos periodic.again]
    · rw [if_neg own]
      exact (rearm_apply_ne (Ne.symm own)).trans kept
  · rw [checkSlot_waits due]
    by_cases own : i = id
    · subst own
      rw [if_pos rfl, Function.update_self]
    · rw [if_neg own, Function.update_of_ne (Ne.symm own)]

/-- The rounds for some slots. -/
theorem checkSlots_spared (valid : id < userTimerMaxCount) {slots : List Nat}
    (distinct : slots.Nodup) (periodic : Periodic n onTimeout para (t id))
    (spared : ∀ call ∈ irqCalls code t slots, Spares id call) :
    (checkSlots code t slots).1 id = (if id ∈ slots then (t id).tick else t id) ∧
      firingsOf id (checkSlots code t slots).2 =
        if id ∈ slots then (t id).tickFirings id else [] := by
  refine checkSlots_ticks (P := fun t slots => Periodic n onTimeout para (t id) ∧
    ∀ call ∈ irqCalls code t slots, Spares id call) ?_ distinct ⟨periodic, spared⟩
  rintro t i rest ⟨periodic, spared⟩
  have here : (t i).Due → ∀ call ∈ (t i).calls code i, Spares id call := by
    intro due call member
    refine spared call (List.mem_append_left _ ?_)
    rwa [if_pos due]
  have first := checkSlot_spared valid periodic here
  refine ⟨first, ?_, fun call member => spared call (List.mem_append_right _ member)⟩
  rw [first]
  split_ifs
  · exact periodic.tick
  · exact periodic

/-- **An event that spares the timer**: the interrupt ticks it, and nothing else does. -/
theorem timerStep_spared (valid : id < userTimerMaxCount)
    (periodic : Periodic n onTimeout para (t id)) {event : TimerEvent} {next : Table}
    (spared : ∀ call ∈ callsMade t event, Spares id call) (one : timerStep t event = some next) :
    next id = (if event.isIrq then (t id).tick else t id) ∧
      firingsOf id (fired t event) = if event.isIrq then (t id).tickFirings id else [] := by
  cases event with
  | irq code =>
      cases one
      have member : id ∈ List.range userTimerMaxCount := List.mem_range.mpr valid
      have rounds := checkSlots_spared valid List.nodup_range periodic spared
      rwa [if_pos member, if_pos member] at rounds
  | call call =>
      cases one
      refine ⟨(run_apply_of_used valid periodic.used call).trans ?_, rfl⟩
      exact (spared call (List.mem_singleton_self call)).call periodic.running

end Spared
/-! ### The period -/

/-- The calls of a timer's callback. -/
def called (id : Nat) (onTimeout : Option Nat) (para : Nat) : List Firing :=
  onTimeout.toList.map fun callback => ⟨id, callback, para⟩

/-- A timer with timeout `n` and `auto_restart = 1` fires at interrupts exactly `period` apart as long
as nobody pauses, resets or destroys it: after an interrupt that has fired it, the next ones to fire it
are every `period`-th, and among `k` interrupts there are `k / period` of them. -/
def HasPeriod (n : UInt32) (period : Nat) : Prop :=
  ∀ (code : Code) (table started firing now : Table) (onTimeout : Option Nat) (para id : Nat)
    (first later : List TimerEvent),
    userTimerCreate table n 1 onTimeout para = ((id : Int), started) →
    Undisturbed id started (first ++ .irq code :: later) →
    runEvents timerStep started first = some firing → (firing id).Due →
    runEvents timerStep (userTimerListCheckInIrq code firing).1 later = some now →
      ((now id).Due ↔ period ∣ irqCount later + 1) ∧
      firingsOf id (emitted timerStep fired (userTimerListCheckInIrq code firing).1 later) =
        (List.replicate (irqCount later / period) (called id onTimeout para)).flatten

section Period

variable {n : UInt32} {onTimeout : Option Nat} {para id : Nat} {ut : UserTimer} {t : Table}

theorem undisturbed_append {middle : Table} {first second : List TimerEvent}
    (run : runEvents timerStep t first = some middle) :
    Undisturbed id t (first ++ second) ↔ Undisturbed id t first ∧ Undisturbed id middle second := by
  rw [Undisturbed, emitted_append run]
  exact List.forall_mem_append

theorem undisturbed_singleton {event : TimerEvent} :
    Undisturbed id t [event] ↔ ∀ call ∈ callsMade t event, Spares id call := by
  have calls : emitted timerStep callsMade t [event] = callsMade t event := by
    cases event <;> exact List.append_nil _
  rw [Undisturbed, calls]

theorem Periodic.due_iff (periodic : Periodic n onTimeout para ut) : ut.Due ↔ ut.remainingMs.toNat = 0 := by
  rw [UserTimer.Due, ← UInt32.toNat_inj]
  exact ⟨fun due => due.2.2, fun zero => ⟨periodic.used, periodic.running, zero⟩⟩

/-- A timer in phase `k % (n + 1)` fires when the phase is `n`. -/
theorem Periodic.due_iff_dvd (periodic : Periodic n onTimeout para ut) {k : Nat}
    (phase : k % (n.toNat + 1) + ut.remainingMs.toNat = n.toNat) :
    ut.Due ↔ n.toNat + 1 ∣ k + 1 := by
  rw [periodic.due_iff, Nat.dvd_iff_mod_eq_zero, Nat.succ_mod_succ_eq_zero_iff]
  omega

/-- The interrupt moves it to the next phase. -/
theorem Periodic.tick_phase (periodic : Periodic n onTimeout para ut) {k : Nat}
    (phase : k % (n.toNat + 1) + ut.remainingMs.toNat = n.toNat) :
    (k + 1) % (n.toNat + 1) + ut.tick.remainingMs.toNat = n.toNat := by
  rw [UserTimer.tick, if_pos ⟨periodic.used, periodic.running⟩]
  split_ifs with zero again
  · have elapsed : (k + 1) % (n.toNat + 1) = 0 :=
      Nat.dvd_iff_mod_eq_zero.mp ((periodic.due_iff_dvd phase).mp ⟨periodic.used, periodic.running, zero⟩)
    rw [elapsed, Nat.zero_add]
    exact congrArg UInt32.toNat periodic.initMs
  · exact absurd periodic.again again
  · have minus := toNat_pred zero
    have next : (k + 1) % (n.toNat + 1) = k % (n.toNat + 1) + 1 := by
      rw [← Nat.mod_add_mod]
      exact Nat.mod_eq_of_lt (by omega)
    rw [next]
    show k % (n.toNat + 1) + 1 + (ut.remainingMs - 1).toNat = n.toNat
    omega

theorem Periodic.tickFirings (periodic : Periodic n onTimeout para ut) :
    ut.tickFirings id = if ut.Due then called id onTimeout para else [] := by
  rw [UserTimer.tickFirings, UserTimer.firings, periodic.onTimeout, periodic.para]
  cases onTimeout <;> rfl

/-- **The phase after any run**, counted from a start with the full time. -/
theorem Periodic.run (valid : id < userTimerMaxCount) (start : Periodic n onTimeout para (t id))
    (full : (t id).remainingMs = n) {events : List TimerEvent} {now : Table}
    (undisturbed : Undisturbed id t events) (run : runEvents timerStep t events = some now) :
    Periodic n onTimeout para (now id) ∧
      irqCount events % (n.toNat + 1) + (now id).remainingMs.toNat = n.toNat ∧
      firingsOf id (emitted timerStep fired t events) =
        (List.replicate (irqCount events / (n.toNat + 1)) (called id onTimeout para)).flatten := by
  induction events using List.reverseRecOn generalizing now with
  | nil =>
      cases run
      refine ⟨start, ?_, ?_⟩
      · rw [full, irqCount, List.countP_nil, Nat.zero_mod, Nat.zero_add]
      · rw [irqCount, List.countP_nil, Nat.zero_div]
        rfl
  | append_singleton events event ih =>
      obtain ⟨middle, before, last⟩ := runEvents_append.mp run
      obtain ⟨next, one, rest⟩ := runEvents_cons.mp last
      cases rest
      obtain ⟨early, late⟩ := (undisturbed_append before).mp undisturbed
      obtain ⟨periodic, phase, firings⟩ := ih early before
      obtain ⟨table, firing⟩ := timerStep_spared valid periodic (undisturbed_singleton.mp late) one
      rw [emitted_append before, emitted_cons one, emitted_nil, List.append_nil, firingsOf_append,
        firings, table, firing, irqCount, List.countP_append, List.countP_singleton, ← irqCount]
      by_cases irq : event.isIrq = true
      · rw [if_pos irq, if_pos irq, if_pos irq, periodic.tickFirings, Nat.succ_div]
        refine ⟨periodic.tick, periodic.tick_phase phase, ?_⟩
        simp only [periodic.due_iff_dvd phase]
        split_ifs
        · rw [← List.replicate_append_replicate, List.flatten_append, List.replicate_one, List.flatten_singleton]
        · exact List.append_nil _
      · rw [if_neg irq, if_neg irq, if_neg irq]
        exact ⟨periodic, phase, List.append_nil _⟩

/-- After it has fired, it has the full time again. -/
theorem Periodic.fire (periodic : Periodic n onTimeout para ut) (due : ut.Due) :
    ut.tick.remainingMs = n := by
  rw [UserTimer.tick, if_pos ⟨due.1, due.2.1⟩, if_pos due.2.2, if_pos periodic.again]
  exact periodic.initMs

/-- A new timer with a non-zero low byte of `auto_restart`. -/
theorem Periodic.created {table started : Table} {autoRestart : Int}
    (created : userTimerCreate table n autoRestart onTimeout para = ((id : Int), started))
    (again : UInt8.ofInt autoRestart ≠ 0) :
    id < userTimerMaxCount ∧ Periodic n onTimeout para (started id) ∧ (started id).remainingMs = n := by
  have found : firstFree table = some id := userTimerCreate_fst_eq.mp (congrArg Prod.fst created)
  have same : started = _ := (congrArg Prod.snd created).symm.trans (userTimerCreate_snd_eq found)
  rw [same, Function.update_self]
  exact ⟨(firstFree_eq_some found).1, ⟨rfl, rfl, again, rfl, rfl, rfl⟩, rfl⟩

theorem hasPeriod_succ (n : UInt32) : HasPeriod n (n.toNat + 1) := by
  intro code table started firing now onTimeout para id first later created undisturbed before due run
  obtain ⟨valid, start, full⟩ := Periodic.created created (by decide)
  obtain ⟨early, others⟩ := (undisturbed_append before).mp undisturbed
  have late : Undisturbed id firing ([.irq code] ++ later) := others
  have fires : runEvents timerStep firing [.irq code] = some (userTimerListCheckInIrq code firing).1 :=
    rfl
  obtain ⟨atFiring, after⟩ := (undisturbed_append fires).mp late
  obtain ⟨periodic, -, -⟩ := start.run valid full early before
  obtain ⟨table, -⟩ := timerStep_spared valid periodic (undisturbed_singleton.mp atFiring) rfl
  rw [TimerEvent.isIrq, if_pos rfl] at table
  have again : Periodic n onTimeout para ((userTimerListCheckInIrq code firing).1 id) := by
    rw [table]
    exact periodic.tick
  have reloaded : ((userTimerListCheckInIrq code firing).1 id).remainingMs = n := by
    rw [table]
    exact periodic.fire due
  obtain ⟨still, phase, firings⟩ := again.run valid reloaded after run
  exact ⟨still.due_iff_dvd phase, firings⟩

end Period

theorem irqCalls_quiet {code : Code} (quiet : Quiet code) (t : Table) (slots : List Nat) :
    irqCalls code t slots = [] := by
  induction slots generalizing t with
  | nil => rfl
  | cons i rest ih =>
      rw [irqCalls, ih, List.append_nil, quiet.calls]
      exact ite_self []

/-- Interrupts alone disturb no timer, when the callbacks make no calls. -/
theorem undisturbed_quietIrqs (id : Nat) (t : Table) (count : Nat) :
    Undisturbed id t (quietIrqs count) := by
  induction count generalizing t with
  | zero => exact fun call member => absurd member List.not_mem_nil
  | succ count ih =>
      have one : runEvents timerStep t [.irq noCalls] = some (userTimerListCheckInIrq noCalls t).1 := rfl
      have more : quietIrqs (count + 1) = [.irq noCalls] ++ quietIrqs count := rfl
      rw [more]
      refine (undisturbed_append one).mpr ⟨?_, ih _⟩
      rw [undisturbed_singleton, callsMade, irqCalls_quiet noCalls_quiet]
      exact fun call member => absurd member List.not_mem_nil

theorem run_isSome (t : Table) (events : List TimerEvent) :
    ∃ now, runEvents timerStep t events = some now := by
  induction events generalizing t with
  | nil => exact ⟨t, rfl⟩
  | cons event events ih =>
      cases event with
      | irq code => exact ih _
      | call call => exact ih _

/-- The table of `user_timer_init`. -/
def noTimers : Table := userTimerListInit fun _ => ⟨none, 0, 0, 0, 0, false, false⟩

/-- **The period of a timer is one interrupt longer than its timeout**, and so never the timeout. -/
theorem userTimer_period (n : UInt32) : HasPeriod n (n.toNat + 1) ∧ ¬ HasPeriod n n.toNat := by
  refine ⟨hasPeriod_succ n, fun short => ?_⟩
  have created : userTimerCreate noTimers n 1 none 0 =
      (((0 : Nat) : Int), (userTimerCreate noTimers n 1 none 0).2) := rfl
  generalize (userTimerCreate noTimers n 1 none 0).2 = started at created
  obtain ⟨valid, start, full⟩ := Periodic.created created (by decide)
  obtain ⟨firing, before⟩ := run_isSome started (quietIrqs n.toNat)
  obtain ⟨periodic, phase, -⟩ := start.run valid full (undisturbed_quietIrqs 0 started n.toNat) before
  have due : (firing 0).Due := by
    rw [irqCount_quietIrqs] at phase
    exact (periodic.due_iff_dvd phase).mpr (Nat.dvd_refl _)
  -- `n - 1` interrupts later the next one should fire the timer again
  obtain ⟨now, after⟩ := run_isSome (userTimerListCheckInIrq noCalls firing).1 (quietIrqs (n.toNat - 1))
  have all : Undisturbed 0 started
      (quietIrqs n.toNat ++ .irq noCalls :: quietIrqs (n.toNat - 1)) := by
    rw [quietIrqs, quietIrqs, ← List.replicate_succ, List.replicate_append_replicate]
    exact undisturbed_quietIrqs 0 started _
  have fires := (short noCalls noTimers started firing now none 0 0 _ _ created all before due after).1
  have firesNot :=
    (hasPeriod_succ n noCalls noTimers started firing now none 0 0 _ _ created all before due after).1
  rw [fires, irqCount_quietIrqs] at firesNot
  rcases Nat.eq_zero_or_pos n.toNat with zero | positive
  · rw [zero] at firesNot
    exact absurd firesNot (by decide)
  · rw [Nat.sub_add_cancel positive] at firesNot
    have small := Nat.le_of_dvd positive (firesNot.mp (Nat.dvd_refl _))
    omega

/-- A timer with timeout 1 fires at the second and at the fourth interrupt. -/
theorem userTimer_period_one :
    ∃ started, userTimerCreate noTimers 1 1 (some 7) 5 = (0, started) ∧
      firingsOf 0 (emitted timerStep fired started (quietIrqs 1)) = [] ∧
      firingsOf 0 (emitted timerStep fired started (quietIrqs 2)) = [⟨0, 7, 5⟩] ∧
      firingsOf 0 (emitted timerStep fired started (quietIrqs 3)) = [⟨0, 7, 5⟩] ∧
      firingsOf 0 (emitted timerStep fired started (quietIrqs 4)) = [⟨0, 7, 5⟩, ⟨0, 7, 5⟩] ∧
      ¬ HasPeriod 1 1 := by
  refine ⟨_, rfl, by decide +kernel, by decide +kernel, by decide +kernel, by decide +kernel, ?_⟩
  intro period
  have undisturbed : Undisturbed 0 (userTimerCreate noTimers 1 1 (some 7) 5).2
      (quietIrqs 1 ++ .irq noCalls :: []) := undisturbed_quietIrqs 0 _ 2
  have fires := (period noCalls noTimers _ _ _ (some 7) 5 0 (quietIrqs 1) [] rfl undisturbed rfl
    (by decide +kernel) rfl).1
  exact absurd (fires.mpr (by decide)) (by decide +kernel)

end YosStm32.Timer
