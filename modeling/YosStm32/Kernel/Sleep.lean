/-
**How long a sleep lasts.**

`yos_task_msleep` turns milliseconds into ticks with a division that rounds down, and at least one
tick. The delay that it calls lasts exactly so many ticks (`delay_asleep`, `delay_wakes`), so a sleep
is as long as asked for exactly when nothing is lost in the division.
-/

import YosStm32.Kernel.Delay

namespace YosStm32

open Lib

/-- `YOS_TICK_HZ`. -/
def yosTickHz : Nat := 100

/-- `_TASK_SWITCH_INTERVAL_MS`. -/
def taskSwitchIntervalMs : Nat := 1000 / yosTickHz

/-- `yos_task_msleep`. -/
def yosTaskMsleep (ms : Nat) : Call :=
  .delay (if ms < taskSwitchIntervalMs then 1 else ms / taskSwitchIntervalMs)

/-- A task that calls `yos_task_msleep(ms)` in a reachable state can run again, if at all, when real
ticks worth `ms` milliseconds have been handled. Its first statement is the store of the WAITING
status. -/
def SleepsAtLeast (ms : Nat) : Prop :=
  ∀ s s₁ events s₂, Reachable s → s.step (.call (yosTaskMsleep ms)) = some s₁ →
    runEvents Sys.step s₁ events = some s₂ → events ≠ [] →
    (s₂.kernel.status s.current).Runnable → ms ≤ realTicks events * taskSwitchIntervalMs

/-- The ticks of a sleep are worth what is asked for exactly when nothing is lost in the division. -/
theorem msleep_ticks (ms : Nat) :
    ms ≤ max 1 (if ms < taskSwitchIntervalMs then 1 else ms / taskSwitchIntervalMs) *
        taskSwitchIntervalMs ↔
      ms < taskSwitchIntervalMs ∨ taskSwitchIntervalMs ∣ ms := by
  have interval : taskSwitchIntervalMs = 10 := rfl
  rw [interval]
  split <;> omega

/-- Ticks are taken one after the other, with interrupts enabled. -/
theorem sysTicks_run (s : Sys) (enabled : s.critical = none) (count : Nat) :
    ∃ s', runEvents Sys.step s (List.replicate count .sysTick) = some s' := by
  induction count generalizing s with
  | zero => exact ⟨s, rfl⟩
  | succ count ih =>
      obtain ⟨s', run⟩ := ih s.afterHandler enabled
      refine ⟨s', runEvents_cons.mpr ⟨s.afterHandler, ?_, run⟩⟩
      rw [Sys.step, if_pos enabled]

/-- **The shortest sleep**: the statements of the call and then its ticks. -/
theorem delay_shortest {s s₁ : Sys} {ticks : Nat} (inv : Inv s)
    (called : s.step (.call (.delay ticks)) = some s₁) :
    ∃ events s₂, events ≠ [] ∧ runEvents Sys.step s₁ events = some s₂ ∧
      realTicks events = max 1 ticks ∧ s₂.kernel.status s.current = .running := by
  obtain ⟨before, _, _, _, finish⟩ := call_finishes inv called
  obtain ⟨s₂, run⟩ := sysTicks_run { before.afterHandler with critical := none } rfl (max 1 ticks)
  have whole := runEvents_append.mpr ⟨_, finish, run⟩
  have count : realTicks (List.replicate (Call.delay ticks).statements Event.exec ++
      List.replicate (max 1 ticks) .sysTick) = max 1 ticks := by
    rw [realTicks_append]
    simp [realTicks, Call.statements]
  have final : (List.replicate (Call.delay ticks).statements Event.exec ++
      List.replicate (max 1 ticks) Event.sysTick).getLast? = some .sysTick := by
    rw [List.getLast?_append, List.getLast?_replicate, if_neg (by omega)]
    rfl
  have started : List.replicate (Call.delay ticks).statements Event.exec ++
      List.replicate (max 1 ticks) .sysTick ≠ [] :=
    List.append_ne_nil_of_left_ne_nil (List.cons_ne_nil _ _) _
  exact ⟨_, s₂, started, whole, count, (delay_wakes inv called whole started count final).1⟩

/-- The number of ticks is no condition for a call. -/
theorem delay_called {s s₁ : Sys} {ticks : Nat} (called : s.step (.call (.delay ticks)) = some s₁)
    (other : Nat) : ∃ s₁', s.step (.call (.delay other)) = some s₁' := by
  obtain ⟨enabled, clear, task, point, running, user, resume, _⟩ := call_fired called
  have user' : ¬ (task = 0 ∧ Call.delay other ≠ .schedule) := fun idle => nomatch user idle.1
  refine ⟨{ s with
    context := Function.update s.context task point
    critical := some (.delayStatus other) }, ?_⟩
  refine Sys.asThread_eq_some.mpr ⟨enabled, clear, task, running, ?_⟩
  have resume' : (Call.delay other).resume (s.context task) = some point := by
    rw [← resume]
    cases s.context task <;> rfl
  rw [if_neg user']
  exact Option.map_eq_some_iff.mpr ⟨point, resume', rfl⟩

/-- A sleep that loses something in the division is too short. -/
theorem msleep_short {ms : Nat} (lost : ¬ (ms < taskSwitchIntervalMs ∨ taskSwitchIntervalMs ∣ ms)) :
    ¬ SleepsAtLeast ms := by
  intro always
  have callable : (sampleSys.step (.call (.delay 1))).isSome := by decide +kernel
  obtain ⟨_, call⟩ := Option.isSome_iff_exists.mp callable
  obtain ⟨s₁, called⟩ := delay_called call
    (if ms < taskSwitchIntervalMs then 1 else ms / taskSwitchIntervalMs)
  obtain ⟨events, s₂, started, run, count, running⟩ :=
    delay_shortest sampleSys_reachable.inv called
  have enough := always _ _ _ _ sampleSys_reachable called run started (Or.inr running)
  rw [count] at enough
  exact lost ((msleep_ticks ms).mp enough)

/-- **When a sleep is at least as long as asked for**: the milliseconds are less than a tick, or a
whole number of ticks. -/
theorem yosTaskMsleep_atLeast_iff (ms : Nat) :
    SleepsAtLeast ms ↔ ms < taskSwitchIntervalMs ∨ taskSwitchIntervalMs ∣ ms := by
  constructor
  · intro always
    by_contra lost
    exact msleep_short lost always
  · intro whole s s₁ events s₂ reachable called run started runnable
    have enough := (msleep_ticks ms).mpr whole
    refine Nat.le_trans enough (Nat.mul_le_mul_right _ ?_)
    by_contra early
    have asleep := delay_asleep reachable.inv called run started (Nat.lt_of_not_le early)
    exact runnable.ne_waiting asleep.1

/-- Fifteen milliseconds are one tick. -/
theorem yosTaskMsleep_short_fifteen : ¬ SleepsAtLeast 15 :=
  msleep_short (by decide)

end YosStm32
