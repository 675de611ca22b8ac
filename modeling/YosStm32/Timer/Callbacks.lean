/-
**Timer calls inside a callback.**

When a slot fires, its callback may call the API, also on its own slot. `Kept` says that nothing of
this is lost: a timer that the callback creates, or re-arms by resetting its own id, is there when
the slot is finished, unless the callback destroys it again. The code then reads `auto_restart` from
the slot as the callback has left it, and frees the slot when it is 0, whoever owns it by then. So
the calls are kept exactly when the slot ends up with a timer that restarts (`Restarts`), whose
statement only needs the flags of the table and the calls: which slot each `user_timer_create` gets
is decided by which slots are in use (`occupy`).
-/

import Mathlib.Data.List.Find
import Mathlib.Data.List.Induction
import YosStm32.Timer.OneShot

namespace YosStm32.Timer

/-! ### Which slots are in use -/

/-- The first slot that is not in use. -/
def lowestFree (used : Nat → Bool) : Option Nat :=
  (List.range userTimerMaxCount).find? fun i => !used i

/-- The slots in use after a call. -/
def occupy (used : Nat → Bool) : TimerCall → Nat → Bool
  | .create .. => fun i => used i || decide (lowestFree used = some i)
  | .destroy timerId => fun i => used i && decide (timerId ≠ i)
  | _ => used

/-- The slots in use after some calls. -/
def occupied (used : Nat → Bool) (calls : List TimerCall) : Nat → Bool := calls.foldl occupy used

/-- The slots of the list that are in use are those of `used`. -/
def Occupied (t : Table) (used : Nat → Bool) : Prop :=
  ∀ i, i < userTimerMaxCount → (t i).isUsed = used i

namespace Occupied

variable {t : Table} {used : Nat → Bool}

theorem firstFree (same : Occupied t used) : Timer.firstFree t = lowestFree used :=
  List.find?_congr fun i member => by rw [same i (List.mem_range.mp member)]

theorem run (same : Occupied t used) (call : TimerCall) :
    Occupied (call.run t).2 (occupy used call) := by
  intro i valid
  have before := same i valid
  cases inUse : (t i).isUsed with
  | true =>
      rw [run_apply_of_used valid inUse]
      rw [inUse] at before
      cases call with
      | create => simp [UserTimer.call, occupy, inUse, ← before]
      | destroy timerId =>
          by_cases own : timerId = i
          · simp [UserTimer.call, occupy, own]
          · simp [UserTimer.call, occupy, own, inUse, ← before]
      | _ =>
          simp only [UserTimer.call, occupy]
          split_ifs <;> exact inUse.trans before
  | false =>
      rw [inUse] at before
      rcases run_apply_of_free valid inUse call with
        ⟨stays, elsewhere⟩ | ⟨timeoutMs, autoRestart, onTimeout, timeoutPara, found, rfl, new⟩
      · rw [stays, inUse]
        cases call with
        | create timeoutMs autoRestart onTimeout timeoutPara =>
            have notHere := elsewhere timeoutMs autoRestart onTimeout timeoutPara rfl
            rw [same.firstFree] at notHere
            simp [occupy, ← before, notHere]
        | destroy timerId => simp [occupy, ← before]
        | _ => exact before
      · have here : lowestFree used = some i := same.firstFree.symm.trans found
        rw [new]
        simp [occupy, createdTimer, here]

theorem afterCalls (same : Occupied t used) (calls : List TimerCall) :
    Occupied (Timer.afterCalls t calls) (occupied used calls) := by
  induction calls generalizing t used with
  | nil => exact same
  | cons call calls ih => exact ih (same.run call)

end Occupied

/-- The slot that `user_timer_create` takes after some calls. -/
theorem firstFree_afterCalls (t : Table) (calls : List TimerCall) :
    firstFree (afterCalls t calls) = lowestFree (occupied (fun i => (t i).isUsed) calls) := by
  have same : Occupied t fun i => (t i).isUsed := fun _ _ => rfl
  exact (same.afterCalls calls).firstFree

/-! ### What a callback leaves -/

/-- The timeout and the pause of a timer in use. -/
structure Armed (m : Meter) (ut : UserTimer) : Prop where
  used : ut.isUsed = true
  remaining : ut.remainingMs = m.timeout
  init : ut.initMs = m.timeout
  paused : ut.isPaused = m.paused

/-- The parameters of a timer, with any non-zero `auto_restart` being as good as any other. -/
structure Given (autoRestart : Int) (onTimeout : Option Nat) (para : Nat) (ut : UserTimer) :
    Prop where
  onTimeout : ut.onTimeout = onTimeout
  para : ut.para = para
  autoRestart : ut.autoRestart ≠ 0 ↔ autoRestart ≠ 0

/-- The calls of slot `i`'s callback are not lost in the table `last`. Later calls on a timer may
change its timeout and pause it, which `Meter.call` says. -/
structure Kept (t : Table) (i : Nat) (calls : List TimerCall) (last : Table) : Prop where
  create : ∀ before after timeoutMs autoRestart onTimeout timeoutPara (id : Nat),
    calls = before ++ .create timeoutMs autoRestart onTimeout timeoutPara :: after →
    (userTimerCreate (afterCalls t before) timeoutMs autoRestart onTimeout timeoutPara).1 = id →
    .destroy id ∉ after →
      Armed (after.foldl (Meter.call id) ⟨timeoutMs, 0, false⟩) (last id) ∧
        Given autoRestart onTimeout timeoutPara (last id)
  reset : ∀ before after timeoutMs, calls = before ++ .reset i timeoutMs :: after →
    (afterCalls t before i).isUsed = true → .destroy i ∉ after →
      Armed (after.foldl (Meter.call i) ⟨timeoutMs, 0, (afterCalls t before i).isPaused⟩) (last i)

/-- The timers that the callback leaves restart: one that it creates has an `auto_restart` whose low
byte is not 0, unless it is 0 itself and the timer is in another slot; and if the callback resets
its own timer and never destroys it, then this timer restarts. -/
structure Restarts (t : Table) (i : Nat) (calls : List TimerCall) : Prop where
  create : ∀ before after timeoutMs autoRestart onTimeout timeoutPara id,
    calls = before ++ .create timeoutMs autoRestart onTimeout timeoutPara :: after →
    lowestFree (occupied (fun i => (t i).isUsed) before) = some id → .destroy id ∉ after →
      autoRestart % 256 = 0 → autoRestart = 0 ∧ id ≠ i
  reset : ∀ timeoutMs, .reset i timeoutMs ∈ calls → .destroy i ∉ calls → (t i).autoRestart ≠ 0

/-- The low byte. -/
theorem ofInt_eq_zero (autoRestart : Int) :
    UInt8.ofInt autoRestart = 0 ↔ autoRestart % 256 = 0 := by
  have byte : (UInt8.ofInt autoRestart).toNat = (autoRestart % 256).toNat := by
    rw [UInt8.ofInt, UInt8.toNat_ofNat']
    omega
  rw [← UInt8.toNat_inj, byte]
  show (autoRestart % 256).toNat = 0 ↔ _
  omega

section Calls

variable {id : Nat}

theorem Armed.call {m : Meter} {ut : UserTimer} (armed : Armed m ut) {call : TimerCall}
    (kept : call ≠ .destroy id) : Armed (m.call id call) (ut.call id call) := by
  have timeouts : (ut.call id call).remainingMs = (m.call id call).timeout ∧
      (ut.call id call).initMs = (m.call id call).timeout := by
    rcases UserTimer.call_timeouts id ut call with ⟨timeoutMs, rfl, reset⟩ | ⟨other, remaining, init⟩
    · rw [Meter.call_reset]
      exact reset
    · rw [(m.call_other other).1, remaining, init]
      exact ⟨armed.remaining, armed.init⟩
  exact ⟨(UserTimer.call_used armed.used).mpr kept, timeouts.1, timeouts.2,
    Meter.call_paused armed.paused call⟩

/-- A timer that the calls do not destroy stays, with its callback and its `auto_restart`. -/
theorem afterCalls_kept (valid : id < userTimerMaxCount) {t : Table} {calls : List TimerCall}
    (used : (t id).isUsed = true) (kept : .destroy id ∉ calls) :
    (afterCalls t calls id).isUsed = true ∧
      (afterCalls t calls id).onTimeout = (t id).onTimeout ∧
      (afterCalls t calls id).para = (t id).para ∧
      (afterCalls t calls id).autoRestart = (t id).autoRestart ∧
      ∀ m, Armed m (t id) → Armed (calls.foldl (Meter.call id) m) (afterCalls t calls id) := by
  induction calls generalizing t with
  | nil => exact ⟨used, rfl, rfl, rfl, fun _ armed => armed⟩
  | cons call calls ih =>
      have other : call ≠ .destroy id := by
        rintro rfl
        exact kept (List.mem_cons_self ..)
      have one := run_apply_of_used valid used call
      obtain ⟨onTimeout, para, autoRestart⟩ := UserTimer.call_kept id (t id) call
      rw [← one] at onTimeout para autoRestart
      have still : ((call.run t).2 id).isUsed = true := by
        rw [one]
        exact (UserTimer.call_used used).mpr other
      obtain ⟨inUse, same, samePara, sameAuto, armed⟩ :=
        ih still fun later => kept (List.mem_cons_of_mem _ later)
      refine ⟨inUse, same.trans onTimeout, samePara.trans para, sameAuto.trans autoRestart, ?_⟩
      intro m start
      refine armed (m.call id call) ?_
      rw [one]
      exact start.call other

theorem afterCalls_append (t : Table) (first second : List TimerCall) :
    afterCalls t (first ++ second) = afterCalls (afterCalls t first) second :=
  List.foldl_append

/-- The timer in a slot in use is the one that was there, or one that the calls have created. -/
theorem afterCalls_origin (valid : id < userTimerMaxCount) {t : Table} (calls : List TimerCall)
    (used : (afterCalls t calls id).isUsed = true) :
    (.destroy id ∉ calls ∧ (afterCalls t calls id).autoRestart = (t id).autoRestart) ∨
      ∃ before after timeoutMs autoRestart onTimeout timeoutPara,
        calls = before ++ .create timeoutMs autoRestart onTimeout timeoutPara :: after ∧
        firstFree (afterCalls t before) = some id ∧ .destroy id ∉ after ∧
        (afterCalls t calls id).autoRestart = UInt8.ofInt autoRestart := by
  induction calls using List.reverseRecOn with
  | nil => exact Or.inl ⟨List.not_mem_nil, rfl⟩
  | append_singleton calls call ih =>
      rw [afterCalls_append] at used ⊢
      change ((call.run (afterCalls t calls)).2 id).isUsed = true at used
      show (_ ∧ ((call.run (afterCalls t calls)).2 id).autoRestart = _) ∨
        ∃ before after timeoutMs autoRestart onTimeout timeoutPara, _ ∧ _ ∧ _ ∧
          ((call.run (afterCalls t calls)).2 id).autoRestart = UInt8.ofInt autoRestart
      cases inUse : (afterCalls t calls id).isUsed with
      | true =>
          have one := run_apply_of_used valid inUse call
          have other : call ≠ .destroy id := (UserTimer.call_used inUse).mp (one ▸ used)
          have same := (UserTimer.call_kept id (afterCalls t calls id) call).2.2
          rw [one, same]
          rcases ih inUse with ⟨kept, first⟩ |
            ⟨before, after, timeoutMs, autoRestart, onTimeout, timeoutPara, rfl, found, kept, last⟩
          · refine Or.inl ⟨fun later => ?_, first⟩
            rcases List.mem_append.mp later with early | late
            · exact kept early
            · exact other (List.mem_singleton.mp late).symm
          · refine Or.inr ⟨before, after ++ [call], timeoutMs, autoRestart, onTimeout, timeoutPara,
              ?_, found, fun later => ?_, last⟩
            · rw [List.append_assoc, List.cons_append]
            · rcases List.mem_append.mp later with early | late
              · exact kept early
              · exact other (List.mem_singleton.mp late).symm
      | false =>
          rcases run_apply_of_free valid inUse call with
            ⟨stays, _⟩ | ⟨timeoutMs, autoRestart, onTimeout, timeoutPara, found, rfl, new⟩
          · rw [stays, inUse] at used
            cases used
          · refine Or.inr ⟨calls, [], timeoutMs, autoRestart, onTimeout, timeoutPara, rfl, found,
              List.not_mem_nil, ?_⟩
            rw [new]
            rfl

end Calls

/-! ### The end of the slot -/

section Finish

variable {t : Table} {i : Nat}

theorem rearm_apply_ne {id : Nat} (other : id ≠ i) : rearm t i id = t id :=
  Function.update_of_ne other _ _

/-- A slot that does not restart is freed. -/
theorem rearm_once (once : (t i).autoRestart = 0) : (rearm t i i).isUsed = false := by
  have zero : ¬ (t i).autoRestart ≠ 0 := fun nonzero => nonzero once
  rw [rearm, Function.update_self, if_neg zero]

theorem rearm_again (again : (t i).autoRestart ≠ 0) :
    rearm t i i = { t i with remainingMs := (t i).initMs } := by
  rw [rearm, Function.update_self, if_pos again]

/-- A slot that restarts keeps what the callback has set. -/
theorem Armed.rearm {m : Meter} (armed : Armed m (t i)) (again : (t i).autoRestart ≠ 0) :
    Armed m (rearm t i i) := by
  rw [rearm_again again]
  exact ⟨armed.used, armed.init, armed.init, armed.paused⟩

end Finish

/-- The slot that fires, when its callback is finished. -/
theorem checkSlot_fires {code : Code} {t : Table} {i : Nat} (used : (t i).isUsed = true)
    (running : (t i).isPaused = false) (elapsed : (t i).remainingMs = 0) :
    (checkSlot code t i).1 = rearm (afterCalls t ((t i).calls code i)) i := by
  have notPaused : ¬ (t i).isPaused = true := by simp [running]
  rw [checkSlot, if_pos used, if_neg notPaused, if_pos elapsed]

section Callback

variable {t : Table} {i id : Nat} {before after calls : List TimerCall}

/-- A timer that the callback creates, when the callback is finished. -/
theorem created_afterCalls {timeoutMs : UInt32} {autoRestart : Int} {onTimeout : Option Nat}
    {timeoutPara : Nat}
    (split : calls = before ++ .create timeoutMs autoRestart onTimeout timeoutPara :: after)
    (found : firstFree (afterCalls t before) = some id) (kept : .destroy id ∉ after) :
    Armed (after.foldl (Meter.call id) ⟨timeoutMs, 0, false⟩) (afterCalls t calls id) ∧
      (afterCalls t calls id).onTimeout = onTimeout ∧ (afterCalls t calls id).para = timeoutPara ∧
      (afterCalls t calls id).autoRestart = UInt8.ofInt autoRestart := by
  have new : (userTimerCreate (afterCalls t before) timeoutMs autoRestart onTimeout timeoutPara).2 id
      = createdTimer timeoutMs autoRestart onTimeout timeoutPara := by
    rw [userTimerCreate_snd_eq found, Function.update_self]
  have used : ((userTimerCreate (afterCalls t before) timeoutMs autoRestart onTimeout
      timeoutPara).2 id).isUsed = true := by
    rw [new]
    rfl
  obtain ⟨_, same, samePara, sameAuto, armed⟩ :=
    afterCalls_kept (firstFree_eq_some found).1 used kept
  rw [new] at same samePara sameAuto armed
  rw [split, afterCalls_append]
  exact ⟨armed _ ⟨rfl, rfl, rfl, rfl⟩, same, samePara, sameAuto⟩

/-- The callback's own timer after a reset, when the callback is finished. -/
theorem reset_afterCalls (valid : i < userTimerMaxCount) {timeoutMs : UInt32}
    (split : calls = before ++ .reset i timeoutMs :: after)
    (used : (afterCalls t before i).isUsed = true) (kept : .destroy i ∉ after) :
    Armed (after.foldl (Meter.call i) ⟨timeoutMs, 0, (afterCalls t before i).isPaused⟩)
        (afterCalls t calls i) ∧
      (afterCalls t calls i).autoRestart = (afterCalls t before i).autoRestart := by
  have one := run_apply_of_used valid used (.reset i timeoutMs)
  rw [UserTimer.call, if_pos rfl] at one
  have still : (((TimerCall.reset i timeoutMs).run (afterCalls t before)).2 i).isUsed = true := by
    rw [one]
    exact used
  obtain ⟨_, _, _, sameAuto, armed⟩ := afterCalls_kept valid still kept
  rw [one] at sameAuto armed
  rw [split, afterCalls_append]
  exact ⟨armed _ ⟨used, rfl, rfl, rfl⟩, sameAuto⟩

/-- Nothing is lost when the timers that the callback leaves restart. -/
theorem Restarts.kept (valid : i < userTimerMaxCount) (restarts : Restarts t i calls) :
    Kept t i calls (rearm (afterCalls t calls) i) := by
  constructor
  · intro before after timeoutMs autoRestart onTimeout timeoutPara id split returned kept
    have found := userTimerCreate_fst_eq.mp returned
    obtain ⟨armed, same, samePara, sameAuto⟩ := created_afterCalls split found kept
    rw [firstFree_afterCalls] at found
    have lowByte := restarts.create before after timeoutMs autoRestart onTimeout timeoutPara id split
      found kept
    rw [← ofInt_eq_zero] at lowByte
    have flag : UInt8.ofInt autoRestart ≠ 0 ↔ autoRestart ≠ 0 := by
      constructor
      · rintro nonzero rfl
        exact nonzero rfl
      · intro nonzero zero
        exact nonzero (lowByte zero).1
    rw [← sameAuto] at flag lowByte
    by_cases own : id = i
    · subst own
      have again : (afterCalls t calls id).autoRestart ≠ 0 := fun zero => (lowByte zero).2 rfl
      refine ⟨armed.rearm again, ?_⟩
      rw [rearm_again again]
      exact ⟨same, samePara, flag⟩
    · rw [rearm_apply_ne own]
      exact ⟨armed, same, samePara, flag⟩
  · intro before after timeoutMs split used kept
    obtain ⟨armed, sameAuto⟩ := reset_afterCalls valid split used kept
    refine armed.rearm ?_
    rw [sameAuto]
    rcases afterCalls_origin valid before used with ⟨before_kept, first⟩ |
      ⟨earlier, later, timeoutMs', autoRestart, onTimeout, timeoutPara, rfl, found, later_kept, new⟩
    · rw [first]
      refine restarts.reset timeoutMs ?_ ?_
      · rw [split]
        exact List.mem_append_right before (List.mem_cons_self ..)
      · rw [split, List.mem_append, List.mem_cons]
        rintro (early | this | late)
        · exact before_kept early
        · cases this
        · exact kept late
    · -- the reset timer is one that the callback has created in its own slot
      rw [new, Ne, ofInt_eq_zero]
      intro lowByte
      refine (restarts.create earlier (later ++ .reset i timeoutMs :: after) timeoutMs' autoRestart
        onTimeout timeoutPara i ?_ ?_ ?_ lowByte).2 rfl
      · rw [split, List.append_assoc, List.cons_append]
      · exact (firstFree_afterCalls t earlier).symm.trans found
      · rw [List.mem_append, List.mem_cons]
        rintro (early | this | late)
        · exact later_kept early
        · cases this
        · exact kept late

/-- Something is lost when one of them does not. -/
theorem Kept.restarts (valid : i < userTimerMaxCount) (used : (t i).isUsed = true)
    (kept : Kept t i calls (rearm (afterCalls t calls) i)) : Restarts t i calls := by
  constructor
  · intro before after timeoutMs autoRestart onTimeout timeoutPara id split found notDestroyed lowByte
    rw [← firstFree_afterCalls] at found
    obtain ⟨_, _, _, sameAuto⟩ := created_afterCalls split found notDestroyed
    obtain ⟨armed, given⟩ := kept.create before after timeoutMs autoRestart onTimeout timeoutPara id
      split (userTimerCreate_fst_eq.mpr found) notDestroyed
    have once : (afterCalls t calls id).autoRestart = 0 :=
      sameAuto.trans ((ofInt_eq_zero autoRestart).mpr lowByte)
    have elsewhere : id ≠ i := by
      rintro rfl
      have freed := rearm_once once
      rw [armed.used] at freed
      cases freed
    have flag := given.autoRestart
    rw [rearm_apply_ne elsewhere] at flag
    refine ⟨?_, elsewhere⟩
    by_contra nonzero
    exact flag.mpr nonzero once
  · intro timeoutMs member notDestroyed once
    obtain ⟨before, after, split⟩ := List.append_of_mem member
    have before_kept : .destroy (i : Int) ∉ before := fun early => notDestroyed <| by
      rw [split]
      exact List.mem_append_left _ early
    have after_kept : .destroy (i : Int) ∉ after := fun late => notDestroyed <| by
      rw [split]
      exact List.mem_append_right before (List.mem_cons_of_mem _ late)
    obtain ⟨inUse, _, _, sameAuto, _⟩ := afterCalls_kept valid used before_kept
    have same := (reset_afterCalls valid split inUse after_kept).2
    have freed := rearm_once (same.trans (sameAuto.trans once))
    rw [(kept.reset before after timeoutMs split inUse after_kept).used] at freed
    cases freed

end Callback

/-- **When the calls of a callback are kept.** -/
theorem callback_calls_kept_iff {code : Code} {t : Table} {i : Nat} (valid : i < userTimerMaxCount)
    (used : (t i).isUsed = true) (running : (t i).isPaused = false)
    (elapsed : (t i).remainingMs = 0) :
    Kept t i ((t i).calls code i) (checkSlot code t i).1 ↔ Restarts t i ((t i).calls code i) := by
  rw [checkSlot_fires used running elapsed]
  exact ⟨Kept.restarts valid used, Restarts.kept valid⟩

/-- A periodic timer in slot 0 is about to fire. -/
def firingPeriodic : Table := fun i =>
  { onTimeout := some 7, para := 0, remainingMs := 0, initMs := 20, autoRestart := 1,
    isPaused := false, isUsed := decide (i = 0) }

/-- A callback that sets its own timer to another period. -/
def changePeriod : Code := fun _ => [.reset 0 10]

theorem callback_calls_kept_iff_changePeriod :
    Kept firingPeriodic 0 [.reset 0 10] (checkSlot changePeriod firingPeriodic 0).1 := by
  have iff : Kept firingPeriodic 0 ((firingPeriodic 0).calls changePeriod 0)
      (checkSlot changePeriod firingPeriodic 0).1 ↔ _ :=
    callback_calls_kept_iff (by decide) rfl rfl rfl
  refine iff.mpr ⟨?_, ?_⟩
  · intro before after timeoutMs autoRestart onTimeout timeoutPara id split
    cases before with
    | nil => cases split
    | cons call before => cases before <;> cases split
  · intro timeoutMs _ _
    decide

/-- A callback that gives its own timer up for a one-shot timer, which gets the same id. -/
def replaceByOneShot : Code := fun _ => [.destroy 0, .create 100 0 (some 5) 3]

theorem replaceByOneShot_lost :
    (firingPeriodic 0).isUsed = true ∧ (firingPeriodic 0).isPaused = false ∧
      (firingPeriodic 0).remainingMs = 0 ∧
      (userTimerCreate (afterCalls firingPeriodic [.destroy 0]) 100 0 (some 5) 3).1 = 0 ∧
      ¬ Kept firingPeriodic 0 ((firingPeriodic 0).calls replaceByOneShot 0)
        (checkSlot replaceByOneShot firingPeriodic 0).1 := by
  refine ⟨rfl, rfl, rfl, rfl, fun kept => ?_⟩
  obtain ⟨armed, _⟩ := kept.create [.destroy 0] [] 100 0 (some 5) 3 0 rfl rfl List.not_mem_nil
  have freed : ((checkSlot replaceByOneShot firingPeriodic 0).1 0).isUsed = false := rfl
  rw [armed.used] at freed
  cases freed

end YosStm32.Timer
