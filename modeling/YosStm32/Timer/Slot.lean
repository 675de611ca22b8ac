/-
**One slot of the table.**

A call changes at most one slot, and what it does to a used slot depends on that slot only
(`run_apply_of_used`). When the callbacks make no calls (`Quiet`), an interrupt does to each slot of
the list what it would do to it alone (`irq_apply`).
-/

import Mathlib.Tactic.SplitIfs
import YosStm32.Timer.UserTimer

namespace YosStm32.Timer

section Calls

variable {t : Table} {id : Nat}

theorem firstFree_eq_some {i : Nat} (found : firstFree t = some i) :
    i < userTimerMaxCount ∧ (t i).isUsed = false := by
  refine ⟨List.mem_range.mp (List.mem_of_find?_eq_some found), ?_⟩
  simpa using List.find?_some found

variable {timeoutMs : UInt32} {autoRestart : Int} {onTimeout : Option Nat} {timeoutPara : Nat}

/-- What `user_timer_create` leaves in the slot it returns. -/
def createdTimer (timeoutMs : UInt32) (autoRestart : Int) (onTimeout : Option Nat)
    (timeoutPara : Nat) : UserTimer :=
  { onTimeout := onTimeout
    para := timeoutPara
    remainingMs := timeoutMs
    initMs := timeoutMs
    autoRestart := UInt8.ofInt autoRestart
    isPaused := false
    isUsed := true }

/-- The id is that of the first free slot. -/
theorem userTimerCreate_fst_eq :
    (userTimerCreate t timeoutMs autoRestart onTimeout timeoutPara).1 = id ↔
      firstFree t = some id := by
  rw [userTimerCreate]
  cases firstFree t with
  | none =>
      constructor
      · intro negative
        cases negative
      · intro impossible
        cases impossible
  | some i =>
      show (i : Int) = id ↔ _
      rw [Int.natCast_inj, Option.some.injEq]

/-- The slot of the id is a new timer. -/
theorem userTimerCreate_snd_eq (found : firstFree t = some id) :
    (userTimerCreate t timeoutMs autoRestart onTimeout timeoutPara).2 =
      Function.update t id (createdTimer timeoutMs autoRestart onTimeout timeoutPara) := by
  rw [userTimerCreate, found]
  rfl

/-- The other slots stay. -/
theorem userTimerCreate_snd_apply (other : firstFree t ≠ some id) :
    (userTimerCreate t timeoutMs autoRestart onTimeout timeoutPara).2 id = t id := by
  cases found : firstFree t with
  | none => rw [userTimerCreate, found]
  | some i =>
      rw [userTimerCreate_snd_eq found]
      refine Function.update_of_ne ?_ _ _
      rintro rfl
      exact other found

/-- A function on an id changes the slot of the id, when it is used. -/
theorem onSlot_apply (valid : id < userTimerMaxCount) (timerId : Int)
    (change : UserTimer → UserTimer) :
    (onSlot t timerId change).2 id =
      if (t id).isUsed = true then if timerId = id then change (t id) else t id else t id := by
  by_cases own : timerId = id
  · subst own
    have good : ¬ ((id : Int) < 0 ∨ (id : Int) > userTimerMaxCount) := by omega
    rw [onSlot, if_neg good, if_pos rfl]
    by_cases used : (t id).isUsed = true
    · simp [used]
    · simp [used]
  · rw [onSlot, if_neg own, ite_self]
    split_ifs with bad used
    · rfl
    · have different : id ≠ timerId.toNat := by omega
      exact Function.update_of_ne different _ _
    · rfl

/-- What a call does to a used slot. -/
def UserTimer.call (id : Nat) (ut : UserTimer) : TimerCall → UserTimer
  | .create .. => ut
  | .pause timerId => if timerId = id then { ut with isPaused := true } else ut
  | .restore timerId => if timerId = id then { ut with isPaused := false } else ut
  | .reset timerId timeoutMs =>
      if timerId = id then { ut with remainingMs := timeoutMs, initMs := timeoutMs } else ut
  | .destroy timerId => if timerId = id then { ut with isUsed := false } else ut

/-- Calls on a timer change neither its callback nor its `auto_restart`. -/
theorem UserTimer.call_kept (id : Nat) (ut : UserTimer) (call : TimerCall) :
    (ut.call id call).onTimeout = ut.onTimeout ∧ (ut.call id call).para = ut.para ∧
      (ut.call id call).autoRestart = ut.autoRestart := by
  cases call with
  | create => exact ⟨rfl, rfl, rfl⟩
  | _ =>
      simp only [UserTimer.call]
      split_ifs <;> exact ⟨rfl, rfl, rfl⟩

/-- Only a destruction frees it. -/
theorem UserTimer.call_used {ut : UserTimer} (used : ut.isUsed = true) {call : TimerCall} :
    (ut.call id call).isUsed = true ↔ call ≠ .destroy id := by
  cases call with
  | create => simp [UserTimer.call, used]
  | destroy timerId =>
      simp only [UserTimer.call]
      split_ifs with own
      · simp [own]
      · simp [own, used]
  | _ =>
      simp only [UserTimer.call]
      split_ifs <;> simp [used]

/-- Only a reset changes the timeouts. -/
theorem UserTimer.call_timeouts (id : Nat) (ut : UserTimer) (call : TimerCall) :
    (∃ timeoutMs, call = .reset id timeoutMs ∧ (ut.call id call).remainingMs = timeoutMs ∧
        (ut.call id call).initMs = timeoutMs) ∨
      (∀ timeoutMs, call ≠ .reset id timeoutMs) ∧ (ut.call id call).remainingMs = ut.remainingMs ∧
        (ut.call id call).initMs = ut.initMs := by
  cases call with
  | create => exact Or.inr ⟨by simp, rfl, rfl⟩
  | reset timerId timeoutMs =>
      simp only [UserTimer.call]
      split_ifs with own
      · exact Or.inl ⟨timeoutMs, by rw [own], rfl, rfl⟩
      · exact Or.inr ⟨by simp [own], rfl, rfl⟩
  | _ =>
      simp only [UserTimer.call]
      split_ifs <;> exact Or.inr ⟨by simp, rfl, rfl⟩

theorem run_apply_of_used (valid : id < userTimerMaxCount) (used : (t id).isUsed = true)
    (call : TimerCall) : (call.run t).2 id = (t id).call id call := by
  cases call with
  | create timeoutMs autoRestart onTimeout timeoutPara =>
      refine userTimerCreate_snd_apply fun found => ?_
      rw [(firstFree_eq_some found).2] at used
      cases used
  | pause timerId => exact (onSlot_apply valid timerId _).trans (if_pos used)
  | restore timerId => exact (onSlot_apply valid timerId _).trans (if_pos used)
  | reset timerId timeoutMs => exact (onSlot_apply valid timerId _).trans (if_pos used)
  | destroy timerId => exact (onSlot_apply valid timerId _).trans (if_pos used)

/-- A free slot only changes by being created. -/
theorem run_apply_of_free (valid : id < userTimerMaxCount) (free : (t id).isUsed = false)
    (call : TimerCall) :
    ((call.run t).2 id = t id ∧ ∀ timeoutMs autoRestart onTimeout timeoutPara,
        call = .create timeoutMs autoRestart onTimeout timeoutPara → firstFree t ≠ some id) ∨
      ∃ timeoutMs autoRestart onTimeout timeoutPara, firstFree t = some id ∧
        call = .create timeoutMs autoRestart onTimeout timeoutPara ∧
        (call.run t).2 id = createdTimer timeoutMs autoRestart onTimeout timeoutPara := by
  have notUsed : ¬ (t id).isUsed = true := by simp [free]
  cases call with
  | create timeoutMs autoRestart onTimeout timeoutPara =>
      by_cases found : firstFree t = some id
      · refine Or.inr ⟨timeoutMs, autoRestart, onTimeout, timeoutPara, found, rfl, ?_⟩
        rw [TimerCall.run, userTimerCreate_snd_eq found, Function.update_self]
      · exact Or.inl ⟨userTimerCreate_snd_apply found, fun _ _ _ _ _ => found⟩
  | pause timerId => exact Or.inl ⟨(onSlot_apply valid timerId _).trans (if_neg notUsed), by simp⟩
  | restore timerId => exact Or.inl ⟨(onSlot_apply valid timerId _).trans (if_neg notUsed), by simp⟩
  | reset timerId timeoutMs =>
      exact Or.inl ⟨(onSlot_apply valid timerId _).trans (if_neg notUsed), by simp⟩
  | destroy timerId => exact Or.inl ⟨(onSlot_apply valid timerId _).trans (if_neg notUsed), by simp⟩

end Calls

/-! ### The interrupt -/

/-- The callbacks make no calls. -/
def Quiet (code : Code) : Prop := ∀ firing, code firing = []

/-- No callback makes a call in any of the interrupts. -/
def AllQuiet (events : List TimerEvent) : Prop := ∀ code, .irq code ∈ events → Quiet code

namespace AllQuiet

variable {events : List TimerEvent}

theorem head {code : Code} (quiet : AllQuiet (.irq code :: events)) : Quiet code :=
  quiet code (List.mem_cons_self ..)

theorem tail {event : TimerEvent} (quiet : AllQuiet (event :: events)) : AllQuiet events :=
  fun code later => quiet code (List.mem_cons_of_mem _ later)

end AllQuiet

def noCalls : Code := fun _ => []

theorem noCalls_quiet : Quiet noCalls := fun _ => rfl

/-- Some interrupts whose callbacks make no calls. -/
def quietIrqs (count : Nat) : List TimerEvent := List.replicate count (.irq noCalls)

theorem eq_of_mem_quietIrqs {count : Nat} {event : TimerEvent} (member : event ∈ quietIrqs count) :
    event = .irq noCalls := List.eq_of_mem_replicate member

theorem allQuiet_quietIrqs (count : Nat) : AllQuiet (quietIrqs count) := by
  intro code member
  cases eq_of_mem_quietIrqs member
  exact noCalls_quiet

/-- A timer that is not due counts down by one. -/
theorem toNat_pred {ms : UInt32} (nonzero : ms ≠ 0) : (ms - 1).toNat + 1 = ms.toNat := by
  have positive : ms.toNat ≠ 0 := fun zero => nonzero (UInt32.toNat_inj.mp zero)
  have one : (1 : UInt32) ≤ ms := by
    rw [UInt32.le_iff_toNat_le]
    show 1 ≤ _
    omega
  have minus : (ms - 1).toNat = ms.toNat - 1 := UInt32.toNat_sub_of_le _ _ one
  omega

/-- A slot after the interrupt. -/
def UserTimer.tick (ut : UserTimer) : UserTimer :=
  if ut.isUsed = true ∧ ut.isPaused = false then
    if ut.remainingMs = 0 then
      if ut.autoRestart ≠ 0 then { ut with remainingMs := ut.initMs } else { ut with isUsed := false }
    else { ut with remainingMs := ut.remainingMs - 1 }
  else ut

/-- The callbacks that the interrupt calls for a slot. -/
def UserTimer.tickFirings (id : Nat) (ut : UserTimer) : List Firing :=
  if ut.isUsed = true ∧ ut.isPaused = false ∧ ut.remainingMs = 0 then ut.firings id else []

/-- The firings of one slot. -/
def firingsOf (id : Nat) (firings : List Firing) : List Firing :=
  firings.filter fun firing => decide (firing.slot = id)

theorem firingsOf_append (id : Nat) (first second : List Firing) :
    firingsOf id (first ++ second) = firingsOf id first ++ firingsOf id second :=
  List.filter_append first second

theorem UserTimer.slot_of_mem_tickFirings {id : Nat} {ut : UserTimer} {firing : Firing}
    (member : firing ∈ ut.tickFirings id) : firing.slot = id := by
  rw [UserTimer.tickFirings] at member
  split_ifs at member with due
  · rw [UserTimer.firings] at member
    split at member
    · rw [List.mem_singleton.mp member]
    · cases member
  · cases member

theorem firingsOf_tickFirings (id other : Nat) (ut : UserTimer) :
    firingsOf id (ut.tickFirings other) = if other = id then ut.tickFirings id else [] := by
  by_cases same : other = id
  · rw [if_pos same, same, firingsOf, List.filter_eq_self]
    intro firing member
    exact decide_eq_true (UserTimer.slot_of_mem_tickFirings member)
  · rw [if_neg same, firingsOf, List.filter_eq_nil_iff]
    intro firing member
    rw [UserTimer.slot_of_mem_tickFirings member, decide_eq_true_iff]
    exact same

/-- A slot's callback is called for a due timer, whatever it does then. -/
theorem checkSlot_snd (code : Code) (t : Table) (i : Nat) :
    (checkSlot code t i).2 = (t i).tickFirings i := by
  rw [checkSlot, UserTimer.tickFirings]
  cases used : (t i).isUsed <;> cases paused : (t i).isPaused <;> simp
  split_ifs <;> rfl

theorem checkSlots_cons (code : Code) (t : Table) (i : Nat) (rest : List Nat) :
    checkSlots code t (i :: rest) =
      ((checkSlots code (checkSlot code t i).1 rest).1,
        (checkSlot code t i).2 ++ (checkSlots code (checkSlot code t i).1 rest).2) := rfl

/-- **Rounds that tick the timer in their slot, and leave it alone elsewhere**; `P` is what the rounds
need. -/
theorem checkSlots_ticks {code : Code} {id : Nat} {P : Table → List Nat → Prop}
    (round : ∀ t i rest, P t (i :: rest) →
      (checkSlot code t i).1 id = (if i = id then (t id).tick else t id) ∧ P (checkSlot code t i).1 rest)
    {slots : List Nat} (distinct : slots.Nodup) {t : Table} (start : P t slots) :
    (checkSlots code t slots).1 id = (if id ∈ slots then (t id).tick else t id) ∧
      firingsOf id (checkSlots code t slots).2 =
        if id ∈ slots then (t id).tickFirings id else [] := by
  induction slots generalizing t with
  | nil => exact ⟨rfl, rfl⟩
  | cons i rest ih =>
      obtain ⟨fresh, distinct⟩ := List.nodup_cons.mp distinct
      obtain ⟨first, later⟩ := round t i rest start
      obtain ⟨table, others⟩ := ih distinct later
      rw [checkSlots_cons, firingsOf_append, table, others, checkSlot_snd, firingsOf_tickFirings, first]
      by_cases same : i = id
      · subst same
        simp [fresh]
      · simp [same, Ne.symm same]

section Irq

variable {code : Code} (quiet : Quiet code)

include quiet

theorem Quiet.calls (i : Nat) (ut : UserTimer) : ut.calls code i = [] :=
  List.flatMap_eq_nil_iff.mpr fun firing _ => quiet firing

theorem checkSlot_eq (t : Table) (i : Nat) :
    checkSlot code t i = (Function.update t i (t i).tick, (t i).tickFirings i) := by
  rw [checkSlot, UserTimer.tick, UserTimer.tickFirings, quiet.calls]
  by_cases used : (t i).isUsed = true
  · by_cases paused : (t i).isPaused = true
    · simp [used, paused]
    · by_cases zero : (t i).remainingMs = 0
      · simp [used, paused, zero, afterCalls, rearm]
      · simp [used, paused, zero]
  · simp [used]

/-- The rounds for some slots tick these and no others. -/
theorem checkSlots_apply (id : Nat) (slots : List Nat) (distinct : slots.Nodup) (t : Table) :
    (checkSlots code t slots).1 id = (if id ∈ slots then (t id).tick else t id) ∧
      firingsOf id (checkSlots code t slots).2 =
        if id ∈ slots then (t id).tickFirings id else [] := by
  refine checkSlots_ticks (P := fun _ _ => True) (fun t i rest _ => ⟨?_, trivial⟩) distinct trivial
  rw [checkSlot_eq quiet]
  dsimp only
  by_cases same : i = id
  · subst same
    rw [if_pos rfl, Function.update_self]
  · rw [if_neg same, Function.update_of_ne (Ne.symm same)]

theorem irq_apply {id : Nat} (valid : id < userTimerMaxCount) (t : Table) :
    (userTimerListCheckInIrq code t).1 id = (t id).tick ∧
      firingsOf id (userTimerListCheckInIrq code t).2 = (t id).tickFirings id := by
  have member : id ∈ List.range userTimerMaxCount := List.mem_range.mpr valid
  obtain ⟨table, firings⟩ := checkSlots_apply quiet id _ List.nodup_range t
  rw [if_pos member] at table firings
  exact ⟨table, firings⟩

end Irq

end YosStm32.Timer
