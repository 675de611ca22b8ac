/-
**The ids of the timers.**

`user_timer_create` hands out the number of a free slot, and the slot is as good as new
(`Allocates`). So an id is handed out twice only if its timer has ended in between: the slots of the
live ids are in use (`Allocated`), and a slot is freed by its destruction or after a one-shot firing.
There is one other way: a callback that destroys its own timer and creates a one-shot timer, which
gets the same slot, loses it when the callback is finished. `KeepsOwn` excludes it.

The other functions check the id they are given. `Guarded` says what the check is for, and
`timerIds_guarded_iff` for which ids it succeeds.
-/

import YosStm32.Timer.Periodic

namespace YosStm32.Timer

open Lib

/-! ### Handing out -/

/-- `user_timer_create` fails exactly when all slots are in use, and changes nothing then. Otherwise it
returns a free slot and changes no other; what an earlier timer has left in the slot is irrelevant. -/
structure Allocates (t : Table) (timeoutMs : UInt32) (autoRestart : Int) (onTimeout : Option Nat)
    (timeoutPara : Nat) : Prop where
  full : (userTimerCreate t timeoutMs autoRestart onTimeout timeoutPara).1 = -1 ↔
    ∀ i, i < userTimerMaxCount → (t i).isUsed = true
  unchanged : (∀ i, i < userTimerMaxCount → (t i).isUsed = true) →
    (userTimerCreate t timeoutMs autoRestart onTimeout timeoutPara).2 = t
  takes : (∃ i, i < userTimerMaxCount ∧ (t i).isUsed = false) → ∃ id,
    id < userTimerMaxCount ∧ (t id).isUsed = false ∧
      (userTimerCreate t timeoutMs autoRestart onTimeout timeoutPara).1 = (id : Int) ∧
      (userTimerCreate t timeoutMs autoRestart onTimeout timeoutPara).2 id =
        createdTimer timeoutMs autoRestart onTimeout timeoutPara ∧
      ∀ i, i ≠ id → (userTimerCreate t timeoutMs autoRestart onTimeout timeoutPara).2 i = t i
  asNew : ∀ (id : Nat) (old : UserTimer), old.isUsed = false →
    (userTimerCreate t timeoutMs autoRestart onTimeout timeoutPara).1 = (id : Int) →
      userTimerCreate (Function.update t id old) timeoutMs autoRestart onTimeout timeoutPara =
        userTimerCreate t timeoutMs autoRestart onTimeout timeoutPara

section Create

variable {t : Table} {id : Nat}

theorem firstFree_eq_none :
    firstFree t = none ↔ ∀ i, i < userTimerMaxCount → (t i).isUsed = true := by
  rw [firstFree, List.find?_eq_none]
  constructor
  · intro all i valid
    simpa using all i (List.mem_range.mpr valid)
  · intro all i member
    simp [all i (List.mem_range.mp member)]

/-- The first free slot is found from the flags alone. -/
theorem firstFree_update {old : UserTimer} (free : (t id).isUsed = false) (oldFree : old.isUsed = false) :
    firstFree (Function.update t id old) = firstFree t := by
  refine List.find?_congr fun i _ => ?_
  by_cases own : i = id
  · rw [own, Function.update_self, free, oldFree]
  · rw [Function.update_of_ne own]

theorem userTimerCreate_allocates (t : Table) (timeoutMs : UInt32) (autoRestart : Int)
    (onTimeout : Option Nat) (timeoutPara : Nat) :
    Allocates t timeoutMs autoRestart onTimeout timeoutPara := by
  have fails : (userTimerCreate t timeoutMs autoRestart onTimeout timeoutPara).1 = -1 ↔
      firstFree t = none := by
    rw [userTimerCreate]
    cases firstFree t with
    | none => exact iff_of_true rfl rfl
    | some i => exact iff_of_false (by dsimp only; omega) (by simp)
  refine ⟨fails.trans firstFree_eq_none, fun full => ?_, ?_, ?_⟩
  · rw [userTimerCreate, firstFree_eq_none.mpr full]
  · rintro ⟨i, valid, free⟩
    cases found : firstFree t with
    | none =>
        rw [firstFree_eq_none.mp found i valid] at free
        cases free
    | some id =>
        refine ⟨id, (firstFree_eq_some found).1, (firstFree_eq_some found).2,
          userTimerCreate_fst_eq.mpr found, ?_, fun i other => userTimerCreate_snd_apply ?_⟩
        · rw [userTimerCreate_snd_eq found, Function.update_self]
        · rw [found]
          simpa using Ne.symm other
  · intro id old oldFree returned
    have found := userTimerCreate_fst_eq.mp returned
    have same := (firstFree_update (firstFree_eq_some found).2 oldFree).trans found
    refine Prod.ext ?_ ?_
    · exact (userTimerCreate_fst_eq.mpr same).trans returned.symm
    · rw [userTimerCreate_snd_eq found, userTimerCreate_snd_eq same, Function.update_idem]

end Create

/-! ### What a run does with the ids -/

inductive IdMark where
  | handedOut (id : Nat)
  /-- The timer has fired as a one-shot timer, or is destroyed. -/
  | ended (id : Nat)
  deriving DecidableEq, Repr

/-- The marks of a call. -/
def TimerCall.idMarks (t : Table) : TimerCall → List IdMark
  | .create timeoutMs autoRestart onTimeout timeoutPara =>
      let timerId := (userTimerCreate t timeoutMs autoRestart onTimeout timeoutPara).1
      if 0 ≤ timerId then [.handedOut timerId.toNat] else []
  | .destroy timerId => if 0 ≤ timerId then [.ended timerId.toNat] else []
  | .pause _ | .restore _ | .reset _ _ => []

/-- The marks of the calls of a callback. -/
def callsIdMarks : Table → List TimerCall → List IdMark
  | _, [] => []
  | t, call :: calls => call.idMarks t ++ callsIdMarks (call.run t).2 calls

/-- The marks of one round of the interrupt: the timer that fires, then its callback. -/
def roundIdMarks (code : Code) (t : Table) (i : Nat) : List IdMark :=
  if (t i).Due then
    (if (t i).autoRestart = 0 then [.ended i] else []) ++ callsIdMarks t ((t i).calls code i)
  else []

/-- The marks of some rounds. -/
def irqIdMarks (code : Code) : Table → List Nat → List IdMark
  | _, [] => []
  | t, i :: rest => roundIdMarks code t i ++ irqIdMarks code (checkSlot code t i).1 rest

def idMarks (t : Table) : TimerEvent → List IdMark
  | .irq code => irqIdMarks code t (List.range userTimerMaxCount)
  | .call call => call.idMarks t

/-- No id is handed out a second time before its timer has ended. -/
def HandedOutOnce (marks : List IdMark) : Prop :=
  ∀ before between after id,
    marks = before ++ .handedOut id :: between ++ .handedOut id :: after → .ended id ∈ between

/-- An id that is handed out and whose timer has not ended. -/
def LiveId (marks : List IdMark) (id : Nat) : Prop :=
  ∃ before after, marks = before ++ .handedOut id :: after ∧ .ended id ∉ after

/-- The calls leave no timer in slot `i` that they have created there as a one-shot timer. -/
def KeepsOwnSlot (t : Table) (i : Nat) (calls : List TimerCall) : Prop :=
  ∀ before after timeoutMs autoRestart onTimeout timeoutPara,
    calls = before ++ .create timeoutMs autoRestart onTimeout timeoutPara :: after →
    lowestFree (occupied (fun j => (t j).isUsed) before) = some i → .destroy i ∉ after →
      autoRestart % 256 ≠ 0

/-- The callbacks that some rounds of the interrupt call leave none in their own slots. -/
def RoundsKeepOwn (code : Code) : Table → List Nat → Prop
  | _, [] => True
  | t, i :: rest =>
      ((t i).Due → KeepsOwnSlot t i ((t i).calls code i)) ∧
        RoundsKeepOwn code (checkSlot code t i).1 rest

def KeepsOwn (t : Table) : TimerEvent → Prop
  | .irq code => RoundsKeepOwn code t (List.range userTimerMaxCount)
  | .call _ => True

section Marks

variable {past marks : List IdMark} {id other : Nat}

theorem liveId_handedOut : LiveId (past ++ [.handedOut other]) id ↔ LiveId past id ∨ id = other := by
  constructor
  · rintro ⟨before, after, split, notEnded⟩
    rcases history_split split with ⟨-, same, -⟩ | ⟨rest, rfl, earlier⟩
    · cases same
      exact Or.inr rfl
    · exact Or.inl ⟨before, rest, earlier, fun member => notEnded (List.mem_append_left _ member)⟩
  · rintro (⟨before, after, rfl, notEnded⟩ | rfl)
    · refine ⟨before, after ++ [.handedOut other], by simp, ?_⟩
      simpa using notEnded
    · exact ⟨past, [], rfl, List.not_mem_nil⟩

theorem liveId_ended : LiveId (past ++ [.ended other]) id ↔ LiveId past id ∧ id ≠ other := by
  constructor
  · rintro ⟨before, after, split, notEnded⟩
    rcases history_split split with ⟨-, same, -⟩ | ⟨rest, rfl, earlier⟩
    · cases same
    · refine ⟨⟨before, rest, earlier, fun member => notEnded (List.mem_append_left _ member)⟩, ?_⟩
      rintro rfl
      exact notEnded (List.mem_append_right _ (List.mem_singleton_self _))
  · rintro ⟨⟨before, after, rfl, notEnded⟩, different⟩
    refine ⟨before, after ++ [.ended other], by simp, ?_⟩
    simpa [different] using notEnded

/-- An id that is live after its end has been handed out again. -/
theorem handedOut_of_liveId (live : LiveId (past ++ .ended id :: marks) id) : .handedOut id ∈ marks := by
  induction marks using List.reverseRecOn with
  | nil => exact absurd rfl (liveId_ended.mp live).2
  | append_singleton marks mark ih =>
      rw [← List.cons_append, ← List.append_assoc] at live
      cases mark with
      | handedOut other =>
          rcases liveId_handedOut.mp live with earlier | rfl
          · exact List.mem_append_left _ (ih earlier)
          · exact List.mem_append_right _ (List.mem_singleton_self _)
      | ended other => exact List.mem_append_left _ (ih (liveId_ended.mp live).1)

theorem HandedOutOnce.handOut (once : HandedOutOnce past) (fresh : ¬ LiveId past other) :
    HandedOutOnce (past ++ [.handedOut other]) := by
  intro before between after id split
  rcases history_split split with ⟨earlier, same, -⟩ | ⟨rest, -, earlier⟩
  · cases same
    by_contra notEnded
    exact fresh ⟨before, between, earlier, notEnded⟩
  · exact once before between rest id earlier

theorem HandedOutOnce.ended (once : HandedOutOnce past) : HandedOutOnce (past ++ [.ended other]) := by
  intro before between after id split
  rcases history_split split with ⟨-, same, -⟩ | ⟨rest, -, earlier⟩
  · cases same
  · exact once before between rest id earlier

end Marks

/-! ### Live ids are in use -/

/-- **The invariant.** -/
structure Allocated (t : Table) (past : List IdMark) : Prop where
  once : HandedOutOnce past
  used : ∀ id, LiveId past id → id < userTimerMaxCount ∧ (t id).isUsed = true

namespace Allocated

variable {t t' : Table} {past : List IdMark}

/-- A change that frees no slot. -/
theorem keep (allocated : Allocated t past)
    (same : ∀ id, id < userTimerMaxCount → (t id).isUsed = true → (t' id).isUsed = true) :
    Allocated t' past := by
  refine ⟨allocated.once, fun id live => ?_⟩
  obtain ⟨valid, used⟩ := allocated.used id live
  exact ⟨valid, same id valid used⟩

/-- A slot may be freed when its timer has ended. -/
theorem ends (allocated : Allocated t past) (id : Nat) (others : ∀ i, i ≠ id →
    i < userTimerMaxCount → (t i).isUsed = true → (t' i).isUsed = true) :
    Allocated t' (past ++ [.ended id]) := by
  refine ⟨allocated.once.ended, fun i live => ?_⟩
  obtain ⟨live, different⟩ := liveId_ended.mp live
  obtain ⟨valid, used⟩ := allocated.used i live
  exact ⟨valid, others i different valid used⟩

/-- **A call.** -/
theorem call (allocated : Allocated t past) (call : TimerCall) :
    Allocated (call.run t).2 (past ++ call.idMarks t) := by
  have others (i : Nat) (kept : call ≠ .destroy i) (valid : i < userTimerMaxCount)
      (used : (t i).isUsed = true) : ((call.run t).2 i).isUsed = true := by
    rw [run_apply_of_used valid used call]
    exact (UserTimer.call_used used).mpr kept
  cases call with
  | create timeoutMs autoRestart onTimeout timeoutPara =>
      rw [TimerCall.idMarks]
      cases found : firstFree t with
      | none =>
          have fails : (userTimerCreate t timeoutMs autoRestart onTimeout timeoutPara).1 = -1 := by
            rw [userTimerCreate, found]
          rw [fails, if_neg (by decide), List.append_nil]
          exact allocated.keep fun i => others i (by simp)
      | some id =>
          obtain ⟨valid, free⟩ := firstFree_eq_some found
          rw [userTimerCreate_fst_eq.mpr found, if_pos (by omega), Int.toNat_natCast]
          refine ⟨allocated.once.handOut fun live => ?_, fun i live => ?_⟩
          · have used := (allocated.used id live).2
            rw [free] at used
            cases used
          · rcases liveId_handedOut.mp live with earlier | rfl
            · obtain ⟨valid, used⟩ := allocated.used i earlier
              exact ⟨valid, others i (by simp) valid used⟩
            · refine ⟨valid, ?_⟩
              rw [TimerCall.run, userTimerCreate_snd_eq found, Function.update_self]
              rfl
  | destroy timerId =>
      rw [TimerCall.idMarks]
      split_ifs with positive
      · refine allocated.ends timerId.toNat fun i different => others i ?_
        rintro same
        cases same
        exact different (Int.toNat_natCast i).symm
      · rw [List.append_nil]
        refine allocated.keep fun i => others i ?_
        rintro same
        cases same
        exact positive (Int.natCast_nonneg i)
  | pause | restore | reset =>
      rw [TimerCall.idMarks, List.append_nil]
      exact allocated.keep fun i => others i (by simp)

/-- The calls of a callback. -/
theorem calls (allocated : Allocated t past) (calls : List TimerCall) :
    Allocated (afterCalls t calls) (past ++ callsIdMarks t calls) := by
  induction calls generalizing t past with
  | nil =>
      rw [callsIdMarks, List.append_nil]
      exact allocated
  | cons call calls ih =>
      rw [callsIdMarks, ← List.append_assoc]
      exact ih (allocated.call call)

end Allocated

/-- A slot in use is not handed out before it is destroyed. -/
theorem handedOut_calls {t : Table} {i : Nat} (valid : i < userTimerMaxCount)
    (used : (t i).isUsed = true) {calls : List TimerCall} (kept : .destroy i ∉ calls) :
    .handedOut i ∉ callsIdMarks t calls := by
  induction calls generalizing t with
  | nil => exact List.not_mem_nil
  | cons call calls ih =>
      have other : call ≠ .destroy i := by
        rintro rfl
        exact kept (List.mem_cons_self ..)
      have still : ((call.run t).2 i).isUsed = true := by
        rw [run_apply_of_used valid used call]
        exact (UserTimer.call_used used).mpr other
      rw [callsIdMarks, List.mem_append, not_or]
      refine ⟨fun member => ?_, ih still fun later => kept (List.mem_cons_of_mem _ later)⟩
      cases call with
      | create timeoutMs autoRestart onTimeout timeoutPara =>
          rw [TimerCall.idMarks] at member
          split_ifs at member with positive
          · have same : i = Int.toNat _ := IdMark.handedOut.inj (List.mem_singleton.mp member)
            have returned : (userTimerCreate t timeoutMs autoRestart onTimeout timeoutPara).1 = (i : Int) :=
              by omega
            rw [(firstFree_eq_some (userTimerCreate_fst_eq.mp returned)).2] at used
            cases used
          · cases member
      | destroy timerId =>
          rw [TimerCall.idMarks] at member
          split_ifs at member <;> simp at member
      | pause | restore | reset => cases member

namespace Allocated

variable {t : Table} {past : List IdMark} {code : Code}

/-- **One round of the interrupt.** -/
theorem round (allocated : Allocated t past) {i : Nat} (valid : i < userTimerMaxCount)
    (keepsOwn : (t i).Due → KeepsOwnSlot t i ((t i).calls code i)) :
    Allocated (checkSlot code t i).1 (past ++ roundIdMarks code t i) := by
  rw [roundIdMarks]
  by_cases due : (t i).Due
  · have own := keepsOwn due
    obtain ⟨used, running, zero⟩ := due
    rw [if_pos ⟨used, running, zero⟩, checkSlot_fires used running zero]
    generalize (t i).calls code i = calls at own
    have start : Allocated t (past ++ if (t i).autoRestart = 0 then [.ended i] else []) := by
      split_ifs
      · exact allocated.ends i fun _ _ _ used => used
      · rw [List.append_nil]
        exact allocated
    have after := start.calls calls
    rw [List.append_assoc] at after
    refine ⟨after.once, fun id live => ?_⟩
    obtain ⟨inList, inUse⟩ := after.used id live
    refine ⟨inList, ?_⟩
    by_cases same : id = i
    · subst same
      -- the slot is still in use for a timer that restarts, or the firing timer has ended in it
      have again : (afterCalls t calls id).autoRestart ≠ 0 := by
        rcases afterCalls_origin valid calls inUse with ⟨kept, first⟩ |
          ⟨before, after, timeoutMs, autoRestart, onTimeout, timeoutPara, split, found, kept, byte⟩
        · rw [first]
          intro once
          rw [if_pos once, ← List.append_assoc, List.append_assoc past, List.singleton_append] at live
          exact handedOut_calls valid used kept (handedOut_of_liveId live)
        · rw [byte, Ne, ofInt_eq_zero]
          rw [firstFree_afterCalls] at found
          exact own before after timeoutMs autoRestart onTimeout timeoutPara split found kept
      rw [rearm_again again]
      exact inUse
    · rw [rearm_apply_ne same]
      exact inUse
  · rw [if_neg due, List.append_nil]
    refine allocated.keep fun id _ inUse => ?_
    rw [checkSlot_waits due]
    by_cases same : id = i
    · subst same
      rw [Function.update_self]
      rcases UserTimer.tick_waits due with stays | ⟨-, counts⟩
      · rw [stays]
        exact inUse
      · rw [counts]
        exact inUse
    · rw [Function.update_of_ne same]
      exact inUse

theorem rounds {slots : List Nat} (allocated : Allocated t past)
    (valid : ∀ i ∈ slots, i < userTimerMaxCount) (keepsOwn : RoundsKeepOwn code t slots) :
    Allocated (checkSlots code t slots).1 (past ++ irqIdMarks code t slots) := by
  induction slots generalizing t past with
  | nil =>
      rw [irqIdMarks, List.append_nil]
      exact allocated
  | cons i rest ih =>
      rw [irqIdMarks, ← List.append_assoc]
      exact ih (allocated.round (valid i (List.mem_cons_self ..)) keepsOwn.1)
        (fun j member => valid j (List.mem_cons_of_mem _ member)) keepsOwn.2

/-- **One event.** -/
theorem step (allocated : Allocated t past) {event : TimerEvent} {next : Table}
    (keepsOwn : KeepsOwn t event) (one : timerStep t event = some next) :
    Allocated next (past ++ idMarks t event) := by
  cases event with
  | irq code =>
      cases one
      exact allocated.rounds (fun i member => List.mem_range.mp member) keepsOwn
  | call call =>
      cases one
      exact allocated.call call

end Allocated

/-- **Allocation.** In every table, so also in those that a run reaches, `user_timer_create` returns a
free slot in which nothing is left of an earlier timer, or fails because there is none. In a run from
`user_timer_init` in which no callback leaves a one-shot timer in its own slot, no id is handed out
again before its timer has fired as a one-shot timer or been destroyed. -/
theorem userTimerCreate_allocation {memory t : Table} {events : List TimerEvent}
    (keepsOwn : EachStep timerStep KeepsOwn (userTimerListInit memory) events)
    (run : runEvents timerStep (userTimerListInit memory) events = some t) :
    (∀ table timeoutMs autoRestart onTimeout timeoutPara,
        Allocates table timeoutMs autoRestart onTimeout timeoutPara) ∧
      HandedOutOnce (emitted timerStep idMarks (userTimerListInit memory) events) := by
  refine ⟨userTimerCreate_allocates, ?_⟩
  have start : Allocated (userTimerListInit memory) [] := by
    refine ⟨fun before between after id split => ?_, fun id ⟨before, after, split, _⟩ => ?_⟩
    · simp at split
    · simp at split
  exact (emitted_invariant Allocated
    (fun _ _ _ _ allocated keepsOwn one => allocated.step keepsOwn one) start keepsOwn run).once

/-- Callbacks that make no calls leave none. -/
theorem Quiet.roundsKeepOwn {code : Code} (quiet : Quiet code) (t : Table) (slots : List Nat) :
    RoundsKeepOwn code t slots := by
  induction slots generalizing t with
  | nil => trivial
  | cons i rest ih =>
      refine ⟨fun _ before after timeoutMs autoRestart onTimeout timeoutPara split => ?_, ih _⟩
      rw [quiet.calls] at split
      simp at split

/-- A one-shot timer fires, and the next timer gets its id. -/
def reusedId : List TimerEvent :=
  [.call (.create 0 0 (some 7) 5), .irq noCalls, .call (.create 100 1 (some 8) 6)]

theorem userTimerCreate_allocation_reusedId :
    ∃ t, runEvents timerStep (userTimerListInit noTimers) reusedId = some t ∧
      Allocates t 50 0 none 0 ∧ HandedOutOnce [.handedOut 0, .ended 0, .handedOut 0] := by
  have keepsOwn : EachStep timerStep KeepsOwn (userTimerListInit noTimers) reusedId :=
    ⟨trivial, fun _ _ => ⟨noCalls_quiet.roundsKeepOwn _ _, fun _ _ => ⟨trivial, fun _ _ => trivial⟩⟩⟩
  obtain ⟨t, run⟩ := run_isSome (userTimerListInit noTimers) reusedId
  have marks : emitted timerStep idMarks (userTimerListInit noTimers) reusedId =
      [.handedOut 0, .ended 0, .handedOut 0] := by decide +kernel
  obtain ⟨allocates, once⟩ := userTimerCreate_allocation keepsOwn run
  rw [marks] at once
  exact ⟨t, run, allocates t 50 0 none 0, once⟩

/-- A periodic timer fires, and its callback gives it up for a one-shot timer: both timers get the id
0, and so does a third one right after. -/
def lostOneShot : List TimerEvent :=
  [.call (.create 0 1 (some 7) 5), .irq replaceByOneShot, .call (.create 1 1 (some 8) 6)]

theorem userTimerCreate_lostOneShot :
    emitted timerStep idMarks (userTimerListInit noTimers) lostOneShot =
        [.handedOut 0, .ended 0, .handedOut 0, .handedOut 0] ∧
      ¬ HandedOutOnce (emitted timerStep idMarks (userTimerListInit noTimers) lostOneShot) := by
  have marks : emitted timerStep idMarks (userTimerListInit noTimers) lostOneShot =
      [.handedOut 0, .ended 0, .handedOut 0, .handedOut 0] := by decide +kernel
  refine ⟨marks, fun once => ?_⟩
  rw [marks] at once
  exact List.not_mem_nil (once [.handedOut 0, .ended 0] [] [] 0 rfl)

/-! ### Checking -/

/-- What the check of an id is for: a function on an id reads and writes slots of the list only, and
an id outside the list is an error that changes nothing. -/
structure Guarded {Result : Type} (timerId : Int) (error : Result) (f : Table → Result × Table) :
    Prop where
  reads : ∀ t t', (∀ i, i < userTimerMaxCount → t i = t' i) →
    (f t).1 = (f t').1 ∧ ∀ i, i < userTimerMaxCount → (f t).2 i = (f t').2 i
  writes : ∀ t i, userTimerMaxCount ≤ i → (f t).2 i = t i
  rejects : ¬ (0 ≤ timerId ∧ timerId < userTimerMaxCount) → ∀ t, f t = (error, t)

section Guards

variable {timerId : Int}

/-- The functions that share `onSlot`. -/
theorem onSlot_guarded_iff (change : UserTimer → UserTimer) :
    Guarded timerId (-1) (fun t => onSlot t timerId change) ↔ timerId ≠ userTimerMaxCount := by
  constructor
  · rintro guarded rfl
    have rejected := congrArg Prod.fst (guarded.rejects (by omega) noTimers)
    have accepted : (onSlot noTimers userTimerMaxCount change).1 = 0 := by
      rw [onSlot, if_neg (by decide)]
    rw [accepted] at rejected
    exact absurd rejected (by decide)
  · intro inside
    by_cases bad : timerId < 0 ∨ timerId > userTimerMaxCount
    · have rejected (t : Table) : onSlot t timerId change = (-1, t) := by rw [onSlot, if_pos bad]
      refine ⟨fun t t' same => ?_, fun t i _ => ?_, fun _ t => rejected t⟩
      · rw [rejected, rejected]
        exact ⟨rfl, same⟩
      · rw [rejected]
    · have valid : timerId.toNat < userTimerMaxCount := by omega
      refine ⟨fun t t' same => ?_, fun t i beyond => ?_, fun outside => by omega⟩
      · rw [onSlot, onSlot, if_neg bad, if_neg bad, same _ valid]
        refine ⟨rfl, fun i inList => ?_⟩
        dsimp only
        split_ifs
        · by_cases own : i = timerId.toNat
          · rw [own, Function.update_self, Function.update_self]
          · rw [Function.update_of_ne own, Function.update_of_ne own, same i inList]
        · exact same i inList
      · rw [onSlot, if_neg bad]
        dsimp only
        split_ifs
        · exact Function.update_of_ne (by omega) _ _
        · rfl

/-- A table whose neighbour in memory looks like a timer in use. -/
def neighbour (remainingMs : UInt32) : Table :=
  Function.update noTimers userTimerMaxCount ⟨none, 0, remainingMs, 0, 0, false, true⟩

theorem userTimerGetRemainingMs_guarded_iff :
    Guarded timerId 0 (fun t => (userTimerGetRemainingMs t timerId, t)) ↔
      timerId ≠ userTimerMaxCount := by
  constructor
  · rintro guarded rfl
    have read := (guarded.reads (neighbour 1) (neighbour 2) fun i inList => by
      rw [neighbour, neighbour, Function.update_of_ne (by omega), Function.update_of_ne (by omega)]).1
    exact absurd read (by decide)
  · intro inside
    refine ⟨fun t t' same => ⟨?_, same⟩, fun t i _ => rfl, fun outside t => ?_⟩
    · by_cases bad : timerId < 0 ∨ timerId > userTimerMaxCount
      · rw [userTimerGetRemainingMs, userTimerGetRemainingMs, if_pos bad, if_pos bad]
      · rw [userTimerGetRemainingMs, userTimerGetRemainingMs, same timerId.toNat (by omega)]
    · rw [userTimerGetRemainingMs, if_pos (by omega)]

end Guards

/-- **The check of an id is right except for `USER_TIMER_MAX_COUNT` itself**, which every function
accepts: the slot behind the list. -/
theorem timerIds_guarded_iff (timerId : Int) (timeoutMs : UInt32) :
    (Guarded timerId (-1) (fun t => userTimerPause t timerId) ↔ timerId ≠ userTimerMaxCount) ∧
      (Guarded timerId (-1) (fun t => userTimerRestore t timerId) ↔ timerId ≠ userTimerMaxCount) ∧
      (Guarded timerId (-1) (fun t => userTimerReset t timerId timeoutMs) ↔
        timerId ≠ userTimerMaxCount) ∧
      (Guarded timerId 0 (fun t => (userTimerGetRemainingMs t timerId, t)) ↔
        timerId ≠ userTimerMaxCount) ∧
      (Guarded timerId (-1) (fun t => userTimerDestroy t timerId) ↔ timerId ≠ userTimerMaxCount) :=
  ⟨onSlot_guarded_iff fun ut => { ut with isPaused := true },
    onSlot_guarded_iff fun ut => { ut with isPaused := false },
    onSlot_guarded_iff fun ut => { ut with remainingMs := timeoutMs, initMs := timeoutMs },
    userTimerGetRemainingMs_guarded_iff, onSlot_guarded_iff fun ut => { ut with isUsed := false }⟩

/-- With the id 8 every function succeeds, and works on the memory behind the list. -/
theorem timerIds_notGuarded_eight :
    (userTimerPause (neighbour 5) 8).1 = 0 ∧ ((userTimerPause (neighbour 5) 8).2 8).isPaused = true ∧
      (userTimerReset (neighbour 5) 8 9).1 = 0 ∧
      ((userTimerReset (neighbour 5) 8 9).2 8).remainingMs = 9 ∧
      userTimerGetRemainingMs (neighbour 5) 8 = 5 ∧
      (userTimerDestroy (neighbour 5) 8).1 = 0 ∧
      ((userTimerDestroy (neighbour 5) 8).2 8).isUsed = false ∧
      ¬ Guarded 8 (-1) (fun t => userTimerPause t 8) := by
  refine ⟨rfl, by decide, rfl, by decide, by decide, rfl, by decide, fun guarded => ?_⟩
  have accepted := congrArg Prod.fst (guarded.rejects (by decide) noTimers)
  exact absurd accepted (by decide)

end YosStm32.Timer
