/-
**Concurrent `user_timer_create`.**

A call tests a slot and claims it some statements later; in between (its window) the slot still looks
free. Two calls whose windows on one slot overlap both return its id. `Untangled` excludes that: no
task finds a slot free while another one is in its window on it, and no callback takes such a slot. It
also excludes that a call claims a slot in which the `uint8_t` holds 0 for its `auto_restart`.
Then a window's slot belongs to its call (`Creating.frames`, `Creating.apart`), so every claim adds a
timer to the live ones that no other live timer shares its slot with.
-/

import Mathlib.Data.List.Nodup
import YosStm32.Timer.CreateSteps

namespace YosStm32.Timer

open Lib

/-- `auto_restart` keeps its meaning in a `uint8_t`: it is no multiple of 256, or 0 itself. -/
def TimerArgs.FitsByte (args : TimerArgs) : Prop := args.autoRestart % 256 = 0 → args.autoRestart = 0

instance (args : TimerArgs) : Decidable args.FitsByte :=
  inferInstanceAs (Decidable (args.autoRestart % 256 = 0 → args.autoRestart = 0))

/-- A timer in use with its parameters. -/
structure Present (args : TimerArgs) (ut : UserTimer) : Prop where
  used : ut.isUsed = true
  given : Given args.autoRestart args.onTimeout args.timeoutPara ut
  initMs : ut.initMs = args.timeoutMs
  remainingMs : ut.remainingMs ≤ args.timeoutMs

/-- The live timers are in the table, one in a slot. -/
structure LiveIn (t : Table) (live : List (TimerArgs × Nat)) : Prop where
  present : ∀ timer ∈ live, timer.2 < userTimerMaxCount ∧ Present timer.1 (t timer.2)
  once : (live.map Prod.snd).Nodup

/-! ### The interrupt -/

section Interrupt

variable {t : Table} {live : List (TimerArgs × Nat)}

theorem liveStep_lost_once (once : (live.map Prod.snd).Nodup) (id : Nat) :
    ((liveStep live (.lost id)).map Prod.snd).Nodup :=
  once.sublist (List.filter_sublist.map _)

theorem mem_liveStep_lost {timer : TimerArgs × Nat} {id : Nat} :
    timer ∈ liveStep live (.lost id) ↔ timer ∈ live ∧ timer.2 ≠ id := by
  simp [liveStep]

/-- No live timer is in a free slot. -/
theorem LiveIn.ne_free (inTable : LiveIn t live) {id : Nat} (free : (t id).isUsed = false)
    {timer : TimerArgs × Nat} (member : timer ∈ live) : timer.2 ≠ id := by
  rintro rfl
  have used := (inTable.present timer member).2.used
  rw [free] at used
  cases used

/-- A change of one slot that no live timer is in. -/
theorem LiveIn.update (inTable : LiveIn t live) {id : Nat} (other : ∀ timer ∈ live, timer.2 ≠ id)
    (ut : UserTimer) : LiveIn (Function.update t id ut) live := by
  refine ⟨fun timer member => ?_, inTable.once⟩
  rw [Function.update_of_ne (other timer member)]
  exact inTable.present timer member

/-- A new timer in a free slot. -/
theorem LiveIn.add (inTable : LiveIn t live) {id : Nat} (valid : id < userTimerMaxCount)
    (free : (t id).isUsed = false) {args : TimerArgs} (byte : args.FitsByte) :
    LiveIn (Function.update t id
        (createdTimer args.timeoutMs args.autoRestart args.onTimeout args.timeoutPara))
      (live ++ [(args, id)]) := by
  have old := inTable.update (fun timer member => inTable.ne_free free member)
    (createdTimer args.timeoutMs args.autoRestart args.onTimeout args.timeoutPara)
  refine ⟨fun timer member => ?_, ?_⟩
  · rcases List.mem_append.mp member with before | new
    · exact old.present timer before
    · rw [List.mem_singleton.mp new]
      dsimp only
      rw [Function.update_self]
      refine ⟨valid, rfl, ⟨rfl, rfl, ?_⟩, rfl, UInt32.le_refl _⟩
      refine not_congr ((ofInt_eq_zero args.autoRestart).trans ⟨byte, ?_⟩)
      intro zero
      rw [zero]
      rfl
  · rw [List.map_append, List.map_singleton]
    refine List.nodup_append.mpr ⟨inTable.once, List.nodup_singleton id, ?_⟩
    intro other before new same
    obtain ⟨timer, member, rfl⟩ := List.mem_map.mp before
    rw [List.mem_singleton.mp same]
    exact inTable.ne_free free member

/-- A call of `user_timer_reset` changes the timeout of its timer. -/
def TimerArgs.afterCall (args : TimerArgs) (id : Nat) : TimerCall → TimerArgs
  | .reset timerId timeoutMs => if timerId = id then { args with timeoutMs := timeoutMs } else args
  | _ => args

theorem TimerArgs.afterCall_other (args : TimerArgs) {id : Nat} {call : TimerCall}
    (other : ∀ timeoutMs, call ≠ .reset id timeoutMs) : args.afterCall id call = args := by
  cases call with
  | reset timerId timeoutMs =>
      refine if_neg ?_
      rintro rfl
      exact other timeoutMs rfl
  | _ => rfl

theorem TimerArgs.afterCall_kept (args : TimerArgs) (id : Nat) (call : TimerCall) :
    (args.afterCall id call).onTimeout = args.onTimeout ∧
      (args.afterCall id call).timeoutPara = args.timeoutPara ∧
      (args.afterCall id call).autoRestart = args.autoRestart := by
  cases call with
  | reset =>
      simp only [TimerArgs.afterCall]
      split_ifs <;> exact ⟨rfl, rfl, rfl⟩
  | _ => exact ⟨rfl, rfl, rfl⟩

theorem Present.call {args : TimerArgs} {ut : UserTimer} (present : Present args ut) {id : Nat}
    {call : TimerCall} (kept : call ≠ .destroy id) :
    Present (args.afterCall id call) (ut.call id call) := by
  obtain ⟨used, ⟨onTimeout, para, autoRestart⟩, initMs, remainingMs⟩ := present
  obtain ⟨sameOnTimeout, samePara, sameAuto⟩ := UserTimer.call_kept id ut call
  obtain ⟨givenOnTimeout, givenPara, givenAuto⟩ := args.afterCall_kept id call
  have timeouts : (ut.call id call).initMs = (args.afterCall id call).timeoutMs ∧
      (ut.call id call).remainingMs ≤ (args.afterCall id call).timeoutMs := by
    rcases UserTimer.call_timeouts id ut call with ⟨timeoutMs, rfl, remaining, init⟩ |
      ⟨other, remaining, init⟩
    · rw [remaining, init, TimerArgs.afterCall, if_pos rfl]
      exact ⟨rfl, UInt32.le_refl _⟩
    · rw [remaining, init, args.afterCall_other other]
      exact ⟨initMs, remainingMs⟩
  refine ⟨(UserTimer.call_used used).mpr kept, ⟨?_, ?_, ?_⟩, timeouts.1, timeouts.2⟩
  · rw [sameOnTimeout, onTimeout, givenOnTimeout]
  · rw [samePara, para, givenPara]
  · rw [sameAuto, autoRestart, givenAuto]

/-- The live timers after a call that destroys none. -/
theorem liveStep_mark {call : TimerCall} (kept : ∀ timerId, call ≠ .destroy timerId) :
    call.mark.toList.foldl liveStep live =
      live.map fun timer => (timer.1.afterCall timer.2 call, timer.2) := by
  cases call with
  | destroy timerId => exact absurd rfl (kept timerId)
  | reset timerId timeoutMs =>
      rw [TimerCall.mark]
      split_ifs with positive
      · refine List.map_congr_left fun timer member => ?_
        have same : timerId = timer.2 ↔ timer.2 = timerId.toNat := by omega
        simp only [TimerArgs.afterCall, same]
        split_ifs <;> rfl
      · refine (List.map_id'' (fun timer => ?_) live).symm
        have other : ¬ timerId = timer.2 := by omega
        simp only [TimerArgs.afterCall, if_neg other]
  | create | pause | restore => exact (List.map_id'' (fun _ => rfl) live).symm

/-- **A call that a callback makes.** -/
theorem LiveIn.call (inTable : LiveIn t live) (call : TimerCall) :
    LiveIn (call.run t).2 (call.mark.toList.foldl liveStep live) := by
  have slots : ∀ timer ∈ live, (call.run t).2 timer.2 = (t timer.2).call timer.2 call := by
    intro timer member
    obtain ⟨valid, present⟩ := inTable.present timer member
    exact run_apply_of_used valid present.used call
  by_cases kept : ∀ timerId, call ≠ .destroy timerId
  · rw [liveStep_mark kept]
    refine ⟨fun timer member => ?_, ?_⟩
    · obtain ⟨old, inLive, rfl⟩ := List.mem_map.mp member
      obtain ⟨valid, present⟩ := inTable.present old inLive
      dsimp only
      rw [slots old inLive]
      exact ⟨valid, present.call (kept old.2)⟩
    · rw [List.map_map]
      exact inTable.once
  · obtain ⟨timerId, destroys⟩ := not_forall_not.mp kept
    subst destroys
    have others : ∀ timer ∈ live, timerId ≠ timer.2 →
        timer.2 < userTimerMaxCount ∧
          Present timer.1 ((TimerCall.run t (.destroy timerId)).2 timer.2) := by
      intro timer member other
      obtain ⟨valid, present⟩ := inTable.present timer member
      have kept : TimerCall.destroy timerId ≠ .destroy timer.2 := by simpa using other
      rw [slots timer member]
      exact ⟨valid, present.call kept⟩
    rw [TimerCall.mark]
    split_ifs with positive
    · refine ⟨fun timer member => ?_, liveStep_lost_once inTable.once timerId.toNat⟩
      obtain ⟨member, other⟩ := mem_liveStep_lost.mp member
      exact others timer member (by omega)
    · exact ⟨fun timer member => others timer member (by omega), inTable.once⟩

/-- All the calls of a callback. -/
theorem LiveIn.calls (inTable : LiveIn t live) (calls : List TimerCall) :
    LiveIn (afterCalls t calls) ((calls.filterMap TimerCall.mark).foldl liveStep live) := by
  induction calls generalizing t live with
  | nil => exact inTable
  | cons call calls ih =>
      have split : (call :: calls).filterMap TimerCall.mark =
          call.mark.toList ++ calls.filterMap TimerCall.mark := by
        rw [List.filterMap_cons]
        cases call.mark <;> rfl
      rw [split, List.foldl_append]
      exact ih (inTable.call call)

theorem TimerCall.mark_task {call : TimerCall} {mark : TimerMark} (marks : call.mark = some mark) :
    mark.task = none := by
  cases call with
  | reset timerId timeoutMs | destroy timerId =>
      rw [TimerCall.mark] at marks
      split_ifs at marks
      cases marks
      rfl
  | create | pause | restore => cases marks

/-- The interrupt adds no live timer. -/
theorem liveStep_ids {mark : TimerMark} (irq : mark.task = none) {timer : TimerArgs × Nat}
    (member : timer ∈ liveStep live mark) : ∃ old ∈ live, old.2 = timer.2 := by
  cases mark with
  | claimed | returned => cases irq
  | lost id => exact ⟨timer, (mem_liveStep_lost.mp member).1, rfl⟩
  | reset id timeoutMs =>
      obtain ⟨old, inLive, rfl⟩ := List.mem_map.mp member
      refine ⟨old, inLive, ?_⟩
      split_ifs <;> rfl

theorem liveSteps_ids {marks : List TimerMark} (irq : ∀ mark ∈ marks, mark.task = none)
    {timer : TimerArgs × Nat} (member : timer ∈ marks.foldl liveStep live) :
    ∃ old ∈ live, old.2 = timer.2 := by
  induction marks generalizing live with
  | nil => exact ⟨timer, member, rfl⟩
  | cons mark marks ih =>
      obtain ⟨middle, inMiddle, same⟩ := ih (fun m later => irq m (List.mem_cons_of_mem _ later)) member
      obtain ⟨old, inLive, before⟩ := liveStep_ids (irq mark (List.mem_cons_self ..)) inMiddle
      exact ⟨old, inLive, before.trans same⟩

theorem callMarks_task (calls : List TimerCall) :
    ∀ mark ∈ calls.filterMap TimerCall.mark, mark.task = none := by
  intro mark member
  obtain ⟨call, -, marks⟩ := List.mem_filterMap.mp member
  exact TimerCall.mark_task marks

/-- **One round of the loop.** -/
theorem LiveIn.round (inTable : LiveIn t live) (code : Code) (i : Nat) :
    LiveIn (checkSlot code t i).1 ((roundMarks code t i).foldl liveStep live) := by
  rw [roundMarks]
  by_cases due : (t i).Due
  · rw [if_pos due, checkSlot_fires due.1 due.2.1 due.2.2, List.foldl_cons]
    have others : LiveIn t (liveStep live (.lost i)) := by
      refine ⟨fun timer member => ?_, liveStep_lost_once inTable.once i⟩
      exact inTable.present timer (mem_liveStep_lost.mp member).1
    -- No live timer is in the slot any more, so whatever the code does to it is nobody's loss.
    refine (others.calls ((t i).calls code i)).update (fun timer member => ?_) _
    obtain ⟨old, inLive, same⟩ := liveSteps_ids (callMarks_task _) member
    exact same ▸ (mem_liveStep_lost.mp inLive).2
  · rw [if_neg due, List.foldl_nil, checkSlot_waits due]
    refine ⟨fun timer member => ?_, inTable.once⟩
    obtain ⟨valid, present⟩ := inTable.present timer member
    refine ⟨valid, ?_⟩
    by_cases own : timer.2 = i
    · subst own
      rw [Function.update_self]
      rcases UserTimer.tick_waits due with stays | ⟨nonzero, counts⟩
      · rw [stays]
        exact present
      · rw [counts]
        refine ⟨present.used, ⟨present.given.1, present.given.2, present.given.3⟩, present.initMs, ?_⟩
        refine UInt32.le_trans ?_ present.remainingMs
        show (t timer.2).remainingMs - 1 ≤ (t timer.2).remainingMs
        have minus := toNat_pred nonzero
        rw [UInt32.le_iff_toNat_le]
        omega
    · rw [Function.update_of_ne own]
      exact present

/-- **The interrupt.** -/
theorem LiveIn.rounds (inTable : LiveIn t live) (code : Code) (slots : List Nat) :
    LiveIn (checkSlots code t slots).1 ((irqMarks code t slots).foldl liveStep live) := by
  induction slots generalizing t live with
  | nil => exact inTable
  | cons i rest ih =>
      rw [irqMarks, List.foldl_append]
      exact ih (inTable.round code i)

theorem roundMarks_task (code : Code) (t : Table) (i : Nat) :
    ∀ mark ∈ roundMarks code t i, mark.task = none := by
  intro mark member
  rw [roundMarks] at member
  split_ifs at member
  · rcases List.mem_cons.mp member with rfl | later
    · rfl
    · exact callMarks_task _ mark later
  · cases member

theorem irqMarks_task (code : Code) (slots : List Nat) :
    ∀ mark ∈ irqMarks code t slots, mark.task = none := by
  induction slots generalizing t with
  | nil => exact fun mark member => absurd member (List.not_mem_nil)
  | cons i rest ih =>
      intro mark member
      rcases List.mem_append.mp member with first | later
      · exact roundMarks_task code t i mark first
      · exact ih mark later

/-- A free slot that the calls do not take stays as it is. -/
theorem afterCalls_free {id : Nat} (valid : id < userTimerMaxCount) (free : (t id).isUsed = false)
    {calls : List TimerCall} (spared : id ∉ callsTake t calls) : afterCalls t calls id = t id := by
  induction calls generalizing t with
  | nil => rfl
  | cons call calls ih =>
      unfold callsTake at spared
      rw [List.mem_append, not_or] at spared
      rcases run_apply_of_free valid free call with ⟨stays, -⟩ | ⟨_, _, _, _, found, rfl, -⟩
      · exact (ih (by rw [stays, free]) spared.2).trans stays
      · exact absurd (Option.mem_toList.mpr found) spared.1

theorem checkSlots_free {id : Nat} (valid : id < userTimerMaxCount) (free : (t id).isUsed = false)
    {code : Code} {slots : List Nat} (spared : id ∉ irqTakes code t slots) :
    (checkSlots code t slots).1 id = t id := by
  induction slots generalizing t with
  | nil => rfl
  | cons i rest ih =>
      rw [irqTakes, List.mem_append, not_or] at spared
      have stays : (checkSlot code t i).1 id = t id := by
        by_cases due : (t i).Due
        · have other : id ≠ i := by
            rintro rfl
            exact absurd due.1 (by simp [free])
          rw [if_pos due] at spared
          rw [checkSlot_fires due.1 due.2.1 due.2.2]
          exact (rearm_apply_ne other).trans (afterCalls_free valid free spared.1)
        · rw [checkSlot_waits due]
          by_cases own : id = i
          · subst own
            rw [Function.update_self, UserTimer.tick, if_neg (by simp [free])]
          · exact Function.update_of_ne own _ _
      exact (ih (by rw [stays, free]) spared.2).trans stays

end Interrupt

/-! ### The calls -/

/-- A task's call is in its window on slot `i`. -/
def InWindow (locals : Nat → Option CreateFrame) (i task : Nat) : Prop :=
  ∃ f, locals task = some f ∧ f.point.stores = true ∧ f.i = i

/-- The calls do not get in each other's way: no call finds a slot free that another one is filling,
and no callback creates a timer in such a slot. No call claims its slot with an `auto_restart` that
the `uint8_t` has made 0. -/
def Untangled (s : Creators) : ThreadEvent TimerAction → Prop
  | .switchTo _ => True
  | .act (.begin _) => True
  | .act .statement =>
      ∀ f, s.locals s.running = some f →
        (f.point = .test → (s.shared.table f.i).isUsed = false →
          ∀ task, task ≠ s.running → ¬ InWindow s.locals f.i task) ∧
        (f.point = .isUsed → f.args.FitsByte)
  | .act (.irq code) =>
      ∀ i ∈ irqTakes code s.shared.table (List.range userTimerMaxCount), ∀ task,
        ¬ InWindow s.locals i task

/-- Every id that a call returns is that of the slot which the call has claimed. -/
def ReturnsClaims (marks : List TimerMark) : Prop :=
  ∀ before task args id after, marks = before ++ .returned task args id :: after →
    lastMark task before = some (.claimed task args id)

section Marks

variable {task : Nat} {past marks : List TimerMark}

theorem lastMark_append_others (others : ∀ mark ∈ marks, mark.task ≠ some task) :
    lastMark task (past ++ marks) = lastMark task past := by
  have none : marks.filter (fun mark => mark.task = some task) = [] :=
    List.filter_eq_nil_iff.mpr fun mark member => by simpa using others mark member
  rw [lastMark, List.filter_append, none, List.append_nil, lastMark]

theorem lastMark_append_own {mark : TimerMark} (own : mark.task = some task) :
    lastMark task (past ++ [mark]) = some mark := by
  simp [lastMark, own]

theorem ReturnsClaims.append (before : ReturnsClaims past)
    (new : ∀ first task args id after, marks = first ++ .returned task args id :: after →
      lastMark task (past ++ first) = some (.claimed task args id)) :
    ReturnsClaims (past ++ marks) := by
  intro first task args id after split
  rcases List.append_eq_append_iff.mp split with ⟨middle, rfl, late⟩ | ⟨middle, early, late⟩
  · exact new middle task args id after late
  · rcases List.cons_eq_append_iff.mp late with ⟨rfl, late⟩ | ⟨rest, rfl, -⟩
    · have all := new [] task args id after late.symm
      rwa [List.append_nil, early, List.append_nil] at all
    · exact before first task args id rest early

theorem liveTimers_append (past marks : List TimerMark) :
    liveTimers (past ++ marks) = marks.foldl liveStep (liveTimers past) :=
  List.foldl_append

end Marks

/-- A call's slot in its window: still free, and on its way to the timer of the call. -/
structure CreateFrame.Window (f : CreateFrame) (t : Table) : Prop where
  inside : f.i < userTimerMaxCount
  free : (t f.i).isUsed = false
  finish : f.args.finish f.point (t f.i) =
    createdTimer f.args.timeoutMs f.args.autoRestart f.args.onTimeout f.args.timeoutPara

/-- What a call has claimed when it is about to return an id. -/
def CreateFrame.Claims (f : CreateFrame) (task : Nat) (last : Option TimerMark) : Prop :=
  match f.point with
  | .found => last = some (.claimed task f.args f.i)
  | .enable | .leave => 0 ≤ f.timerId → last = some (.claimed task f.args f.timerId.toNat)
  | _ => f.timerId = -1

/-- A call's own locals. -/
structure CreateFrame.Sound (f : CreateFrame) (task : Nat) (t : Table) (past : List TimerMark) :
    Prop where
  claims : f.Claims task (lastMark task past)
  window : f.point.stores = true → f.Window t

/-- What others do keeps this. -/
theorem CreateFrame.Sound.kept {f : CreateFrame} {task : Nat} {t t' : Table}
    {past marks : List TimerMark} (sound : f.Sound task t past)
    (others : ∀ mark ∈ marks, mark.task ≠ some task)
    (same : f.point.stores = true → t' f.i = t f.i) : f.Sound task t' (past ++ marks) := by
  refine ⟨?_, fun stores => ?_⟩
  · rw [lastMark_append_others others]
    exact sound.claims
  · obtain ⟨inside, free, finish⟩ := sound.window stores
    rw [← same stores] at free finish
    exact ⟨inside, free, finish⟩

/-- **The invariant.** -/
structure Creating (s : Creators) (past : List TimerMark) : Prop where
  frames : ∀ task f, s.locals task = some f → f.Sound task s.shared.table past
  apart : ∀ i task task', InWindow s.locals i task → InWindow s.locals i task' → task = task'
  returned : ReturnsClaims past
  live : LiveIn s.shared.table (liveTimers past)

section Steps

variable {s : Creators} {past : List TimerMark}

/-- **The running task's call goes on**: what it does must leave the other windows alone, and be
right for its own. -/
theorem Creating.goesOn (creating : Creating s past) {shared : TimerShared}
    {own : Option CreateFrame} {marks : List TimerMark}
    (othersKept : ∀ i task, task ≠ s.running → InWindow s.locals i task →
      shared.table i = s.shared.table i)
    (othersMarks : ∀ mark ∈ marks, ∀ task, task ≠ s.running → mark.task ≠ some task)
    (sound : ∀ f, own = some f → f.Sound s.running shared.table (past ++ marks))
    (alone : ∀ f, own = some f → f.point.stores = true →
      ∀ task, task ≠ s.running → ¬ InWindow s.locals f.i task)
    (returned : ReturnsClaims (past ++ marks))
    (live : LiveIn shared.table (liveTimers (past ++ marks))) :
    Creating { s with shared := shared, locals := Function.update s.locals s.running own }
      (past ++ marks) := by
  have windowOf : ∀ i task, InWindow (Function.update s.locals s.running own) i task →
      task = s.running ∧ (∃ f, own = some f ∧ f.point.stores = true ∧ f.i = i) ∨
        task ≠ s.running ∧ InWindow s.locals i task := by
    rintro i task ⟨f, call, stores, slot⟩
    by_cases mine : task = s.running
    · subst mine
      rw [Function.update_self] at call
      exact Or.inl ⟨rfl, f, call, stores, slot⟩
    · rw [Function.update_of_ne mine] at call
      exact Or.inr ⟨mine, f, call, stores, slot⟩
  refine ⟨fun task f call => ?_, fun i task task' first second => ?_, returned, live⟩
  · dsimp only at call
    by_cases mine : task = s.running
    · subst mine
      refine sound f ?_
      rwa [Function.update_self] at call
    · rw [Function.update_of_ne mine] at call
      exact (creating.frames task f call).kept (fun mark member => othersMarks mark member task mine)
        fun stores => othersKept f.i task mine ⟨f, call, stores, rfl⟩
  · rcases windowOf i task first with ⟨rfl, f, call, stores, rfl⟩ | ⟨other, inWindow⟩
    · rcases windowOf f.i task' second with ⟨rfl, -⟩ | ⟨other, inWindow⟩
      · rfl
      · exact absurd inWindow (alone f call stores task' other)
    · rcases windowOf i task' second with ⟨rfl, f, call, stores, rfl⟩ | ⟨-, inWindow'⟩
      · exact absurd inWindow (alone f call stores task other)
      · exact creating.apart i task task' inWindow inWindow'

/-- The call goes on without a change of the table. -/
theorem Creating.looks (creating : Creating s past) {irqEnabled : Bool} {own : Option CreateFrame}
    (sound : ∀ f, own = some f → f.Sound s.running s.shared.table past)
    (alone : ∀ f, own = some f → f.point.stores = true →
      ∀ task, task ≠ s.running → ¬ InWindow s.locals f.i task) :
    Creating { s with
        shared := { s.shared with irqEnabled := irqEnabled }
        locals := Function.update s.locals s.running own } past := by
  have next : Creating { s with
        shared := { s.shared with irqEnabled := irqEnabled }
        locals := Function.update s.locals s.running own } (past ++ []) := by
    refine creating.goesOn (fun _ _ _ _ => rfl) (by simp) ?_ alone ?_ ?_
    · rwa [List.append_nil]
    · rw [List.append_nil]
      exact creating.returned
    · rw [List.append_nil]
      exact creating.live
  rwa [List.append_nil] at next

theorem CreateFrame.claims_of_stores {f : CreateFrame} (stores : f.point.stores = true) (task : Nat)
    (last : Option TimerMark) : f.Claims task last ↔ f.timerId = -1 := by
  rcases f with ⟨args, i, timerId, point⟩
  cases point with
  | disable | test | found | enable | leave => cases stores
  | _ => exact Iff.rfl

/-- **A statement of the running task's call.** -/
theorem Creating.statement (creating : Creating s past) {f : CreateFrame}
    (own : s.locals s.running = some f)
    (untangled : f.point = .test → (s.shared.table f.i).isUsed = false →
      ∀ task, task ≠ s.running → ¬ InWindow s.locals f.i task)
    (byte : f.point = .isUsed → f.args.FitsByte)
    {shared : TimerShared} {next : CreateFrame ⊕ Int}
    (one : StatementFor s.shared f (shared, next)) :
    Creating { s with
        shared := shared, locals := Function.update s.locals s.running next.getLeft? }
      (past ++ f.marks s.running) := by
  obtain ⟨claims, window⟩ := creating.frames s.running f own
  have alone (stores : f.point.stores = true) (task : Nat) (other : task ≠ s.running) :
      ¬ InWindow s.locals f.i task := fun inWindow =>
    other (creating.apart f.i task s.running inWindow ⟨f, own, stores, rfl⟩)
  have kept (ut : UserTimer) (stores : f.point.stores = true) (i task : Nat)
      (other : task ≠ s.running) (inWindow : InWindow s.locals i task) :
      Function.update s.shared.table f.i ut i = s.shared.table i := by
    refine Function.update_of_ne ?_ _ _
    rintro rfl
    exact alone stores task other inWindow
  cases one with
  | @scan irqEnabled i point place next' =>
      have noMarks : f.marks s.running = [] := by
        rcases place with place | place <;> simp [CreateFrame.marks, place]
      have noId : f.timerId = -1 := by
        rcases place with place | place
        · simpa [CreateFrame.Claims, place] using claims
        · simpa [CreateFrame.Claims, place] using claims
      rw [noMarks, List.append_nil]
      refine creating.looks (fun f' goesOn => ?_) (fun f' goesOn stores => ?_)
      · cases goesOn
        refine ⟨?_, fun stores => ?_⟩
        · rcases next' with rfl | rfl
          · exact noId
          · intro positive
            dsimp only at positive
            omega
        · rcases next' with rfl | rfl <;> cases stores
      · cases goesOn
        rcases next' with rfl | rfl <;> cases stores
  | free place inside free =>
      have noMarks : f.marks s.running = [] := by simp [CreateFrame.marks, place]
      rw [noMarks, List.append_nil]
      refine creating.looks (fun f' goesOn => ?_) (fun f' goesOn stores => ?_)
      · cases goesOn
        refine ⟨?_, fun _ => ⟨inside, free, rfl⟩⟩
        simpa [CreateFrame.Claims, place] using claims
      · cases goesOn
        exact untangled place free
  | @store ut point stores marks stores' used finish =>
      obtain ⟨inside, free, done⟩ := window stores
      rw [marks]
      refine creating.goesOn (kept ut stores) (by simp) (fun f' goesOn => ?_)
        (fun f' goesOn _ => ?_) ?_ ?_
      · cases goesOn
        rw [List.append_nil]
        refine ⟨?_, fun _ => ⟨inside, ?_, ?_⟩⟩
        · exact (CreateFrame.claims_of_stores stores' _ _).mpr
            ((CreateFrame.claims_of_stores stores _ _).mp claims)
        · dsimp only
          rw [Function.update_self, used, free]
        · dsimp only
          rw [Function.update_self, finish, done]
      · cases goesOn
        exact alone stores
      · rw [List.append_nil]
        exact creating.returned
      · rw [List.append_nil]
        exact creating.live.update (fun timer member => creating.live.ne_free free member) ut
  | claim place =>
      have stores : f.point.stores = true := by rw [place]; rfl
      obtain ⟨inside, free, done⟩ := window stores
      have marks : f.marks s.running = [.claimed s.running f.args f.i] := by
        simp [CreateFrame.marks, place]
      rw [place] at done
      rw [marks, done]
      refine creating.goesOn (kept _ stores) ?_ (fun f' goesOn => ?_) (fun f' goesOn late => ?_) ?_ ?_
      · intro mark member task other
        rw [List.mem_singleton.mp member]
        simpa [TimerMark.task] using other.symm
      · cases goesOn
        exact ⟨lastMark_append_own rfl, fun late => by cases late⟩
      · cases goesOn
        cases late
      · refine creating.returned.append fun first task args id after split => ?_
        rcases List.singleton_eq_append_iff.mp split with ⟨-, last⟩ | ⟨-, last⟩
        · cases last
        · cases last
      · rw [liveTimers_append]
        exact creating.live.add inside free (byte place)
  | found place =>
      have noMarks : f.marks s.running = [] := by simp [CreateFrame.marks, place]
      rw [noMarks, List.append_nil]
      refine creating.looks (fun f' goesOn => ?_) (fun f' goesOn stores => ?_)
      · cases goesOn
        refine ⟨fun _ => ?_, fun stores => by cases stores⟩
        simpa [CreateFrame.Claims, place] using claims
      · cases goesOn
        cases stores
  | enable place =>
      have noMarks : f.marks s.running = [] := by simp [CreateFrame.marks, place]
      rw [noMarks, List.append_nil]
      refine creating.looks (fun f' goesOn => ?_) (fun f' goesOn stores => ?_)
      · cases goesOn
        refine ⟨?_, fun stores => by cases stores⟩
        simpa [CreateFrame.Claims, place] using claims
      · cases goesOn
        cases stores
  | leave place =>
      by_cases positive : 0 ≤ f.timerId
      · have marks : f.marks s.running = [.returned s.running f.args f.timerId.toNat] := by
          simp [CreateFrame.marks, place, positive]
        have claimed : lastMark s.running past = some (.claimed s.running f.args f.timerId.toNat) := by
          rw [CreateFrame.Claims, place] at claims
          exact claims positive
        rw [marks]
        refine creating.goesOn (fun _ _ _ _ => rfl) ?_ (by simp) (by simp) ?_ ?_
        · intro mark member task other
          rw [List.mem_singleton.mp member]
          simpa [TimerMark.task] using other.symm
        · refine creating.returned.append fun first task args id after split => ?_
          rcases List.singleton_eq_append_iff.mp split with ⟨rfl, last⟩ | ⟨-, last⟩
          · cases last
            rw [List.append_nil]
            exact claimed
          · cases last
        · rw [liveTimers_append]
          exact creating.live
      · have noMarks : f.marks s.running = [] := by simp [CreateFrame.marks, place, positive]
        rw [noMarks, List.append_nil]
        exact creating.looks (by simp) (by simp)

/-- **The interrupt.** -/
theorem Creating.irq (creating : Creating s past) (code : Code)
    (untangled : ∀ i ∈ irqTakes code s.shared.table (List.range userTimerMaxCount), ∀ task,
      ¬ InWindow s.locals i task) :
    Creating { s with
        shared := { s.shared with table := (userTimerListCheckInIrq code s.shared.table).1 } }
      (past ++ irqMarks code s.shared.table (List.range userTimerMaxCount)) := by
  have noTask := irqMarks_task (t := s.shared.table) code (List.range userTimerMaxCount)
  refine ⟨fun task f call => ?_, creating.apart, ?_, ?_⟩
  · have sound := creating.frames task f call
    refine sound.kept (fun mark member => by simp [noTask mark member]) fun stores => ?_
    obtain ⟨inside, free, -⟩ := sound.window stores
    exact checkSlots_free inside free fun taken => untangled f.i taken task ⟨f, call, stores, rfl⟩
  · refine creating.returned.append fun first task args id after split => ?_
    have impossible := noTask (.returned task args id) (by rw [split]; simp)
    cases impossible
  · rw [liveTimers_append]
    exact creating.live.rounds code _

theorem Creating.begin (creating : Creating s past) (args : TimerArgs) :
    Creating { s with locals := Function.update s.locals s.running (some args.frame) } past := by
  have next : Creating { s with
      shared := { s.shared with irqEnabled := s.shared.irqEnabled }
      locals := Function.update s.locals s.running (some args.frame) } past := by
    refine creating.looks (fun f call => ?_) (fun f call stores => ?_)
    · cases call
      exact ⟨rfl, fun stores => by cases stores⟩
    · cases call
      cases stores
  exact next

/-- **One step.** -/
theorem Creating.step (creating : Creating s past) {event : ThreadEvent TimerAction} {s' : Creators}
    (untangled : Untangled s event) (one : Threads.step timerAct s event = some s') :
    Creating s' (past ++ timerMarks s event) := by
  cases event with
  | switchTo next =>
      cases one
      show Creating _ (past ++ [])
      rw [List.append_nil]
      exact ⟨creating.frames, creating.apart, creating.returned, creating.live⟩
  | act action =>
      obtain ⟨⟨shared, own⟩, done, rfl⟩ := Option.map_eq_some_iff.mp one
      cases action with
      | begin args =>
          cases call : s.locals s.running with
          | some f =>
              rw [call] at done
              cases done
          | none =>
              rw [call] at done
              cases done
              show Creating _ (past ++ [])
              rw [List.append_nil]
              exact creating.begin args
      | statement =>
          cases call : s.locals s.running with
          | none =>
              rw [call] at done
              cases done
          | some f =>
              have does := createStatement_for s.shared f
              have marks : timerMarks s (.act .statement) = f.marks s.running := by
                rw [timerMarks, call, Option.elim_some]
              rw [call, timerAct] at done
              rw [marks]
              generalize createStatement s.shared f = result at does done
              obtain ⟨table, next⟩ := result
              cases next with
              | inl f' | inr timerId =>
                  cases done
                  exact creating.statement call (untangled f call).1 (untangled f call).2 does
      | irq code =>
          rw [timerAct] at done
          split_ifs at done
          cases done
          dsimp only
          rw [Function.update_eq_self]
          exact creating.irq code untangled

end Steps

/-- **Concurrent creation.** From any table, calls that do not get in each other's way return the ids
of the slots they have claimed; the timers that are live have different ids, and each is in the table
with the parameters of its call. -/
theorem userTimerCreate_concurrent (s last : Creators) (events : List (ThreadEvent TimerAction))
    (idle : ∀ task, s.locals task = none)
    (untangled : EachStep (Threads.step timerAct) Untangled s events)
    (run : runEvents (Threads.step timerAct) s events = some last) :
    let marks := emitted (Threads.step timerAct) timerMarks s events
    ReturnsClaims marks ∧ ((liveTimers marks).map Prod.snd).Nodup ∧
      ∀ timer ∈ liveTimers marks,
        timer.2 < userTimerMaxCount ∧ Present timer.1 (last.shared.table timer.2) := by
  intro marks
  have start : Creating s [] := by
    refine ⟨fun task f call => ?_, ?_, ?_, ⟨?_, List.nodup_nil⟩⟩
    · rw [idle task] at call
      cases call
    · rintro i task task' ⟨f, call, -⟩ -
      rw [idle task] at call
      cases call
    · intro before task args id after split
      simp at split
    · intro timer member
      cases member
  have final := emitted_invariant Creating
    (fun _ _ _ _ creating untangled one => creating.step untangled one) start untangled run
  exact ⟨final.returned, final.live.once, final.live.present⟩

/-! ### A few tasks -/

/-- `Untangled`, when only the tasks below `n` make calls. -/
def UntangledBelow (n : Nat) (s : Creators) : ThreadEvent TimerAction → Prop
  | .switchTo next => next < n
  | .act (.begin _) => s.running < n
  | .act .statement =>
      s.running < n ∧ ∀ f ∈ (s.locals s.running).toList,
        (f.point = .test → (s.shared.table f.i).isUsed = false →
          ∀ task, task < n → task ≠ s.running → ¬ InWindow s.locals f.i task) ∧
        (f.point = .isUsed → f.args.FitsByte)
  | .act (.irq code) =>
      ∀ i ∈ irqTakes code s.shared.table (List.range userTimerMaxCount), ∀ task, task < n →
        ¬ InWindow s.locals i task

instance (locals : Nat → Option CreateFrame) (i task : Nat) : Decidable (InWindow locals i task) :=
  decidable_of_iff (∃ f ∈ (locals task).toList, f.point.stores = true ∧ f.i = i)
    (by simp [InWindow])

instance (n : Nat) (s : Creators) : ∀ event, Decidable (UntangledBelow n s event)
  | .switchTo next => inferInstanceAs (Decidable (next < n))
  | .act (.begin _) => inferInstanceAs (Decidable (s.running < n))
  | .act .statement =>
      inferInstanceAs (Decidable (s.running < n ∧ ∀ f ∈ (s.locals s.running).toList,
        (f.point = .test → (s.shared.table f.i).isUsed = false →
          ∀ task, task < n → task ≠ s.running → ¬ InWindow s.locals f.i task) ∧
        (f.point = .isUsed → f.args.FitsByte)))
  | .act (.irq code) =>
      inferInstanceAs (Decidable (∀ i ∈ irqTakes code s.shared.table (List.range userTimerMaxCount),
        ∀ task, task < n → ¬ InWindow s.locals i task))

/-- The other tasks have no calls then. -/
theorem untangled_of_below {n : Nat} {s : Creators} {events : List (ThreadEvent TimerAction)}
    (few : s.running < n) (idle : ∀ task, n ≤ task → s.locals task = none)
    (each : EachStep (Threads.step timerAct) (UntangledBelow n) s events) :
    EachStep (Threads.step timerAct) Untangled s events := by
  refine EachStep.imp (fun s => s.running < n ∧ ∀ task, n ≤ task → s.locals task = none)
    (fun s event next inside below one => ?_) (fun s event inside below => ?_) ⟨few, idle⟩ each
  · cases event with
    | switchTo thread =>
        cases one
        exact ⟨below, inside.2⟩
    | act action =>
        obtain ⟨⟨shared, own⟩, done, rfl⟩ := Option.map_eq_some_iff.mp one
        refine ⟨inside.1, fun task beyond => ?_⟩
        have other : task ≠ s.running := by
          have running := inside.1
          omega
        exact (Function.update_of_ne other _ _).trans (inside.2 task beyond)
  · have outside (i task : Nat) (inWindow : InWindow s.locals i task) : task < n := by
      obtain ⟨f, call, -⟩ := inWindow
      by_contra beyond
      rw [inside.2 task (by omega)] at call
      cases call
    cases event with
    | switchTo => trivial
    | act action =>
        cases action with
        | begin args => trivial
        | statement =>
            intro f call
            obtain ⟨apart, byte⟩ := below.2 f (Option.mem_toList.mpr call)
            refine ⟨fun place free task other inWindow => ?_, byte⟩
            exact apart place free task (outside f.i task inWindow) other inWindow
        | irq code =>
            intro i taken task inWindow
            exact below i taken task (outside i task inWindow) inWindow

/-! ### Two tasks -/

/-- An empty table, and no calls yet. -/
def sampleCreators : Creators :=
  ⟨⟨userTimerListInit fun _ => ⟨none, 0, 0, 0, 0, false, false⟩, true⟩, fun _ => none, 0⟩

/-- A one-shot timer of 100 ms. -/
def sampleTimer (timeoutPara : Nat) : TimerArgs := ⟨100, 0, some 0, timeoutPara⟩

def statements (count : Nat) : List (ThreadEvent TimerAction) :=
  List.replicate count (.act .statement)

/-- Task 0 is switched out after it has claimed slot 0; task 1 gets slot 1. -/
def orderedCreation : List (ThreadEvent TimerAction) :=
  .act (.begin (sampleTimer 5)) :: statements 9 ++ .switchTo 1 ::
    .act (.begin (sampleTimer 6)) :: statements 13 ++ .act (.irq noCalls) :: .switchTo 0 :: statements 3

theorem userTimerCreate_concurrent_ordered :
    ∃ last, runEvents (Threads.step timerAct) sampleCreators orderedCreation = some last ∧
      Present (sampleTimer 5) (last.shared.table 0) ∧ Present (sampleTimer 6) (last.shared.table 1) := by
  have runs : (runEvents (Threads.step timerAct) sampleCreators orderedCreation).isSome = true := by
    decide +kernel
  obtain ⟨last, run⟩ := Option.isSome_iff_exists.mp runs
  have few : sampleCreators.running < 2 := by decide
  have untangled : EachStep (Threads.step timerAct) Untangled sampleCreators orderedCreation :=
    untangled_of_below few (fun _ _ => rfl) (by decide +kernel)
  obtain ⟨-, -, present⟩ := userTimerCreate_concurrent sampleCreators last orderedCreation
    (fun _ => rfl) untangled run
  have live : liveTimers (emitted (Threads.step timerAct) timerMarks sampleCreators orderedCreation) =
      [(sampleTimer 5, 0), (sampleTimer 6, 1)] := by decide +kernel
  rw [live] at present
  exact ⟨last, run, (present (sampleTimer 5, 0) (by simp)).2, (present (sampleTimer 6, 1) (by simp)).2⟩

/-- Task 0 is switched out after it has found slot 0 free; task 1 finds it free, too. -/
def tangledCreation : List (ThreadEvent TimerAction) :=
  .act (.begin (sampleTimer 5)) :: statements 2 ++ .switchTo 1 ::
    .act (.begin (sampleTimer 6)) :: statements 12 ++ .switchTo 0 :: statements 10

/-- **Both tasks get the id 0**, and the timer of task 1 is gone. -/
theorem userTimerCreate_tangled :
    ∃ last, runEvents (Threads.step timerAct) sampleCreators tangledCreation = some last ∧
      emitted (Threads.step timerAct) timerMarks sampleCreators tangledCreation =
        [.claimed 1 (sampleTimer 6) 0, .returned 1 (sampleTimer 6) 0,
          .claimed 0 (sampleTimer 5) 0, .returned 0 (sampleTimer 5) 0] ∧
      ¬ Present (sampleTimer 6) (last.shared.table 0) := by
  have runs : ((runEvents (Threads.step timerAct) sampleCreators tangledCreation).any
      fun last => (last.shared.table 0).para = 5) = true := by decide +kernel
  obtain ⟨last, run, para⟩ := (Option.any_eq_true _ _).mp runs
  refine ⟨last, run, by decide +kernel, fun present => ?_⟩
  have given := present.given.para
  rw [decide_eq_true_iff.mp para] at given
  cases given

end YosStm32.Timer
