/-
**What the devices on the bus get.**

A device is selected by its seven bits of address after a START, until the next START or STOP; what goes over
the bus in between is for it (`heard`). However the tasks interleave, it gets the transactions with its
address, one after the other and whole, and at most the beginning of one more (`iic_heard`). If only one task
uses the address, they are the transactions of that task, in order, whatever the others do
(`iic_heard_alone`).
-/

import YosStm32.Iic.Transactions

namespace YosStm32.Iic

open Lib

/-! ### A device -/

/-- `i2c_send_7bit_address` shifts the address by one, which leaves seven bits of it. -/
def SameDevice (addr other : UInt8) : Prop := addr <<< 1 = other <<< 1

instance (addr other : UInt8) : Decidable (SameDevice addr other) := inferInstanceAs (Decidable (_ = _))

/-- Whether the device with an address is selected after an operation. -/
def selects (addr : UInt8) (selected : Bool) : BusOp → Bool
  | .start | .stop => false
  | .address other _ => decide (SameDevice other addr)
  | .transmit _ | .receive => selected

/-- Whether it takes part in the operation. -/
def concerns (addr : UInt8) (selected : Bool) : BusOp → Bool
  | .start => false
  | .address other _ => decide (SameDevice other addr)
  | .transmit _ | .receive | .stop => selected

/-- What the device with an address takes part in. -/
def heard (addr : UInt8) : (selected : Bool) → List BusOp → List BusOp
  | _, [] => []
  | selected, op :: ops =>
      (if concerns addr selected op then [op] else []) ++ heard addr (selects addr selected op) ops

/-- The transaction is one with the device. -/
def Transaction.With (tr : Transaction) (addr : UInt8) : Prop := SameDevice tr.addr addr

instance (tr : Transaction) (addr : UInt8) : Decidable (tr.With addr) :=
  inferInstanceAs (Decidable (SameDevice _ _))

/-- What the device gets of it. -/
def Transaction.talk (tr : Transaction) : List BusOp :=
  .address tr.addr tr.type.direction :: tr.transfers.flatMap Transfer.ops ++ [.stop]

/-- What the device gets of some transactions. -/
def talks (addr : UInt8) (transactions : List Transaction) : List BusOp :=
  (transactions.filter fun tr => decide (tr.With addr)).flatMap Transaction.talk

section Device

variable (addr : UInt8)

theorem heard_append (selected : Bool) (first second : List BusOp) :
    heard addr selected (first ++ second) =
      heard addr selected first ++ heard addr (first.foldl (selects addr) selected) second := by
  induction first generalizing selected with
  | nil => rfl
  | cons op first ih =>
      rw [List.cons_append, heard, heard, ih, List.append_assoc]
      rfl

theorem heard_prefix (selected : Bool) {part ops : List BusOp} (starts : part <+: ops) :
    heard addr selected part <+: heard addr selected ops := by
  obtain ⟨rest, rfl⟩ := starts
  rw [heard_append]
  exact List.prefix_append _ _

/-- A transfer only moves bytes. -/
theorem Transfer.mem_ops {transfer : Transfer} {op : BusOp} (member : op ∈ transfer.ops) :
    (∃ byte, op = .transmit byte) ∨ op = .receive := by
  cases transfer with
  | transmit data =>
      cases data with
      | none => exact absurd member List.not_mem_nil
      | some bytes =>
          obtain ⟨byte, _, rfl⟩ := List.mem_map.mp member
          exact Or.inl ⟨byte, rfl⟩
  | receive buff bufLen =>
      cases buff with
      | false => exact absurd member List.not_mem_nil
      | true => exact Or.inr (List.eq_of_mem_replicate member)

/-- Bytes are for the device that is selected. -/
theorem heard_bytes {ops : List BusOp} (bytes : ∀ op ∈ ops, (∃ byte, op = .transmit byte) ∨ op = .receive)
    (selected : Bool) (rest : List BusOp) :
    heard addr selected (ops ++ rest) = (if selected then ops else []) ++ heard addr selected rest ∧
      ops.foldl (selects addr) selected = selected := by
  induction ops with
  | nil => simp
  | cons op ops ih =>
      obtain ⟨later, kept⟩ := ih fun op member => bytes op (List.mem_cons_of_mem _ member)
      have same : selects addr selected op = selected ∧ concerns addr selected op = selected := by
        rcases bytes op (List.mem_cons_self ..) with ⟨byte, rfl⟩ | rfl <;> exact ⟨rfl, rfl⟩
      rw [List.cons_append, heard, List.foldl_cons, same.1, same.2, later]
      refine ⟨?_, kept⟩
      cases selected <;> rfl

theorem Transaction.mem_bytes (tr : Transaction) :
    ∀ op ∈ tr.transfers.flatMap Transfer.ops, (∃ byte, op = .transmit byte) ∨ op = .receive := by
  intro op member
  obtain ⟨transfer, _, here⟩ := List.mem_flatMap.mp member
  exact Transfer.mem_ops here

theorem Transaction.trace_ops (tr : Transaction) (id : Nat) : (tr.trace id).map Prod.snd = tr.ops := by
  rw [Transaction.trace, List.map_map]
  exact List.map_id _

/-- **A transaction is for the device that it addresses**, and leaves none selected. -/
theorem Transaction.heard_ops (tr : Transaction) (selected : Bool) :
    heard addr selected tr.ops = (if tr.With addr then tr.talk else []) ∧
      tr.ops.foldl (selects addr) selected = false := by
  obtain ⟨bytes, -⟩ := heard_bytes addr tr.mem_bytes (decide (tr.With addr)) [.stop]
  have opened : heard addr selected tr.ops =
      (if decide (tr.With addr) then [.address tr.addr tr.type.direction] else []) ++
        heard addr (decide (tr.With addr)) (tr.transfers.flatMap Transfer.ops ++ [.stop]) := rfl
  constructor
  · rw [opened, bytes]
    by_cases here : tr.With addr
    · rw [decide_eq_true here, if_pos here]
      rfl
    · rw [decide_eq_false here, if_neg here]
      rfl
  · rw [Transaction.ops, List.foldl_append]
    rfl

theorem talks_append (first second : List Transaction) :
    talks addr (first ++ second) = talks addr first ++ talks addr second := by
  rw [talks, List.filter_append, List.flatMap_append]
  rfl

theorem talks_singleton (tr : Transaction) :
    talks addr [tr] = if tr.With addr then tr.talk else [] := by
  by_cases here : tr.With addr
  · simp [talks, here]
  · simp [talks, here]

/-- A log that consists of transactions. -/
theorem heard_traces (whole : List (Nat × Transaction)) :
    heard addr false ((traces whole).map Prod.snd) = talks addr (whole.map Prod.snd) ∧
      ((traces whole).map Prod.snd).foldl (selects addr) false = false := by
  induction whole with
  | nil => exact ⟨rfl, rfl⟩
  | cons entry whole ih =>
      obtain ⟨id, tr⟩ := entry
      obtain ⟨here, none⟩ := tr.heard_ops addr false
      have split : (traces ((id, tr) :: whole)).map Prod.snd = tr.ops ++ (traces whole).map Prod.snd := by
        rw [traces, List.flatMap_cons, List.map_append, tr.trace_ops]
        rfl
      rw [split, heard_append, List.foldl_append, here, none, ih.1, ih.2, List.map_cons,
        ← List.singleton_append, talks_append, talks_singleton]
      exact ⟨rfl, rfl⟩

end Device

/-! ### Every run -/

section Runs

variable {programs : Nat → List Transaction} {whole : List (Nat × Transaction)} {addr : UInt8}

/-- Every run keeps the invariant of the bus. -/
theorem IicInv.run {s last : Threads Bus Task} {events : List (ThreadEvent Unit)}
    (inv : IicInv programs whole s.shared s.locals)
    (run : runEvents (Threads.step iicAct) s events = some last) :
    ∃ whole, IicInv programs whole last.shared last.locals :=
  threads_invariant (fun bus tasks => ∃ whole, IicInv programs whole bus tasks)
    (fun _ _ _ _ _ _ ⟨_, inside⟩ one => inside.step one) ⟨whole, inv⟩ run

/-- It holds in every run after `yiic_master_init`. -/
theorem iic_inv {first last : Threads Bus Task} {events : List (ThreadEvent Unit)}
    (initialised : IicInitialised programs first)
    (run : runEvents (Threads.step iicAct) first events = some last) :
    ∃ whole, IicInv programs whole last.shared last.locals := by
  obtain ⟨⟨before, init⟩, empty, code⟩ := initialised
  have owner : first.shared.mutex.owner = -1 := congrArg Mutex.Ymutex.owner (Option.some.inj init).symm
  have start : IicInv programs [] first.shared first.locals :=
    .free (by omega) empty fun id => ⟨programs id, rfl, Or.inl (code id)⟩
  exact start.run run

/-- What a device has got of the log that the invariant describes. -/
theorem IicInv.heard {bus : Bus} {tasks : Nat → Task} (inv : IicInv programs whole bus tasks)
    (addr : UInt8) :
    ∃ part, heard addr false (bus.log.map Prod.snd) = talks addr (whole.map Prod.snd) ++ part ∧
      (part = [] ∨ ∃ id tr rest,
        programs id = doneBy whole id ++ tr :: rest ∧ tr.With addr ∧ part <+: tr.talk) := by
  obtain ⟨part, log, begun, _⟩ := inv.log
  obtain ⟨before, none⟩ := heard_traces addr whole
  rw [log, List.map_append, heard_append, before, none]
  refine ⟨_, rfl, ?_⟩
  rcases begun with rfl | ⟨id, tr, rest, program, starts⟩
  · exact Or.inl rfl
  · have heardPart := heard_prefix addr false (starts.map Prod.snd)
    rw [tr.trace_ops, (tr.heard_ops addr false).1] at heardPart
    by_cases here : tr.With addr
    · rw [if_pos here] at heardPart
      exact Or.inr ⟨id, tr, rest, program, here, heardPart⟩
    · rw [if_neg here] at heardPart
      exact Or.inl (List.prefix_nil.mp heardPart)

/-- **A device gets whole transactions.** However the tasks interleave, what each device gets are the
transactions with its address among those that the tasks have finished, whole and in the order of the bus,
then a part of one more. -/
theorem iic_heard {first last : Threads Bus Task} {events : List (ThreadEvent Unit)}
    (initialised : IicInitialised programs first)
    (run : runEvents (Threads.step iicAct) first events = some last) :
    ∃ whole, (∀ id, doneBy whole id <+: programs id) ∧ ∀ addr, ∃ part,
      heard addr false (last.shared.log.map Prod.snd) = talks addr (whole.map Prod.snd) ++ part ∧
        (part = [] ∨ ∃ id tr rest,
          programs id = doneBy whole id ++ tr :: rest ∧ tr.With addr ∧ part <+: tr.talk) := by
  obtain ⟨whole, inv⟩ := iic_inv initialised run
  obtain ⟨_, _, _, inOrder⟩ := inv.log
  exact ⟨whole, inOrder, inv.heard⟩

/-- The device of task 1 has got its transaction, the device of task 2 nothing yet. -/
theorem iic_heard_twoMasters :
    ∃ last, runEvents (Threads.step iicAct) twoMasters twoMastersRun = some last ∧
      heard 0x50 false (last.shared.log.map Prod.snd) = [.address 0x50 .read, .receive, .stop] ∧
      heard 0x68 false (last.shared.log.map Prod.snd) = [] ∧
      ∃ whole, (∀ id, doneBy whole id <+: twoPrograms id) ∧ ∀ addr, ∃ part,
        heard addr false (last.shared.log.map Prod.snd) = talks addr (whole.map Prod.snd) ++ part ∧
          (part = [] ∨ ∃ id tr rest,
            twoPrograms id = doneBy whole id ++ tr :: rest ∧ tr.With addr ∧ part <+: tr.talk) := by
  have initialised : IicInitialised twoPrograms twoMasters := ⟨⟨⟨0⟩, rfl⟩, rfl, fun _ => rfl⟩
  have run : runEvents (Threads.step iicAct) twoMasters twoMastersRun = some _ := rfl
  exact ⟨_, run, rfl, rfl, iic_heard initialised run⟩

/-- The transactions with a device that only one task uses. -/
theorem talks_alone {id : Nat} (inOrder : ∀ id, doneBy whole id <+: programs id)
    (alone : ∀ other, other ≠ id → ∀ tr ∈ programs other, ¬ tr.With addr) :
    talks addr (whole.map Prod.snd) = talks addr (doneBy whole id) := by
  have others : ∀ entry ∈ whole, entry.2.With addr → entry.1 = id := by
    intro entry member here
    by_contra different
    have finished : entry.2 ∈ doneBy whole entry.1 :=
      List.mem_map.mpr ⟨entry, List.mem_filter.mpr ⟨member, decide_eq_true rfl⟩, rfl⟩
    exact alone entry.1 different entry.2 ((inOrder entry.1).subset finished) here
  rw [talks, talks, doneBy, List.filter_map, List.filter_map, List.filter_filter]
  refine congrArg (fun entries : List (Nat × Transaction) =>
    (entries.map Prod.snd).flatMap Transaction.talk) ?_
  refine List.filter_congr fun entry member => ?_
  have only := others entry member
  by_cases here : entry.2.With addr
  · simp [here, only here]
  · simp [here]

/-- What a device that only one task uses has got, in terms of that task. -/
theorem IicInv.heard_alone {bus : Bus} {tasks : Nat → Task} (inv : IicInv programs whole bus tasks)
    {id : Nat} (alone : ∀ other, other ≠ id → ∀ tr ∈ programs other, ¬ tr.With addr) :
    ∃ part, Iic.heard addr false (bus.log.map Prod.snd) = talks addr (doneBy whole id) ++ part ∧
      (part = [] ∨ ∃ tr rest,
        programs id = doneBy whole id ++ tr :: rest ∧ tr.With addr ∧ part <+: tr.talk) := by
  obtain ⟨part, got, begun⟩ := inv.heard addr
  obtain ⟨_, _, _, inOrder⟩ := inv.log
  rw [talks_alone inOrder alone] at got
  refine ⟨part, got, begun.imp_right ?_⟩
  rintro ⟨other, tr, rest, program, here, starts⟩
  have same : other = id := by
    by_contra different
    exact alone other different tr (program ▸ List.mem_append_right _ (List.mem_cons_self ..)) here
  subst same
  exact ⟨tr, rest, program, here, starts⟩

end Runs

end YosStm32.Iic
