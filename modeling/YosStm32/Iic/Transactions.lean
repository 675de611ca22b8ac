/-
**Transactions do not interleave on the bus.**

A transaction takes the mutex in its first step and releases it in its last one, so at every moment
at most one task is inside one (`IicInv`): everybody else stands before a `lock`. The log is then the
traces of the finished transactions, followed by what the one inside has sent so far. The direction
bit is right because `current_tran_type` is written by the task inside only.
-/

import YosStm32.Iic.Yiic

namespace YosStm32.Iic

open Lib Mutex

/-! ### What a transaction puts on the bus -/

def Transfer.ops : Transfer → List BusOp
  | .transmit none => []
  | .transmit (some bytes) => bytes.map .transmit
  | .receive buff bufLen => if buff then List.replicate bufLen .receive else []

/-- START, the address with the direction that the type asks for, the data bytes, STOP. -/
def Transaction.ops (tr : Transaction) : List BusOp :=
  .start :: .address tr.addr tr.type.direction :: tr.transfers.flatMap Transfer.ops ++ [.stop]

/-- The whole transaction, by one task. -/
def Transaction.trace (id : Nat) (tr : Transaction) : List (Nat × BusOp) := tr.ops.map (Prod.mk id)

/-- The log of some whole transactions. -/
def traces (whole : List (Nat × Transaction)) : List (Nat × BusOp) :=
  whole.flatMap fun entry => entry.2.trace entry.1

/-- The transactions of one task, in order. -/
def doneBy (whole : List (Nat × Transaction)) (id : Nat) : List Transaction :=
  (whole.filter fun entry => decide (entry.1 = id)).map Prod.snd

theorem doneBy_concat (whole : List (Nat × Transaction)) (id other : Nat) (tr : Transaction) :
    doneBy (whole ++ [(id, tr)]) other =
      if other = id then doneBy whole other ++ [tr] else doneBy whole other := by
  by_cases same : other = id
  · simp [doneBy, same]
  · simp [doneBy, same, Ne.symm same]

/-- What a step puts on the bus when the direction is as given. -/
def Step.ops (direction : I2cDirection) : Step → List BusOp
  | .sendStart => [.start]
  | .sendAddress addr => [.address addr direction]
  | .sendData byte => [.transmit byte]
  | .getData => [.receive]
  | .sendStop => [.stop]
  | _ => []

/-- The steps between the lock and the unlock. -/
def Transaction.middle (tr : Transaction) : List Step :=
  [.storeTranType tr.type, .waitIfTransmit, .sendStart, .ackIfReceive, .wait, .readTranType,
    .sendAddress tr.addr, .wait] ++ tr.transfers.flatMap Transfer.steps ++ [.sendStop]

theorem Transaction.steps_eq (tr : Transaction) : tr.steps = .lock :: (tr.middle ++ [.unlock]) := by
  simp [Transaction.steps, Transaction.middle, yiicMasterTransStart, yiicMasterSelectSlave,
    yiicMasterTransStop]

theorem Transfer.flatMap_ops (direction : I2cDirection) (transfer : Transfer) :
    transfer.steps.flatMap (Step.ops direction) = transfer.ops := by
  cases transfer with
  | transmit data =>
      cases data with
      | none => rfl
      | some bytes =>
          simp only [Transfer.steps, yiicMasterTransmitData, Transfer.ops, List.flatMap_assoc]
          exact List.map_eq_flatMap.symm
  | receive buff bufLen =>
      cases buff with
      | false => rfl
      | true =>
          have one : ∀ received : Nat, List.flatMap (Step.ops direction)
              ((if received + 1 = bufLen then [.disableAck] else []) ++ [.wait, .getData]) =
                [.receive] := by
            intro received
            split <;> rfl
          simp only [Transfer.steps, yiicMasterReceiveData, Transfer.ops, if_true,
            List.flatMap_assoc, one]
          rw [← List.map_eq_flatMap, List.map_const', List.length_range]

/-- **The steps in between put the whole transaction on the bus.** -/
theorem Transaction.middle_ops (tr : Transaction) :
    tr.middle.flatMap (Step.ops tr.type.direction) = tr.ops := by
  have data : (tr.transfers.flatMap Transfer.steps).flatMap (Step.ops tr.type.direction) =
      tr.transfers.flatMap Transfer.ops := by
    rw [List.flatMap_assoc]
    simp only [Transfer.flatMap_ops]
  rw [Transaction.middle, List.flatMap_append, List.flatMap_append, data]
  rfl

/-- A transfer only sends or receives. -/
theorem Transfer.mem_steps {transfer : Transfer} {step : Step} (member : step ∈ transfer.steps) :
    (∃ byte, step = .sendData byte) ∨ step = .wait ∨ step = .disableAck ∨ step = .getData := by
  cases transfer with
  | transmit data =>
      cases data with
      | none => exact absurd member List.not_mem_nil
      | some bytes =>
          obtain ⟨byte, _, here⟩ := List.mem_flatMap.mp member
          simp only [List.mem_cons, List.not_mem_nil, or_false] at here
          rcases here with rfl | rfl
          · exact Or.inl ⟨byte, rfl⟩
          · exact Or.inr (Or.inl rfl)
  | receive buff bufLen =>
      cases buff with
      | false => exact absurd member List.not_mem_nil
      | true =>
          obtain ⟨received, _, here⟩ := List.mem_flatMap.mp member
          rcases List.mem_append.mp here with last | rest
          · split at last
            · exact Or.inr (Or.inr (Or.inl (List.mem_singleton.mp last)))
            · exact absurd last List.not_mem_nil
          · simp only [List.mem_cons, List.not_mem_nil, or_false] at rest
            rcases rest with rfl | rfl
            · exact Or.inr (Or.inl rfl)
            · exact Or.inr (Or.inr (Or.inr rfl))

/-- In between, the mutex is left alone, and `current_tran_type` is only set to the type. -/
theorem Transaction.mem_middle {tr : Transaction} {step : Step} (member : step ∈ tr.middle) :
    step ≠ .lock ∧ step ≠ .schedule ∧ step ≠ .unlock ∧
      ∀ type, step = .storeTranType type → type = tr.type := by
  rw [Transaction.middle, List.mem_append, List.mem_append] at member
  rcases member with (first | data) | last
  · simp only [List.mem_cons, List.not_mem_nil, or_false] at first
    rcases first with rfl | rfl | rfl | rfl | rfl | rfl | rfl | rfl <;> simp
  · obtain ⟨transfer, _, here⟩ := List.mem_flatMap.mp data
    rcases Transfer.mem_steps here with ⟨byte, rfl⟩ | rfl | rfl | rfl <;> simp
  · rw [List.mem_singleton.mp last]
    simp

/-- An element that does not occur in the first part of a list comes after it. -/
theorem prefix_of_split {α : Type} {second before after : List α} {x : α} (first : List α)
    (absent : x ∉ first) (split : before ++ x :: after = first ++ second) :
    ∃ more, before = first ++ more := by
  rcases List.append_eq_append_iff.mp split with ⟨extra, start, rest⟩ | ⟨more, start, _⟩
  · cases extra with
    | nil => exact ⟨[], by rw [start, List.append_nil, List.append_nil]⟩
    | cons head extra =>
        obtain ⟨rfl, _⟩ := List.cons.inj rest
        exact absurd (start ▸ List.mem_append_right before (List.mem_cons_self ..)) absent
  · exact ⟨more, start⟩

/-- The type is stored before it is read, and the direction is read before it is sent. -/
theorem Transaction.middle_order {tr : Transaction} {before after : List Step} {step : Step}
    (split : before ++ step :: after = tr.middle) :
    (step = .readTranType → .storeTranType tr.type ∈ before) ∧
      (∀ addr, step = .sendAddress addr → .readTranType ∈ before) := by
  rw [Transaction.middle, List.append_assoc] at split
  constructor
  · rintro rfl
    obtain ⟨more, rfl⟩ := prefix_of_split [Step.storeTranType tr.type] (by simp) split
    exact List.mem_append_left _ (List.mem_singleton.mpr rfl)
  · rintro addr rfl
    obtain ⟨more, rfl⟩ := prefix_of_split
      [Step.storeTranType tr.type, .waitIfTransmit, .sendStart, .ackIfReceive, .wait,
        .readTranType] (by simp) split
    exact List.mem_append_left _ (by simp)

/-! ### One step -/

/-- `current_tran_type` after a step. -/
def Step.tranType (before : YiicMasterTr) : Step → YiicMasterTr
  | .storeTranType type => type
  | _ => before

/-- The direction that the task has evaluated after a step. -/
def Step.direction (type : YiicMasterTr) (before : I2cDirection) : Step → I2cDirection
  | .readTranType => type.direction
  | _ => before

/-- A step that is not on the mutex. -/
theorem iicAct_eq {bus : Bus} {task : Task} {step : Step} {rest : List Step} (id : Nat)
    (code : task.code = step :: rest) (lock : step ≠ .lock) (unlock : step ≠ .unlock) :
    iicAct id () bus task =
      some ({ mutex := bus.mutex
              currentTranType := step.tranType bus.currentTranType
              log := bus.log ++ (step.ops task.direction).map (Prod.mk id) },
            { code := rest
              direction := step.direction bus.currentTranType task.direction }) := by
  have silent : bus.log ++ [] = bus.log := List.append_nil _
  unfold iicAct
  rw [code]
  cases step with
  | lock => exact absurd rfl lock
  | unlock => exact absurd rfl unlock
  | sendStart => rfl
  | sendAddress => rfl
  | sendData => rfl
  | getData => rfl
  | sendStop => rfl
  | _ => exact congrArg (fun log => some (Bus.mk _ _ log, Task.mk _ _)) silent.symm

/-- A task between two transactions: the next one, if any, is about to lock. -/
def Outside (programs : Nat → List Transaction) (whole : List (Nat × Transaction)) (id : Nat)
    (task : Task) : Prop :=
  ∃ rest, programs id = doneBy whole id ++ rest ∧
    (task.code = rest.flatMap Transaction.steps ∨
      task.code = .schedule :: rest.flatMap Transaction.steps)

/-- Task `id` inside transaction `tr`: what it has done of it, and what is left. -/
structure Inside (programs : Nat → List Transaction) (whole : List (Nat × Transaction)) (id : Nat)
    (bus : Bus) (task : Task) (tr : Transaction) (rest : List Transaction) (done left : List Step) :
    Prop where
  program : programs id = doneBy whole id ++ tr :: rest
  middle : done ++ left = tr.middle
  code : task.code = left ++ .unlock :: rest.flatMap Transaction.steps
  log : bus.log = traces whole ++ (done.flatMap (Step.ops tr.type.direction)).map (Prod.mk id)
  stored : .storeTranType tr.type ∈ done → bus.currentTranType = tr.type
  read : .readTranType ∈ done → task.direction = tr.type.direction

section Steps

variable {programs : Nat → List Transaction} {whole : List (Nat × Transaction)} {id : Nat}
  {bus bus' : Bus} {task task' : Task}

/-- Outside, a step can only turn to the next lock, fail to lock, or lock. -/
theorem Outside.step (outside : Outside programs whole id task)
    (one : iicAct id () bus task = some (bus', task')) :
    (bus' = bus ∧ Outside programs whole id task') ∨
      (bus.mutex.owner < 0 ∧ bus'.mutex.owner = id ∧ (bus.log = traces whole → ∃ tr rest,
        Inside programs whole id bus' task' tr rest [] tr.middle)) := by
  obtain ⟨rest, program, code | code⟩ := outside
  · cases rest with
    | nil => simp [iicAct, code] at one
    | cons tr rest =>
        rw [List.flatMap_cons, Transaction.steps_eq] at code
        by_cases free : bus.mutex.owner < 0
        · simp only [iicAct, code, List.cons_append, tryLockSection_of_free free, if_true,
            Option.some.injEq, Prod.mk.injEq] at one
          obtain ⟨rfl, rfl⟩ := one
          refine Or.inr ⟨free, rfl, fun log => ⟨tr, rest, program, rfl, ?_, ?_, ?_, ?_⟩⟩
          · rw [List.append_assoc, List.singleton_append]
          · simp [log]
          · intro stored
            cases stored
          · intro read
            cases read
        · simp only [iicAct, code, List.cons_append, tryLockSection_of_owned free] at one
          cases one
          refine Or.inl ⟨rfl, tr :: rest, program, Or.inr ?_⟩
          simp [Transaction.steps_eq]
  · rw [iicAct_eq id code (by simp) (by simp)] at one
    obtain ⟨rfl, rfl⟩ := Prod.mk.inj (Option.some.inj one)
    exact Or.inl ⟨congrArg (Bus.mk _ _) (List.append_nil _), rest, program, Or.inl rfl⟩

/-- Inside, a step before the unlock. -/
theorem Inside.step {tr : Transaction} {rest : List Transaction} {done left : List Step}
    {next : Step} (inside : Inside programs whole id bus task tr rest done (next :: left))
    (one : iicAct id () bus task = some (bus', task')) :
    bus'.mutex = bus.mutex ∧ Inside programs whole id bus' task' tr rest (done ++ [next]) left := by
  have member : next ∈ tr.middle := inside.middle ▸ List.mem_append_right done (List.mem_cons_self ..)
  obtain ⟨lock, _, unlock, stores⟩ := Transaction.mem_middle member
  obtain ⟨readAfter, sentAfter⟩ := Transaction.middle_order inside.middle
  rw [iicAct_eq id inside.code lock unlock] at one
  obtain ⟨rfl, rfl⟩ := Prod.mk.inj (Option.some.inj one)
  -- the operations of `next` are those with the right direction
  have ops : next.ops task.direction = next.ops tr.type.direction := by
    cases next with
    | sendAddress addr => rw [inside.read (sentAfter addr rfl)]
    | _ => rfl
  refine ⟨rfl, inside.program, by rw [List.append_assoc]; exact inside.middle, rfl, ?_, ?_, ?_⟩
  · show bus.log ++ _ = _
    rw [inside.log, ops, List.append_assoc, List.flatMap_append, List.map_append,
      List.flatMap_singleton]
  · intro stored
    show next.tranType bus.currentTranType = tr.type
    cases next with
    | storeTranType type => exact stores type rfl
    | _ => exact inside.stored (by simpa using stored)
  · intro read
    show next.direction bus.currentTranType task.direction = tr.type.direction
    cases next with
    | readTranType => exact congrArg YiicMasterTr.direction (inside.stored (readAfter rfl))
    | _ => exact inside.read (by simpa using read)

/-- The unlock of the transaction that a task is inside. -/
theorem Inside.unlock {tr : Transaction} {rest : List Transaction} {done : List Step}
    (inside : Inside programs whole id bus task tr rest done []) (owner : bus.mutex.owner = id)
    (one : iicAct id () bus task = some (bus', task')) :
    bus'.mutex.owner = -1 ∧ bus'.log = traces (whole ++ [(id, tr)]) ∧
      Outside programs (whole ++ [(id, tr)]) id task' := by
  have all : done = tr.middle := by
    rw [← inside.middle, List.append_nil]
  simp only [iicAct, inside.code, List.nil_append, unlockSection_of_owner owner, Option.some.injEq,
    Prod.mk.injEq] at one
  obtain ⟨rfl, rfl⟩ := one
  refine ⟨rfl, ?_, rest, ?_, Or.inl rfl⟩
  · show bus.log = _
    rw [inside.log, all, Transaction.middle_ops, traces, traces, List.flatMap_append,
      List.flatMap_singleton]
    rfl
  · rw [doneBy_concat, if_pos rfl, List.append_assoc]
    exact inside.program

end Steps

/-! ### Every run -/

/-- Nobody is inside a transaction, or the owner of the mutex is, alone. -/
inductive IicInv (programs : Nat → List Transaction) (whole : List (Nat × Transaction)) (bus : Bus)
    (tasks : Nat → Task) : Prop where
  | free (owner : bus.mutex.owner < 0) (log : bus.log = traces whole)
      (outside : ∀ id, Outside programs whole id (tasks id))
  | held (holder : Nat) (owner : bus.mutex.owner = holder) (tr : Transaction)
      (rest : List Transaction) (done left : List Step)
      (inside : Inside programs whole holder bus (tasks holder) tr rest done left)
      (outside : ∀ id, id ≠ holder → Outside programs whole id (tasks id))

section Runs

variable {programs : Nat → List Transaction} {whole : List (Nat × Transaction)} {bus bus' : Bus}
  {tasks : Nat → Task} {id : Nat} {task' : Task}

/-- A whole transaction of another task changes nothing outside. -/
theorem Outside.concat {task : Task} {other : Nat} (outside : Outside programs whole id task)
    (different : id ≠ other) (tr : Transaction) :
    Outside programs (whole ++ [(other, tr)]) id task := by
  obtain ⟨rest, program, code⟩ := outside
  refine ⟨rest, ?_, code⟩
  rw [doneBy_concat, if_neg different]
  exact program

theorem IicInv.step (inv : IicInv programs whole bus tasks)
    (one : iicAct id () bus (tasks id) = some (bus', task')) :
    ∃ whole', IicInv programs whole' bus' (Function.update tasks id task') := by
  cases inv with
  | free owner log outside =>
      rcases (outside id).step one with ⟨rfl, still⟩ | ⟨_, taken, enter⟩
      · refine ⟨whole, .free owner log ?_⟩
        exact (Function.forall_update_iff tasks (Outside programs whole)).mpr
          ⟨still, fun other _ => outside other⟩
      · obtain ⟨tr, rest, inside⟩ := enter log
        refine ⟨whole, .held id taken tr rest [] tr.middle ?_ fun other different => ?_⟩
        · rw [Function.update_self]
          exact inside
        · rw [Function.update_of_ne different]
          exact outside other
  | held holder owner tr rest done left inside outside =>
      by_cases same : id = holder
      · subst same
        cases left with
        | cons next left =>
            obtain ⟨mutex, inside⟩ := inside.step one
            refine ⟨whole, .held id (mutex ▸ owner) tr rest (done ++ [next]) left ?_ ?_⟩
            · rw [Function.update_self]
              exact inside
            · intro other different
              rw [Function.update_of_ne different]
              exact outside other different
        | nil =>
            obtain ⟨released, log, still⟩ := inside.unlock owner one
            refine ⟨whole ++ [(id, tr)], .free (by omega) log ?_⟩
            exact (Function.forall_update_iff tasks (Outside programs (whole ++ [(id, tr)]))).mpr
              ⟨still, fun other different => (outside other different).concat different tr⟩
      · -- the mutex is owned, so a task outside cannot enter
        rcases (outside id same).step one with ⟨rfl, still⟩ | ⟨negative, _⟩
        · refine ⟨whole, .held holder owner tr rest done left ?_ ?_⟩
          · rw [Function.update_of_ne (Ne.symm same)]
            exact inside
          · exact (Function.forall_update_iff tasks fun other task =>
              other ≠ holder → Outside programs whole other task).mpr
                ⟨fun _ => still, fun other _ => outside other⟩
        · omega

/-- What the invariant says about the log. -/
theorem IicInv.log (inv : IicInv programs whole bus tasks) :
    ∃ part, bus.log = traces whole ++ part ∧
      (part = [] ∨ ∃ id tr rest,
        programs id = doneBy whole id ++ tr :: rest ∧ part <+: tr.trace id) ∧
      ∀ id, doneBy whole id <+: programs id := by
  have ofOutside : ∀ {id task}, Outside programs whole id task → doneBy whole id <+: programs id :=
    fun ⟨rest, program, _⟩ => ⟨rest, program.symm⟩
  cases inv with
  | free owner log outside =>
      exact ⟨[], by rw [log, List.append_nil], Or.inl rfl, fun id => ofOutside (outside id)⟩
  | held holder owner tr rest done left inside outside =>
      refine ⟨_, inside.log, Or.inr ⟨holder, tr, rest, inside.program, ?_⟩, fun id => ?_⟩
      · rw [Transaction.trace, ← Transaction.middle_ops, ← inside.middle, List.flatMap_append,
          List.map_append]
        exact List.prefix_append _ _
      · by_cases same : id = holder
        · exact ⟨tr :: rest, by rw [same, inside.program]⟩
        · exact ofOutside (outside id same)

end Runs

/-- **Transactions are whole on the bus.** The log is that of whole transactions, each by one task
and with the direction of its type, then a part of one more; those of each task are the first ones
of its program, in order. -/
theorem iic_transactions_whole {programs : Nat → List Transaction} {first last : Threads Bus Task}
    {events : List (ThreadEvent Unit)} (initialised : IicInitialised programs first)
    (run : runEvents (Threads.step iicAct) first events = some last) :
    ∃ whole part, last.shared.log = traces whole ++ part ∧
      (part = [] ∨ ∃ id tr rest,
        programs id = doneBy whole id ++ tr :: rest ∧ part <+: tr.trace id) ∧
      ∀ id, doneBy whole id <+: programs id := by
  obtain ⟨⟨before, init⟩, empty, code⟩ := initialised
  have owner : first.shared.mutex.owner = -1 := congrArg Ymutex.owner (Option.some.inj init).symm
  have start : ∃ whole, IicInv programs whole first.shared first.locals :=
    ⟨[], .free (by omega) empty fun id => ⟨programs id, rfl, Or.inl (code id)⟩⟩
  obtain ⟨whole, inv⟩ := threads_invariant
    (fun bus tasks => ∃ whole, IicInv programs whole bus tasks)
    (fun _ _ _ _ _ _ ⟨_, inside⟩ one => inside.step one) start run
  exact ⟨whole, inv.log⟩

/-- Task 1 reads a byte, task 2 sends one. -/
def twoPrograms (id : Nat) : List Transaction :=
  if id = 1 then [⟨.receive, 0x50, [.receive true 1]⟩]
  else if id = 2 then [⟨.transmit, 0x68, [.transmit (some [7])]⟩] else []

def twoMasters : Threads Bus Task :=
  { shared := { mutex := ⟨-1⟩, currentTranType := .transmit, log := [] }
    locals := fun id => ⟨(twoPrograms id).flatMap Transaction.steps, .write⟩
    running := 1 }

/-- Task 2 tries to start in the middle of the transaction of task 1, and after it. -/
def twoMastersRun : List (ThreadEvent Unit) :=
  List.replicate 6 (.act ()) ++ [.switchTo 2, .act (), .act (), .act (), .switchTo 1] ++
    List.replicate 8 (.act ()) ++ [.switchTo 2] ++ List.replicate 6 (.act ())

theorem iic_transactions_whole_twoMasters :
    ∃ last, runEvents (Threads.step iicAct) twoMasters twoMastersRun = some last ∧
      last.shared.log = [(1, .start), (1, .address 0x50 .read), (1, .receive), (1, .stop),
        (2, .start)] ∧
      ∃ whole part, last.shared.log = traces whole ++ part ∧
        (part = [] ∨ ∃ id tr rest,
          twoPrograms id = doneBy whole id ++ tr :: rest ∧ part <+: tr.trace id) ∧
        ∀ id, doneBy whole id <+: twoPrograms id := by
  have initialised : IicInitialised twoPrograms twoMasters := ⟨⟨⟨0⟩, rfl⟩, rfl, fun _ => rfl⟩
  have run : runEvents (Threads.step iicAct) twoMasters twoMastersRun = some _ := rfl
  exact ⟨_, run, rfl, iic_transactions_whole initialised run⟩

end YosStm32.Iic
