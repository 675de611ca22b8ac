/-
**The I2C master driver** (`yiic.c`, `yiic.h`).

Tasks share the mutex of the bus, the global `current_tran_type` and the bus itself, whose log keeps
what each task has put on it. A task may lose the processor between any two accesses to these, so
each API function is the list of its accesses (`Step`), under its source name. A loop that waits on a
status register is one step, which assumes that it ends; the ACK bit decides nothing that is sent,
and the steps that set it only take their turn.
-/

import YosStm32.Lib.Threads
import YosStm32.Mutex.Ymutex

namespace YosStm32.Iic

open Lib Mutex

/-- `enum yiic_master_tr`. -/
inductive YiicMasterTr where
  | transmit
  | receive
  deriving DecidableEq, Repr

/-- `I2C_WRITE` and `I2C_READ`, the direction bit after an address. -/
inductive I2cDirection where
  | write
  | read
  deriving DecidableEq, Repr

/-- `tran_type == YIIC_MASTER_TRANSMIT ? I2C_WRITE : I2C_READ`. -/
def YiicMasterTr.direction (type : YiicMasterTr) : I2cDirection :=
  if type = .transmit then .write else .read

/-- What appears on the bus. -/
inductive BusOp where
  | start
  | address (addr : UInt8) (direction : I2cDirection)
  | transmit (byte : UInt8)
  | receive
  | stop
  deriving DecidableEq, Repr

/-- One access to what tasks share. -/
inductive Step where
  /-- `ymutex_try_lock` in `ymutex_lock`. -/
  | lock
  /-- `schedule()` in `ymutex_lock`. -/
  | schedule
  /-- `current_tran_type = tran_type`. -/
  | storeTranType (type : YiicMasterTr)
  /-- `while (I2C_SR2 & BUSY)`, when `current_tran_type` is TRANSMIT. -/
  | waitIfTransmit
  | sendStart
  /-- `i2c_enable_ack`, when `current_tran_type` is RECEIVE. -/
  | ackIfReceive
  | wait
  /-- The value of the third argument of `i2c_send_7bit_address`. -/
  | readTranType
  | sendAddress (addr : UInt8)
  | sendData (byte : UInt8)
  | disableAck
  | getData
  | sendStop
  | unlock
  deriving DecidableEq, Repr

/-- `yiic_master_trans_start`. -/
def yiicMasterTransStart (type : YiicMasterTr) : List Step :=
  [.lock, .storeTranType type, .waitIfTransmit, .sendStart, .ackIfReceive]

/-- `yiic_master_trans_stop`. -/
def yiicMasterTransStop : List Step := [.sendStop, .unlock]

/-- `yiic_master_select_slave`. -/
def yiicMasterSelectSlave (addr : UInt8) : List Step :=
  [.wait, .readTranType, .sendAddress addr, .wait]

/-- `yiic_master_transmit_data`, with the bytes that `data` points to. -/
def yiicMasterTransmitData (data : Option (List UInt8)) : List Step :=
  match data with
  | none => []
  | some bytes => bytes.flatMap fun byte => [.sendData byte, .wait]

/-- `yiic_master_receive_data`; `buff` says whether the pointer is not `NULL`. -/
def yiicMasterReceiveData (buff : Bool) (bufLen : Nat) : List Step :=
  if buff then
    (List.range bufLen).flatMap fun received =>
      (if received + 1 = bufLen then [.disableAck] else []) ++ [.wait, .getData]
  else []

/-! ### Transactions -/

/-- A call between `yiic_master_select_slave` and `yiic_master_trans_stop`. -/
inductive Transfer where
  | transmit (data : Option (List UInt8))
  | receive (buff : Bool) (bufLen : Nat)
  deriving DecidableEq, Repr

def Transfer.steps : Transfer → List Step
  | .transmit data => yiicMasterTransmitData data
  | .receive buff bufLen => yiicMasterReceiveData buff bufLen

/-- A well-formed transaction: the arguments of its calls. -/
structure Transaction where
  type : YiicMasterTr
  addr : UInt8
  transfers : List Transfer
  deriving DecidableEq, Repr

/-- The calls of a transaction. -/
def Transaction.steps (tr : Transaction) : List Step :=
  yiicMasterTransStart tr.type ++ yiicMasterSelectSlave tr.addr ++
    tr.transfers.flatMap Transfer.steps ++ yiicMasterTransStop

/-- What tasks share. -/
structure Bus where
  mutex : Ymutex
  currentTranType : YiicMasterTr
  log : List (Nat × BusOp)

/-- The rest of a task's code, and the direction argument it has evaluated. -/
structure Task where
  code : List Step
  direction : I2cDirection

/-- A bus operation of task `id`. -/
def Bus.put (bus : Bus) (id : Nat) (op : BusOp) : Bus := { bus with log := bus.log ++ [(id, op)] }

/-- The next step of task `id`. -/
def iicAct (id : Nat) (_ : Unit) (bus : Bus) (task : Task) : Option (Bus × Task) :=
  match task.code with
  | [] => none
  | .lock :: rest =>
      let (ret, mutex) := tryLockSection bus.mutex id
      if ret = 0 then some ({ bus with mutex := mutex }, { task with code := rest })
      else some ({ bus with mutex := mutex }, { task with code := .schedule :: .lock :: rest })
  | .storeTranType type :: rest =>
      some ({ bus with currentTranType := type }, { task with code := rest })
  | .readTranType :: rest =>
      some (bus, { code := rest, direction := bus.currentTranType.direction })
  | .sendStart :: rest => some (bus.put id .start, { task with code := rest })
  | .sendAddress addr :: rest =>
      some (bus.put id (.address addr task.direction), { task with code := rest })
  | .sendData byte :: rest => some (bus.put id (.transmit byte), { task with code := rest })
  | .getData :: rest => some (bus.put id .receive, { task with code := rest })
  | .sendStop :: rest => some (bus.put id .stop, { task with code := rest })
  | .unlock :: rest =>
      some ({ bus with mutex := (unlockSection bus.mutex id).2 }, { task with code := rest })
  | .schedule :: rest | .waitIfTransmit :: rest | .ackIfReceive :: rest | .wait :: rest
  | .disableAck :: rest => some (bus, { task with code := rest })

/-- After `yiic_master_init`, each task about to run its transactions. -/
def IicInitialised (programs : Nat → List Transaction) (s : Threads Bus Task) : Prop :=
  (∃ before, ymutexInit (some before) = some s.shared.mutex) ∧ s.shared.log = [] ∧
    ∀ id, (s.locals id).code = (programs id).flatMap Transaction.steps

end YosStm32.Iic
