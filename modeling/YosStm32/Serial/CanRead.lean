/-
**Asking the serial port for data.**

`yusart_can_receive` looks at the size of the receive buffer, which `yusart_init` has set, and not at
what is in it. So it always says yes, and it is right exactly when the buffer is not empty
(`basicIoHasDataToRead_truthful_iff`).
-/

import YosStm32.BasicIo.Port
import YosStm32.Serial.Receive

namespace YosStm32.Serial

open Lib RingBuf BasicIo

/-- `_yusart_io_operations`; `data` is what the uninitialised local of the reader holds. -/
def yusartIoOperations (data : UInt8) : BasicIoPortOperations YRingBuffer where
  basicIoPortCanRead := some yusartCanReceive
  basicIoPortReadByteNoBlock := some fun rb b => yusartIoReadByteNoBlock rb b data

/-- The query says yes exactly when a read right after it returns 0. -/
def CanReadTruthful (rb : YRingBuffer) (b : Option UInt8) (data : UInt8) : Prop :=
  basicIoHasDataToRead (some (yusartIoOperations data)) rb ≠ 0 ↔
    ∃ b' rb', basicIoReadByte (some (yusartIoOperations data)) rb b = some (0, b', rb')

section Query

variable {s : Port} {oldest : Nat}

/-- The query says yes. -/
theorem Received.canReceive (inv : Received s oldest) (data : UInt8) :
    basicIoHasDataToRead (some (yusartIoOperations data)) s.rb ≠ 0 := by
  show yusartCanReceive s.rb ≠ 0
  have positive : yRingBufferGetSize (some s.rb) > 0 := by
    rw [yRingBufferGetSize, inv.size]
    decide
  rw [yusartCanReceive, if_pos positive]
  decide

/-- A read succeeds when there is something in the buffer. -/
theorem Received.readByte_iff (inv : Received s oldest) (b : Option UInt8) (data : UInt8) :
    (∃ b' rb', basicIoReadByte (some (yusartIoOperations data)) s.rb b = some (0, b', rb')) ↔
      s.buffered ≠ [] := by
  show (∃ b' rb', yusartIoReadByteNoBlock s.rb b data = some (0, b', rb')) ↔ _
  rw [inv.buffered_eq, Ne, List.drop_eq_nil_iff]
  rcases Nat.lt_or_eq_of_le inv.arrived with inside | nothing
  · obtain ⟨s', -, -, -, -, result, -⟩ := inv.read_some inside b data
    exact iff_of_true ⟨_, _, result⟩ (by omega)
  · have result := (inv.read_none nothing.symm b data).2
    refine iff_of_false ?_ (by omega)
    rintro ⟨b', rb', success⟩
    rw [result] at success
    cases success

end Query

/-- **The query is truthful exactly while something is in the buffer**, after `yusart_init` and any
arrivals and reads. -/
theorem basicIoHasDataToRead_truthful_iff (rb : YRingBuffer) {block : List UInt8}
    (size : block.length = yusartReceiveBufferSizeByte) (events : List PortEvent) :
    ∃ s, portRun rb block events = some s ∧
      ∀ b data, CanReadTruthful s.rb b data ↔ s.buffered ≠ [] := by
  obtain ⟨s, oldest, history⟩ := History.run rb size events
  have inv := history.received
  refine ⟨s, history.reached, fun b data => ?_⟩
  rw [CanReadTruthful, inv.readByte_iff b data]
  exact iff_true_left (inv.canReceive data)

/-- A byte arrives, and the query is right. -/
theorem basicIoHasDataToRead_truthful_iff_oneByte :
    ∃ s, portRun ⟨none, 0, 0, 0, 0⟩ (List.replicate 256 0) [.isr (some 7)] = some s ∧
      CanReadTruthful s.rb (some 0) 0 := by
  obtain ⟨s, run, truthful⟩ := basicIoHasDataToRead_truthful_iff ⟨none, 0, 0, 0, 0⟩
    List.length_replicate [.isr (some 7)]
  have some : ((portRun ⟨none, 0, 0, 0, 0⟩ (List.replicate 256 0) [.isr (some 7)]).any
      fun s => s.buffered = [7]) = true := by decide +kernel
  obtain ⟨s', run', buffered⟩ := (Option.any_eq_true _ _).mp some
  obtain rfl : s' = s := Option.some.inj (run'.symm.trans run)
  refine ⟨s', run, (truthful _ _).mpr ?_⟩
  rw [decide_eq_true_iff.mp buffered]
  exact List.cons_ne_nil _ _

/-- Right after `yusart_init` the query says yes, and nothing can be read. -/
theorem basicIoHasDataToRead_lies :
    ∃ s, portRun ⟨none, 0, 0, 0, 0⟩ (List.replicate 256 0) [] = some s ∧
      basicIoHasDataToRead (some (yusartIoOperations 0)) s.rb = 1 ∧
      basicIoReadByte (some (yusartIoOperations 0)) s.rb (some 0) = some (-1, some 0, s.rb) ∧
      ¬ CanReadTruthful s.rb (some 0) 0 := by
  have run : ((portRun ⟨none, 0, 0, 0, 0⟩ (List.replicate 256 0) []).any fun s =>
      basicIoHasDataToRead (some (yusartIoOperations 0)) s.rb = 1 ∧
        basicIoReadByte (some (yusartIoOperations 0)) s.rb (some 0) = some (-1, some 0, s.rb)) =
      true := by decide +kernel
  obtain ⟨s, reached, both⟩ := (Option.any_eq_true _ _).mp run
  obtain ⟨yes, fails⟩ := decide_eq_true_iff.mp both
  refine ⟨s, reached, yes, fails, fun truthful => ?_⟩
  obtain ⟨b', rb', success⟩ := truthful.mp (by rw [yes]; decide)
  rw [fails] at success
  cases success

end YosStm32.Serial
