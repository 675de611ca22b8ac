/-
**The ring buffer is a bounded queue.**

`Represents rb q`: the ring buffer holds the queue `q`, with its two indices and its length in place.
`start = end` means both empty and full; the length tells them apart. The invariant is carried
through one iteration of each loop (`putByte_room`, `putByte_full`, `getByte_some`), then through
the loops, and `yRingBuffer_refines` is the statement for sequences of calls.
-/

import YosStm32.Lib.Refinement
import YosStm32.RingBuf.YRingBuffer

namespace YosStm32.RingBuf

open Lib

/-- The ring buffer holds the queue `q`. -/
structure Represents (rb : YRingBuffer) (q : List UInt8) : Prop where
  block : ∃ cells, rb.data = some cells ∧ cells.length = rb.size ∧ HoldsQueue cells rb.start q
  length : rb.currentLen = q.length
  endIdx : rb.endIdx = (rb.start + q.length) % rb.size

namespace Represents

variable {rb : YRingBuffer} {q : List UInt8}

theorem bounds (inv : Represents rb q) :
    rb.start < rb.size ∧ rb.endIdx < rb.size ∧ q.length ≤ rb.size := by
  obtain ⟨cells, _, size, holds⟩ := inv.block
  rw [← size, inv.endIdx, ← size]
  exact ⟨holds.inside, Nat.mod_lt _ (Nat.lt_of_le_of_lt (Nat.zero_le _) holds.inside), holds.room⟩

/-- The two indices meet at the empty and at the full queue only. -/
theorem endIdx_eq_start (inv : Represents rb q) :
    rb.endIdx = rb.start ↔ q.length = 0 ∨ q.length = rb.size := by
  obtain ⟨inside, _, room⟩ := inv.bounds
  rcases Nat.lt_or_eq_of_le room with partly | full
  · rw [inv.endIdx, ring_place inside partly]
    split <;> omega
  · rw [inv.endIdx, full, Nat.add_mod_right, Nat.mod_eq_of_lt inside]
    omega

/-- The loop's test of the indices and the length: together they ask for a full queue. -/
theorem full_iff (inv : Represents rb q) :
    rb.endIdx = rb.start ∧ rb.currentLen = rb.size ↔ q.length = rb.size := by
  rw [inv.endIdx_eq_start, inv.length]
  constructor
  · exact fun both => both.2
  · exact fun full => ⟨Or.inr full, full⟩

/-- One wrapped step forward. -/
theorem wrap_succ {index size : Nat} (inside : index < size) :
    (if index + 1 ≥ size then 0 else index + 1) = (index + 1) % size := by
  rw [succ_mod inside]
  split_ifs <;> omega

/-- Nothing to wrap. -/
theorem wrap_inside {index size : Nat} (inside : index < size) :
    (if index ≥ size then 0 else index) = index := if_neg (Nat.not_le.mpr inside)

/-- A byte stored at `end` goes into the cell of that index. -/
theorem storeEnd_eq (byte : UInt8) {cells : List UInt8} (data : rb.data = some cells)
    (inside : rb.endIdx < cells.length) :
    rb.storeEnd (some byte) =
      some { rb with data := some (cells.set rb.endIdx byte), endIdx := rb.endIdx + 1 } := by
  rw [YRingBuffer.storeEnd, data, Option.bind_some, Option.bind_some, writeByte, if_pos inside]
  rfl

/-- **One byte put, with room for it.** -/
theorem putByte_room (inv : Represents rb q) (room : q.length < rb.size) (dropIfFull : Bool)
    (byte : UInt8) :
    ∃ rb', rb.putByte dropIfFull (some byte) = some (some rb') ∧ rb'.size = rb.size ∧
      rb'.wrapStart.wrapEnd.start = rb.start ∧
      Represents rb'.wrapStart.wrapEnd (q ++ [byte]) := by
  obtain ⟨cells, data, size, holds⟩ := inv.block
  obtain ⟨first, last, _⟩ := inv.bounds
  have stored := storeEnd_eq byte data (size ▸ last)
  have partly : rb.currentLen ≠ rb.size := by
    rw [inv.length]
    exact Nat.ne_of_lt room
  refine ⟨{ rb with
    data := some (cells.set rb.endIdx byte)
    endIdx := rb.endIdx + 1
    currentLen := rb.currentLen + 1 }, ?_, rfl, ?_, ⟨cells.set rb.endIdx byte, ?_, ?_, ?_⟩, ?_, ?_⟩
  · rw [YRingBuffer.putByte, if_neg partly, stored]
    split <;> rfl
  · rw [YRingBuffer.wrapEnd_start, YRingBuffer.wrapStart_start, wrap_inside first]
  · rw [YRingBuffer.wrapEnd_data, YRingBuffer.wrapStart_data]
  · rw [List.length_set, YRingBuffer.wrapEnd_size, YRingBuffer.wrapStart_size]
    exact size
  · rw [YRingBuffer.wrapEnd_start, YRingBuffer.wrapStart_start, wrap_inside first, inv.endIdx, ← size]
    exact holds.snoc (size ▸ room)
  · rw [YRingBuffer.wrapEnd_currentLen, YRingBuffer.wrapStart_currentLen, List.length_append]
    exact congrArg (· + 1) inv.length
  · rw [YRingBuffer.wrapEnd_endIdx, YRingBuffer.wrapEnd_start, YRingBuffer.wrapStart_start,
      YRingBuffer.wrapEnd_size, YRingBuffer.wrapStart_size, YRingBuffer.wrapStart_endIdx,
      wrap_inside first, wrap_succ last, inv.endIdx, List.length_append, Nat.mod_add_mod]
    rfl

/-- A full buffer takes no byte when it is not to drop any. -/
theorem putByte_stop (inv : Represents rb q) (full : q.length = rb.size) {byte : Option UInt8} :
    rb.putByte false byte = some none := by
  obtain ⟨meet, complete⟩ := inv.full_iff.mpr full
  rw [YRingBuffer.putByte, if_pos meet, if_pos complete]
  rfl

/-- **One byte put into a full buffer**, over the oldest one. -/
theorem putByte_over {oldest : UInt8} (inv : Represents rb (oldest :: q))
    (full : (oldest :: q).length = rb.size) (byte : UInt8) :
    ∃ rb', rb.putByte true (some byte) = some (some rb') ∧ rb'.size = rb.size ∧
      rb'.wrapStart.wrapEnd.start = (rb.start + 1) % rb.size ∧
      Represents rb'.wrapStart.wrapEnd (q ++ [byte]) := by
  obtain ⟨cells, data, size, holds⟩ := inv.block
  obtain ⟨first, last, _⟩ := inv.bounds
  obtain ⟨meet, complete⟩ := inv.full_iff.mpr full
  have stored := storeEnd_eq byte data (size ▸ last)
  have around := (holds.around (full.trans size.symm)).trans meet.symm
  refine ⟨{ rb with
    data := some (cells.set rb.endIdx byte)
    endIdx := rb.endIdx + 1
    start := rb.start + 1 }, ?_, rfl, ?_, ⟨cells.set rb.endIdx byte, ?_, ?_, ?_⟩, ?_, ?_⟩
  · rw [YRingBuffer.putByte, if_pos meet, if_pos complete, if_pos rfl, stored]
    rfl
  · rw [YRingBuffer.wrapEnd_start, YRingBuffer.wrapStart_start, wrap_succ first]
  · rw [YRingBuffer.wrapEnd_data, YRingBuffer.wrapStart_data]
  · rw [List.length_set, YRingBuffer.wrapEnd_size, YRingBuffer.wrapStart_size]
    exact size
  · rw [YRingBuffer.wrapEnd_start, YRingBuffer.wrapStart_start, wrap_succ first, ← size, meet]
    exact holds.shift (full.trans size.symm)
  · rw [YRingBuffer.wrapEnd_currentLen, YRingBuffer.wrapStart_currentLen, List.length_append]
    exact inv.length
  · rw [YRingBuffer.wrapEnd_endIdx, YRingBuffer.wrapEnd_start, YRingBuffer.wrapStart_start,
      YRingBuffer.wrapEnd_size, YRingBuffer.wrapStart_size, YRingBuffer.wrapStart_endIdx,
      wrap_succ first, wrap_succ last, List.length_append, ← around, size, Nat.mod_add_mod,
      Nat.add_assoc]
    rfl

/-- **One byte got.** -/
theorem getByte_some {byte : UInt8} (inv : Represents rb (byte :: q)) :
    ∃ rb', rb.getByte = some (some (byte, rb')) ∧ rb'.size = rb.size ∧
      rb'.wrapStart.start = (rb.start + 1) % rb.size ∧ Represents rb'.wrapStart q := by
  obtain ⟨cells, data, size, holds⟩ := inv.block
  obtain ⟨first, last, _⟩ := inv.bounds
  have loaded : rb.loadStart = some (byte, { rb with start := rb.start + 1 }) := by
    rw [YRingBuffer.loadStart, data, Option.bind_some, holds.head]
    rfl
  refine ⟨{ rb with start := rb.start + 1, currentLen := rb.currentLen - 1 }, ?_, rfl, ?_,
    ⟨cells, ?_, ?_, ?_⟩, ?_, ?_⟩
  · rw [YRingBuffer.getByte, loaded]
    by_cases meet : rb.endIdx = rb.start
    · have full : rb.currentLen = rb.size := by
        rcases inv.endIdx_eq_start.mp meet with none | full
        · cases none
        · exact inv.length.trans full
      rw [if_pos meet, if_pos full]
      rfl
    · rw [if_neg meet]
      rfl
  · rw [YRingBuffer.wrapStart_start, wrap_succ first]
  · rw [YRingBuffer.wrapStart_data, data]
  · rw [YRingBuffer.wrapStart_size, size]
  · rw [YRingBuffer.wrapStart_start, wrap_succ first, ← size]
    exact holds.tail
  · rw [YRingBuffer.wrapStart_currentLen, inv.length]
    rfl
  · rw [YRingBuffer.wrapStart_endIdx, YRingBuffer.wrapStart_start, YRingBuffer.wrapStart_size,
      wrap_succ first, Nat.mod_add_mod, inv.endIdx, List.length_cons, Nat.add_assoc,
      Nat.add_comm 1]

/-- An empty buffer gives nothing. -/
theorem getByte_none (inv : Represents rb []) : rb.getByte = some none := by
  have meet := inv.endIdx_eq_start.mpr (Or.inl rfl)
  have positive : rb.currentLen ≠ rb.size := by
    rw [inv.length]
    exact Nat.ne_of_lt (Nat.lt_of_le_of_lt (Nat.zero_le _) inv.bounds.1)
  rw [YRingBuffer.getByte, if_pos meet, if_neg positive]

end Represents

/-! ### The loops -/

section Loops

variable {rb : YRingBuffer} {q : List UInt8}

/-- What is left of the caller's bytes, with the next one split off. -/
theorem take_drop_succ {data : List UInt8} {left cnt : Nat}
    (inside : cnt + (left + 1) ≤ data.length) :
    ∃ byte, data[cnt]? = some byte ∧
      (data.drop cnt).take (left + 1) = byte :: (data.drop (cnt + 1)).take left := by
  have below : cnt < data.length := by omega
  refine ⟨data[cnt], List.getElem?_eq_getElem below, ?_⟩
  rw [List.drop_eq_getElem_cons below, List.take_succ_cons]

/-- **The loop that stops at a full buffer.** -/
theorem putLoop_keep (data : List UInt8) (left cnt : Nat) (inv : Represents rb q)
    (inside : cnt + left ≤ data.length) :
    ∃ rb', putLoop false data left cnt rb = some (cnt + min left (rb.size - q.length), rb') ∧
      rb'.size = rb.size ∧ Represents rb' (putKeep rb.size q ((data.drop cnt).take left)) := by
  induction left generalizing cnt rb q with
  | zero =>
      refine ⟨rb, ?_, rfl, ?_⟩
      · rw [putLoop, Nat.zero_min]
        rfl
      · rwa [List.take_zero, putKeep_nil]
  | succ left ih =>
      obtain ⟨byte, next, rest⟩ := take_drop_succ inside
      rw [putLoop, next]
      by_cases room : q.length < rb.size
      · obtain ⟨rb₁, one, size, _, inv₁⟩ := inv.putByte_room room false byte
        have size₁ := rb₁.wrapped_size.trans size
        obtain ⟨rb', run, size', inv'⟩ := ih (cnt + 1) inv₁ (by omega)
        rw [size₁] at run size' inv'
        refine ⟨rb', ?_, size', ?_⟩
        · rw [one, Option.bind_some]
          refine run.trans ?_
          rw [List.length_append, List.length_singleton]
          congr 2
          omega
        · rwa [rest, putKeep_cons room]
      · have full : q.length = rb.size := Nat.le_antisymm inv.bounds.2.2 (Nat.le_of_not_lt room)
        refine ⟨rb, ?_, rfl, ?_⟩
        · rw [inv.putByte_stop full, full, Nat.sub_self, Nat.min_zero]
          rfl
        · rwa [putKeep_full full]

/-- One byte put, over the oldest one when the buffer is full. -/
theorem putByte_drop (inv : Represents rb q) (byte : UInt8) :
    ∃ rb' q', rb.putByte true (some byte) = some (some rb') ∧ rb'.wrapStart.wrapEnd.size = rb.size ∧
      Represents rb'.wrapStart.wrapEnd q' ∧
      ∀ bytes, putDrop rb.size q (byte :: bytes) = putDrop rb.size q' bytes := by
  by_cases room : q.length < rb.size
  · obtain ⟨rb', one, size, _, inv'⟩ := inv.putByte_room room true byte
    exact ⟨rb', q ++ [byte], one, rb'.wrapped_size.trans size, inv', fun bytes => putDrop_cons ..⟩
  · have full : q.length = rb.size := Nat.le_antisymm inv.bounds.2.2 (Nat.le_of_not_lt room)
    cases q with
    | nil =>
        have first := inv.bounds.1
        rw [← full] at first
        exact absurd first (Nat.not_lt_zero _)
    | cons oldest q =>
        obtain ⟨rb', one, size, _, inv'⟩ := inv.putByte_over full byte
        exact ⟨rb', q ++ [byte], one, rb'.wrapped_size.trans size, inv', fun bytes =>
          putDrop_cons_full full ..⟩

/-- **The loop that drops the oldest bytes.** -/
theorem putLoop_drop (data : List UInt8) (left cnt : Nat) (inv : Represents rb q)
    (inside : cnt + left ≤ data.length) :
    ∃ rb', putLoop true data left cnt rb = some (cnt + left, rb') ∧
      rb'.size = rb.size ∧ Represents rb' (putDrop rb.size q ((data.drop cnt).take left)) := by
  induction left generalizing cnt rb q with
  | zero =>
      refine ⟨rb, rfl, rfl, ?_⟩
      rwa [List.take_zero, putDrop_nil inv.bounds.2.2]
  | succ left ih =>
      obtain ⟨byte, next, rest⟩ := take_drop_succ inside
      obtain ⟨rb₁, q₁, one, size₁, inv₁, dropped⟩ := putByte_drop inv byte
      obtain ⟨rb', run, size', inv'⟩ := ih (cnt + 1) inv₁ (by omega)
      have further : cnt + (left + 1) = cnt + 1 + left := by omega
      rw [size₁] at size' inv'
      rw [putLoop, next, rest, dropped, one, Option.bind_some, further]
      exact ⟨rb', run, size', inv'⟩

/-- The caller's buffer with some bytes written over it from `cnt` on. -/
def overwrite (data : List UInt8) (cnt : Nat) (bytes : List UInt8) : List UInt8 :=
  data.take cnt ++ bytes ++ data.drop (cnt + bytes.length)

theorem overwrite_nil (data : List UInt8) (cnt : Nat) : overwrite data cnt [] = data := by
  rw [overwrite, List.append_nil]
  exact List.take_append_drop cnt data

theorem overwrite_cons {data : List UInt8} {cnt : Nat} {byte : UInt8} (bytes : List UInt8)
    (below : cnt < data.length) :
    overwrite (data.set cnt byte) (cnt + 1) bytes = overwrite data cnt (byte :: bytes) := by
  have split : cnt + (byte :: bytes).length = cnt + 1 + bytes.length := by
    rw [List.length_cons]
    omega
  have first : (data.set cnt byte).take (cnt + 1) = data.take cnt ++ [byte] := by
    rw [List.take_add_one, List.take_set_of_le (Nat.le_refl _), List.getElem?_set_self below]
    rfl
  have rest : (data.set cnt byte).drop (cnt + 1 + bytes.length) =
      data.drop (cnt + 1 + bytes.length) := List.drop_set_of_lt (by omega)
  rw [overwrite, overwrite, split, first, rest, List.append_assoc (data.take cnt)]
  rfl

/-- **The loop of `YRingBufferGetData`.** -/
theorem getLoop_queue (data : List UInt8) (left cnt : Nat) (inv : Represents rb q)
    (inside : cnt + left ≤ data.length) :
    ∃ rb', getLoop left cnt data rb =
        some (cnt + min left q.length, overwrite data cnt (q.take left), rb') ∧
      rb'.size = rb.size ∧ Represents rb' (q.drop left) := by
  induction left generalizing cnt rb q data with
  | zero =>
      refine ⟨rb, ?_, rfl, inv⟩
      rw [getLoop, Nat.zero_min, List.take_zero, overwrite_nil]
      rfl
  | succ left ih =>
      cases q with
      | nil =>
          refine ⟨rb, ?_, rfl, inv⟩
          rw [getLoop, inv.getByte_none, Option.bind_some, List.take_nil, overwrite_nil]
          rfl
      | cons byte q =>
          have below : cnt < data.length := by omega
          obtain ⟨rb₁, one, size, _, inv₁⟩ := inv.getByte_some
          obtain ⟨rb', run, size', inv'⟩ := ih (data.set cnt byte) (cnt + 1) inv₁
            (by rw [List.length_set]; omega)
          refine ⟨rb', ?_, size'.trans ?_, inv'⟩
          · rw [getLoop, one, Option.bind_some]
            simp only [writeByte, if_pos below, Option.bind_some]
            refine run.trans ?_
            rw [overwrite_cons _ below, List.take_succ_cons, List.length_cons,
              Nat.add_min_add_right]
            congr 2
            omega
          · rw [YRingBuffer.wrapStart_size, size]

end Loops

/-! ### Sequences of calls -/

/-- A call with the caller's block; it passes the block's length as `len`. -/
inductive RingCall where
  | put (data : List UInt8) (dropIfFull : Bool)
  | get (buffer : List UInt8)
  | clear
  deriving DecidableEq, Repr

inductive RingAnswer where
  | put (count : Nat)
  | get (count : Nat) (buffer : List UInt8)
  | clear
  deriving DecidableEq, Repr

/-- A call of the code. -/
def ringCall (rb : Option YRingBuffer) : RingCall → Option (RingAnswer × Option YRingBuffer)
  | .put data dropIfFull =>
      (yRingBufferPutData rb (some data) data.length dropIfFull).map fun (count, rb) =>
        (.put count, rb)
  | .get buffer =>
      (yRingBufferGetData rb (some buffer) buffer.length).bind fun (count, buffer, rb) =>
        buffer.map fun buffer => (.get count buffer, rb)
  | .clear => some (.clear, yRingBufferClear rb)

/-- The same call on a queue of at most `size` bytes. -/
def fifoCall (size : Nat) (q : List UInt8) : RingCall → RingAnswer × List UInt8
  | .put data false => (.put (min data.length (size - q.length)), putKeep size q data)
  | .put data true => (.put data.length, putDrop size q data)
  | .get buffer =>
      (.get (min buffer.length q.length) (q.take buffer.length ++ buffer.drop q.length),
        q.drop buffer.length)
  | .clear => (.clear, [])

/-- The ring buffer of `size` bytes behind the pointer holds `q`. -/
def Holds (size : Nat) (rb : Option YRingBuffer) (q : List UInt8) : Prop :=
  ∃ ring, rb = some ring ∧ ring.size = size ∧ Represents ring q

theorem Represents.data_ne {rb : YRingBuffer} {q : List UInt8} (inv : Represents rb q) :
    rb.data ≠ none := by
  obtain ⟨cells, data, _⟩ := inv.block
  rw [data]
  exact Option.some_ne_none cells

/-- **One call refines.** -/
theorem ringCall_refines {size : Nat} {rb : Option YRingBuffer} {q : List UInt8}
    (holds : Holds size rb q) (call : RingCall) :
    ∃ rb', ringCall rb call = some ((fifoCall size q call).1, rb') ∧
      Holds size rb' (fifoCall size q call).2 := by
  obtain ⟨ring, rfl, rfl, inv⟩ := holds
  cases call with
  | put data dropIfFull =>
      have whole : (data.drop 0).take data.length = data := List.take_length
      cases dropIfFull with
      | false =>
          obtain ⟨ring', run, size, inv'⟩ := putLoop_keep data data.length 0 inv (by omega)
          rw [whole] at inv'
          refine ⟨some ring', ?_, ring', rfl, size, inv'⟩
          simp only [ringCall, yRingBufferPutData, if_neg inv.data_ne, run, Option.map_some,
            Nat.zero_add, fifoCall]
      | true =>
          obtain ⟨ring', run, size, inv'⟩ := putLoop_drop data data.length 0 inv (by omega)
          rw [whole] at inv'
          refine ⟨some ring', ?_, ring', rfl, size, inv'⟩
          simp only [ringCall, yRingBufferPutData, if_neg inv.data_ne, run, Option.map_some,
            Nat.zero_add, fifoCall]
  | get buffer =>
      obtain ⟨ring', run, size, inv'⟩ := getLoop_queue buffer buffer.length 0 inv (by omega)
      refine ⟨some ring', ?_, ring', rfl, size, inv'⟩
      have written : overwrite buffer 0 (q.take buffer.length) =
          q.take buffer.length ++ buffer.drop q.length := by
        rw [overwrite, List.take_zero, List.nil_append, Nat.zero_add, List.length_take]
        congr 1
        rcases Nat.le_total buffer.length q.length with short | long
        · rw [Nat.min_eq_left short, List.drop_length, List.drop_of_length_le short]
        · rw [Nat.min_eq_right long]
      simp only [ringCall, yRingBufferGetData, if_neg inv.data_ne, run, Option.map_some,
        Option.bind_some, Nat.zero_add, fifoCall, written]
  | clear =>
      obtain ⟨cells, data, size, _⟩ := inv.block
      have positive := Nat.lt_of_le_of_lt (Nat.zero_le _) inv.bounds.1
      refine ⟨_, rfl, _, rfl, rfl, ⟨cells, data, size, HoldsQueue.empty (size ▸ positive)⟩, rfl, ?_⟩
      exact (Nat.zero_mod _).symm

/-- `YRingBufferInit` gives the empty queue. -/
theorem init_holds (rb : YRingBuffer) {block : List UInt8} (positive : 1 ≤ block.length) :
    Holds block.length (yRingBufferInit (some rb) (some block) block.length) [] := by
  have nonempty : ¬ block.length ≤ 0 := Nat.not_le.mpr positive
  refine ⟨{ rb with
    data := some block
    size := block.length
    start := 0
    endIdx := 0
    currentLen := 0 }, ?_, rfl, ⟨block, rfl, rfl, HoldsQueue.empty positive⟩, rfl, ?_⟩
  · rw [yRingBufferInit, if_neg nonempty]
  · exact (Nat.zero_mod _).symm

/-- **The ring buffer refines a bounded queue.** After `YRingBufferInit` with a block of at least
one byte, every sequence of calls runs without an access outside the block, answers as the queue
does, and leaves the queue in the block, with the indices and the length in place. -/
theorem yRingBuffer_refines (rb : YRingBuffer) {block : List UInt8} (positive : 1 ≤ block.length)
    (calls : List RingCall) :
    ∃ ring, runCalls ringCall (yRingBufferInit (some rb) (some block) block.length) calls =
        some ((specCalls (fifoCall block.length) [] calls).1, some ring) ∧
      let q := (specCalls (fifoCall block.length) [] calls).2
      q.length ≤ block.length ∧ yRingBufferGetCurrentLen (some ring) = q.length ∧
        ring.size = block.length ∧ ring.start < ring.size ∧ ring.endIdx < ring.size ∧
        (ring.start + ring.currentLen) % ring.size = ring.endIdx ∧ Represents ring q := by
  obtain ⟨last, run, ring, rfl, size, inv⟩ := runCalls_refines (Holds block.length)
    (fun _ _ call holds => ringCall_refines holds call) (init_holds rb positive) calls
  obtain ⟨first, final, room⟩ := inv.bounds
  refine ⟨ring, run, size ▸ room, inv.length, size, first, final, ?_, inv⟩
  rw [inv.length]
  exact inv.endIdx.symm

/-- Three bytes put into a block of two, the oldest one dropped, and three asked for. -/
theorem yRingBuffer_refines_twoBytes :
    ∃ ring, runCalls ringCall (yRingBufferInit (some ⟨none, 0, 0, 0, 0⟩) (some [0, 0]) 2)
        [.put [1, 2, 3] true, .get [0, 0, 0]] =
      some ([.put 3, .get 2 [2, 3, 0]], some ring) := by
  have positive : 1 ≤ ([0, 0] : List UInt8).length := by decide
  obtain ⟨ring, run, _⟩ := yRingBuffer_refines ⟨none, 0, 0, 0, 0⟩ positive
    [.put [1, 2, 3] true, .get [0, 0, 0]]
  exact ⟨ring, run⟩

end YosStm32.RingBuf
