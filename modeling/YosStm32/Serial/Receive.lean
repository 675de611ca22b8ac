/-
**What the serial port receives and what its readers get.**

Arrivals are numbered from 0. Beside the buffer the state keeps, for every cell of the block, the
number of the arrival whose byte was last written into it (`origins`), so that each byte read or
still buffered has a number of its own even where bytes are equal. The buffered numbers are the last
ones that arrived, without a gap (`Received`); an arrival at a full buffer is the only event that
moves past a number without delivering it (`Received.overrun`).
-/

import Mathlib.Data.List.Induction
import YosStm32.Lib.Run
import YosStm32.RingBuf.Fifo
import YosStm32.Serial.Yusart

namespace YosStm32.Serial

open Lib RingBuf

/-- The receive path and its history. -/
structure Port where
  rb : YRingBuffer
  /-- For each cell, the number of the arrival written there last. -/
  origins : List Nat
  arrivals : List UInt8
  /-- The bytes that successful reads took out of the buffer, and their numbers. -/
  delivered : List UInt8
  deliveredFrom : List Nat
  deriving DecidableEq, Repr

namespace Port

/-- The bytes in the buffer, oldest first. -/
def buffered (s : Port) : List UInt8 :=
  held (s.rb.data.getD []) s.rb.start s.rb.currentLen

/-- Their numbers. -/
def bufferedFrom (s : Port) : List Nat :=
  held s.origins s.rb.start s.rb.currentLen

end Port

/-- An interrupt of the port, or a call of the reader. -/
inductive PortEvent where
  | isr (dr : Option UInt8)
  | read (b : Option UInt8) (data : UInt8)
  deriving DecidableEq, Repr

/-- One event. The byte that arrives goes into the cell at `end`, the one read is in the cell at
`start`. -/
def Port.step (s : Port) : PortEvent → Option Port
  | .isr none => (usart1Isr s.rb none).map fun rb => { s with rb := rb }
  | .isr (some d) => (usart1Isr s.rb (some d)).map fun rb =>
      { s with
        rb := rb
        origins := s.origins.set s.rb.endIdx s.arrivals.length
        arrivals := s.arrivals ++ [d] }
  | .read _ data => (receiveData s.rb data).map fun (received, data, rb) =>
      if received then
        { s with
          rb := rb
          delivered := s.delivered ++ [data]
          deliveredFrom := s.deliveredFrom ++ s.origins[s.rb.start]?.toList }
      else { s with rb := rb }

/-- A run from `yusart_init` on. -/
def portRun (rb : YRingBuffer) (block : List UInt8) (events : List PortEvent) : Option Port :=
  (yusartInit rb block).bind fun rb =>
    runEvents Port.step ⟨rb, block.map fun _ => 0, [], [], []⟩ events

/-! ### The functions on a queue -/

section Functions

variable {rb : YRingBuffer} {q : List UInt8}

/-- A byte arrives and there is room for it. -/
theorem usart1Isr_room (inv : Represents rb q) (room : q.length < rb.size) (d : UInt8) :
    ∃ rb', usart1Isr rb (some d) = some rb' ∧ rb'.size = rb.size ∧ rb'.start = rb.start ∧
      Represents rb' (q ++ [d]) := by
  obtain ⟨rb', put, size, start, inv'⟩ := inv.putByte_room room true d
  refine ⟨rb'.wrapStart.wrapEnd, ?_, ?_, start, inv'⟩
  · simp only [usart1Isr, yRingBufferPutData, if_neg inv.data_ne, putLoop, List.getElem?_cons_zero,
      put, Option.bind_some, Option.map_some]
  · exact rb'.wrapped_size.trans size

/-- A byte arrives and the buffer is full. -/
theorem usart1Isr_over {oldest : UInt8} (inv : Represents rb (oldest :: q))
    (full : (oldest :: q).length = rb.size) (d : UInt8) :
    ∃ rb', usart1Isr rb (some d) = some rb' ∧ rb'.size = rb.size ∧
      rb'.start = (rb.start + 1) % rb.size ∧ Represents rb' (q ++ [d]) := by
  obtain ⟨rb', put, size, start, inv'⟩ := inv.putByte_over full d
  refine ⟨rb'.wrapStart.wrapEnd, ?_, ?_, start, inv'⟩
  · simp only [usart1Isr, yRingBufferPutData, if_neg inv.data_ne, putLoop, List.getElem?_cons_zero,
      put, Option.bind_some, Option.map_some]
  · exact rb'.wrapped_size.trans size

/-- A byte is there to be read. -/
theorem receiveData_some {oldest : UInt8} (inv : Represents rb (oldest :: q)) (data : UInt8) :
    ∃ rb', receiveData rb data = some (true, oldest, rb') ∧ rb'.size = rb.size ∧
      rb'.start = (rb.start + 1) % rb.size ∧ Represents rb' q := by
  obtain ⟨rb', got, size, start, inv'⟩ := inv.getByte_some
  refine ⟨rb'.wrapStart, ?_, ?_, start, inv'⟩
  · simp only [receiveData, yRingBufferGetData, if_neg inv.data_ne, getLoop, got, Option.bind_some,
      Option.map_some, writeByte, List.length_singleton, Nat.lt_one_iff, if_true, List.set_cons_zero,
      List.head?_cons]
    rfl
  · rw [YRingBuffer.wrapStart_size, size]

/-- There is nothing to be read. -/
theorem receiveData_none (inv : Represents rb []) (data : UInt8) :
    receiveData rb data = some (false, data, rb) := by
  simp only [receiveData, yRingBufferGetData, if_neg inv.data_ne, getLoop, inv.getByte_none,
    Option.bind_some, Option.map_some, List.head?_cons]
  rfl

end Functions

/-! ### The invariant -/

/-- Everything before the arrival `oldest` has left the buffer, everything from it on is there. -/
structure Received (s : Port) (oldest : Nat) : Prop where
  size : s.rb.size = yusartReceiveBufferSizeByte
  cells : s.origins.length = yusartReceiveBufferSizeByte
  arrived : oldest ≤ s.arrivals.length
  bytes : Represents s.rb (s.arrivals.drop oldest)
  numbers : HoldsQueue s.origins s.rb.start (List.range' oldest (s.arrivals.length - oldest))
  order : s.delivered.Sublist (s.arrivals.take oldest)
  origin : s.deliveredFrom.map (s.arrivals[·]?) = s.delivered.map some
  increasing : s.deliveredFrom.Pairwise (· < ·)
  below : ∀ n ∈ s.deliveredFrom, n < oldest

namespace Received

variable {s s' : Port} {oldest : Nat}

/-- What is in the buffer. -/
theorem buffered_eq (inv : Received s oldest) : s.buffered = s.arrivals.drop oldest := by
  obtain ⟨cells, data, _, holds⟩ := inv.bytes.block
  rw [Port.buffered, data, Option.getD_some, inv.bytes.length]
  exact holds.held_eq

theorem bufferedFrom_eq (inv : Received s oldest) :
    s.bufferedFrom = List.range' oldest (s.arrivals.length - oldest) := by
  have count : s.rb.currentLen = (List.range' oldest (s.arrivals.length - oldest)).length := by
    rw [inv.bytes.length, List.length_drop, List.length_range']
  rw [Port.bufferedFrom, count]
  exact inv.numbers.held_eq

/-- At most `YUSART_RECEIVE_BUFFER_SIZE_BYTE` bytes are in the buffer. -/
theorem room (inv : Received s oldest) :
    s.arrivals.length - oldest ≤ yusartReceiveBufferSizeByte := by
  have bounded := inv.bytes.bounds.2.2
  rwa [List.length_drop, inv.size] at bounded

theorem delivered_length (inv : Received s oldest) :
    s.delivered.length = s.deliveredFrom.length := by
  have lengths := congrArg List.length inv.origin
  rwa [List.length_map, List.length_map, eq_comm] at lengths

/-- An arrival leaves the earlier arrivals where they are. -/
theorem origin_append (inv : Received s oldest) (d : UInt8) :
    s.deliveredFrom.map ((s.arrivals ++ [d])[·]?) = s.delivered.map some := by
  rw [← inv.origin]
  refine List.map_congr_left fun n member => ?_
  exact List.getElem?_append_left (Nat.lt_of_lt_of_le (inv.below n member) inv.arrived)

/-- A byte arrives and there is room for it. -/
theorem arrive (inv : Received s oldest)
    (room : s.arrivals.length - oldest < yusartReceiveBufferSizeByte) (d : UInt8) :
    ∃ s', s.step (.isr (some d)) = some s' ∧ s'.deliveredFrom = s.deliveredFrom ∧
      Received s' oldest := by
  have count : (s.arrivals.drop oldest).length < s.rb.size := by
    rwa [List.length_drop, inv.size]
  obtain ⟨rb, put, size, start, bytes⟩ := usart1Isr_room inv.bytes count d
  have grown : oldest ≤ (s.arrivals ++ [d]).length := by
    rw [List.length_append]
    exact Nat.le_add_right_of_le inv.arrived
  have more : (s.arrivals ++ [d]).length - oldest = s.arrivals.length - oldest + 1 := by
    rw [List.length_append, List.length_singleton, Nat.sub_add_comm inv.arrived]
  have last : List.range' oldest ((s.arrivals ++ [d]).length - oldest) =
      List.range' oldest (s.arrivals.length - oldest) ++ [s.arrivals.length] := by
    rw [more, List.range'_concat, Nat.one_mul, Nat.add_sub_cancel' inv.arrived]
  have place : s.rb.endIdx =
      (s.rb.start + (List.range' oldest (s.arrivals.length - oldest)).length) % s.origins.length := by
    rw [inv.bytes.endIdx, List.length_drop, List.length_range', inv.size, inv.cells]
  refine ⟨{ s with
    rb := rb
    origins := s.origins.set s.rb.endIdx s.arrivals.length
    arrivals := s.arrivals ++ [d] }, by rw [Port.step, put]; rfl, rfl, ?_⟩
  refine ⟨size.trans inv.size, ?_, grown, ?_, ?_, ?_, inv.origin_append d, inv.increasing, inv.below⟩
  · rw [List.length_set]
    exact inv.cells
  · show Represents rb ((s.arrivals ++ [d]).drop oldest)
    rwa [List.drop_append_of_le_length inv.arrived]
  · show HoldsQueue (s.origins.set s.rb.endIdx s.arrivals.length) rb.start _
    rw [last, start, place]
    refine inv.numbers.snoc ?_
    rwa [List.length_range', inv.cells]
  · show s.delivered.Sublist ((s.arrivals ++ [d]).take oldest)
    rw [List.take_append_of_le_length inv.arrived]
    exact inv.order

/-- The numbers in the buffer, with the first one split off. -/
theorem range_cons (inside : oldest < s.arrivals.length) :
    List.range' oldest (s.arrivals.length - oldest) =
      oldest :: List.range' (oldest + 1) (s.arrivals.length - (oldest + 1)) := by
  have split : s.arrivals.length - oldest = s.arrivals.length - (oldest + 1) + 1 := by omega
  rw [split, List.range'_succ]

/-- **A byte arrives and the buffer is full**: the oldest one is lost. -/
theorem overrun (inv : Received s oldest)
    (full : s.arrivals.length - oldest = yusartReceiveBufferSizeByte) (d : UInt8) :
    ∃ s', s.step (.isr (some d)) = some s' ∧ s'.deliveredFrom = s.deliveredFrom ∧
      s'.arrivals.length = oldest + 1 + yusartReceiveBufferSizeByte ∧
      Received s' (oldest + 1) := by
  have inside : oldest < s.arrivals.length := by
    unfold yusartReceiveBufferSizeByte at full
    omega
  have bytes := inv.bytes
  have numbers := inv.numbers
  rw [List.drop_eq_getElem_cons inside] at bytes
  rw [range_cons inside] at numbers
  have count : (s.arrivals[oldest] :: s.arrivals.drop (oldest + 1)).length = s.rb.size := by
    rw [← List.drop_eq_getElem_cons inside, List.length_drop, inv.size]
    exact full
  obtain ⟨rb, put, size, start, bytes'⟩ := usart1Isr_over bytes count d
  have length : (s.arrivals ++ [d]).length = oldest + 1 + yusartReceiveBufferSizeByte := by
    rw [List.length_append, List.length_singleton, ← full]
    omega
  have last : List.range' (oldest + 1) ((s.arrivals ++ [d]).length - (oldest + 1)) =
      List.range' (oldest + 1) (s.arrivals.length - (oldest + 1)) ++ [s.arrivals.length] := by
    have more : (s.arrivals ++ [d]).length - (oldest + 1) =
        s.arrivals.length - (oldest + 1) + 1 := by
      rw [List.length_append, List.length_singleton, Nat.sub_add_comm inside]
    rw [more, List.range'_concat, Nat.one_mul, Nat.add_sub_cancel' inside]
  have place : s.rb.endIdx = s.rb.start :=
    inv.bytes.endIdx_eq_start.mpr (Or.inr (by rw [List.length_drop, inv.size]; exact full))
  refine ⟨{ s with
    rb := rb
    origins := s.origins.set s.rb.endIdx s.arrivals.length
    arrivals := s.arrivals ++ [d] }, by rw [Port.step, put]; rfl, rfl, length, ?_⟩
  refine ⟨size.trans inv.size, ?_, ?_, ?_, ?_, ?_, inv.origin_append d, inv.increasing, ?_⟩
  · rw [List.length_set]
    exact inv.cells
  · show oldest + 1 ≤ (s.arrivals ++ [d]).length
    rw [length]
    exact Nat.le_add_right _ _
  · show Represents rb ((s.arrivals ++ [d]).drop (oldest + 1))
    rwa [List.drop_append_of_le_length inside]
  · show HoldsQueue (s.origins.set s.rb.endIdx s.arrivals.length) rb.start _
    rw [last, start, place, inv.size, ← inv.cells]
    refine numbers.shift ?_
    rw [← range_cons inside, List.length_range', inv.cells]
    exact full
  · show s.delivered.Sublist ((s.arrivals ++ [d]).take (oldest + 1))
    rw [List.take_append_of_le_length inside]
    exact inv.order.trans (List.take_sublist_take_left (Nat.le_succ oldest))
  · exact fun n member => Nat.lt_succ_of_lt (inv.below n member)

/-- **A byte is read.** -/
theorem read_some (inv : Received s oldest) (inside : oldest < s.arrivals.length)
    (b : Option UInt8) (data : UInt8) :
    ∃ s', s.step (.read b data) = some s' ∧
      s'.deliveredFrom = s.deliveredFrom ++ [oldest] ∧
      s'.delivered = s.delivered ++ [s.arrivals[oldest]] ∧ s'.arrivals = s.arrivals ∧
      yusartIoReadByteNoBlock s.rb b data =
        some (0, b.map fun _ => s.arrivals[oldest], s'.rb) ∧
      Received s' (oldest + 1) := by
  have bytes := inv.bytes
  have numbers := inv.numbers
  rw [List.drop_eq_getElem_cons inside] at bytes
  rw [range_cons inside] at numbers
  obtain ⟨rb, got, size, start, bytes'⟩ := receiveData_some bytes data
  refine ⟨{ s with
    rb := rb
    delivered := s.delivered ++ [s.arrivals[oldest]]
    deliveredFrom := s.deliveredFrom ++ s.origins[s.rb.start]?.toList },
    by rw [Port.step, got]; rfl, ?_, rfl, rfl, by rw [yusartIoReadByteNoBlock, got]; rfl, ?_⟩
  · show s.deliveredFrom ++ s.origins[s.rb.start]?.toList = _
    rw [numbers.head]
    rfl
  refine ⟨size.trans inv.size, inv.cells, inside, bytes', ?_, ?_, ?_, ?_, ?_⟩
  · show HoldsQueue s.origins rb.start _
    rw [start, inv.size, ← inv.cells]
    exact numbers.tail
  · show (s.delivered ++ [s.arrivals[oldest]]).Sublist (s.arrivals.take (oldest + 1))
    rw [List.take_succ_eq_append_getElem inside]
    exact inv.order.append (List.Sublist.refl _)
  · show (s.deliveredFrom ++ s.origins[s.rb.start]?.toList).map (s.arrivals[·]?) =
      (s.delivered ++ [s.arrivals[oldest]]).map some
    rw [numbers.head, Option.toList_some, List.map_append, List.map_append, inv.origin,
      List.map_singleton, List.map_singleton, List.getElem?_eq_getElem inside]
  · show (s.deliveredFrom ++ s.origins[s.rb.start]?.toList).Pairwise (· < ·)
    rw [numbers.head, Option.toList_some, List.pairwise_append]
    refine ⟨inv.increasing, List.pairwise_singleton _ _, fun n member m last => ?_⟩
    rw [List.mem_singleton.mp last]
    exact inv.below n member
  · intro n member
    change n ∈ s.deliveredFrom ++ s.origins[s.rb.start]?.toList at member
    rw [numbers.head, Option.toList_some, List.mem_append, List.mem_singleton] at member
    rcases member with old | rfl
    · exact Nat.lt_succ_of_lt (inv.below n old)
    · exact Nat.lt_succ_self n

/-- Nothing is read. -/
theorem read_none (inv : Received s oldest) (nothing : s.arrivals.length = oldest)
    (b : Option UInt8) (data : UInt8) :
    s.step (.read b data) = some s ∧
      yusartIoReadByteNoBlock s.rb b data = some (-1, b, s.rb) := by
  have bytes := inv.bytes
  rw [List.drop_of_length_le (Nat.le_of_eq nothing)] at bytes
  have got := receiveData_none bytes data
  exact ⟨by rw [Port.step, got]; rfl, by rw [yusartIoReadByteNoBlock, got]; rfl⟩

end Received

/-- How the place between what has left the buffer and what is in it moves. -/
inductive Moved (s : Port) (oldest : Nat) (s' : Port) : Nat → Prop where
  | kept (same : s'.deliveredFrom = s.deliveredFrom) : Moved s oldest s' oldest
  | delivered (one : s'.deliveredFrom = s.deliveredFrom ++ [oldest]) : Moved s oldest s' (oldest + 1)
  | dropped (same : s'.deliveredFrom = s.deliveredFrom)
      (full : s'.arrivals.length = oldest + 1 + yusartReceiveBufferSizeByte) :
      Moved s oldest s' (oldest + 1)

/-- **One event.** -/
theorem Received.step {s : Port} {oldest : Nat} (inv : Received s oldest) (event : PortEvent) :
    ∃ s' oldest', s.step event = some s' ∧ Received s' oldest' ∧ Moved s oldest s' oldest' := by
  cases event with
  | isr dr =>
      cases dr with
      | none => exact ⟨s, oldest, rfl, inv, .kept rfl⟩
      | some d =>
          rcases Nat.lt_or_eq_of_le inv.room with room | full
          · obtain ⟨s', one, same, inv'⟩ := inv.arrive room d
            exact ⟨s', oldest, one, inv', .kept same⟩
          · obtain ⟨s', one, same, length, inv'⟩ := inv.overrun full d
            exact ⟨s', oldest + 1, one, inv', .dropped same length⟩
  | read b data =>
      rcases Nat.lt_or_eq_of_le inv.arrived with inside | nothing
      · obtain ⟨s', one, more, _, _, _, inv'⟩ := inv.read_some inside b data
        exact ⟨s', oldest + 1, one, inv', .delivered more⟩
      · exact ⟨s, oldest, (inv.read_none nothing.symm b data).1, inv, .kept rfl⟩

/-! ### Runs -/

section Runs

variable {rb : YRingBuffer} {block : List UInt8}

theorem portRun_concat {events : List PortEvent} {event : PortEvent} {s s' : Port}
    (run : portRun rb block events = some s) (one : s.step event = some s') :
    portRun rb block (events ++ [event]) = some s' := by
  rw [portRun, Option.bind_eq_some_iff] at run ⊢
  obtain ⟨ready, init, run⟩ := run
  refine ⟨ready, init, runEvents_append.mpr ⟨s, run, runEvents_cons.mpr ⟨s', one, rfl⟩⟩⟩

/-- `YUSART_RECEIVE_BUFFER_SIZE_BYTE` further bytes have arrived while the arrival `n` was unread. -/
def Overrun (rb : YRingBuffer) (block : List UInt8) (events : List PortEvent) (n : Nat) : Prop :=
  ∃ first t, first <+: events ∧ portRun rb block first = some t ∧
    n ∉ t.deliveredFrom ∧ n + 1 + yusartReceiveBufferSizeByte ≤ t.arrivals.length

/-- There are never more unread bytes than the buffer has room for. -/
def NeverOver (rb : YRingBuffer) (block : List UInt8) (events : List PortEvent) : Prop :=
  ∀ first t, first <+: events → portRun rb block first = some t →
    t.arrivals.length - t.delivered.length ≤ yusartReceiveBufferSizeByte

theorem overrun_concat {events : List PortEvent} {event : PortEvent} {s' : Port}
    (run : portRun rb block (events ++ [event]) = some s') {n : Nat} :
    Overrun rb block (events ++ [event]) n ↔ Overrun rb block events n ∨
      n ∉ s'.deliveredFrom ∧ n + 1 + yusartReceiveBufferSizeByte ≤ s'.arrivals.length := by
  constructor
  · rintro ⟨first, t, before, reached, unread, further⟩
    rcases List.prefix_concat_iff.mp before with rfl | before
    · obtain rfl : s' = t := Option.some.inj (run.symm.trans reached)
      exact Or.inr ⟨unread, further⟩
    · exact Or.inl ⟨first, t, before, reached, unread, further⟩
  · rintro (⟨first, t, before, reached, unread, further⟩ | ⟨unread, further⟩)
    · exact ⟨first, t, before.trans (List.prefix_append _ _), reached, unread, further⟩
    · exact ⟨events ++ [event], s', List.prefix_refl _, run, unread, further⟩

theorem NeverOver.before {events : List PortEvent} {event : PortEvent}
    (never : NeverOver rb block (events ++ [event])) : NeverOver rb block events :=
  fun first t before => never first t (before.trans (List.prefix_append _ _))

/-- What the events so far have done. -/
structure History (rb : YRingBuffer) (block : List UInt8) (events : List PortEvent) (s : Port)
    (oldest : Nat) : Prop where
  reached : portRun rb block events = some s
  received : Received s oldest
  /-- What was passed over. -/
  lost : ∀ n, n < oldest ∧ n ∉ s.deliveredFrom ↔ Overrun rb block events n
  nothingLost : NeverOver rb block events → s.deliveredFrom = List.range oldest

namespace History

variable {events : List PortEvent} {s : Port} {oldest : Nat}

/-- Before the first event. -/
theorem init (rb : YRingBuffer) (size : block.length = yusartReceiveBufferSizeByte) :
    ∃ s, History rb block [] s 0 := by
  have positive : 1 ≤ block.length := by
    rw [size]
    decide
  obtain ⟨ring, ready, ringSize, inv⟩ := init_holds rb positive
  rw [size] at ready ringSize
  have reached : portRun rb block [] = some ⟨ring, block.map fun _ => 0, [], [], []⟩ := by
    rw [portRun, yusartInit, ready]
    rfl
  have cells : (block.map fun _ => 0).length = yusartReceiveBufferSizeByte := by
    rw [List.length_map, size]
  have inside : ring.start < (block.map fun _ => 0).length := by
    rw [cells, ← ringSize]
    exact inv.bounds.1
  refine ⟨_, reached, ⟨ringSize, cells, Nat.le_refl _, inv, HoldsQueue.empty inside,
    List.Sublist.refl _, rfl, List.Pairwise.nil, fun n member => absurd member List.not_mem_nil⟩,
    fun n => ⟨fun ⟨negative, _⟩ => absurd negative (Nat.not_lt_zero n), ?_⟩, fun _ => rfl⟩
  rintro ⟨first, t, before, run, _, further⟩
  obtain rfl := List.prefix_nil.mp before
  obtain rfl := Option.some.inj (reached.symm.trans run)
  exact absurd further (by simp)

/-- **One event more.** -/
theorem concat (history : History rb block events s oldest) (event : PortEvent) :
    ∃ s' oldest', History rb block (events ++ [event]) s' oldest' := by
  obtain ⟨s', oldest', one, inv', moved⟩ := history.received.step event
  have run := portRun_concat history.reached one
  refine ⟨s', oldest', run, inv', fun n => ?_, fun never => ?_⟩
  · rw [overrun_concat run, ← history.lost n]
    have room := inv'.room
    cases moved with
    | kept same =>
        rw [same]
        constructor
        · exact Or.inl
        · rintro (before | ⟨unread, further⟩)
          · exact before
          · exact ⟨by omega, unread⟩
    | delivered one =>
        rw [one, List.mem_append, List.mem_singleton, not_or]
        constructor
        · rintro ⟨inside, unread, other⟩
          exact Or.inl ⟨by omega, unread⟩
        · rintro (⟨inside, unread⟩ | ⟨unread, further⟩)
          · exact ⟨by omega, unread, by omega⟩
          · exact ⟨by omega, unread⟩
    | dropped same full =>
        rw [same]
        constructor
        · rintro ⟨inside, unread⟩
          by_cases before : n < oldest
          · exact Or.inl ⟨before, unread⟩
          · exact Or.inr ⟨unread, by omega⟩
        · rintro (⟨inside, unread⟩ | ⟨unread, further⟩)
          · exact ⟨by omega, unread⟩
          · exact ⟨by omega, unread⟩
  · have whole := history.nothingLost never.before
    cases moved with
    | kept same => rw [same, whole]
    | delivered one => rw [one, whole, List.range_succ]
    | dropped same full =>
        -- All arrivals up to `oldest` are delivered, so one byte too many is unread here.
        have unread := never _ s' (List.prefix_refl _) run
        have count := inv'.delivered_length
        rw [same, whole, List.length_range] at count
        omega

/-- After any events. -/
theorem run (rb : YRingBuffer) (size : block.length = yusartReceiveBufferSizeByte)
    (events : List PortEvent) : ∃ s oldest, History rb block events s oldest := by
  induction events using List.reverseRecOn with
  | nil =>
      obtain ⟨s, history⟩ := History.init rb size
      exact ⟨s, 0, history⟩
  | append_singleton events event ih =>
      obtain ⟨s, oldest, history⟩ := ih
      exact history.concat event

end History

/-- **Order kept, nothing duplicated, loss by overflow only.** After `yusart_init`, however the
arrivals and the reads follow each other: the bytes read and then the bytes buffered are arrivals in
order, each of another number; a read fails exactly when nothing is buffered, and gives the oldest
buffered byte otherwise; an arrival is neither read nor buffered exactly when
`YUSART_RECEIVE_BUFFER_SIZE_BYTE` further ones came while it was unread; and when there are never more
unread bytes than that, the bytes read are a prefix of the arrivals. -/
theorem yusart_receive_order (rb : YRingBuffer) {block : List UInt8}
    (size : block.length = yusartReceiveBufferSizeByte) (events : List PortEvent) :
    ∃ s, portRun rb block events = some s ∧
      (s.delivered ++ s.buffered).Sublist s.arrivals ∧
      (s.deliveredFrom ++ s.bufferedFrom).Pairwise (· < ·) ∧
      (s.deliveredFrom ++ s.bufferedFrom).map (s.arrivals[·]?) =
        (s.delivered ++ s.buffered).map some ∧
      (∀ b data, match s.buffered with
        | [] => yusartIoReadByteNoBlock s.rb b data = some (-1, b, s.rb)
        | byte :: rest => ∃ s', s.step (.read b data) = some s' ∧
            yusartIoReadByteNoBlock s.rb b data = some (0, b.map fun _ => byte, s'.rb) ∧
            s'.delivered = s.delivered ++ [byte] ∧ s'.buffered = rest) ∧
      (∀ n < s.arrivals.length, n ∉ s.deliveredFrom ++ s.bufferedFrom ↔ Overrun rb block events n) ∧
      (NeverOver rb block events → s.delivered <+: s.arrivals) := by
  obtain ⟨s, oldest, history⟩ := History.run rb size events
  have inv := history.received
  refine ⟨s, history.reached, ?_, ?_, ?_, fun b data => ?_, fun n arrived => ?_, fun never => ?_⟩
  · rw [inv.buffered_eq]
    have parts := inv.order.append (List.Sublist.refl (s.arrivals.drop oldest))
    rwa [List.take_append_drop] at parts
  · rw [inv.bufferedFrom_eq, List.pairwise_append]
    refine ⟨inv.increasing, List.pairwise_lt_range', fun n read m waiting => ?_⟩
    exact Nat.lt_of_lt_of_le (inv.below n read) (List.mem_range'_1.mp waiting).1
  · rw [List.map_append, List.map_append, inv.origin, inv.buffered_eq, inv.bufferedFrom_eq]
    congr 1
    refine List.ext_getElem (by simp) fun i below _ => ?_
    rw [List.length_map, List.length_range'] at below
    have inside : oldest + i < s.arrivals.length := by omega
    simp [inside]
  · rcases Nat.lt_or_eq_of_le inv.arrived with inside | nothing
    · obtain ⟨s', one, _, delivered, arrivals, result, inv'⟩ := inv.read_some inside b data
      rw [inv.buffered_eq, List.drop_eq_getElem_cons inside]
      refine ⟨s', one, result, delivered, ?_⟩
      rw [inv'.buffered_eq, arrivals]
    · rw [inv.buffered_eq, List.drop_of_length_le (Nat.le_of_eq nothing.symm)]
      exact (inv.read_none nothing.symm b data).2
  · rw [← history.lost n, inv.bufferedFrom_eq, List.mem_append, List.mem_range'_1, not_or]
    constructor
    · rintro ⟨unread, outside⟩
      exact ⟨by omega, unread⟩
    · rintro ⟨left, unread⟩
      exact ⟨unread, by omega⟩
  · have count : s.delivered.length = (s.arrivals.take oldest).length := by
      rw [inv.delivered_length, history.nothingLost never, List.length_range,
        List.length_take_of_le inv.arrived]
    rw [inv.order.eq_of_length count]
    exact List.take_prefix oldest s.arrivals

/-- Two bytes arrive, one of them is read, and a read finds the other. -/
theorem yusart_receive_order_twoBytes :
    ∃ s, portRun ⟨none, 0, 0, 0, 0⟩ (List.replicate 256 0)
        [.isr (some 7), .isr none, .isr (some 9), .read (some 0) 0] = some s ∧
      (s.delivered ++ s.buffered).Sublist s.arrivals := by
  obtain ⟨s, run, order, _⟩ := yusart_receive_order ⟨none, 0, 0, 0, 0⟩ List.length_replicate
    [.isr (some 7), .isr none, .isr (some 9), .read (some 0) 0]
  exact ⟨s, run, order⟩

end Runs

end YosStm32.Serial
