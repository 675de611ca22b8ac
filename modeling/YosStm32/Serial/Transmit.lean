/-
**The transmit side of the serial port** (`yusart.c`), with the calls of `basic_io_write` that tasks make.

`Transmitter` is the data register and what has gone out; the port moves a byte out of the register on its
own. A task offers its next byte with the interrupts disabled, and the register takes it when it is
empty. Between two offers any other task may run, so the bytes of several tasks mix on the line. What
each task finds is still what `basicIoWrite` says about a port that gives the answers that the task gets
(`Served.turn`): nothing is lost or sent twice, and each task's own bytes keep their order. One of the
tasks is always served, so in rounds in which the port moves a byte out and every task gets a turn all
blocking calls come to their ends.
-/

import Mathlib.Algebra.BigOperators.Group.Finset.Basic
import Mathlib.Algebra.Order.BigOperators.Group.Finset
import Mathlib.Algebra.Order.Ring.Nat
import YosStm32.BasicIo.Write
import YosStm32.Lib.Run

namespace YosStm32.Serial

open Lib BasicIo

/-! ### The port -/

/-- `USART_DR`, empty while `USART_SR_TXE` is set, and the bytes that have left it. -/
structure Transmitter where
  dr : Option UInt8
  line : List UInt8
  deriving DecidableEq, Repr

/-- `yusart_can_transmit`. -/
def yusartCanTransmit (transmitter : Transmitter) : Int := if transmitter.dr = none then 1 else 0

/-- `yusart_io_write_byte_no_block`. -/
def yusartIoWriteByteNoBlock (transmitter : Transmitter) (b : UInt8) : Int × Transmitter :=
  if transmitter.dr = none then (0, { transmitter with dr := some b }) else (-1, transmitter)

/-- The query is right about a write after it, as the one on the receiving side is not. -/
theorem yusartCanTransmit_truthful (transmitter : Transmitter) (b : UInt8) :
    yusartCanTransmit transmitter ≠ 0 ↔ (yusartIoWriteByteNoBlock transmitter b).1 = 0 := by
  unfold yusartCanTransmit yusartIoWriteByteNoBlock
  by_cases empty : transmitter.dr = none
  · simp [empty]
  · simp [empty]

/-- The port moves the byte out of the register. -/
def Transmitter.shift (transmitter : Transmitter) : Transmitter :=
  ⟨none, transmitter.line ++ transmitter.dr.toList⟩

/-- All that the port has taken. -/
def Transmitter.taken (transmitter : Transmitter) : List UInt8 := transmitter.line ++ transmitter.dr.toList

/-! ### The tasks -/

/-- The arguments of a call of `basic_io_write`. -/
structure WriteCall where
  data : List UInt8
  dataLen : Nat
  block : Int
  deriving DecidableEq, Repr

/-- The buffer is as long as the call says. -/
def WriteCall.Valid (call : WriteCall) : Prop := call.dataLen ≤ call.data.length

/-- A task in its calls of `basic_io_write`: those to come, the first one under way; what the calls
before have returned; and the answers that the task has got. -/
structure Writer where
  calls : List WriteCall
  byteWritten : Nat
  returned : List Int
  answers : Acceptances
  deriving DecidableEq, Repr

/-- The port, the tasks, and whose byte each one is that the port has taken. -/
structure SerialOut where
  transmitter : Transmitter
  writers : Nat → Writer
  owners : List Nat

/-- The call under way returns. -/
def Writer.return (writer : Writer) : Writer :=
  { writer with
    calls := writer.calls.tail
    byteWritten := 0
    returned := writer.returned ++ [(writer.byteWritten : Int)] }

/-- A task gets an answer to its offer, in the loop of `basic_io_write`. -/
def Writer.answered (writer : Writer) (block result : Int) : Writer :=
  if result = 0 then
    { writer with byteWritten := writer.byteWritten + 1, answers := writer.answers ++ [true] }
  else
    let refused := { writer with answers := writer.answers ++ [false] }
    if block = 0 then refused.return else refused

/-- A task goes on: it offers a byte, or its call returns. -/
def SerialOut.turn (s : SerialOut) (id : Nat) : Option SerialOut :=
  let writer := s.writers id
  match writer.calls with
  | [] => none
  | call :: _ =>
      if writer.byteWritten < call.dataLen then
        call.data[writer.byteWritten]?.map fun b =>
          let offer := yusartIoWriteByteNoBlock s.transmitter b
          { transmitter := offer.2
            writers := Function.update s.writers id (writer.answered call.block offer.1)
            owners := if offer.1 = 0 then s.owners ++ [id] else s.owners }
      else some { s with writers := Function.update s.writers id writer.return }

inductive OutEvent where
  | shift
  | turn (id : Nat)
  deriving DecidableEq, Repr

/-- One event. -/
def SerialOut.step (s : SerialOut) : OutEvent → Option SerialOut
  | .shift => some { s with transmitter := s.transmitter.shift }
  | .turn id => s.turn id

/-- The port is idle, and the tasks are before their calls. -/
def serialStart (calls : Nat → List WriteCall) : SerialOut :=
  ⟨⟨none, []⟩, fun id => ⟨calls id, 0, [], []⟩, []⟩

/-- The bytes of one task, of those that the port has taken. -/
def SerialOut.sent (s : SerialOut) (id : Nat) : List UInt8 :=
  ((s.owners.zip s.transmitter.taken).filter fun owned => owned.1 = id).map Prod.snd

/-! ### One task alone with a port -/

/-- What the calls of a task return and send. -/
structure Written where
  returned : List Int
  sent : List UInt8
  deriving DecidableEq, Repr

/-- Something before. -/
def Written.behind (before after : Written) : Written :=
  ⟨before.returned ++ after.returned, before.sent ++ after.sent⟩

/-- The calls one after another on a port that gives these answers; the first one has written some bytes. -/
def writeCalls : (byteWritten : Nat) → List WriteCall → Acceptances → Option Written
  | _, [], _ => some ⟨[], []⟩
  | byteWritten, call :: calls, answers =>
      (writeLoop call.data call.dataLen call.block answers byteWritten []).bind fun write =>
        match write with
        | .returned result sent left => (writeCalls 0 calls left).map (Written.behind ⟨[result], sent⟩)
        | .waiting _ sent => some ⟨[], sent⟩

section Alone

variable {call : WriteCall} {calls : List WriteCall} {byteWritten : Nat} {more : Acceptances} {b : UInt8}

theorem Written.behind_behind (first second third : Written) :
    first.behind (second.behind third) = (first.behind second).behind third := by
  simp only [Written.behind, List.append_assoc]

theorem Written.behind_map {written : Option Written} (first second : Written) :
    (written.map second.behind).map first.behind = written.map (first.behind second).behind := by
  rw [Option.map_map]
  congr 1
  funext third
  exact first.behind_behind second third

/-- A call returns that has written everything. -/
theorem writeCalls_return (done : ¬ byteWritten < call.dataLen) (calls : List WriteCall)
    (more : Acceptances) : writeCalls byteWritten (call :: calls) more =
      (writeCalls 0 calls more).map (Written.behind ⟨[(byteWritten : Int)], []⟩) := by
  rw [writeCalls]
  cases more with
  | nil => rw [writeLoop, if_neg done, Option.bind_some]
  | cons accepted more => rw [writeLoop, if_neg done, Option.bind_some]

/-- The port takes a byte. -/
theorem writeCalls_taken (further : byteWritten < call.dataLen) (here : call.data[byteWritten]? = some b)
    (calls : List WriteCall) (more : Acceptances) :
    writeCalls byteWritten (call :: calls) (true :: more) =
      (writeCalls (byteWritten + 1) (call :: calls) more).map (Written.behind ⟨[], [b]⟩) := by
  have rest := writeLoop_after call.data (Nat.zero_le call.dataLen) call.block more (byteWritten + 1) [b] []
  rw [List.drop_zero, Nat.sub_zero, Nat.zero_add] at rest
  rw [writeCalls, writeLoop, if_pos further, here, Option.bind_some, if_pos rfl, List.nil_append,
    ← List.append_nil [b], rest, Option.bind_map, writeCalls, Option.map_bind]
  refine Option.bind_congr fun write _ => ?_
  cases write with
  | returned result sent left =>
      rw [Function.comp_apply, Write.after, Function.comp_apply, Written.behind_map]
      simp only [Int.ofNat_zero, Int.zero_add]
      rfl
  | waiting n sent => rfl

/-- The port refuses a byte. -/
theorem writeCalls_refused (further : byteWritten < call.dataLen)
    (here : call.data[byteWritten]? = some b) (calls : List WriteCall) (more : Acceptances) :
    writeCalls byteWritten (call :: calls) (false :: more) =
      if call.block = 0 then (writeCalls 0 calls more).map (Written.behind ⟨[(byteWritten : Int)], []⟩)
      else writeCalls byteWritten (call :: calls) more := by
  rw [writeCalls, writeLoop, if_pos further, here, Option.bind_some, if_neg Bool.false_ne_true]
  split
  · rw [Option.bind_some]
  · rw [writeCalls]

/-- Without a further answer nothing is sent. -/
theorem writeCalls_nil (valid : ∀ call ∈ calls, call.Valid) (byteWritten : Nat) :
    ∃ returned, writeCalls byteWritten calls [] = some ⟨returned, []⟩ := by
  induction calls generalizing byteWritten with
  | nil => exact ⟨[], rfl⟩
  | cons call calls ih =>
      by_cases further : byteWritten < call.dataLen
      · have room : byteWritten < call.data.length :=
          Nat.lt_of_lt_of_le further (valid call (List.mem_cons_self ..))
        refine ⟨[], ?_⟩
        rw [writeCalls, writeLoop, if_pos further, List.getElem?_eq_getElem room]
        rfl
      · obtain ⟨returned, run⟩ := ih (fun call member => valid call (List.mem_cons_of_mem _ member)) 0
        rw [writeCalls_return further, run]
        exact ⟨_, rfl⟩

end Alone

/-! ### All tasks -/

/-- What holds at any time: each task has found what it would have found alone, on a port with the same
answers. -/
structure SerialOut.Sound (calls : Nat → List WriteCall) (s : SerialOut) : Prop where
  owned : s.owners.length = s.transmitter.taken.length
  valid : ∀ id, ∀ call ∈ (s.writers id).calls, call.Valid
  alone : ∀ id more, writeCalls 0 (calls id) ((s.writers id).answers ++ more) =
    (writeCalls (s.writers id).byteWritten (s.writers id).calls more).map
      (Written.behind ⟨(s.writers id).returned, s.sent id⟩)

/-- What a turn of a task does. -/
inductive SerialOut.Turned (s : SerialOut) (id : Nat) : SerialOut → Prop where
  /-- The register takes the byte. -/
  | sent {call : WriteCall} {rest : List WriteCall} {b : UInt8} (here : (s.writers id).calls = call :: rest)
      (further : (s.writers id).byteWritten < call.dataLen)
      (byte : call.data[(s.writers id).byteWritten]? = some b) (empty : s.transmitter.dr = none) :
      Turned s id
        { transmitter := ⟨some b, s.transmitter.line⟩
          writers := Function.update s.writers id
            { s.writers id with
              byteWritten := (s.writers id).byteWritten + 1
              answers := (s.writers id).answers ++ [true] }
          owners := s.owners ++ [id] }
  /-- It does not, and the call returns. -/
  | refused {call : WriteCall} {rest : List WriteCall} {b : UInt8} (here : (s.writers id).calls = call :: rest)
      (further : (s.writers id).byteWritten < call.dataLen)
      (byte : call.data[(s.writers id).byteWritten]? = some b) (block : call.block = 0) :
      Turned s id
        { s with
          writers := Function.update s.writers id
            ({ s.writers id with answers := (s.writers id).answers ++ [false] } : Writer).return }
  /-- It does not, and the call tries again. -/
  | blocked {call : WriteCall} {rest : List WriteCall} {b : UInt8} (here : (s.writers id).calls = call :: rest)
      (further : (s.writers id).byteWritten < call.dataLen)
      (byte : call.data[(s.writers id).byteWritten]? = some b) (block : call.block ≠ 0)
      (full : s.transmitter.dr ≠ none) :
      Turned s id
        { s with
          writers := Function.update s.writers id
            { s.writers id with answers := (s.writers id).answers ++ [false] } }
  /-- All bytes of the call have been taken. -/
  | finished {call : WriteCall} {rest : List WriteCall} (here : (s.writers id).calls = call :: rest)
      (done : ¬ (s.writers id).byteWritten < call.dataLen) :
      Turned s id { s with writers := Function.update s.writers id (s.writers id).return }

/-- **Every turn is one of these.** -/
theorem turn_turned {s s' : SerialOut} {id : Nat} (one : s.turn id = some s') : s.Turned id s' := by
  rw [SerialOut.turn] at one
  cases here : (s.writers id).calls with
  | nil =>
      rw [here] at one
      cases one
  | cons call rest =>
      simp only [here] at one
      split at one
      · rename_i further
        obtain ⟨b, byte, rfl⟩ := Option.map_eq_some_iff.mp one
        by_cases empty : s.transmitter.dr = none
        · rw [yusartIoWriteByteNoBlock, if_pos empty, Writer.answered, if_pos rfl, if_pos rfl]
          exact .sent here further byte empty
        · have refused : ¬ (-1 : Int) = 0 := by decide
          rw [yusartIoWriteByteNoBlock, if_neg empty, Writer.answered, if_neg refused, if_neg refused]
          by_cases block : call.block = 0
          · rw [if_pos block]
            exact .refused here further byte block
          · rw [if_neg block]
            exact .blocked here further byte block empty
      · rename_i done
        cases one
        exact .finished here done

namespace SerialOut.Sound

variable {calls : Nat → List WriteCall} {s s' : SerialOut} {id : Nat} {b : UInt8}

theorem start (valid : ∀ id, ∀ call ∈ calls id, call.Valid) : (serialStart calls).Sound calls where
  owned := rfl
  valid := valid
  alone := fun id more => by
    show writeCalls 0 (calls id) more = (writeCalls 0 (calls id) more).map (Written.behind ⟨[], []⟩)
    have same : Written.behind ⟨[], []⟩ = (fun written => written) := rfl
    rw [same, Option.map_id']

/-- The port moves a byte out. -/
theorem shift (sound : s.Sound calls) : ({ s with transmitter := s.transmitter.shift } : SerialOut).Sound calls := by
  have taken : s.transmitter.shift.taken = s.transmitter.taken := List.append_nil _
  refine ⟨?_, sound.valid, fun id more => ?_⟩
  · rw [taken]
    exact sound.owned
  · rw [SerialOut.sent, taken]
    exact sound.alone id more

/-- The bytes of a task after one more byte. -/
theorem sent_concat (sound : s.Sound calls) (writers : Nat → Writer) (empty : s.transmitter.dr = none)
    (owner other : Nat) (b : UInt8) :
    SerialOut.sent ⟨⟨some b, s.transmitter.line⟩, writers, s.owners ++ [owner]⟩ other =
      s.sent other ++ if owner = other then [b] else [] := by
  have taken : (⟨some b, s.transmitter.line⟩ : Transmitter).taken = s.transmitter.taken ++ [b] := by
    rw [Transmitter.taken, Transmitter.taken, empty, Option.toList_none, List.append_nil]
    rfl
  rw [SerialOut.sent, taken, List.zip_append sound.owned, List.filter_append, List.map_append]
  congr 1
  by_cases same : owner = other <;> simp [same]

/-- One task goes on: its answers, what its calls return and what the port takes of it grow together. -/
theorem next (sound : s.Sound calls) {next : SerialOut} {writer : Writer} (answers : Acceptances)
    (returned : List Int) (sent : List UInt8) (writers : next.writers = Function.update s.writers id writer)
    (owned : next.owners.length = next.transmitter.taken.length)
    (later : ∀ call ∈ writer.calls, call ∈ (s.writers id).calls)
    (asked : writer.answers = (s.writers id).answers ++ answers)
    (out : writer.returned = (s.writers id).returned ++ returned)
    (bytes : ∀ other, next.sent other = s.sent other ++ if id = other then sent else [])
    (moves : ∀ more, writeCalls (s.writers id).byteWritten (s.writers id).calls (answers ++ more) =
      (writeCalls writer.byteWritten writer.calls more).map (Written.behind ⟨returned, sent⟩)) :
    next.Sound calls := by
  refine ⟨owned, fun other call member => ?_, fun other more => ?_⟩
  · rw [writers, Function.update_apply] at member
    split at member
    · exact sound.valid id call (later call member)
    · exact sound.valid other call member
  · rw [writers, Function.update_apply, bytes]
    split
    · rename_i same
      subst same
      rw [if_pos rfl, asked, List.append_assoc, sound.alone, moves, Written.behind_map, out]
      rfl
    · rename_i other
      rw [if_neg (Ne.symm other), List.append_nil]
      exact sound.alone _ more

/-- **A turn of a task.** -/
theorem turn (sound : s.Sound calls) (one : s.turn id = some s') : s'.Sound calls := by
  have unsent : ∀ other, s.sent other = s.sent other ++ if id = other then [] else [] := fun other => by
    rw [ite_self, List.append_nil]
  cases turn_turned one with
  | @sent call rest b here further byte empty =>
      refine sound.next [true] [] [b] rfl ?_ (fun _ member => member) rfl (List.append_nil _).symm
        (fun other => sound.sent_concat _ empty id other b) fun more => ?_
      · have owned := sound.owned
        rw [Transmitter.taken, empty] at owned
        simpa [Transmitter.taken] using owned
      · rw [here]
        exact writeCalls_taken further byte rest more
  | refused here further byte block =>
      refine sound.next [false] [((s.writers id).byteWritten : Int)] [] rfl sound.owned
        (fun _ member => List.mem_of_mem_tail member) rfl rfl unsent fun more => ?_
      rw [here, List.singleton_append, writeCalls_refused further byte, if_pos block, Writer.return, here]
      rfl
  | blocked here further byte block full =>
      refine sound.next [false] [] [] rfl sound.owned (fun _ member => member) rfl
        (List.append_nil _).symm unsent fun more => ?_
      have same : Written.behind ⟨[], []⟩ = fun written => written := rfl
      rw [here, List.singleton_append, writeCalls_refused further byte, if_neg block, same, Option.map_id']
  | finished here done =>
      refine sound.next [] [((s.writers id).byteWritten : Int)] [] rfl sound.owned
        (fun _ member => List.mem_of_mem_tail member) (List.append_nil _).symm rfl unsent fun more => ?_
      rw [List.nil_append, here, writeCalls_return done, Writer.return, here]
      rfl

theorem step (sound : s.Sound calls) (event : OutEvent) (one : s.step event = some s') : s'.Sound calls := by
  cases event with
  | shift =>
      cases one
      exact sound.shift
  | turn id => exact sound.turn one

end SerialOut.Sound

/-- **The line is a merge of what the tasks send.** For any number of tasks with any calls of
`basic_io_write`, in any interleaving of their offers with each other and with the port moving bytes out:
every byte that the port has taken has one owner, and is on the line or in the register; and each task's
bytes, in order, and the values that its calls have returned are those of `basicIoWrite` alone on a port
that gives the same answers. -/
theorem serialOut_merge {calls : Nat → List WriteCall} {s : SerialOut} {events : List OutEvent}
    (valid : ∀ id, ∀ call ∈ calls id, call.Valid)
    (run : runEvents SerialOut.step (serialStart calls) events = some s) :
    s.owners.length = (s.transmitter.line ++ s.transmitter.dr.toList).length ∧
      ∀ id, ∃ written, writeCalls 0 (calls id) (s.writers id).answers = some written ∧
        written.sent = s.sent id ∧ (s.writers id).returned <+: written.returned := by
  have sound := runEvents_invariant (SerialOut.Sound calls) (fun s event s' sound one => sound.step event one)
    (SerialOut.Sound.start valid) run
  refine ⟨sound.owned, fun id => ?_⟩
  obtain ⟨returned, rest⟩ := writeCalls_nil (sound.valid id) (s.writers id).byteWritten
  have alone := sound.alone id []
  rw [List.append_nil, rest] at alone
  exact ⟨_, alone, List.append_nil _, List.prefix_append _ _⟩

/-- A task that writes `Hi` by a call that blocks, and one that writes `!?` by one that does not. -/
def twoWriters (id : Nat) : List WriteCall :=
  if id = 0 then [⟨[72, 105], 2, 1⟩] else if id = 1 then [⟨[33, 63], 2, 0⟩] else []

theorem twoWriters_valid : ∀ id, ∀ call ∈ twoWriters id, call.Valid := by
  intro id call member
  rw [twoWriters] at member
  split_ifs at member
  · exact List.mem_singleton.mp member ▸ Nat.le_refl 2
  · exact List.mem_singleton.mp member ▸ Nat.le_refl 2
  · exact absurd member List.not_mem_nil

theorem serialOut_merge_twoWriters :
    ∃ s, runEvents SerialOut.step (serialStart twoWriters)
        [.turn 0, .turn 0, .shift, .turn 1, .turn 0, .turn 1, .shift, .turn 0] = some s ∧
      s.transmitter = ⟨some 105, [72, 33]⟩ ∧ s.sent 0 = [72, 105] ∧
      ∃ written, writeCalls 0 (twoWriters 1) [true, false] = some written ∧ written.sent = s.sent 1 := by
  have run : runEvents SerialOut.step (serialStart twoWriters)
      [.turn 0, .turn 0, .shift, .turn 1, .turn 0, .turn 1, .shift, .turn 0] = some _ := rfl
  obtain ⟨written, alone, same, _⟩ := (serialOut_merge twoWriters_valid run).2 1
  exact ⟨_, run, rfl, by decide +kernel, written, alone, same⟩

/-! ### Calls that block -/

/-- What the calls are to send. -/
def texts (calls : List WriteCall) : List UInt8 := calls.flatMap fun call => call.data.take call.dataLen

/-- Calls that block send a front of their texts, as long as the port takes bytes. -/
theorem writeCalls_blocking {calls : List WriteCall} (valid : ∀ call ∈ calls, call.Valid)
    (blocks : ∀ call ∈ calls, call.block ≠ 0) (answers : Acceptances) :
    ∃ returned, writeCalls 0 calls answers = some ⟨returned, (texts calls).take (answers.count true)⟩ := by
  induction calls generalizing answers with
  | nil => exact ⟨[], by rw [writeCalls, texts, List.flatMap_nil, List.take_nil]⟩
  | cons call calls ih =>
      have room : call.dataLen ≤ call.data.length := valid call (List.mem_cons_self ..)
      have size : (call.data.take call.dataLen).length = call.dataLen := by
        rw [List.length_take, Nat.min_eq_left room]
      obtain ⟨enough, few⟩ :=
        writeLoop_blocking room (blocks call (List.mem_cons_self ..)) (Nat.zero_le _) answers
      rw [Nat.zero_add, List.take_zero] at enough few
      rw [writeCalls, texts, List.flatMap_cons]
      rcases Nat.lt_or_ge (answers.count true) call.dataLen with less | all
      · refine ⟨[], ?_⟩
        rw [few less, Option.bind_some, List.take_append_of_le_length (by omega), List.take_take,
          Nat.min_eq_left (Nat.le_of_lt less)]
      · obtain ⟨used, left, rfl, count, run⟩ := enough all
        obtain ⟨returned, rest⟩ := ih (fun call member => valid call (List.mem_cons_of_mem _ member))
          (fun call member => blocks call (List.mem_cons_of_mem _ member)) left
        rw [Nat.zero_add] at count
        refine ⟨(call.dataLen : Int) :: returned, ?_⟩
        rw [run, Option.bind_some]
        show (writeCalls 0 calls left).map _ = _
        have whole : (call.data.take call.dataLen).take (call.dataLen + left.count true) =
            call.data.take call.dataLen := by
          refine List.take_of_length_le ?_
          rw [size]
          exact Nat.le_add_right _ _
        rw [rest, List.count_append, count, List.take_append, size, whole, Nat.add_sub_cancel_left]
        rfl

/-! ### Rounds -/

/-- What a task has left to do. -/
def Writer.left (writer : Writer) : Nat :=
  match writer.calls with
  | [] => 0
  | call :: rest => call.dataLen - writer.byteWritten + 1 + (rest.map fun call => call.dataLen + 1).sum

/-- What the first `n` tasks have left to do. -/
def SerialOut.left (n : Nat) (s : SerialOut) : Nat := ∑ id ∈ Finset.range n, (s.writers id).left

/-- Only the first `n` tasks have calls to make. -/
def SerialOut.Limited (n : Nat) (s : SerialOut) : Prop := ∀ id, n ≤ id → (s.writers id).calls = []

/-- The event is the turn of a task. -/
def OutEvent.isTurn : OutEvent → Bool
  | .shift => false
  | .turn _ => true

/-- The port moves a byte out, and then a task takes a turn, unless nothing is left to do. -/
def Served (n : Nat) (s : SerialOut) (events : List OutEvent) : Prop :=
  ∀ last ∈ runEvents SerialOut.step s events, last.left n ≠ 0 →
    (events.dropWhile OutEvent.isTurn).tail.any OutEvent.isTurn = true

instance (n : Nat) (s : SerialOut) (events : List OutEvent) : Decidable (Served n s events) :=
  inferInstanceAs (Decidable (∀ last ∈ runEvents SerialOut.step s events, last.left n ≠ 0 →
    (events.dropWhile OutEvent.isTurn).tail.any OutEvent.isTurn = true))

section Rounds

variable {n : Nat} {s s' last : SerialOut} {id : Nat} {events : List OutEvent}

theorem Writer.left_return (writer : Writer) {call : WriteCall} {rest : List WriteCall}
    (here : writer.calls = call :: rest) : writer.return.left < writer.left := by
  have after : writer.return.left = (rest.map fun call => call.dataLen + 1).sum := by
    rw [Writer.return, Writer.left, here]
    cases rest <;> rfl
  have before : writer.left =
      call.dataLen - writer.byteWritten + 1 + (rest.map fun call => call.dataLen + 1).sum := by
    rw [Writer.left, here]
  omega

/-- **A turn gets on**, or the register is full and nothing happens. -/
theorem turn_left (one : s.turn id = some s') : ∃ writer, s'.writers = Function.update s.writers id writer ∧
    (s.writers id).calls ≠ [] ∧ (writer.left < (s.writers id).left ∨
      writer.left = (s.writers id).left ∧ s.transmitter.dr ≠ none) := by
  have someCalls : ∀ {call : WriteCall} {rest : List WriteCall}, (s.writers id).calls = call :: rest →
      (s.writers id).calls ≠ [] := fun here => here ▸ List.cons_ne_nil _ _
  cases turn_turned one with
  | sent here further =>
      refine ⟨_, rfl, someCalls here, Or.inl ?_⟩
      simp only [Writer.left, here]
      omega
  | @refused call _ _ here =>
      have lower := Writer.left_return
        { s.writers id with answers := (s.writers id).answers ++ [false] } here
      exact ⟨_, rfl, someCalls here, Or.inl lower⟩
  | blocked here _ _ _ full => exact ⟨_, rfl, someCalls here, Or.inr ⟨rfl, full⟩⟩
  | finished here => exact ⟨_, rfl, someCalls here, Or.inl (Writer.left_return _ here)⟩

/-- No event adds anything to do, and a turn with an empty register gets on. -/
theorem step_left {event : OutEvent} (limited : s.Limited n) (one : s.step event = some s') :
    s'.Limited n ∧ s'.left n ≤ s.left n ∧ ((!event.isTurn) = true → s'.transmitter.dr = none) ∧
      (s.transmitter.dr = none →
        if event.isTurn then s'.left n ≤ s.left n - 1 else s'.transmitter.dr = none) := by
  cases event with
  | shift =>
      cases one
      exact ⟨limited, Nat.le_refl _, fun _ => rfl, fun _ => rfl⟩
  | turn id =>
      obtain ⟨writer, writers, someCalls, lower⟩ := turn_left one
      have inside : id < n := by
        by_contra outside
        exact someCalls (limited id (Nat.le_of_not_lt outside))
      have falls : ∀ other, (s'.writers other).left ≤ (s.writers other).left := by
        rw [writers]
        refine (Function.forall_update_iff s.writers fun other writer =>
          writer.left ≤ (s.writers other).left).mpr ⟨?_, fun _ _ => Nat.le_refl _⟩
        exact lower.elim Nat.le_of_lt fun same => same.1.le
      refine ⟨fun other large => ?_, Finset.sum_le_sum fun other _ => falls other,
        fun shift => absurd shift Bool.false_ne_true, fun empty => Nat.le_sub_one_of_lt ?_⟩
      · rw [writers, Function.update_of_ne (by omega)]
        exact limited other large
      · refine Finset.sum_lt_sum (fun other _ => falls other) ⟨id, Finset.mem_range.mpr inside, ?_⟩
        rw [writers, Function.update_self]
        exact lower.resolve_right fun same => same.2 empty

/-- **A round gets on.** -/
theorem served_left (limited : s.Limited n) (served : Served n s events)
    (run : runEvents SerialOut.step s events = some last) :
    last.Limited n ∧ last.left n ≤ s.left n - 1 := by
  have goes : ∀ (now : SerialOut) (event : OutEvent) (next : SerialOut), now.Limited n → True →
      now.step event = some next → next.Limited n ∧ next.left n ≤ now.left n ∧
        ((!event.isTurn) = true → next.transmitter.dr = none) ∧ (now.transmitter.dr = none →
          if event.isTurn then next.left n ≤ now.left n - 1 else next.transmitter.dr = none) :=
    fun now event next limited _ one => step_left limited one
  refine ⟨(runEvents_falls goes limited (fun _ _ => trivial) run).1, ?_⟩
  by_cases nothing : last.left n = 0
  · rw [nothing]
    exact Nat.zero_le _
  · refine runEvents_served goes limited (fun _ _ => trivial) ?_ run
    simp only [Bool.not_not]
    exact served last run nothing

end Rounds

section Blocking

variable {calls : Nat → List WriteCall} {s : SerialOut} {id : Nat}

/-- A task whose calls block has sent a front of their texts. -/
theorem SerialOut.Sound.sent_front (sound : s.Sound calls) (valid : ∀ call ∈ calls id, call.Valid)
    (blocks : ∀ call ∈ calls id, call.block ≠ 0) : s.sent id <+: texts (calls id) := by
  obtain ⟨returned, rest⟩ := writeCalls_nil (sound.valid id) (s.writers id).byteWritten
  obtain ⟨returned', whole⟩ := writeCalls_blocking valid blocks (s.writers id).answers
  have alone := sound.alone id []
  rw [List.append_nil, rest, whole] at alone
  have same := congrArg Written.sent (Option.some.inj alone)
  have sent : (texts (calls id)).take _ = s.sent id := same.trans (List.append_nil _)
  exact sent ▸ List.take_prefix _ _

/-- When they have returned, it has sent all: no further answer would make it send more. -/
theorem SerialOut.Sound.sent_texts (sound : s.Sound calls) (valid : ∀ call ∈ calls id, call.Valid)
    (blocks : ∀ call ∈ calls id, call.block ≠ 0) (finished : (s.writers id).calls = []) :
    s.sent id = texts (calls id) := by
  have alone := sound.alone id (List.replicate (texts (calls id)).length true)
  obtain ⟨returned, whole⟩ := writeCalls_blocking valid blocks
    ((s.writers id).answers ++ List.replicate (texts (calls id)).length true)
  rw [finished, whole, List.count_append, List.count_replicate_self,
    List.take_of_length_le (Nat.le_add_left _ _)] at alone
  have same := congrArg (Option.map Written.sent) alone
  simpa [writeCalls, Written.behind] using same.symm

/-- **One task alone has the line to itself.** -/
theorem serialOut_alone {events : List OutEvent} (others : ∀ other, other ≠ id → calls other = [])
    (valid : ∀ call ∈ calls id, call.Valid) (run : runEvents SerialOut.step (serialStart calls) events = some s) :
    s.Sound calls ∧ s.sent id = s.transmitter.taken := by
  have all : ∀ other, ∀ call ∈ calls other, call.Valid := by
    intro other call member
    by_cases same : other = id
    · exact valid call (same ▸ member)
    · rw [others other same] at member
      exact absurd member List.not_mem_nil
  obtain ⟨sound, -, own⟩ := runEvents_invariant
    (fun s => s.Sound calls ∧ (∀ other, other ≠ id → (s.writers other).calls = []) ∧
      ∀ owner ∈ s.owners, owner = id)
    (fun s event s' ⟨sound, idle, own⟩ one => by
      refine ⟨sound.step event one, ?_⟩
      cases event with
      | shift =>
          cases one
          exact ⟨idle, own⟩
      | turn task =>
          have mine : ∀ {call : WriteCall} {rest : List WriteCall},
              (s.writers task).calls = call :: rest → task = id := by
            intro call rest here
            by_contra other
            exact nomatch (idle task other).symm.trans here
          have kept : ∀ (writer : Writer) other, task = id → other ≠ id →
              (Function.update s.writers task writer other).calls = [] := by
            intro writer other same away
            rw [Function.update_of_ne (same ▸ away)]
            exact idle other away
          cases turn_turned one with
          | sent here =>
              refine ⟨fun other => kept _ other (mine here), List.forall_mem_append.mpr ⟨own, ?_⟩⟩
              exact List.forall_mem_singleton.mpr (mine here)
          | refused here | blocked here | finished here =>
              exact ⟨fun other => kept _ other (mine here), own⟩)
    ⟨SerialOut.Sound.start all, others, fun _ member => absurd member List.not_mem_nil⟩ run
  refine ⟨sound, ?_⟩
  have every : (s.owners.zip s.transmitter.taken).filter (fun owned => owned.1 = id) =
      s.owners.zip s.transmitter.taken :=
    List.filter_eq_self.mpr fun owned member => decide_eq_true (own _ (List.of_mem_zip member).1)
  rw [SerialOut.sent, every, List.map_snd_zip sound.owned.symm.le]

end Blocking

/-- **All texts go out.** In as many rounds as the calls have bytes and returns, in each of which the port
moves a byte out and then a task takes a turn unless all are finished, every call returns; and each task
whose calls block has sent exactly its texts, none of whose bytes is on the line twice. -/
theorem serialOut_finishes {calls : Nat → List WriteCall} {n : Nat} {last : SerialOut}
    {rounds : List (List OutEvent)} (valid : ∀ id, ∀ call ∈ calls id, call.Valid)
    (limited : ∀ id, n ≤ id → calls id = [])
    (fair : EachStep (runEvents SerialOut.step) (Served n) (serialStart calls) rounds)
    (enough : ∑ id ∈ Finset.range n, ((calls id).map fun call => call.dataLen + 1).sum ≤ rounds.length)
    (run : runEvents SerialOut.step (serialStart calls) rounds.flatten = some last) :
    last.owners.length = (last.transmitter.line ++ last.transmitter.dr.toList).length ∧
      ∀ id, (last.writers id).calls = [] ∧
        ((∀ call ∈ calls id, call.block ≠ 0) → last.sent id = texts (calls id)) := by
  have start : (serialStart calls).Limited n := limited
  have sound := runEvents_invariant (SerialOut.Sound calls) (fun s event s' sound one => sound.step event one)
    (SerialOut.Sound.start valid) run
  rw [← runEvents_blocks] at run
  obtain ⟨limited', most⟩ := runEvents_measure (SerialOut.left n) (SerialOut.Limited n)
    (fun s events s' limited fair one => served_left limited fair one)
    start fair run
  have all : (serialStart calls).left n =
      ∑ id ∈ Finset.range n, ((calls id).map fun call => call.dataLen + 1).sum := by
    refine Finset.sum_congr rfl fun id _ => ?_
    show Writer.left ⟨calls id, 0, [], []⟩ = _
    cases calls id <;> rfl
  have nothing : last.left n = 0 := by omega
  have finished : ∀ id, (last.writers id).calls = [] := by
    intro id
    by_cases inside : id < n
    · have none := Finset.sum_eq_zero_iff.mp nothing id (Finset.mem_range.mpr inside)
      cases here : (last.writers id).calls with
      | nil => rfl
      | cons call rest =>
          rw [Writer.left, here] at none
          dsimp only at none
          omega
    · exact limited' id (Nat.le_of_not_lt inside)
  refine ⟨sound.owned, fun id => ⟨finished id, fun blocks => ?_⟩⟩
  exact sound.sent_texts (valid id) blocks (finished id)

/-- Three rounds in which somebody gets on, and three in which all are finished. -/
def twoWritersRounds : List (List OutEvent) :=
  [[.shift, .turn 0, .turn 1], [.shift, .turn 0], [.shift, .turn 0], [], [], []]

theorem serialOut_finishes_twoWriters :
    ∃ last, runEvents SerialOut.step (serialStart twoWriters) twoWritersRounds.flatten = some last ∧
      last.transmitter.line = [72, 105] ∧ last.sent 0 = texts (twoWriters 0) := by
  have limited : ∀ id, 2 ≤ id → twoWriters id = [] := by
    intro id large
    rw [twoWriters, if_neg (by omega), if_neg (by omega)]
  have blocks : ∀ call ∈ twoWriters 0, call.block ≠ 0 := by decide
  have run : runEvents SerialOut.step (serialStart twoWriters) twoWritersRounds.flatten = some _ := rfl
  have finishes := serialOut_finishes twoWriters_valid limited (by decide +kernel) (by decide +kernel) run
  exact ⟨_, run, rfl, (finishes.2 0).2 blocks⟩

end YosStm32.Serial
