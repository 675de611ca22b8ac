/-
**The display at its end of the bus.**

`Display` takes messages whole; the display itself gets a byte at a time, and has to know whether it is the
control byte, a command, the argument of one, or data (`Receiver`). A message that comes through whole does
the same to both (`Receiver.hear_message`). So the task that draws has the display for itself: however its
transactions interleave with those of other devices, the display has received the first messages of the task,
and maybe a part of the next one (`display_alone`).
-/

import YosStm32.Iic.Devices
import YosStm32.Oled.Ssd1306

namespace YosStm32.Oled

open Iic Lib

/-! ### Byte by byte -/

/-- What the display takes the next byte for. -/
inductive Expects where
  | nothing
  | control
  /-- A command, after so many arguments of the one before. -/
  | command (skip : Nat)
  | data
  deriving DecidableEq, Repr

/-- The display, with what it expects. -/
structure Receiver where
  display : Display
  expects : Expects
  deriving DecidableEq, Repr

/-- A byte for the display. -/
def Receiver.byte (receiver : Receiver) (byte : UInt8) : Receiver :=
  match receiver.expects with
  | .nothing => receiver
  | .control =>
      { receiver with
        expects := if byte = 0x00 then .command 0 else if byte = 0x40 then .data else .nothing }
  | .command 0 =>
      { display := (receiver.display.command byte).1
        expects := .command (receiver.display.command byte).2 }
  | .command (skip + 1) => { receiver with expects := .command skip }
  | .data => { receiver with display := receiver.display.receive (.data [byte]) }

/-- An operation that the display hears. -/
def Receiver.hear (receiver : Receiver) : BusOp → Receiver
  | .address _ .write => { receiver with expects := .control }
  | .address _ .read | .start | .stop => { receiver with expects := .nothing }
  | .receive => receiver
  | .transmit byte => receiver.byte byte

/-- Operations that the display hears, in order. -/
def Receiver.hearAll (receiver : Receiver) (ops : List BusOp) : Receiver := ops.foldl Receiver.hear receiver

section Bytes

theorem Receiver.hearAll_append (receiver : Receiver) (first second : List BusOp) :
    receiver.hearAll (first ++ second) = (receiver.hearAll first).hearAll second := List.foldl_append

theorem Receiver.hearAll_commands (display : Display) (skip : Nat) (bytes : List UInt8) :
    ∃ skip', Receiver.hearAll ⟨display, .command skip⟩ (bytes.map .transmit) =
      ⟨display.commands skip bytes, .command skip'⟩ := by
  induction bytes generalizing display skip with
  | nil => exact ⟨skip, by cases skip <;> rfl⟩
  | cons byte bytes ih =>
      cases skip with
      | zero => exact ih _ _
      | succ skip => exact ih _ _

theorem Display.receive_data_cons (display : Display) (byte : UInt8) (bytes : List UInt8) :
    (display.receive (.data [byte])).receive (.data bytes) = display.receive (.data (byte :: bytes)) := by
  have column : ∀ i, display.column + 1 + i = display.column + (i + 1) := fun i => by omega
  simp only [Display.receive, List.length_cons, List.length_nil, List.mapIdx_cons, List.mapIdx_nil,
    Nat.add_zero, Nat.zero_add, List.append_assoc, List.singleton_append, column]

theorem Receiver.hearAll_data (display : Display) (bytes : List UInt8) :
    Receiver.hearAll ⟨display, .data⟩ (bytes.map .transmit) = ⟨display.receive (.data bytes), .data⟩ := by
  induction bytes generalizing display with
  | nil =>
      have same : display.receive (.data []) = display := by
        simp [Display.receive]
      rw [same]
      rfl
  | cons byte bytes ih =>
      rw [← display.receive_data_cons byte bytes]
      exact ih _

/-- **A message that is heard whole is received**, whatever the display has expected. -/
theorem Receiver.hear_message (receiver : Receiver) (message : Message) :
    receiver.hearAll message.transaction.talk = ⟨receiver.display.receive message, .nothing⟩ := by
  have talk : message.transaction.talk =
      .address 0x3C .write :: .transmit message.control :: message.bytes.map .transmit ++ [.stop] :=
    List.cons.inj message.transaction_ops |>.2
  rw [talk, Receiver.hearAll_append]
  cases message with
  | command bytes =>
      obtain ⟨skip, heard⟩ := Receiver.hearAll_commands receiver.display 0 bytes
      have opened : receiver.hearAll
          (.address 0x3C .write :: .transmit 0x00 :: bytes.map .transmit) = _ := heard
      exact congrArg (Receiver.hearAll · [.stop]) opened
  | data bytes =>
      have opened : receiver.hearAll
          (.address 0x3C .write :: .transmit 0x40 :: bytes.map .transmit) = _ :=
        Receiver.hearAll_data receiver.display bytes
      exact congrArg (Receiver.hearAll · [.stop]) opened

/-- The transactions of some messages. -/
theorem Receiver.hear_messages (display : Display) (messages : List Message) :
    Receiver.hearAll ⟨display, .nothing⟩ (talks 0x3C (messages.map Message.transaction)) =
      ⟨display.receiveAll messages, .nothing⟩ := by
  induction messages generalizing display with
  | nil => rfl
  | cons message messages ih =>
      have here : message.transaction.With 0x3C := rfl
      rw [List.map_cons, ← List.singleton_append, talks_append, talks_singleton, if_pos here,
        Receiver.hearAll_append, Receiver.hear_message]
      exact ih _

end Bytes

/-! ### Every run -/

section Runs

variable {programs : Nat → List Transaction} {messages : List Message} {id : Nat}
  {first last : Threads Bus Task}

/-- The display has got the first messages whole, and maybe a part of the next one. -/
def Served (messages : List Message) (display : Display) (receiver : Receiver) : Prop :=
  ∃ done rest, messages = done ++ rest ∧
    (receiver = ⟨display.receiveAll done, .nothing⟩ ∨
      ∃ message more part, rest = message :: more ∧ part <+: message.transaction.talk ∧
        receiver = Receiver.hearAll ⟨display.receiveAll done, .nothing⟩ part)

/-- **The task that draws has the display for itself.** When nobody else uses its address, what the display has
made of the bus, in any run, are the first messages of the task, and maybe a part of the next one. -/
theorem display_alone {events : List (ThreadEvent Unit)} (initialised : IicInitialised programs first)
    (draws : programs id = messages.map Message.transaction)
    (alone : ∀ other, other ≠ id → ∀ tr ∈ programs other, ¬ tr.With 0x3C)
    (run : runEvents (Threads.step iicAct) first events = some last) (display : Display) :
    Served messages display
      (Receiver.hearAll ⟨display, .nothing⟩ (heard 0x3C false (last.shared.log.map Prod.snd))) := by
  obtain ⟨whole, inv⟩ := iic_inv initialised run
  obtain ⟨_, _, _, inOrder⟩ := inv.log
  obtain ⟨part, got, begun⟩ := inv.heard_alone alone
  obtain ⟨rest, program⟩ := inOrder id
  rw [draws] at program
  obtain ⟨done, left, rfl, isDone, isLeft⟩ := List.map_eq_append_iff.mp program.symm
  rw [got, Receiver.hearAll_append, ← isDone, Receiver.hear_messages]
  refine ⟨done, left, rfl, ?_⟩
  rcases begun with rfl | ⟨tr, after, continues, -, starts⟩
  · exact Or.inl rfl
  · rw [draws, List.map_append, isDone] at continues
    obtain ⟨message, more, rfl, rfl, -⟩ := List.map_eq_cons_iff.mp (List.append_cancel_left continues)
    exact Or.inr ⟨message, more, part, rfl, starts, rfl⟩

end Runs

end YosStm32.Oled
