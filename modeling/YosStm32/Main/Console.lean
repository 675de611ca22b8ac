/-
**The serial line from reset on.**

`main` prints two lines with `basic_io_printf` before it creates its tasks, and one more when something
fails (`mainTexts`). These bytes go through the same register as those of the tasks, and bytes may come in
meanwhile (`Booting`). Once the kernel runs only `_cmdline_task` prints. So at any moment the line shows a
front of the two lines, or the two lines and then what `SerialShell` says (`console_shows`).
-/

import YosStm32.Main.SerialShell
import YosStm32.Main.System

namespace YosStm32.Main

open Lib BasicIo Cmdline Kernel Serial
open RingBuf (YRingBuffer writeByte)

/-! ### What `main` prints -/

/-- `BASIC_IO_PRINTF_BUFFER_SIZE`. -/
def basicIoPrintfBufferSize : Nat := 256

/-- `basic_io_printf` up to its call of `basic_io_write`, with what lies in `buf` when it is called. -/
def basicIoPrintf (buf text : List UInt8) : Option WriteCall :=
  (vsnprintf buf basicIoPrintfBufferSize text).bind fun buf =>
    (writeByte buf (basicIoPrintfBufferSize - 1) 0).bind fun buf =>
      (strlen buf).map fun len => ⟨buf, len, 1⟩

/-- The two lines. -/
def greeting : List (List UInt8) := [ascii "-------------\n", ascii "YOS starts on STM32\n"]

/-- The texts that `main` prints before the kernel runs; the results are those of `basic_io_init` and
`yiic_master_init`. -/
def mainTexts (image : Image) (mem : WordMemory) (entries : Entries) (basicIoInit yiicMasterInit : Int) :
    List (List UInt8) :=
  if basicIoInit ≠ 0 then []
  else if yiicMasterInit ≠ 0 then [ascii "IIC master init failed\n"]
  else greeting ++
    match mainCreations image mem entries with
    | .error text => [text]
    | .ok _ => []

/-- The calls print the texts, whatever lies in their buffers. -/
def Printed (texts : List (List UInt8)) (calls : List WriteCall) : Prop :=
  List.Forall₂ (fun text call => ∃ buf : List UInt8, buf.length = basicIoPrintfBufferSize ∧
    basicIoPrintf buf text = some call) texts calls

section Texts

variable {buf text : List UInt8} {calls : List WriteCall}

/-- **`main` prints the two lines.** -/
theorem mainTexts_eq (image : Image) (mem : WordMemory) (entries : Entries) :
    mainTexts image mem entries 0 0 = greeting := by
  rw [mainTexts, if_neg (by decide), if_neg (by decide), mainCreations_eq]
  rfl

theorem basicIoPrintf_writes (size : buf.length = basicIoPrintfBufferSize) (clean : 0 ∉ text)
    (short : text.length < basicIoPrintfBufferSize) :
    ∃ tail, basicIoPrintf buf text = some ⟨text ++ 0 :: tail, text.length, 1⟩ := by
  obtain ⟨stored, tail, formatted, written, length⟩ := vsnprintf_terminated (by decide) size clean
  rw [List.take_of_length_le (Nat.le_sub_one_of_lt short)] at written length
  refine ⟨tail, ?_⟩
  rw [basicIoPrintf, formatted, Option.bind_some, written, Option.bind_some, length, Option.map_some]

/-- What calls print that block and are long enough. -/
theorem printed_texts {texts : List (List UInt8)} (printed : Printed texts calls)
    (fit : ∀ text ∈ texts, 0 ∉ text ∧ text.length < basicIoPrintfBufferSize) :
    (∀ call ∈ calls, call.Valid) ∧ (∀ call ∈ calls, call.block ≠ 0) ∧ Serial.texts calls = texts.flatten := by
  induction printed with
  | nil => exact ⟨fun _ member => absurd member List.not_mem_nil,
      fun _ member => absurd member List.not_mem_nil, rfl⟩
  | @cons text call texts calls one rest ih =>
      obtain ⟨valid, blocks, same⟩ := ih fun text member => fit text (List.mem_cons_of_mem _ member)
      obtain ⟨buf, size, printed⟩ := one
      obtain ⟨clean, short⟩ := fit text (List.mem_cons_self ..)
      obtain ⟨tail, writes⟩ := basicIoPrintf_writes size clean short
      obtain rfl := Option.some.inj (writes.symm.trans printed)
      refine ⟨List.forall_mem_cons.mpr ⟨?_, valid⟩, List.forall_mem_cons.mpr ⟨Int.one_ne_zero, blocks⟩, ?_⟩
      · rw [WriteCall.Valid, List.length_append]
        exact Nat.le_add_right _ _
      · rw [Serial.texts, List.flatMap_cons, List.take_left' rfl, List.flatten_cons, ← same]
        rfl

theorem greeting_fit : ∀ text ∈ greeting, 0 ∉ text ∧ text.length < basicIoPrintfBufferSize := by
  rw [greeting, ascii_ofList, ascii_ofList]
  decide

end Texts

/-! ### Before the kernel runs -/

/-- The port while `main` prints. -/
structure Booting where
  out : SerialOut
  port : Port

inductive BootEvent where
  | isr (dr : Option UInt8)
  | out (event : OutEvent)

/-- One event. -/
def Booting.step (s : Booting) : BootEvent → Option Booting
  | .isr dr => (s.port.step (.isr dr)).map fun port => { s with port := port }
  | .out event => (s.out.step event).map fun out => { s with out := out }

/-- `main` is the only one that prints. -/
def mainWrites (calls : List WriteCall) (id : Nat) : List WriteCall := if id = 0 then calls else []

/-- What an event is for what goes out. -/
def BootEvent.outEvents : BootEvent → List OutEvent
  | .isr _ => []
  | .out event => [event]

/-- What an event is for the shell, which has not begun. -/
def BootEvent.shellEvents : BootEvent → List SerialShellEvent
  | .isr dr => [.isr dr]
  | .out _ => []

section Boot

variable {s s' : Booting} {events : List BootEvent}

/-- **What goes out and what comes in do not meet.** -/
theorem booting_run (frames : Nat → List UInt8) (outside : Nat → Outside) (shell : Shell)
    (transmitter : Transmitter) (run : runEvents Booting.step s events = some s') :
    runEvents SerialOut.step s.out (events.flatMap BootEvent.outEvents) = some s'.out ∧
      runEvents (SerialShell.step frames outside shell) ⟨s.port, transmitter, [], []⟩
        (events.flatMap BootEvent.shellEvents) = some ⟨s'.port, transmitter, [], []⟩ := by
  induction events generalizing s with
  | nil =>
      rw [runEvents_nil, Option.some.injEq] at run
      exact run ▸ ⟨rfl, rfl⟩
  | cons event events ih =>
      obtain ⟨next, one, rest⟩ := runEvents_cons.mp run
      obtain ⟨out, shell⟩ := ih rest
      cases event with
      | isr dr =>
          obtain ⟨port, arrived, rfl⟩ := Option.map_eq_some_iff.mp one
          refine ⟨out, runEvents_cons.mpr ⟨⟨port, transmitter, [], []⟩, ?_, shell⟩⟩
          rw [SerialShell.step, arrived, Option.map_some]
      | out event =>
          obtain ⟨after, went, rfl⟩ := Option.map_eq_some_iff.mp one
          exact ⟨runEvents_cons.mpr ⟨after, went, out⟩, shell⟩

end Boot

/-- The shell finds the port as it is after `yusart_init`. -/
theorem serialShellStart_some {rb : YRingBuffer} {block : List UInt8} {port : Port}
    (init : portRun rb block [] = some port) (transmitter : Transmitter) :
    serialShellStart rb block transmitter = some ⟨port, transmitter, [], []⟩ := by
  rw [serialShellStart, init, Option.map_some]

/-- **The console from reset on.** In any interleaving of received bytes, of the port moving bytes out and of
what `main` and then `_cmdline_task` do, with anything in the buffers: while `main` prints, the port has taken
a front of the two lines; and once it is through and the bytes that have been read are lines and a part of one
more, all that the port has ever taken is the two lines and a front of the transcript of these lines, the
whole transcript when the task polls. -/
theorem console_shows {image image' : Image} {mem mem' : WordMemory} {entries : Entries}
    {lives : Nat → Nat → List LifeEvent} {frames : Nat → List UInt8} {outside : Nat → Outside} {shell : Shell}
    {rb : YRingBuffer} {block last : List UInt8} {port : Port} {calls : List WriteCall} {booted : Booting}
    {boot : List BootEvent} {events : List SerialShellEvent} {s : SerialShell} {lines : List (List UInt8)}
    (size : block.length = yusartReceiveBufferSizeByte) (init : portRun rb block [] = some port)
    (printed : Printed (mainTexts image mem entries 0 0) calls)
    (booting : runEvents Booting.step ⟨serialStart (mainWrites calls), port⟩ boot = some booted)
    (sizes : ∀ k, (frames k).length = cmdlineMaxLength)
    (found : ∀ n, (outside n).FromRuns image' mem' (lives n)) (declared : Declared shell)
    (run : runEvents (SerialShell.step frames outside shell) ⟨booted.port, booted.out.transmitter, [], []⟩
      events = some s)
    (lined : Lined s.port.delivered lines last) :
    booted.out.transmitter.taken <+: greeting.flatten ∧
      ((booted.out.writers 0).calls = [] →
        ∃ acts shown, taskTranscript outside shell.lastCmdRet lines = some acts ∧
          s.transmitter.line ++ s.transmitter.dr.toList = greeting.flatten ++ shown ∧ shown <+: said acts ∧
          (demand frames outside shell s.heard s.taken = some .read → shown = said acts)) := by
  rw [mainTexts_eq] at printed
  obtain ⟨valid, blocks, texts⟩ := printed_texts printed greeting_fit
  obtain ⟨out, received⟩ := booting_run frames outside shell booted.out.transmitter booting
  have others : ∀ other, other ≠ 0 → mainWrites calls other = [] := fun other away => if_neg away
  have own : mainWrites calls 0 = calls := if_pos rfl
  obtain ⟨sound, sent⟩ := serialOut_alone others (own ▸ valid) out
  rw [← sent, ← texts, ← own]
  refine ⟨sound.sent_front (own ▸ valid) (own ▸ blocks), fun finished => ?_⟩
  rw [← sound.sent_texts (own ▸ valid) (own ▸ blocks) finished, sent]
  have start := serialShellStart_some init booted.out.transmitter
  have listed := fun n => (found n).listed
  exact (serialShell_sound size sizes listed declared start
    (runEvents_append.mpr ⟨_, received, run⟩) lined).shows sizes listed declared lined

/-- The calls for the two lines, when the buffers hold zeros. -/
def sampleGreeting : List WriteCall :=
  [⟨ascii "-------------\n" ++ List.replicate 242 0, 14, 1⟩,
    ⟨ascii "YOS starts on STM32\n" ++ List.replicate 236 0, 20, 1⟩]

/-- A byte comes in, and the two lines go out. -/
def sampleBoot : List BootEvent :=
  .isr (some 10) :: (List.replicate 36 [.out .shift, .out (.turn 0)]).flatten

theorem console_shows_sample :
    ∃ port booted s acts, portRun ⟨none, 0, 0, 0, 0⟩ (List.replicate 256 0) [] = some port ∧
      runEvents Booting.step ⟨serialStart (mainWrites sampleGreeting), port⟩ sampleBoot = some booted ∧
      runEvents sampleShellStep ⟨booted.port, booted.out.transmitter, [], []⟩ sampleRounds.flatten = some s ∧
      s.port.delivered = [10] ∧ sampleShellDemand s = some .read ∧
      taskTranscript (fun _ => sampleOutside) 0 [[]] = some acts ∧ said acts = sampleAnswer ∧
      s.transmitter.line ++ s.transmitter.dr.toList = greeting.flatten ++ sampleAnswer := by
  have ran : ((portRun ⟨none, 0, 0, 0, 0⟩ (List.replicate 256 0) []).bind fun port =>
      (runEvents Booting.step ⟨serialStart (mainWrites sampleGreeting), port⟩ sampleBoot).map fun booted =>
        ((booted.out.writers 0).calls, booted.port.delivered, booted.port.buffered)) =
          some ([], [], [10]) := by
    decide +kernel
  obtain ⟨port, init, ran⟩ := Option.bind_eq_some_iff.mp ran
  obtain ⟨booted, boot, seen⟩ := Option.map_eq_some_iff.mp ran
  obtain ⟨finished, seen⟩ := Prod.mk.inj seen
  obtain ⟨unread, waiting⟩ := Prod.mk.inj seen
  have printed : Printed greeting sampleGreeting :=
    .cons ⟨List.replicate 256 0, List.length_replicate, by decide +kernel⟩
      (.cons ⟨List.replicate 256 0, List.length_replicate, by decide +kernel⟩ .nil)
  rw [← mainTexts_eq ⟨0x08000101, 0x08000201, 0x08000301⟩ (fun _ => 0) ⟨0x08000401, 0x08000501, 0x08000601⟩]
    at printed
  -- The shell begins with the byte that came in while `main` was printing.
  have received := (booting_run (fun _ => List.replicate 256 0) (fun _ => sampleOutside) sampleShell
    booted.out.transmitter boot).2
  have sound := serialShell_sound List.length_replicate (fun _ => List.length_replicate)
    (fun _ => sampleOutside_fromRuns.listed) sampleShell_declared (serialShellStart_some init _) received
    (lined_nothing unread)
  obtain ⟨s, run, read, polls⟩ := sampleShell_emptyLine sound (by rw [unread, waiting, List.nil_append]) rfl
  obtain ⟨-, whole⟩ := console_shows List.length_replicate init printed boot
    (fun _ => List.length_replicate) (fun _ => sampleOutside_fromRuns) sampleShell_declared run
    (lined_emptyLine read)
  obtain ⟨acts, shown, asked, out, -, all⟩ := whole finished
  have text := sampleAnswer_said asked
  rw [all polls, text] at out
  exact ⟨port, booted, s, acts, init, boot, run, read, polls, asked, text, out⟩

end YosStm32.Main
