/-
**The command line at its port**, from the bytes that arrive to the bytes that go out.

`_cmdline_task`, the receive path of the port and its transmitter make one system: bytes arrive and leave
at any time, and in between the task takes its turns. What it asks the port for next follows from what the
port has answered so far (`demand`): it offers a byte, or it polls. At any moment what has gone
out is a front of the transcript of the lines read so far, and all of it when the task polls
(`serialShell_shows`); and when bytes keep leaving and the task gets its turns, every line that is in the
buffer is read and answered (`serialShell_answers`).
-/

import YosStm32.Cmdline.CmdlineTask
import YosStm32.Serial.Receive
import YosStm32.Serial.Transmit

namespace YosStm32.Main

open Lib BasicIo Cmdline Kernel Serial
open RingBuf (YRingBuffer)

/-! ### The system -/

/-- The port, and what it has answered to the task: to its polls, and to its offers. -/
structure SerialShell where
  port : Port
  transmitter : Transmitter
  heard : Answers
  taken : Acceptances

/-- What the task asks the port for. -/
inductive Demand where
  | write (b : UInt8)
  | read
  deriving DecidableEq, Repr

/-- Interrupts of the port, the port moving a byte out, and a turn of the task; `c` is what
lies in the block where the byte is to go, and `data` what the local of the read function holds. -/
inductive SerialShellEvent where
  | isr (dr : Option UInt8)
  | shift
  | turn (c data : UInt8)
  deriving DecidableEq, Repr

section System

variable (frames : Nat → List UInt8) (outside : Nat → Outside) (shell : Shell)

/-- `_cmdline_task` with the answers that it has got. -/
def showing (heard : Answers) (taken : Acceptances) : Option Talk :=
  cmdlineTask frames outside (heard.length + 1) 0 shell heard ⟨⟨[], some taken⟩, [], 0⟩

/-- What the task asks for next. A byte that it offers is the one that it would send last if it were
taken. -/
def demand (heard : Answers) (taken : Acceptances) : Option Demand :=
  (showing frames outside shell heard taken).bind fun done =>
    match done.console.printing.port with
    | some _ => some .read
    | none => (showing frames outside shell heard (taken ++ [true])).bind fun more =>
        more.console.printing.output.getLast?.map .write

/-- The task offers a byte. -/
def SerialShell.offered (s : SerialShell) (b : UInt8) : SerialShell :=
  let offer := yusartIoWriteByteNoBlock s.transmitter b
  { s with transmitter := offer.2, taken := s.taken ++ [decide (offer.1 = 0)] }

/-- The task polls. -/
def SerialShell.polled (s : SerialShell) (c data : UInt8) : Option SerialShell :=
  (yusartIoReadByteNoBlock s.port.rb (some c) data).bind fun (result, byte, _) =>
    (s.port.step (.read (some c) data)).map fun port =>
      { s with port := port, heard := s.heard ++ [if result = 0 then byte else none] }

/-- A turn of the task: what it asks for is done. -/
def SerialShell.turn (s : SerialShell) (c data : UInt8) : Option SerialShell :=
  (demand frames outside shell s.heard s.taken).bind fun
    | .write b => some (s.offered b)
    | .read => s.polled c data

/-- One event. -/
def SerialShell.step (s : SerialShell) : SerialShellEvent → Option SerialShell
  | .isr dr => (s.port.step (.isr dr)).map fun port => { s with port := port }
  | .shift => some { s with transmitter := s.transmitter.shift }
  | .turn c data => s.turn frames outside shell c data

/-- What an event is for the receive path. -/
def SerialShell.portEvents (s : SerialShell) : SerialShellEvent → List PortEvent
  | .isr dr => [.isr dr]
  | .shift => []
  | .turn c data =>
      if demand frames outside shell s.heard s.taken = some .read then [.read (some c) data] else []

/-- After `yusart_init`, with what the port has taken before the task starts. -/
def serialShellStart (rb : YRingBuffer) (block : List UInt8) (transmitter : Transmitter) :
    Option SerialShell :=
  (portRun rb block []).map fun port => ⟨port, transmitter, [], []⟩

end System

/-! ### Lines that are coming in -/

/-- The bytes are these lines, each of at most 255 bytes and without a NUL, and a part of one more. -/
structure Lined (bytes : List UInt8) (lines : List (List UInt8)) (last : List UInt8) : Prop where
  bytes : bytes = stream lines ++ last
  fits : ∀ line ∈ lines, Fits line
  short : last.length < cmdlineMaxLength
  unended : basicIoTextEndMark ∉ last

section Lines

variable {outside : Nat → Outside} {bytes last : List UInt8} {lines : List (List UInt8)} {b : UInt8}

theorem stream_concat (lines : List (List UInt8)) (line : List UInt8) :
    stream (lines ++ [line]) = stream lines ++ line ++ [basicIoTextEndMark] := by
  rw [stream, List.flatMap_append, List.flatMap_singleton, ← List.append_assoc]
  rfl

/-- Before the last byte. -/
theorem Lined.before (lined : Lined (bytes ++ [b]) lines last) :
    (∃ last', Lined bytes lines last') ∨
      ∃ lines' line, lines = lines' ++ [line] ∧ Lined bytes lines' line := by
  have whole := lined.bytes
  rcases List.eq_nil_or_concat last with rfl | ⟨last', c, rfl⟩
  · rw [List.append_nil] at whole
    rcases List.eq_nil_or_concat lines with rfl | ⟨lines', line, rfl⟩
    · exact absurd whole (List.append_ne_nil_of_right_ne_nil _ (List.cons_ne_nil _ _))
    · rw [List.concat_eq_append] at lined whole ⊢
      rw [stream_concat] at whole
      have fits := lined.fits line (List.mem_append_right _ (List.mem_singleton_self line))
      exact Or.inr ⟨lines', line, rfl, (List.append_inj' whole rfl).1,
        fun other member => lined.fits other (List.mem_append_left _ member), fits.short, fits.unended⟩
  · have short := lined.short
    have unended := lined.unended
    rw [List.concat_eq_append, List.length_append] at short
    rw [List.concat_eq_append, List.mem_append, not_or] at unended
    rw [List.concat_eq_append, ← List.append_assoc] at whole
    exact Or.inl ⟨last', (List.append_inj' whole rfl).1, lined.fits,
      Nat.lt_of_le_of_lt (Nat.le_add_right _ _) short, unended.1⟩

/-- One line more is answered behind the others. -/
theorem taskTalk_concat {n : Nat} {ret : Int} {line : List UInt8} {acts acts' : List Act}
    (asked : taskTalk outside n ret lines = some acts)
    (asked' : taskTalk outside n ret (lines ++ [line]) = some acts') : ∃ more, acts' = acts ++ more := by
  induction lines generalizing n ret acts acts' with
  | nil =>
      rw [taskTalk, Option.some.injEq] at asked
      rw [List.nil_append, taskTalk] at asked'
      obtain ⟨here, _, asked'⟩ := Option.bind_eq_some_iff.mp asked'
      obtain ⟨rest, _, rfl⟩ := Option.map_eq_some_iff.mp asked'
      exact ⟨here ++ ((if IsExit line then banner else []) ++ rest), by rw [← asked, List.singleton_append]⟩
  | cons first lines ih =>
      rw [taskTalk] at asked
      rw [List.cons_append, taskTalk] at asked'
      obtain ⟨here, call, asked⟩ := Option.bind_eq_some_iff.mp asked
      obtain ⟨rest, later, rfl⟩ := Option.map_eq_some_iff.mp asked
      rw [call, Option.bind_some] at asked'
      obtain ⟨rest', later', rfl⟩ := Option.map_eq_some_iff.mp asked'
      obtain ⟨more, rfl⟩ := ih later later'
      exact ⟨more, by rw [List.cons_append, List.append_assoc, List.append_assoc]⟩

theorem taskTranscript_concat {ret : Int} {line : List UInt8} {acts acts' : List Act}
    (asked : taskTranscript outside ret lines = some acts)
    (asked' : taskTranscript outside ret (lines ++ [line]) = some acts') : said acts <+: said acts' := by
  obtain ⟨rest, talked, rfl⟩ := Option.map_eq_some_iff.mp asked
  obtain ⟨rest', talked', rfl⟩ := Option.map_eq_some_iff.mp asked'
  obtain ⟨more, rfl⟩ := taskTalk_concat talked talked'
  have split : said (banner ++ rest ++ more) = said (banner ++ rest) ++ said more := List.flatMap_append
  rw [← List.append_assoc, split]
  exact List.prefix_append _ _

/-- Lines in a front of the bytes are answered by a front of the transcript. -/
theorem Lined.front {ret : Int} {more : List UInt8} {acts : List Act}
    (known : ∀ bytes lines last, Lined bytes lines last → ∃ acts, taskTranscript outside ret lines = some acts)
    (lined : Lined (bytes ++ more) lines last) (asked : taskTranscript outside ret lines = some acts) :
    ∃ lines' last' acts', Lined bytes lines' last' ∧ taskTranscript outside ret lines' = some acts' ∧
      said acts' <+: said acts := by
  induction more using List.reverseRecOn generalizing lines last acts with
  | nil =>
      rw [List.append_nil] at lined
      exact ⟨lines, last, acts, lined, asked, List.prefix_refl _⟩
  | append_singleton more b ih =>
      rw [← List.append_assoc] at lined
      rcases lined.before with ⟨last', lined'⟩ | ⟨lines', line, rfl, lined'⟩
      · exact ih lined' asked
      · obtain ⟨acts', asked'⟩ := known _ lines' line lined'
        obtain ⟨lines'', last'', acts'', lined'', asked'', further⟩ := ih lined' asked'
        exact ⟨lines'', last'', acts'', lined'', asked'', further.trans (taskTranscript_concat asked' asked)⟩

end Lines

/-! ### What the task asks for -/

section Demand

variable {frames : Nat → List UInt8} {outside : Nat → Outside} {shell : Shell} {heard : Answers}
  {lines : List (List UInt8)} {last : List UInt8}

/-- What is asked for shows whether there is a next byte, and which. -/
theorem next_of_demand {next next' : Option UInt8}
    (same : (next.map Demand.write).getD .read = (next'.map Demand.write).getD .read) : next = next' := by
  cases next <;> cases next' <;> cases same <;> rfl

/-- **What the task asks for next**: while the transcript of the lines is not out, its next byte; then it
polls. -/
theorem demand_eq (sizes : ∀ k, (frames k).length = cmdlineMaxLength)
    (listed : ∀ n, ∃ rows, cmdTasksInfo (outside n).kernels (outside n).ti = some rows)
    (declared : Declared shell) (lined : Lined heard.reduceOption lines last) :
    ∃ acts, taskTranscript outside shell.lastCmdRet lines = some acts ∧ ∀ taken : Acceptances,
      demand frames outside shell heard taken =
        some (((said acts)[taken.count true]?.map .write).getD .read) := by
  obtain ⟨acts, asked, run⟩ :=
    cmdlineTask_lines sizes listed declared lined.fits lined.short lined.unended lined.bytes
  refine ⟨acts, asked, fun taken => ?_⟩
  obtain ⟨done, shown, does, _⟩ := run ⟨⟨[], some taken⟩, [], 0⟩
  have prints := does.prints
  rw [demand, showing, shown, Option.bind_some]
  rcases Nat.lt_or_ge (taken.count true) (said acts).length with few | enough
  · have stuck := congrArg Printing.port (prints.part taken rfl few)
    rw [stuck, List.getElem?_eq_getElem few]
    obtain ⟨more, shown', does', _⟩ := run ⟨⟨[], some (taken ++ [true])⟩, [], 0⟩
    have count : (taken ++ [true]).count true = taken.count true + 1 := by
      rw [List.count_append, List.count_singleton_self]
    have output : more.console.printing.output = (said acts).take (taken.count true + 1) := by
      rw [← count]
      rcases Nat.lt_or_ge ((taken ++ [true]).count true) (said acts).length with few' | enough'
      · exact congrArg Printing.output (does'.prints.part _ rfl few')
      · obtain ⟨left, out, _⟩ := does'.prints.whole _ rfl enough'
        rw [List.take_of_length_le enough', out]
        rfl
    dsimp only
    rw [showing, shown', Option.bind_some, output, List.take_succ_eq_append_getElem few,
      List.getLast?_concat]
    rfl
  · obtain ⟨left, out, _⟩ := prints.whole taken rfl enough
    rw [out, List.getElem?_eq_none enough]
    rfl

/-- There is a transcript of any lines. -/
theorem taskTranscript_known (sizes : ∀ k, (frames k).length = cmdlineMaxLength)
    (listed : ∀ n, ∃ rows, cmdTasksInfo (outside n).kernels (outside n).ti = some rows)
    (declared : Declared shell) (bytes : List UInt8) (lines : List (List UInt8)) (last : List UInt8)
    (lined : Lined bytes lines last) : ∃ acts, taskTranscript outside shell.lastCmdRet lines = some acts := by
  have heard : (bytes.map some).reduceOption = bytes := by simp [List.reduceOption]
  obtain ⟨acts, asked, _⟩ := demand_eq sizes listed declared (heard.symm ▸ lined)
  exact ⟨acts, asked⟩

end Demand

/-! ### Runs -/

/-- What holds at any time; `before` is what the port had taken before the task started. -/
structure SerialShell.Sound (outside : Nat → Outside) (shell : Shell) (before : List UInt8)
    (s : SerialShell) : Prop where
  received : ∃ oldest, Received s.port oldest
  heard : s.heard.reduceOption = s.port.delivered
  shown : ∀ lines last, Lined s.port.delivered lines last → ∃ acts,
    taskTranscript outside shell.lastCmdRet lines = some acts ∧
      s.transmitter.taken = before ++ (said acts).take (s.taken.count true) ∧
      s.taken.count true ≤ (said acts).length

/-- What a turn does; `text` is what there is to say so far. -/
inductive SerialShell.Turned (s : SerialShell) (text : List UInt8) : SerialShell → Prop where
  | offered (b : UInt8) (next : text[s.taken.count true]? = some b) : Turned s text (s.offered b)
  | read {s' : SerialShell} (byte : UInt8) (whole : text.length ≤ s.taken.count true)
      (delivered : s'.port.delivered = s.port.delivered ++ [byte])
      (buffered : s.port.buffered = byte :: s'.port.buffered) (taken : s'.taken = s.taken)
      (transmitter : s'.transmitter = s.transmitter) : Turned s text s'
  | waited (whole : text.length ≤ s.taken.count true) (nothing : s.port.buffered = []) :
      Turned s text { s with heard := s.heard ++ [none] }

namespace SerialShell.Sound

variable {frames : Nat → List UInt8} {outside : Nat → Outside} {shell : Shell} {before : List UInt8}
  {s s' : SerialShell} {lines : List (List UInt8)} {last : List UInt8} {c data : UInt8}

/-- An interrupt. -/
theorem isr (sound : s.Sound outside shell before) (dr : Option UInt8) :
    ∃ port, s.port.step (.isr dr) = some port ∧ port.delivered = s.port.delivered ∧
      SerialShell.Sound outside shell before { s with port := port } := by
  obtain ⟨oldest, received⟩ := sound.received
  obtain ⟨port, oldest', one, received', _⟩ := received.step (.isr dr)
  have same : port.delivered = s.port.delivered := by
    cases dr <;>
    · simp only [Port.step] at one
      obtain ⟨rb, _, rfl⟩ := Option.map_eq_some_iff.mp one
      rfl
  exact ⟨port, one, same, ⟨oldest', received'⟩, sound.heard.trans same.symm,
    fun lines last lined => sound.shown lines last (same ▸ lined)⟩

/-- The port moves a byte out. -/
theorem shift (sound : s.Sound outside shell before) :
    SerialShell.Sound outside shell before { s with transmitter := s.transmitter.shift } where
  received := sound.received
  heard := sound.heard
  shown := fun lines last lined => by
    have taken : s.transmitter.shift.taken = s.transmitter.taken := List.append_nil _
    obtain ⟨acts, asked, shown⟩ := sound.shown lines last lined
    exact ⟨acts, asked, taken.trans shown.1, shown.2⟩

/-- The task offers a byte. -/
theorem offered (sound : s.Sound outside shell before) {b : UInt8}
    (next : ∀ lines last acts, Lined s.port.delivered lines last →
      taskTranscript outside shell.lastCmdRet lines = some acts → (said acts)[s.taken.count true]? = some b) :
    (s.offered b).Sound outside shell before where
  received := sound.received
  heard := sound.heard
  shown := fun lines last lined => by
    obtain ⟨acts, asked, shown, most⟩ := sound.shown lines last lined
    obtain ⟨few, rfl⟩ := List.getElem?_eq_some_iff.mp (next lines last acts lined asked)
    refine ⟨acts, asked, ?_⟩
    rw [SerialShell.offered]
    by_cases empty : s.transmitter.dr = none
    · have offer : yusartIoWriteByteNoBlock s.transmitter (said acts)[s.taken.count true] =
          (0, ⟨some (said acts)[s.taken.count true], s.transmitter.line⟩) := by
        rw [yusartIoWriteByteNoBlock, if_pos empty]
      have out : s.transmitter.line = before ++ (said acts).take (s.taken.count true) := by
        rw [← shown, Transmitter.taken, empty, Option.toList_none, List.append_nil]
      rw [offer, decide_eq_true rfl, List.count_append, List.count_singleton_self]
      refine ⟨?_, few⟩
      rw [List.take_succ_eq_append_getElem few, ← List.append_assoc, ← out]
      rfl
    · have offer : yusartIoWriteByteNoBlock s.transmitter (said acts)[s.taken.count true] =
          (-1, s.transmitter) := by
        rw [yusartIoWriteByteNoBlock, if_neg empty]
      rw [offer, decide_eq_false (by decide : ¬ (-1 : Int) = 0), List.count_append,
        List.count_singleton, if_neg (by decide), Nat.add_zero]
      exact ⟨shown, most⟩

/-- The task polls, and there is a byte: what is out is a front of what there is to say from now on. -/
theorem polled_some (sound : s.Sound outside shell before) {byte : UInt8} {rest : List UInt8}
    (here : s.port.buffered = byte :: rest)
    (known : ∀ bytes lines last, Lined bytes lines last →
      ∃ acts, taskTranscript outside shell.lastCmdRet lines = some acts)
    (whole : ∀ lines last acts, Lined s.port.delivered lines last →
      taskTranscript outside shell.lastCmdRet lines = some acts → (said acts).length ≤ s.taken.count true)
    (c data : UInt8) :
    ∃ s', s.polled c data = some s' ∧ s'.Sound outside shell before ∧ s'.taken = s.taken ∧
      s'.transmitter = s.transmitter ∧ s'.port.delivered = s.port.delivered ++ [byte] ∧
      s'.port.buffered = rest := by
  obtain ⟨oldest, received⟩ := sound.received
  rw [received.buffered_eq] at here
  have inside : oldest < s.port.arrivals.length := by
    by_contra outside
    rw [List.drop_eq_nil_of_le (Nat.le_of_not_lt outside)] at here
    cases here
  rw [List.drop_eq_getElem_cons inside, List.cons.injEq] at here
  obtain ⟨port, one, _, delivered, arrivals, got, received'⟩ := received.read_some inside (some c) data
  rw [here.1] at delivered got
  refine ⟨{ s with port := port, heard := s.heard ++ [some byte] }, ?_, ⟨⟨oldest + 1, received'⟩, ?_, ?_⟩,
    rfl, rfl, delivered, ?_⟩
  · rw [SerialShell.polled, got, Option.bind_some, one]
    rfl
  · rw [List.reduceOption_append, sound.heard, delivered]
    rfl
  · intro lines last lined
    obtain ⟨acts, asked⟩ := known _ lines last lined
    refine ⟨acts, asked, ?_⟩
    rw [delivered] at lined
    obtain ⟨lines', last', acts', lined', asked', further⟩ := lined.front known asked
    obtain ⟨acts'', asked'', shown, most⟩ := sound.shown lines' last' lined'
    obtain rfl : acts' = acts'' := Option.some.inj (asked'.symm.trans asked'')
    have all := whole lines' last' acts' lined' asked'
    refine ⟨?_, Nat.le_trans most further.length_le⟩
    rw [shown, List.take_of_length_le all, Nat.le_antisymm most all, ← List.prefix_iff_eq_take.mp further]
  · rw [received'.buffered_eq, arrivals, here.2]

/-- The task polls, and there is no byte. -/
theorem polled_none (sound : s.Sound outside shell before) (here : s.port.buffered = []) (c data : UInt8) :
    s.polled c data = some { s with heard := s.heard ++ [none] } ∧
      SerialShell.Sound outside shell before { s with heard := s.heard ++ [none] } := by
  obtain ⟨oldest, received⟩ := sound.received
  rw [received.buffered_eq, List.drop_eq_nil_iff] at here
  obtain ⟨one, got⟩ := received.read_none (Nat.le_antisymm here received.arrived) (some c) data
  refine ⟨?_, ⟨⟨oldest, received⟩, ?_, sound.shown⟩⟩
  · rw [SerialShell.polled, got, Option.bind_some, one]
    rfl
  · rw [List.reduceOption_append, sound.heard]
    exact List.append_nil _

section Steps

variable (sizes : ∀ k, (frames k).length = cmdlineMaxLength)
  (listed : ∀ n, ∃ rows, cmdTasksInfo (outside n).kernels (outside n).ti = some rows)
  (declared : Declared shell)

include sizes listed declared

/-- **A turn**: the next byte is offered while there is one, and then the task polls. -/
theorem turn (sound : s.Sound outside shell before) (lined : Lined s.port.delivered lines last)
    {acts : List Act} (asked : taskTranscript outside shell.lastCmdRet lines = some acts) (c data : UInt8) :
    ∃ s', s.turn frames outside shell c data = some s' ∧ s'.Sound outside shell before ∧
      s.Turned (said acts) s' := by
  have known := taskTranscript_known sizes listed declared
  -- Whichever way the bytes are lines, the task asks for the same.
  have asks : ∀ lines last acts, Lined s.port.delivered lines last →
      taskTranscript outside shell.lastCmdRet lines = some acts → demand frames outside shell s.heard s.taken =
        some (((said acts)[s.taken.count true]?.map .write).getD .read) := fun lines last acts lined asked => by
    rw [← sound.heard] at lined
    obtain ⟨acts', asked', asks⟩ := demand_eq sizes listed declared lined
    obtain rfl := Option.some.inj (asked.symm.trans asked')
    exact asks s.taken
  have here := asks lines last acts lined asked
  rw [SerialShell.turn, here, Option.bind_some]
  cases next : (said acts)[s.taken.count true]? with
  | some b =>
      refine ⟨_, rfl, sound.offered fun lines last acts lined asked => ?_, .offered b next⟩
      have same := next_of_demand (Option.some.inj ((asks lines last acts lined asked).symm.trans here))
      exact same.trans next
  | none =>
      have whole : ∀ lines last acts, Lined s.port.delivered lines last →
          taskTranscript outside shell.lastCmdRet lines = some acts →
          (said acts).length ≤ s.taken.count true := fun lines last acts lined asked => by
        have same := next_of_demand (Option.some.inj ((asks lines last acts lined asked).symm.trans here))
        exact List.getElem?_eq_none_iff.mp (same.trans next)
      have all := List.getElem?_eq_none_iff.mp next
      cases buffered : s.port.buffered with
      | nil =>
          obtain ⟨polled, sound'⟩ := sound.polled_none buffered c data
          exact ⟨_, polled, sound', .waited all buffered⟩
      | cons byte rest =>
          obtain ⟨s', polled, sound', taken, transmitter, delivered, left⟩ :=
            sound.polled_some buffered known whole c data
          refine ⟨s', polled, sound', .read byte all delivered ?_ taken transmitter⟩
          rw [buffered, left]

/-- **One event**, when the bytes read so far are lines. -/
theorem step (sound : s.Sound outside shell before) (lined : Lined s.port.delivered lines last)
    (event : SerialShellEvent) :
    ∃ s', s.step frames outside shell event = some s' ∧ s'.Sound outside shell before := by
  cases event with
  | isr dr =>
      obtain ⟨port, one, _, sound'⟩ := sound.isr dr
      exact ⟨_, by rw [SerialShell.step, one, Option.map_some], sound'⟩
  | shift => exact ⟨_, rfl, sound.shift⟩
  | turn c data =>
      obtain ⟨acts, asked, _⟩ := sound.shown lines last lined
      obtain ⟨s', one, sound', _⟩ := sound.turn sizes listed declared lined asked c data
      exact ⟨s', one, sound'⟩

/-- What is out, when the bytes read so far are lines. -/
theorem shows (sound : s.Sound outside shell before) (lined : Lined s.port.delivered lines last) :
    ∃ acts shown, taskTranscript outside shell.lastCmdRet lines = some acts ∧
      s.transmitter.line ++ s.transmitter.dr.toList = before ++ shown ∧ shown <+: said acts ∧
      (demand frames outside shell s.heard s.taken = some .read → shown = said acts) := by
  obtain ⟨acts, asked, taken, most⟩ := sound.shown lines last lined
  refine ⟨acts, _, asked, taken, List.take_prefix _ _, fun polls => ?_⟩
  rw [← sound.heard] at lined
  obtain ⟨acts', asked', asks⟩ := demand_eq sizes listed declared lined
  obtain rfl := Option.some.inj (asked.symm.trans asked')
  refine List.take_of_length_le (List.getElem?_eq_none_iff.mp ?_)
  exact next_of_demand (Option.some.inj ((asks s.taken).symm.trans polls) : _ = (none.map _).getD _)

end Steps

end SerialShell.Sound

section Runs

variable {frames : Nat → List UInt8} {outside : Nat → Outside} {shell : Shell} {s s' : SerialShell}
  {rb : YRingBuffer} {block : List UInt8} {transmitter : Transmitter} {events : List SerialShellEvent}
  {lines : List (List UInt8)} {last : List UInt8}

/-- What an event is for the receive path is what happens to it. -/
theorem portEvents_run {event : SerialShellEvent} (one : s.step frames outside shell event = some s') :
    runEvents Port.step s.port (s.portEvents frames outside shell event) = some s'.port := by
  cases event with
  | isr dr =>
      obtain ⟨port, arrived, rfl⟩ := Option.map_eq_some_iff.mp one
      exact runEvents_cons.mpr ⟨port, arrived, rfl⟩
  | shift =>
      cases one
      rfl
  | turn c data =>
      obtain ⟨asked, asks, one⟩ := Option.bind_eq_some_iff.mp one
      rw [SerialShell.portEvents, asks]
      cases asked with
      | write b =>
          cases one
          rfl
      | read =>
          obtain ⟨got, _, one⟩ := Option.bind_eq_some_iff.mp one
          obtain ⟨port, read, rfl⟩ := Option.map_eq_some_iff.mp one
          exact runEvents_cons.mpr ⟨port, read, rfl⟩

/-- What has been read stays read. -/
theorem portStep_delivered {port port' : Port} {event : PortEvent} (one : port.step event = some port') :
    port.delivered <+: port'.delivered := by
  cases event with
  | isr dr =>
      cases dr <;>
      · simp only [Port.step] at one
        obtain ⟨rb, _, rfl⟩ := Option.map_eq_some_iff.mp one
        exact List.prefix_refl _
  | read b data =>
      obtain ⟨⟨received, byte, rb⟩, _, same⟩ := Option.map_eq_some_iff.mp one
      dsimp only at same
      split at same
      · cases same
        exact List.prefix_append _ _
      · cases same
        exact List.prefix_refl _

theorem step_delivered {event : SerialShellEvent} (one : s.step frames outside shell event = some s') :
    s.port.delivered <+: s'.port.delivered :=
  runEvents_invariant (fun port => s.port.delivered <+: port.delivered)
    (fun _ _ _ before one => before.trans (portStep_delivered one)) (List.prefix_refl _) (portEvents_run one)

/-- The receive path on its own. -/
theorem serialShell_port (start : serialShellStart rb block transmitter = some s)
    (run : runEvents (SerialShell.step frames outside shell) s events = some s') :
    portRun rb block
      (emitted (SerialShell.step frames outside shell) (SerialShell.portEvents frames outside shell) s events) =
        some s'.port := by
  obtain ⟨port, init, rfl⟩ := Option.map_eq_some_iff.mp start
  refine emitted_history (SerialShell.portEvents frames outside shell)
    (fun now past => portRun rb block past = some now.port) (fun now past event next reached one => ?_) init run
  obtain ⟨ready, begun, before⟩ := Option.bind_eq_some_iff.mp reached
  rw [portRun, begun, Option.bind_some]
  exact runEvents_append.mpr ⟨now.port, before, portEvents_run one⟩

/-- After any events, if the bytes read are lines. -/
theorem serialShell_sound (size : block.length = yusartReceiveBufferSizeByte)
    (sizes : ∀ k, (frames k).length = cmdlineMaxLength)
    (listed : ∀ n, ∃ rows, cmdTasksInfo (outside n).kernels (outside n).ti = some rows)
    (declared : Declared shell) (start : serialShellStart rb block transmitter = some s)
    (run : runEvents (SerialShell.step frames outside shell) s events = some s')
    (lined : Lined s'.port.delivered lines last) : s'.Sound outside shell transmitter.taken := by
  induction events using List.reverseRecOn generalizing s' lines last with
  | nil =>
      rw [runEvents_nil, Option.some.injEq] at run
      subst run
      obtain ⟨port, init, rfl⟩ := Option.map_eq_some_iff.mp start
      obtain ⟨port', history⟩ := History.init rb size
      obtain rfl := Option.some.inj (init.symm.trans history.reached)
      have nothing : port.delivered = [] := List.eq_nil_of_sublist_nil history.received.order
      refine ⟨⟨0, history.received⟩, nothing.symm, fun lines last lined => ?_⟩
      rw [nothing] at lined
      obtain ⟨acts, asked⟩ := taskTranscript_known sizes listed declared _ lines last lined
      exact ⟨acts, asked, (List.append_nil _).symm, Nat.zero_le _⟩
  | append_singleton events event ih =>
      obtain ⟨middle, before, one⟩ := runEvents_append.mp run
      obtain ⟨next, step, same⟩ := runEvents_cons.mp one
      rw [runEvents_nil, Option.some.injEq] at same
      subst same
      obtain ⟨more, further⟩ := step_delivered step
      rw [← further] at lined
      have known := taskTranscript_known sizes listed declared
      obtain ⟨acts, asked⟩ := known _ lines last lined
      obtain ⟨lines', last', _, lined', _⟩ := lined.front known asked
      obtain ⟨after, step', sound⟩ := (ih before lined').step sizes listed declared lined' event
      rwa [Option.some.inj (step.symm.trans step')]

end Runs

/-! ### Rounds in which everything is answered -/

def SerialShellEvent.isShift : SerialShellEvent → Bool
  | .shift => true
  | .isr _ | .turn _ _ => false

def SerialShellEvent.isTurn : SerialShellEvent → Bool
  | .turn _ _ => true
  | .isr _ | .shift => false

/-- Nothing arrives, a byte leaves, and then the task gets a turn. -/
structure Serving (round : List SerialShellEvent) : Prop where
  quiet : ∀ event ∈ round, event.isShift || event.isTurn
  served : (round.dropWhile fun event => !event.isShift).tail.any SerialShellEvent.isTurn = true

/-- What there is left to say and to read. -/
def SerialShell.left (text : List UInt8) (s : SerialShell) : Nat :=
  text.length - s.taken.count true + s.port.buffered.length

/-- All these bytes are read or in the buffer. -/
structure SerialShell.Settling (outside : Nat → Outside) (shell : Shell) (before bytes : List UInt8)
    (s : SerialShell) : Prop where
  sound : s.Sound outside shell before
  rest : s.port.delivered ++ s.port.buffered = bytes

section Settling

variable {frames : Nat → List UInt8} {outside : Nat → Outside} {shell : Shell} {s s' : SerialShell}
  {before bytes : List UInt8} {lines : List (List UInt8)} {last : List UInt8} {acts : List Act}

section Rounds

variable (sizes : ∀ k, (frames k).length = cmdlineMaxLength)
  (listed : ∀ n, ∃ rows, cmdTasksInfo (outside n).kernels (outside n).ti = some rows)
  (declared : Declared shell) (lined : Lined bytes lines last)
  (asked : taskTranscript outside shell.lastCmdRet lines = some acts)

include sizes listed declared lined asked

/-- **A turn gets on** unless the register is full or nothing is left. -/
theorem settling_turn (settling : s.Settling outside shell before bytes) (c data : UInt8) :
    ∃ s', s.turn frames outside shell c data = some s' ∧ s'.Settling outside shell before bytes ∧
      s'.left (said acts) ≤ s.left (said acts) ∧
      (s.transmitter.dr = none → s'.left (said acts) ≤ s.left (said acts) - 1) := by
  obtain ⟨sound, rest⟩ := settling
  -- The lines that have been read, which are all of them if nothing is in the buffer.
  obtain ⟨lines', last', acts', lined', asked', further, all⟩ : ∃ lines' last' acts',
      Lined s.port.delivered lines' last' ∧ taskTranscript outside shell.lastCmdRet lines' = some acts' ∧
        said acts' <+: said acts ∧ (s.port.buffered = [] → acts' = acts) := by
    by_cases nothing : s.port.buffered = []
    · rw [nothing, List.append_nil] at rest
      exact ⟨lines, last, acts, rest ▸ lined, asked, List.prefix_refl _, fun _ => rfl⟩
    · rw [← rest] at lined
      obtain ⟨lines', last', acts', front⟩ :=
        lined.front (taskTranscript_known sizes listed declared) asked
      exact ⟨lines', last', acts', front.1, front.2.1, front.2.2, fun empty => absurd empty nothing⟩
  obtain ⟨s', one, sound', turned⟩ := sound.turn sizes listed declared lined' asked' c data
  refine ⟨s', one, ⟨sound', ?_⟩, ?_⟩
  · cases turned with
    | offered b next => exact rest
    | read byte whole delivered buffered taken transmitter =>
        rw [delivered, List.append_assoc, List.singleton_append, ← buffered, rest]
    | waited whole nothing => exact rest
  · cases turned with
    | offered b next =>
        obtain ⟨few, _⟩ := List.getElem?_eq_some_iff.mp next
        have most := further.length_le
        have same : (s.offered b).left (said acts) =
            (said acts).length - (s.taken.count true +
              [decide ((yusartIoWriteByteNoBlock s.transmitter b).1 = 0)].count true) +
              s.port.buffered.length := by
          rw [SerialShell.left, SerialShell.offered, List.count_append]
        rw [same, SerialShell.left]
        refine ⟨by omega, fun empty => ?_⟩
        rw [yusartIoWriteByteNoBlock, if_pos empty, decide_eq_true rfl, List.count_singleton_self]
        omega
    | read byte whole delivered buffered taken transmitter =>
        rw [SerialShell.left, SerialShell.left, taken, buffered, List.length_cons]
        exact ⟨by omega, fun _ => by omega⟩
    | waited whole nothing =>
        rw [all nothing] at whole
        have none : s.left (said acts) = 0 := by
          rw [SerialShell.left, nothing, Nat.sub_eq_zero_of_le whole]
          rfl
        exact ⟨Nat.le_refl _, fun _ => none.le.trans (Nat.zero_le _)⟩

/-- Every event of a round gets on or changes nothing. -/
theorem settling_step (settling : s.Settling outside shell before bytes) {event : SerialShellEvent}
    (inside : event.isShift || event.isTurn) :
    ∃ s', s.step frames outside shell event = some s' ∧ s'.Settling outside shell before bytes ∧
      s'.left (said acts) ≤ s.left (said acts) ∧ (event.isShift = true → s'.transmitter.dr = none) ∧
      (s.transmitter.dr = none → if event.isTurn then s'.left (said acts) ≤ s.left (said acts) - 1
        else s'.transmitter.dr = none) := by
  cases event with
  | isr dr => exact absurd inside Bool.false_ne_true
  | shift =>
      exact ⟨_, rfl, ⟨settling.sound.shift, settling.rest⟩, Nat.le_refl _, fun _ => rfl, fun _ => rfl⟩
  | turn c data =>
      obtain ⟨s', one, settling', falls, empty⟩ :=
        settling_turn sizes listed declared lined asked settling c data
      exact ⟨s', one, settling', falls, fun shift => absurd shift Bool.false_ne_true, empty⟩

/-- After enough rounds nothing is left. -/
theorem settling_rounds (settling : s.Settling outside shell before bytes)
    {rounds : List (List SerialShellEvent)} (serving : ∀ round ∈ rounds, Serving round)
    (enough : s.left (said acts) ≤ rounds.length) :
    ∃ final, runEvents (SerialShell.step frames outside shell) s rounds.flatten = some final ∧
      final.Settling outside shell before bytes ∧ final.left (said acts) = 0 := by
  have goes : ∀ (now : SerialShell) (event : SerialShellEvent) (next : SerialShell),
      now.Settling outside shell before bytes → (event.isShift || event.isTurn) = true →
        now.step frames outside shell event = some next →
          next.Settling outside shell before bytes ∧ next.left (said acts) ≤ now.left (said acts) ∧
          (event.isShift = true → next.transmitter.dr = none) ∧
          (now.transmitter.dr = none → if event.isTurn then next.left (said acts) ≤ now.left (said acts) - 1
            else next.transmitter.dr = none) := by
    intro now event next settling inside one
    obtain ⟨next', one', rest⟩ := settling_step sizes listed declared lined asked settling inside
    obtain rfl := Option.some.inj (one.symm.trans one')
    exact rest
  have quiet : ∀ event ∈ rounds.flatten, (event.isShift || event.isTurn) = true := fun event member => by
    obtain ⟨round, inRounds, inRound⟩ := List.mem_flatten.mp member
    exact (serving round inRounds).quiet event inRound
  obtain ⟨final, run, settling'⟩ := runEvents_exists
    (fun now : SerialShell => now.Settling outside shell before bytes)
    (fun now event settling inside => by
      obtain ⟨next, one, settling', _⟩ := settling_step sizes listed declared lined asked settling inside
      exact ⟨next, one, settling'⟩) settling quiet
  have blocks := run
  rw [← runEvents_blocks] at blocks
  obtain ⟨_, most⟩ := runEvents_measure (SerialShell.left (said acts))
    (fun now : SerialShell => now.Settling outside shell before bytes)
    (fun now round next settling serves one =>
      ⟨(runEvents_falls goes settling serves.quiet one).1,
        runEvents_served goes settling serves.quiet serves.served one⟩)
    settling (eachStep_of_forall s serving) blocks
  exact ⟨final, run, settling', by omega⟩

/-- **Where nothing is left** all is read, the whole transcript is out, and the task polls. -/
theorem settling_polls (settling : s.Settling outside shell before bytes) (nothing : s.left (said acts) = 0) :
    s.port.delivered = bytes ∧ s.transmitter.taken = before ++ said acts ∧
      demand frames outside shell s.heard s.taken = some .read := by
  rw [SerialShell.left, Nat.add_eq_zero_iff, List.length_eq_zero_iff, Nat.sub_eq_zero_iff_le] at nothing
  have whole : s.port.delivered = bytes := by
    rw [← settling.rest, nothing.2, List.append_nil]
  subst whole
  obtain ⟨acts', asked', shown, _⟩ := settling.sound.shown lines last lined
  obtain rfl := Option.some.inj (asked.symm.trans asked')
  rw [List.take_of_length_le nothing.1] at shown
  refine ⟨rfl, shown, ?_⟩
  rw [← settling.sound.heard] at lined
  obtain ⟨acts'', asked'', asks⟩ := demand_eq sizes listed declared lined
  obtain rfl := Option.some.inj (asked.symm.trans asked'')
  rw [asks, List.getElem?_eq_none nothing.1]
  rfl

end Rounds

end Settling

/-! ### An empty line -/

/-- A shell with empty buffers. -/
def sampleShell : Shell := ⟨List.replicate 256 0, List.replicate 10 0, 0⟩

def sampleShellStart : Option SerialShell :=
  serialShellStart ⟨none, 0, 0, 0, 0⟩ (List.replicate 256 0) ⟨none, []⟩

def sampleShellStep : SerialShell → SerialShellEvent → Option SerialShell :=
  SerialShell.step (fun _ => List.replicate 256 0) (fun _ => sampleOutside) sampleShell

/-- What the sample shell asks for. -/
def sampleShellDemand (s : SerialShell) : Option Demand :=
  demand (fun _ => List.replicate 256 0) (fun _ => sampleOutside) sampleShell s.heard s.taken

/-- The task gets a turn after each byte that leaves. -/
def sampleRounds : List (List SerialShellEvent) := List.replicate 200 [.shift, .turn 0 0]

/-- What the shell says before and after an empty line. -/
def sampleAnswer : List UInt8 :=
  ascii "\nSTM32 cmdline started.\nInput [help] to show all available commands,\n" ++
    ascii "or [exit] to exit STM32 cmdline.\nSTM32> STM32> "

theorem sampleShell_declared : Declared sampleShell := ⟨List.length_replicate, List.length_replicate⟩

theorem sampleRounds_serving : ∀ round ∈ sampleRounds, Serving round := by
  intro round member
  rw [List.eq_of_mem_replicate member]
  exact ⟨by decide, by decide⟩

theorem sampleAnswer_said {acts : List Act}
    (asked : taskTranscript (fun _ => sampleOutside) 0 [[]] = some acts) : said acts = sampleAnswer := by
  have answer : (taskTranscript (fun _ => sampleOutside) 0 [[]]).map said = some sampleAnswer := by
    decide +kernel
  rwa [asked, Option.map_some, Option.some.injEq] at answer

/-- No byte at all. -/
theorem lined_nothing {bytes : List UInt8} (none : bytes = []) : Lined bytes [] [] where
  bytes := none
  fits := fun _ member => absurd member List.not_mem_nil
  short := by decide
  unended := List.not_mem_nil

/-- An empty line and nothing more. -/
theorem lined_emptyLine {bytes : List UInt8} (one : bytes = [10]) : Lined bytes [[]] [] where
  bytes := one
  fits := List.forall_mem_singleton.mpr ⟨by decide, List.not_mem_nil, List.not_mem_nil⟩
  short := by decide
  unended := List.not_mem_nil

/-- An empty line comes in. -/
theorem sampleShell_arrived :
    ∃ s now, sampleShellStart = some s ∧ runEvents sampleShellStep s [.isr (some 10)] = some now ∧
      now.port.delivered = [] ∧ now.port.buffered = [10] ∧ now.taken = [] := by
  have ran : ((sampleShellStart.bind fun s => runEvents sampleShellStep s [.isr (some 10)]).map fun now =>
      (now.port.delivered, now.port.buffered, now.taken)) = some ([], [10], []) := by
    decide +kernel
  obtain ⟨now, run, seen⟩ := Option.map_eq_some_iff.mp ran
  obtain ⟨s, start, run⟩ := Option.bind_eq_some_iff.mp run
  obtain ⟨unread, seen⟩ := Prod.mk.inj seen
  obtain ⟨waiting, silent⟩ := Prod.mk.inj seen
  exact ⟨s, now, start, run, unread, waiting, silent⟩

/-- The sample shell when an empty line has come in: in the rounds it reads it and polls again. -/
theorem sampleShell_emptyLine {s : SerialShell} {before : List UInt8}
    (sound : s.Sound (fun _ => sampleOutside) sampleShell before)
    (arrived : s.port.delivered ++ s.port.buffered = [10]) (silent : s.taken = []) :
    ∃ final, runEvents sampleShellStep s sampleRounds.flatten = some final ∧
      final.port.delivered = [10] ∧ sampleShellDemand final = some .read := by
  have declared := sampleShell_declared
  have sizes : ∀ k, ((fun _ => List.replicate 256 0 : Nat → List UInt8) k).length = cmdlineMaxLength :=
    fun _ => List.length_replicate
  have listed := fun _ : Nat => sampleOutside_fromRuns.listed
  have lined : Lined [10] [[]] [] := lined_emptyLine rfl
  obtain ⟨acts, asked⟩ := taskTranscript_known sizes listed declared _ _ _ lined
  have few : s.port.buffered.length ≤ 1 := by
    have count := congrArg List.length arrived
    rw [List.length_append] at count
    exact Nat.le_of_add_left_le count.le
  have short : (said acts).length ≤ 199 := by
    rw [sampleAnswer_said asked]
    decide +kernel
  have enough : s.left (said acts) ≤ sampleRounds.length := by
    rw [SerialShell.left, silent, sampleRounds, List.length_replicate]
    exact Nat.add_le_add short few
  obtain ⟨final, run, settling, nothing⟩ :=
    settling_rounds sizes listed declared lined asked ⟨sound, arrived⟩ sampleRounds_serving enough
  obtain ⟨read, -, polls⟩ := settling_polls sizes listed declared lined asked settling nothing
  exact ⟨final, run, read, polls⟩

/-! ### What is out -/

section Shows

variable {frames : Nat → List UInt8} {outside : Nat → Outside} {shell : Shell} {s s' : SerialShell}
  {rb : YRingBuffer} {block : List UInt8} {transmitter : Transmitter} {events : List SerialShellEvent}
  {lines : List (List UInt8)} {last : List UInt8}

/-- **What is out is a front of the transcript.** In any interleaving of arrivals, of the port moving bytes
out and of turns of the task, with any buffers, `_last_cmd_ret` and moments of the kernel that `ts` sees:
when the bytes that have been read are lines and a part of one more, all that the port has taken of the task
is a front of the transcript of these lines, and the whole transcript when the task polls; the task can
always go on; and when there are never more unread bytes than the buffer has room for, the bytes read are a
front of those that have arrived. -/
theorem serialShell_shows {image : Image} {mem : WordMemory} {lives : Nat → Nat → List LifeEvent}
    (size : block.length = yusartReceiveBufferSizeByte)
    (sizes : ∀ k, (frames k).length = cmdlineMaxLength)
    (found : ∀ n, (outside n).FromRuns image mem (lives n)) (declared : Declared shell)
    (start : serialShellStart rb block transmitter = some s)
    (run : runEvents (SerialShell.step frames outside shell) s events = some s')
    (lined : Lined s'.port.delivered lines last) :
    ∃ acts shown, taskTranscript outside shell.lastCmdRet lines = some acts ∧
      s'.transmitter.line ++ s'.transmitter.dr.toList = transmitter.taken ++ shown ∧
      shown <+: said acts ∧
      (demand frames outside shell s'.heard s'.taken = some .read → shown = said acts) ∧
      (∀ event, ∃ next, s'.step frames outside shell event = some next) ∧
      (NeverOver rb block (emitted (SerialShell.step frames outside shell)
        (SerialShell.portEvents frames outside shell) s events) → s'.port.delivered <+: s'.port.arrivals) := by
  have listed := fun n => (found n).listed
  have sound := serialShell_sound size sizes listed declared start run lined
  obtain ⟨acts, shown, asked, taken, front, polls⟩ := sound.shows sizes listed declared lined
  refine ⟨acts, shown, asked, taken, front, polls, fun event => ?_, fun never => ?_⟩
  · obtain ⟨next, one, _⟩ := sound.step sizes listed declared lined event
    exact ⟨next, one⟩
  · obtain ⟨port, oldest, history⟩ := History.run rb size (emitted (SerialShell.step frames outside shell)
      (SerialShell.portEvents frames outside shell) s events)
    obtain rfl := Option.some.inj (history.reached.symm.trans (serialShell_port start run))
    have inv := history.received
    have count : s'.port.delivered.length = (s'.port.arrivals.take oldest).length := by
      rw [inv.delivered_length, history.nothingLost never, List.length_range,
        List.length_take_of_le inv.arrived]
    rw [inv.order.eq_of_length count]
    exact List.take_prefix oldest _

end Shows

theorem serialShell_shows_emptyLine :
    ∃ s s' acts, sampleShellStart = some s ∧
      runEvents sampleShellStep s (.isr (some 10) :: sampleRounds.flatten) = some s' ∧
      taskTranscript (fun _ => sampleOutside) 0 [[]] = some acts ∧ s'.port.delivered = [10] ∧
      sampleShellDemand s' = some .read ∧ said acts = sampleAnswer ∧
      s'.transmitter.line ++ s'.transmitter.dr.toList = sampleAnswer ∧
      ∃ next, sampleShellStep s' (.turn 0 0) = some next := by
  obtain ⟨s, now, start, here, unread, waiting, silent⟩ := sampleShell_arrived
  have sound := serialShell_sound List.length_replicate (fun _ => List.length_replicate)
    (fun _ => sampleOutside_fromRuns.listed) sampleShell_declared start here (lined_nothing unread)
  obtain ⟨s', rest, read, polls⟩ :=
    sampleShell_emptyLine sound (by rw [unread, waiting, List.nil_append]) silent
  have run : runEvents sampleShellStep s (.isr (some 10) :: sampleRounds.flatten) = some s' :=
    runEvents_append.mpr ⟨now, here, rest⟩
  obtain ⟨acts, shown, asked, out, -, whole, goes, -⟩ := serialShell_shows List.length_replicate
    (fun _ => List.length_replicate) (fun _ => sampleOutside_fromRuns) sampleShell_declared start run
    (lined_emptyLine read)
  have text := sampleAnswer_said asked
  rw [whole polls, text] at out
  exact ⟨s, s', acts, start, run, asked, read, polls, text, out, goes _⟩

/-! ### Every line is answered -/

section Answers

variable {frames : Nat → List UInt8} {outside : Nat → Outside} {shell : Shell} {s s' : SerialShell}
  {lines : List (List UInt8)} {last : List UInt8}

/-- **Every line is answered.** After any run, let the bytes that have been read and those in the buffer be
lines and a part of one more. In as many rounds as there are bytes of the transcript and in the buffer, in
each of which nothing arrives, a byte leaves and then the task gets a turn, all of the buffer is read, all of
the transcript goes out, and the task polls again. -/
theorem serialShell_answers {image : Image} {mem : WordMemory} {lives : Nat → Nat → List LifeEvent}
    {rb : YRingBuffer} {block : List UInt8} {transmitter : Transmitter} {events : List SerialShellEvent}
    (size : block.length = yusartReceiveBufferSizeByte)
    (sizes : ∀ k, (frames k).length = cmdlineMaxLength)
    (found : ∀ n, (outside n).FromRuns image mem (lives n)) (declared : Declared shell)
    (start : serialShellStart rb block transmitter = some s)
    (run : runEvents (SerialShell.step frames outside shell) s events = some s')
    (lined : Lined (s'.port.delivered ++ s'.port.buffered) lines last) :
    ∃ acts, taskTranscript outside shell.lastCmdRet lines = some acts ∧
      ∀ rounds : List (List SerialShellEvent), (∀ round ∈ rounds, Serving round) →
        (said acts).length + s'.port.buffered.length ≤ rounds.length →
          ∃ final, runEvents (SerialShell.step frames outside shell) s' rounds.flatten = some final ∧
            final.port.delivered = s'.port.delivered ++ s'.port.buffered ∧
            final.transmitter.line ++ final.transmitter.dr.toList = transmitter.taken ++ said acts ∧
            demand frames outside shell final.heard final.taken = some .read := by
  have listed := fun n => (found n).listed
  have known := taskTranscript_known sizes listed declared
  obtain ⟨acts, asked⟩ := known _ lines last lined
  obtain ⟨_, _, _, lined', _⟩ := lined.front known asked
  have settling : s'.Settling outside shell transmitter.taken (s'.port.delivered ++ s'.port.buffered) :=
    ⟨serialShell_sound size sizes listed declared start run lined', rfl⟩
  refine ⟨acts, asked, fun rounds serving enough => ?_⟩
  obtain ⟨final, run', settling', nothing⟩ := settling_rounds sizes listed declared lined asked settling
    serving (Nat.le_trans (Nat.add_le_add_right (Nat.sub_le _ _) _) enough)
  obtain ⟨read, shown, polls⟩ := settling_polls sizes listed declared lined asked settling' nothing
  exact ⟨final, run', read, shown, polls⟩

end Answers

theorem serialShell_answers_emptyLine :
    ∃ s s' final, sampleShellStart = some s ∧ runEvents sampleShellStep s [.isr (some 10)] = some s' ∧
      runEvents sampleShellStep s' sampleRounds.flatten = some final ∧
      final.transmitter.line ++ final.transmitter.dr.toList = sampleAnswer ∧
      sampleShellDemand final = some .read := by
  obtain ⟨s, s', start, run, unread, waiting, -⟩ := sampleShell_arrived
  have bytes : s'.port.delivered ++ s'.port.buffered = [10] := by
    rw [unread, waiting, List.nil_append]
  obtain ⟨acts, asked, answers⟩ := serialShell_answers List.length_replicate
    (fun _ => List.length_replicate) (fun _ => sampleOutside_fromRuns) sampleShell_declared start run
    (lined_emptyLine bytes)
  have text := sampleAnswer_said asked
  have enough : (said acts).length + s'.port.buffered.length ≤ sampleRounds.length := by
    rw [text, waiting, sampleRounds, List.length_replicate]
    decide +kernel
  obtain ⟨final, run', _, out, polls⟩ := answers _ sampleRounds_serving enough
  exact ⟨s, s', final, start, run, run', by rw [out, text]; rfl, polls⟩

end YosStm32.Main
