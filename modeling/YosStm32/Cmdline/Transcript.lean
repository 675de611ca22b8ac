/-
**The whole shell, with what it prints** (`do_cmdline` in `cmdline.c`).

`talk` is `do_cmdline` with its messages: the banner, the prompt before each line, and what the command of
a line prints. When the port stops taking bytes the task stays in that call for good. Whatever the ports
deliver and take, whatever lies in the buffers, and whatever the commands find outside, what is printed is
the transcript of the lines, or its front when the port stops (`doCmdline_transcript`); and as long as the
port goes on, `do_cmdline` without its messages does the same.
-/

import YosStm32.Cmdline.Rendering
import YosStm32.Cmdline.TasksInfo

namespace YosStm32.Cmdline

open Lib BasicIo

/-! ### The messages of `do_cmdline` -/

/-- `CMDLINE_NAME`. -/
def cmdlineName : List UInt8 := ascii "STM32"

/-- `CMDLINE_MARK`. -/
def cmdlineMark : List UInt8 := ascii "> "

/-- What `do_cmdline` starts with. -/
def banner : List Act :=
  [.printf (ascii "\n%s cmdline started.\n") [.str cmdlineName],
    .printf (ascii "Input [%s] to show all available commands,\n") [.str cmdlineHelpCmdName],
    .printf (ascii "or [%s] to exit %s cmdline.\n") [.str cmdlineExitCmdName, .str cmdlineName]]

/-- What is printed before a line is read. -/
def prompt : Act := .printf (ascii "%s%s") [.str cmdlineName, .str cmdlineMark]

/-- What is printed when no line can be read. -/
def readError : Act := .printf (ascii "\n* ERROR occured on reading cmdline, exit.*\n") []

/-- What `_do_cmds` prints when there is no such command. -/
def notFound (name : List UInt8) : Act :=
  .printf (ascii "Command %s not found\nEnter [%s] to see all supported commands\n")
    [.str name, .str cmdlineHelpCmdName]

/-! ### The loop -/

/-- `_do_cmds`, with what it prints. -/
def sayCmds (frames : Nat → List UInt8) (outside : Outside) (shell : Shell) (argc : Nat)
    (console : Console) : Option (Int × Shell × Option Call × Console) :=
  if argc ≤ 0 then some (1, shell, none, console)
  else shell.argv[0]?.bind fun offset =>
    (findCmdItemByName (some (shell.cmdline.drop offset))).bind fun item =>
      match item with
      | some item =>
          match item.func with
          | some func => (shell.args argc).bind fun argv =>
              (func.run outside argv shell.lastCmdRet).bind fun (ret, acts) =>
                (console.perform frames acts).map fun console =>
                  (if func = .cmdExit then 0 else 1, { shell with lastCmdRet := ret },
                    some ⟨func, argv, shell.lastCmdRet⟩, console)
          | none => some (1, shell, none, console)
      | none => (cString (shell.cmdline.drop offset)).bind fun name =>
          (console.perform frames [notFound name]).map fun console => (1, shell, none, console)

/-- What the shell has done: a session, and what the console shows. -/
structure Talk where
  session : Session
  console : Console
  deriving DecidableEq, Repr

/-- One more line, handled before. -/
def Talk.after (call : Option Call) (talk : Talk) : Talk :=
  { talk with session := talk.session.after call }

/-- The loop of `do_cmdline`; `outside n` is what the command of line `n` finds. In a call that the port
blocks the loop stays. -/
def talkLoop (frames : Nat → List UInt8) (outside : Nat → Outside) :
    (fuel : Nat) → (n : Nat) → Shell → Answers → Console → Option Talk
  | 0, _, _, _, _ => none
  | fuel + 1, n, shell, answers, console =>
      (console.perform frames [prompt]).bind fun console =>
        if console.printing.port = none then some ⟨⟨shell, [], none⟩, console⟩
        else
          (basicIoReadline (some shell.cmdline) cmdlineMaxLength answers).bind fun read =>
            match read with
            | .waiting _ buf => some ⟨⟨{ shell with cmdline := buf }, [], none⟩, console⟩
            | .returned result buf left =>
                if result ≥ 0 then
                  buf.bind fun buf => (makeArgs buf shell.argv).bind fun args =>
                    let shell := { shell with cmdline := args.cmdline, argv := args.argv }
                    (sayCmds frames (outside n) shell args.argc console).bind
                      fun (cmdFlag, after, call, console) =>
                        if console.printing.port = none then some ⟨⟨shell, [call], none⟩, console⟩
                        else if cmdFlag ≠ 0 then
                          (talkLoop frames outside fuel (n + 1) after left console).map (Talk.after call)
                        else some ⟨⟨after, [call], some left⟩, console⟩
                else
                  (console.perform frames [readError]).map fun console =>
                    ⟨⟨shell, [], if console.printing.port = none then none else some left⟩, console⟩

/-- `do_cmdline`, with what it prints; its first line is line `n`. -/
def talk (frames : Nat → List UInt8) (outside : Nat → Outside) (n : Nat) (shell : Shell)
    (answers : Answers) (console : Console) : Option Talk :=
  (console.perform frames banner).bind fun console =>
    if console.printing.port = none then some ⟨⟨shell, [], none⟩, console⟩
    else talkLoop frames outside (answers.length + 1) n shell answers console

/-! ### The specification -/

/-- What is done for a line. -/
def lineActs (outside : Outside) (last : Int) (line : List UInt8) : Option (List Act) :=
  match lineCall last line with
  | some call => (call.func.run outside call.argv call.lastCmdRet).map Prod.snd
  | none => some ((lineArgs line).head?.toList.map notFound)

/-- The acts for the lines from the `n`-th one on: before each one a prompt, and a last prompt unless a
line has asked for `exit`. -/
def lineTalk (outside : Nat → Outside) : (n : Nat) → (last : Int) → List (List UInt8) → Option (List Act)
  | _, _, [] => some [prompt]
  | n, last, line :: lines =>
      (lineActs (outside n) last line).bind fun acts =>
        (if IsExit line then some []
          else lineTalk outside (n + 1) (retAfter last (lineCall last line)) lines).map fun more =>
            prompt :: (acts ++ more)

/-- What the shell does from its start on. -/
def transcript (outside : Nat → Outside) (n : Nat) (last : Int) (lines : List (List UInt8)) :
    Option (List Act) :=
  (lineTalk outside n last lines).map (banner ++ ·)

/-! ### One line -/

section Line

variable {outside : Outside} {line : List UInt8}

theorem prompt_formed : ∀ act ∈ [prompt], act.Formed := by decide +kernel

theorem banner_formed : ∀ act ∈ banner, act.Formed := by decide +kernel

theorem notFound_formed {name : List UInt8} (clean : 0 ∉ name) : ∀ act ∈ [notFound name], act.Formed :=
  List.forall_mem_singleton.mpr (printf_formed [true, true] (by decide) rfl
    (List.forall_mem_cons.mpr ⟨clean, by decide⟩))

/-- **What is done for a line**: the acts of its command, or the message that there is none. -/
theorem sayCmds_line (frames : Nat → List UInt8) (shell : Shell) {argc : Nat}
    (count : argc = (lineArgs line).length)
    (strings : (shell.argv.take argc).map (fun offset => cString (shell.cmdline.drop offset)) =
      (lineArgs line).map some)
    (listed : ∃ rows, cmdTasksInfo outside.kernels outside.ti = some rows) :
    ∃ acts, lineActs outside shell.lastCmdRet line = some acts ∧ (∀ act ∈ acts, act.Formed) ∧
      ∀ console : Console, sayCmds frames outside shell argc console =
        (console.perform frames acts).map fun console =>
          (if IsExit line then 0 else 1,
            { shell with lastCmdRet := retAfter shell.lastCmdRet (lineCall shell.lastCmdRet line) },
            lineCall shell.lastCmdRet line, console) := by
  have args : shell.args argc = some (lineArgs line) := mapM_of_map strings
  have exits : lookup (lineArgs line) = some .cmdExit ↔ IsExit line := lookup_exit
  have clean : ∀ arg ∈ lineArgs line, 0 ∉ arg := by
    intro arg member
    obtain ⟨offset, _, reads⟩ := List.mem_map.mp (strings ▸ List.mem_map_of_mem member : some arg ∈ _)
    exact cString_clean reads
  rw [lineActs, lineCall]
  generalize lineArgs line = given at *
  cases given with
  | nil =>
      have goesOn : ¬ IsExit line := fun isExit => absurd (exits.mpr isExit) (Option.some_ne_none _).symm
      have none : argc ≤ 0 := Nat.le_of_eq count
      refine ⟨[], rfl, fun _ member => absurd member List.not_mem_nil, fun console => ?_⟩
      rw [sayCmds, if_pos none, if_neg goesOn]
      rfl
  | cons name others =>
      have positive : 0 < argc := by
        rw [count]
        exact Nat.succ_pos _
      obtain ⟨offset, place, string⟩ : ∃ offset, shell.argv[0]? = some offset ∧
          cString (shell.cmdline.drop offset) = some name := by
        have first := congrArg (·[0]?) strings
        simpa [List.getElem?_take_of_lt positive] using first
      have found : findCmdItemByName (some (shell.cmdline.drop offset)) = some (findCmd name) := by
        rw [findCmdItemByName, string]
        rfl
      have same : lookup (name :: others) = (findCmd name).bind CmdInfo.func := rfl
      rw [same] at exits ⊢
      have noCmd (absent : findCmd name = none) : ∃ acts,
          (some ((name :: others).head?.toList.map notFound) : Option (List Act)) = some acts ∧
          (∀ act ∈ acts, act.Formed) ∧ ∀ console : Console, sayCmds frames outside shell argc console =
            (console.perform frames acts).map fun console =>
              (if IsExit line then 0 else 1, shell, none, console) := by
        rw [absent] at exits
        have goesOn : ¬ IsExit line := fun isExit => absurd (exits.mpr isExit) (Option.some_ne_none _).symm
        refine ⟨[notFound name], rfl, notFound_formed (clean name (List.mem_cons_self ..)), fun console => ?_⟩
        rw [sayCmds, if_neg (Nat.not_le.mpr positive), place, Option.bind_some, found, absent,
          Option.bind_some]
        simp only [string, Option.bind_some, if_neg goesOn]
      cases item : findCmd name with
      | none => exact noCmd item
      | some item' =>
          have inTable := List.mem_of_find?_eq_some item
          have hasFunc : ∀ item ∈ cmdList, item.func.isSome := by decide
          obtain ⟨func, isFunc⟩ := Option.isSome_iff_exists.mp (hasFunc item' inTable)
          obtain ⟨acts, run⟩ := func.run_ret shell.lastCmdRet clean (List.cons_ne_nil _ _) listed
          rw [item, Option.bind_some, isFunc, Option.some.injEq] at exits
          rw [Option.bind_some, isFunc, Option.map_some]
          refine ⟨acts, by simp only [run, Option.map_some],
            CmdFunc.run_formed clean (List.cons_ne_nil _ _) run, fun console => ?_⟩
          rw [sayCmds, if_neg (Nat.not_le.mpr positive), place, Option.bind_some, found, item,
            Option.bind_some]
          simp only [isFunc, args, Option.bind_some, run, exits, retAfter, Option.elim_some]

end Line

/-! ### A number of milliseconds -/

/-- **A number written down for `sleep` is the time slept**, modulo `2 ^ 16`: whatever blanks and quotes
are around the command and its argument, `atoi` gets back what `%d` writes, and both messages show the time
that is slept. -/
theorem sleep_line {n : Int} (low : -2 ^ 31 ≤ n) (high : n < 2 ^ 31) {line : List UInt8}
    (rendering : Rendering [ascii "sleep", decimal n] line) (outside : Outside) (last : Int) :
    lineCall last line = some ⟨.cmdSleep, [ascii "sleep", decimal n], last⟩ ∧
      ∃ ms : Nat, (ms : Int) = n % 2 ^ 16 ∧ lineActs outside last line =
        some [.printf (ascii "sleep %u ms\n") [.num ms], .msleep ms,
          .printf (ascii "%u ms slept\n") [.num ms]] := by
  have args : lineArgs line = [ascii "sleep", decimal n] := by
    rw [lineArgs, tokens_rendering rendering]
    rfl
  have name : (findCmd (ascii "sleep")).bind CmdInfo.func = some .cmdSleep := by decide +kernel
  have called : lineCall last line = some ⟨.cmdSleep, [ascii "sleep", decimal n], last⟩ := by
    have found : lookup [ascii "sleep", decimal n] = some .cmdSleep := name
    rw [lineCall, args, found]
    rfl
  refine ⟨called, (n % 2 ^ 16).toNat, by omega, ?_⟩
  rw [lineActs, called]
  simp only [CmdFunc.run, cmdSleep, atoi_decimal outside.beyond low high, Option.map_some]

/-- `sleep  -1` sleeps for 65535 ms. -/
theorem sleep_line_negative :
    lineActs sampleOutside 0 (ascii "sleep  -1") = some [.printf (ascii "sleep %u ms\n") [.num 65535],
      .msleep 65535, .printf (ascii "%u ms slept\n") [.num 65535]] := by
  have blanks : Blanks [32, 32] := by
    intro byte member
    rw [List.mem_pair, or_self] at member
    exact member ▸ rfl
  have noGap : Blanks [] := fun _ member => absurd member List.not_mem_nil
  have number : Bare (decimal (-1)) := ⟨⟨45, [49], by decide, by decide⟩, no_blank (by decide)⟩
  have name : Bare (ascii "sleep") :=
    ⟨⟨115, ascii "leep", by decide +kernel, by decide⟩, no_blank (by decide +kernel)⟩
  have written : Written [ascii "sleep", decimal (-1)] (ascii "sleep  -1") :=
    .bare name blanks (fun none => nomatch none) (.bare number noGap (fun _ => rfl) .nil)
  have rendering : Rendering [ascii "sleep", decimal (-1)] (ascii "sleep  -1") :=
    ⟨[], _, noGap, written, rfl⟩
  obtain ⟨_, ms, same, acts⟩ := sleep_line (by decide) (by decide) rendering sampleOutside 0
  obtain rfl : ms = 65535 := Int.ofNat_inj.mp same
  exact acts

/-! ### All lines -/

section Lines

variable {frames : Nat → List UInt8} {outside : Nat → Outside} {lines : List (List UInt8)}
  {line last more : List UInt8} {shell : Shell} {answers : Answers} {console : Console}

/-- What is left of a line's round, once its command has been called. -/
def behindLine (frames : Nat → List UInt8) (outside : Nat → Outside) (fuel n : Nat) (line : List UInt8)
    (shell after : Shell) (call : Option Call) (left : Answers) (console : Console) : Option Talk :=
  if console.printing.port = none then some ⟨⟨shell, [call], none⟩, console⟩
  else if IsExit line then some ⟨⟨after, [call], some left⟩, console⟩
  else (talkLoop frames outside fuel (n + 1) after left console).map (Talk.after call)

/-- **One line**: a prompt, the acts of its command, and the rest unless that is `exit`. -/
theorem talkLoop_line (frames : Nat → List UInt8) (fuel : Nat) {n : Nat} (declared : Declared shell)
    (fits : Fits line) (bytes : answers.reduceOption = line ++ basicIoTextEndMark :: more)
    (listed : ∃ rows, cmdTasksInfo (outside n).kernels (outside n).ti = some rows) :
    ∃ acts left split next, lineActs (outside n) shell.lastCmdRet line = some acts ∧
      (∀ act ∈ acts, act.Formed) ∧ left.reduceOption = more ∧ left.length < answers.length ∧
      Declared next ∧ next.lastCmdRet = retAfter shell.lastCmdRet (lineCall shell.lastCmdRet line) ∧
      doCmdlineLoop (fuel + 1) shell answers =
        (if IsExit line then some ⟨next, [lineCall shell.lastCmdRet line], some left⟩
        else (doCmdlineLoop fuel next left).map (Session.after (lineCall shell.lastCmdRet line))) ∧
      ∀ console : Console, talkLoop frames outside (fuel + 1) n shell answers console =
        (console.perform frames [prompt]).bind fun console =>
          if console.printing.port = none then some ⟨⟨shell, [], none⟩, console⟩
          else (console.perform frames acts).bind
            (behindLine frames outside fuel n line split next (lineCall shell.lastCmdRet line) left) := by
  have inside : ([] : List UInt8).length + line.length < cmdlineMaxLength := by
    rw [List.length_nil, Nat.zero_add]
    exact fits.short
  obtain ⟨used, left, rfl, _, leftBytes, read⟩ :=
    readlineLoop_line bytes fits.unended inside (Nat.le_of_eq declared.block.symm)
  obtain ⟨args, made, count, strings⟩ :=
    makeArgs_strings fits.clean (shell.cmdline.drop (line.length + 1))
      (Nat.le_of_eq declared.array.symm)
  have lengths := makeArgs_lengths made
  have block : (line ++ 0 :: shell.cmdline.drop (line.length + 1)).length = cmdlineMaxLength := by
    have short := fits.short
    have whole := declared.block
    rw [List.length_append, List.length_cons, List.length_drop]
    omega
  have line' : basicIoReadline (some shell.cmdline) cmdlineMaxLength
      (used ++ some basicIoTextEndMark :: left) = some (.returned (0 + line.length + 1 : Nat)
        (some (line ++ 0 :: shell.cmdline.drop (line.length + 1))) left) := read
  obtain ⟨acts, asked, formed, say⟩ := sayCmds_line frames ⟨args.cmdline, args.argv, shell.lastCmdRet⟩
    count strings listed
  have called : doCmds ⟨args.cmdline, args.argv, shell.lastCmdRet⟩ args.argc = _ :=
    doCmds_line count strings
  refine ⟨acts, left, ⟨args.cmdline, args.argv, shell.lastCmdRet⟩,
    ⟨args.cmdline, args.argv, retAfter shell.lastCmdRet (lineCall shell.lastCmdRet line)⟩, asked, formed,
    leftBytes, ?_, ⟨lengths.1.trans block, lengths.2.trans declared.array⟩, rfl, ?_, fun console => ?_⟩
  · rw [List.length_append, List.length_cons]
    omega
  · rw [doCmdlineLoop, line', Option.bind_some]
    simp only [ge_iff_le, Int.natCast_nonneg, if_true, Option.bind_some, made, called]
    split <;> rfl
  · rw [talkLoop, line']
    simp only [ge_iff_le, Int.natCast_nonneg, if_true, Option.bind_some, made, say, Option.bind_map]
    congr 1
    funext console
    congr 2
    funext console
    rw [Function.comp_apply, behindLine]
    by_cases stuck : console.printing.port = none
    · rw [if_pos stuck, if_pos stuck]
    · rw [if_neg stuck, if_neg stuck]
      by_cases isExit : IsExit line
      · rw [if_pos isExit, if_pos isExit]
        rfl
      · rw [if_neg isExit, if_neg isExit]
        rfl

/-- **Behind the last line** the task polls. -/
theorem talkLoop_waiting (outside : Nat → Outside) (n fuel : Nat)
    (sizes : ∀ k, (frames k).length = cmdlineMaxLength)
    (declared : Declared shell) (short : last.length < cmdlineMaxLength)
    (unended : basicIoTextEndMark ∉ last) (bytes : answers.reduceOption = last) (console : Console) :
    ∃ talk, talkLoop frames outside (fuel + 1) n shell answers console = some talk ∧
      Does [prompt] console talk.console ∧ talk.session.returned = none ∧ talk.session.calls = [] ∧
      (talk.console.printing.port ≠ none →
        doCmdlineLoop (fuel + 1) shell answers = some talk.session) := by
  obtain ⟨next, prompted, does⟩ := perform_does sizes prompt_formed console
  have inside : ([] : List UInt8).length + last.length < cmdlineMaxLength := by
    rw [List.length_nil, Nat.zero_add]
    exact short
  have waiting : basicIoReadline (some shell.cmdline) cmdlineMaxLength answers =
      some (.waiting (0 + last.length) (last ++ shell.cmdline.drop last.length)) :=
    readlineLoop_waiting bytes unended inside (Nat.le_of_eq declared.block.symm)
  rw [talkLoop, prompted, Option.bind_some, doCmdlineLoop, waiting]
  split_ifs with stuck
  · exact ⟨_, rfl, does, rfl, rfl, fun going => absurd stuck going⟩
  · exact ⟨_, rfl, does, rfl, rfl, fun _ => rfl⟩

/-- **A line as the acts around what is behind it**: `go` is what becomes of its session, and what `Ends`
says holds too when the port stops at the prompt. -/
theorem prompted_line {acts rest : List Act} {behind : Console → Option Talk} {go : Talk → Option Talk}
    {Ends : Talk → Prop} (sizes : ∀ k, (frames k).length = cmdlineMaxLength)
    (formed : ∀ act ∈ acts, act.Formed)
    (stops : ∀ console : Console, console.printing.port = none →
      go ⟨⟨shell, [], none⟩, console⟩ = some ⟨⟨shell, [], none⟩, console⟩ ∧
        Ends ⟨⟨shell, [], none⟩, console⟩)
    (later : ∀ console, ∃ done, (behind console).bind go = some done ∧
      Does rest console done.console ∧ Ends done) (console : Console) :
    ∃ done, ((console.perform frames [prompt]).bind fun console =>
        if console.printing.port = none then some ⟨⟨shell, [], none⟩, console⟩
        else (console.perform frames acts).bind behind).bind go = some done ∧
      Does (prompt :: (acts ++ rest)) console done.console ∧ Ends done := by
  obtain ⟨middle, prompted, does⟩ := perform_does sizes prompt_formed console
  rw [prompted, Option.bind_some]
  by_cases stuck : middle.printing.port = none
  · obtain ⟨goes, ends⟩ := stops middle stuck
    rw [if_pos stuck]
    exact ⟨_, goes, does.append (Does.stuck stuck _), ends⟩
  · rw [if_neg stuck]
    obtain ⟨after, performed, does'⟩ := perform_does sizes formed middle
    obtain ⟨done, run, does'', ends⟩ := later after
    exact ⟨done, by rw [performed, Option.bind_some, run], does.append (does'.append does''), ends⟩

/-- What is printed for the lines, and `do_cmdline` as it is without it. -/
theorem talkLoop_lines {n fuel : Nat} (sizes : ∀ k, (frames k).length = cmdlineMaxLength)
    (listed : ∀ n, ∃ rows, cmdTasksInfo (outside n).kernels (outside n).ti = some rows)
    (declared : Declared shell) (fits : ∀ line ∈ lines, Fits line)
    (short : last.length < cmdlineMaxLength) (unended : basicIoTextEndMark ∉ last)
    (bytes : answers.reduceOption = stream lines ++ last) (enough : answers.length < fuel) :
    ∃ acts, lineTalk outside n shell.lastCmdRet lines = some acts ∧
      ∀ console, ∃ talk, talkLoop frames outside fuel n shell answers console = some talk ∧
        Does acts console talk.console ∧
        (talk.console.printing.port ≠ none → doCmdlineLoop fuel shell answers = some talk.session) := by
  induction lines generalizing shell answers n fuel with
  | nil =>
      cases fuel with
      | zero => exact absurd enough (Nat.not_lt_zero _)
      | succ fuel =>
          refine ⟨_, rfl, fun console => ?_⟩
          obtain ⟨talk, run, does, -, -, forget⟩ :=
            talkLoop_waiting outside n fuel sizes declared short unended bytes console
          exact ⟨talk, run, does, forget⟩
  | cons line lines ih =>
      cases fuel with
      | zero => exact absurd enough (Nat.not_lt_zero _)
      | succ fuel =>
          have first : answers.reduceOption =
              line ++ basicIoTextEndMark :: (stream lines ++ last) := by
            rw [bytes, stream, List.flatMap_cons, List.append_assoc, List.append_assoc]
            rfl
          obtain ⟨acts, left, split, next, asked, formed, leftBytes, fewer, declared', ret, silent, run⟩ :=
            talkLoop_line frames fuel declared (fits line (List.mem_cons_self ..)) first (listed n)
          rw [lineTalk, asked, Option.bind_some, ← ret]
          generalize lineCall shell.lastCmdRet line = call at silent run
          -- What is done behind the line, if anything.
          obtain ⟨more, rest, later⟩ : ∃ more,
              (if IsExit line then some [] else lineTalk outside (n + 1) next.lastCmdRet lines) = some more ∧
              ∀ console : Console, ∃ talk,
                behindLine frames outside fuel n line split next call left console = some talk ∧
                Does more console talk.console ∧ (talk.console.printing.port ≠ none →
                  doCmdlineLoop (fuel + 1) shell answers = some talk.session) := by
            by_cases isExit : IsExit line
            · refine ⟨[], if_pos isExit, fun console => ?_⟩
              rw [behindLine, silent, if_pos isExit, if_pos isExit]
              split_ifs with stuck
              · exact ⟨_, rfl, Does.nil console, fun going => absurd stuck going⟩
              · exact ⟨_, rfl, Does.nil console, fun _ => rfl⟩
            · obtain ⟨more, rest, later⟩ := ih (n := n + 1) declared'
                (fun other member => fits other (List.mem_cons_of_mem _ member)) leftBytes
                (Nat.lt_of_lt_of_le fewer (Nat.le_of_lt_succ enough))
              refine ⟨more, by rw [if_neg isExit, rest], fun console => ?_⟩
              rw [behindLine, silent, if_neg isExit, if_neg isExit]
              split_ifs with stuck
              · exact ⟨_, rfl, Does.stuck stuck more, fun going => absurd stuck going⟩
              · obtain ⟨talk, run, does, forget⟩ := later console
                refine ⟨talk.after call, by rw [run, Option.map_some], does, fun going => ?_⟩
                rw [forget going]
                rfl
          refine ⟨prompt :: (acts ++ more), by rw [rest, Option.map_some], fun console => ?_⟩
          rw [run, ← Option.bind_fun_some (Option.bind _ _)]
          refine prompted_line sizes formed (fun _ stuck => ⟨rfl, fun going => absurd stuck going⟩)
            (fun console => ?_) console
          rw [Option.bind_fun_some]
          exact later console

/-- **The transcript of the shell.** Let the lines have at most 255 bytes and no NUL. However the port
delivers them and takes the bytes, whatever lies in the buffers and whatever moments of the kernel `ts`
sees, `do_cmdline` prints the banner, and for each line up to the first `exit` a prompt and what its command
prints, message by message, each cut to the buffer; and it prints a front of this if the port takes no more.
As long as the port goes on, `sleep` has slept as the lines say, and the calls are those that the lines ask
for. -/
theorem talk_transcript {image : Image} {mem : WordMemory} {events : Nat → Nat → List LifeEvent}
    (n : Nat) (sizes : ∀ k, (frames k).length = cmdlineMaxLength)
    (found : ∀ n, (outside n).FromRuns image mem (events n)) (declared : Declared shell)
    (fits : ∀ line ∈ lines, Fits line) (short : last.length < cmdlineMaxLength)
    (unended : basicIoTextEndMark ∉ last) (bytes : answers.reduceOption = stream lines ++ last) :
    ∃ acts, transcript outside n shell.lastCmdRet lines = some acts ∧
      ∀ console, ∃ done, talk frames outside n shell answers console = some done ∧
        Prints (said acts) console.printing done.console.printing ∧
        (done.console.printing.port ≠ none →
          done.console.slept = console.slept ++ sleeps acts ∧
          done.session.calls = lineCalls shell.lastCmdRet lines ∧
          doCmdline shell answers = some done.session) := by
  have listed := fun n => (found n).listed
  obtain ⟨session, silent, calls, _⟩ :=
    doCmdlineLoop_lines declared fits short unended bytes (Nat.lt_succ_self _)
  obtain ⟨acts, asked, run⟩ :=
    talkLoop_lines sizes listed declared fits short unended bytes (Nat.lt_succ_self _)
  refine ⟨banner ++ acts, by rw [transcript, asked, Option.map_some], fun console => ?_⟩
  obtain ⟨next, started, does⟩ := perform_does sizes banner_formed console
  rw [talk, started, Option.bind_some]
  split_ifs with stuck
  · exact ⟨_, rfl, (does.append (Does.stuck stuck acts)).prints, fun going => absurd stuck going⟩
  · obtain ⟨done, run, does', forget⟩ := run next
    have all := does.append does'
    refine ⟨done, run, all.prints, fun going => ⟨all.slept going, ?_, forget going⟩⟩
    obtain rfl := Option.some.inj (silent.symm.trans (forget going))
    exact calls

end Lines

/-- A number of milliseconds, a command that there is not, and `exit`. -/
def sampleTalk : List (List UInt8) := [ascii "sleep 65556", ascii "nope", ascii "exit"]

/-- What a shell prints that reads them. -/
def sampleShown : List UInt8 :=
  ascii "\nSTM32 cmdline started.\nInput [help] to show all available commands,\n" ++
    ascii "or [exit] to exit STM32 cmdline.\nSTM32> sleep 20 ms\n20 ms slept\nSTM32> " ++
    ascii "Command nope not found\nEnter [help] to see all supported commands\nSTM32> Bye\n"

theorem talk_transcript_sampleTalk :
    ∃ done, talk (fun _ => List.replicate 256 0) (fun _ => sampleOutside) 0
        ⟨List.replicate 256 0, List.replicate 10 0, 0⟩ (none :: (stream sampleTalk).map some)
        ⟨⟨[], some (List.replicate 300 true)⟩, [], 0⟩ = some done ∧
      done.console.printing.output = sampleShown ∧ done.console.slept = [20] := by
  have fits : ∀ line ∈ sampleTalk, Fits line := by
    intro line member
    rcases List.mem_cons.mp member with rfl | member
    · exact ⟨by decide +kernel, by decide +kernel, by decide +kernel⟩
    rcases List.mem_pair.mp member with rfl | rfl
    · exact ⟨by decide +kernel, by decide +kernel, by decide +kernel⟩
    · exact ⟨by decide +kernel, by decide +kernel, by decide +kernel⟩
  have bytes : (none :: (stream sampleTalk).map some).reduceOption = stream sampleTalk ++ [] := by
    decide +kernel
  have declared : Declared ⟨List.replicate 256 0, List.replicate 10 0, 0⟩ :=
    ⟨List.length_replicate, List.length_replicate⟩
  have sizes : ∀ k, ((fun _ => List.replicate 256 0 : Nat → List UInt8) k).length = cmdlineMaxLength :=
    fun _ => List.length_replicate
  obtain ⟨acts, asked, run⟩ := talk_transcript 0 sizes (fun _ => sampleOutside_fromRuns) declared fits
    (by decide) List.not_mem_nil bytes
  obtain ⟨done, run, prints, rest⟩ := run ⟨⟨[], some (List.replicate 300 true)⟩, [], 0⟩
  have shown : (transcript (fun _ => sampleOutside) 0 0 sampleTalk).map said = some sampleShown := by
    decide +kernel
  have slept : (transcript (fun _ => sampleOutside) 0 0 sampleTalk).map sleeps = some [20] := by
    decide +kernel
  rw [asked, Option.map_some, Option.some.injEq] at shown slept
  rw [shown] at prints
  obtain ⟨left, last, _⟩ := prints.whole _ rfl (by decide +kernel)
  have going : done.console.printing.port ≠ none := by
    rw [last]
    exact Option.some_ne_none _
  refine ⟨done, run, by rw [last, List.nil_append], ?_⟩
  rw [(rest going).1, slept, List.nil_append]

end YosStm32.Cmdline
