/-
**The commands** (`cmdline.c`): what each one prints, and for how long `sleep` sleeps.

A command is what it returns and a list of `Act`s, which a `Console` performs one after another: it
prints through `_cmd_printf`, and does nothing more once the port has stopped taking bytes in the middle
of a message. `ts` asks the kernel anew for each line, so each line may show another moment. Every
message of every command fits its arguments (`CmdFunc.run_formed`), so whatever its buffers hold before,
a command prints the texts of its messages, each cut to the buffer of `_cmd_printf` (`perform_does`).
-/

import YosStm32.Cmdline.Echo
import YosStm32.Cmdline.Format
import YosStm32.Kernel.Creation

namespace YosStm32.Cmdline

open Lib BasicIo

/-! ### Performing -/

/-- A call of `_cmd_printf` or of `yos_task_msleep`. -/
inductive Act where
  | printf (msg : List UInt8) (args : List Arg)
  | msleep (ms : Nat)
  deriving DecidableEq, Repr

/-- What has been printed, for how long the task has slept, and how often `_cmd_printf` has been
called. -/
structure Console where
  printing : Printing
  slept : List Nat
  printed : Nat
  deriving DecidableEq, Repr

/-- One act; `frames` are what lies in the buffer of `_cmd_printf` at its calls, one after another. -/
def Console.act (frames : Nat → List UInt8) (console : Console) : Act → Option Console
  | .printf msg args =>
      (format msg args).bind fun text =>
        (cmdPrintf (frames console.printed) text console.printing).map fun printing =>
          { console with printing := printing, printed := console.printed + 1 }
  | .msleep ms =>
      some (if console.printing.port = none then console
        else { console with slept := console.slept ++ [ms] })

/-- Acts, one after another. -/
def Console.perform (frames : Nat → List UInt8) (console : Console) : List Act → Option Console
  | [] => some console
  | act :: acts => (console.act frames act).bind fun console => console.perform frames acts

/-! ### The commands -/

/-- The third column of `_cmd_list`. -/
def CmdFunc.desc : CmdFunc → List UInt8
  | .cmdHelp => ascii "Show cmd info briefly"
  | .cmdEcho => ascii "Echo cmdline info"
  | .cmdSysInfo => ascii "Show system info"
  | .cmdSleep => ascii "Sleep given ms"
  | .cmdTasksInfo => ascii "Show tasks info"
  | .cmdExit => ascii "Exit cmdline"

/-- What `_cmd_help` prints of an item; no item of the table is without a description. -/
def CmdInfo.help (item : CmdInfo) : Act :=
  .printf (ascii "%16s\t%s\n") [.str item.cmd, .str (item.func.elim [] CmdFunc.desc)]

/-- `_cmd_help`; there is always a name. -/
def cmdHelp : (argv : List (List UInt8)) → Option (Int × List Act)
  | [] => none
  | [_] => some (0, cmdList.map CmdInfo.help)
  | [name, cmd] =>
      match findCmd cmd with
      | some item => some (0, [item.help])
      | none => some (-1, [.printf (ascii "%s Error: command %s not found\n") [.str name, .str cmd]])
  | name :: _ :: _ :: _ => some (-2,
      [.printf (ascii "Usage:\n") [],
        .printf (ascii "     %s\n") [.str name],
        .printf (ascii "             show all commands\n") [],
        .printf (ascii "     %s [cmd]\n") [.str name],
        .printf (ascii "             show [cmd] info\n") []])

/-- The loop of `_cmd_echo`. -/
def echoActs : (i : Nat) → (argv : List (List UInt8)) → List Act
  | _, [] => []
  | i, arg :: argv => .printf (ascii "[%2d]\t[%s]\n") [.num i, .str arg] :: echoActs (i + 1) argv

/-- `_cmd_echo`, as a list of acts; `cmdEcho` is the same (`perform_echo`). -/
def cmdEchoActs (argv : List (List UInt8)) (lastCmdRet : Int) : List Act :=
  .printf (ascii "Echo got %d paramaters:\n") [.num argv.length] ::
    (echoActs 0 argv ++ [.printf (ascii "Last cmd ret: [%d]\n") [.num lastCmdRet]])

/-- `_cmd_sys_info`. -/
def cmdSysInfo : List Act :=
  [.printf (ascii "MCU: %s Max Freq: %d Hz\n") [.str (ascii "STM32F103C8T6"), .num (72 * 1000 * 1000)],
    .printf (ascii "Flash: %d Bytes\n") [.num (64 * 1024)],
    .printf (ascii "RAM: %d Bytes\n") [.num sramSize],
    .printf (ascii "sz char=%d\n") [.num 1],
    .printf (ascii "sz short=%d\n") [.num 2],
    .printf (ascii "sz int=%d\n") [.num 4],
    .printf (ascii "sz long=%d\n") [.num 4],
    .printf (ascii "sz float=%d\n") [.num 4],
    .printf (ascii "sz double=%d\n") [.num 8],
    .printf (ascii "sz void *=%d\n") [.num 4]]

/-- `_cmd_sleep`: the number of milliseconds is a `uint16_t`. -/
def cmdSleep (beyond : List UInt8 → Int) : (argv : List (List UInt8)) → List Act
  | [_, ms] =>
      let msValue : Nat := (atoi beyond ms % 2 ^ 16).toNat
      [.printf (ascii "sleep %u ms\n") [.num msValue], .msleep msValue,
        .printf (ascii "%u ms slept\n") [.num msValue]]
  | _ => []

/-- The value of an `enum yos_task_status`. -/
def statusValue : YosTaskStatus → Int
  | .invalid => -1
  | .created => 0
  | .running => 1
  | .waiting => 2
  | .exited => 3

/-- A line of `_cmd_tasks_info`. -/
def tasksInfoLine (id status stackSize stackMaxReachedSize : Int) (name : List UInt8) : Act :=
  .printf (ascii "%03d   %2d    %4d    %4d    %s\n")
    [.num id, .num status, .num stackSize, .num stackMaxReachedSize, .str name]

/-- The loop of `_cmd_tasks_info`; `kernels` is the kernel at each call of `yos_get_task_info`. -/
def tasksInfoActs (kernels : Nat → Kernel) : (ids : List Nat) → (ti : YosTaskInfo) → Option (List Act)
  | [], _ => some []
  | i :: ids, ti =>
      (yosGetTaskInfo (kernels i) i (some ti)).bind fun
        | (0, some ti) => (cString ti.name).bind fun name =>
            (tasksInfoActs kernels ids ti).map
              (tasksInfoLine ti.id (statusValue ti.status) ti.stackSize ti.stackMaxReachedSize name :: ·)
        | _ => tasksInfoActs kernels ids ti

/-- `_cmd_tasks_info`; `ti` is not initialised. -/
def cmdTasksInfo (kernels : Nat → Kernel) (ti : YosTaskInfo) : Option (List Act) :=
  (tasksInfoActs kernels (List.range yosMaxTaskCount) ti).map
    (.printf (ascii "ID    ST      SS     MSS    NAME\n") [] :: ·)

/-- `_cmd_exit`. -/
def cmdExit : List Act := [.printf (ascii "Bye\n") []]

/-- What a command finds outside its arguments: the kernel at each call of `yos_get_task_info`, what lies
in `ti`, and what `atoi` makes of a number that is no `int`. -/
structure Outside where
  kernels : Nat → Kernel
  ti : YosTaskInfo
  beyond : List UInt8 → Int

/-- A call of a command: what it returns and does. -/
def CmdFunc.run (func : CmdFunc) (outside : Outside) (argv : List (List UInt8)) (lastCmdRet : Int) :
    Option (Int × List Act) :=
  match func with
  | .cmdHelp => Cmdline.cmdHelp argv
  | .cmdEcho => some (0, cmdEchoActs argv lastCmdRet)
  | .cmdSysInfo => some (0, Cmdline.cmdSysInfo)
  | .cmdSleep => some (0, Cmdline.cmdSleep outside.beyond argv)
  | .cmdTasksInfo => (Cmdline.cmdTasksInfo outside.kernels outside.ti).map fun acts => (0, acts)
  | .cmdExit => some (0, Cmdline.cmdExit)

/-! ### What acts do -/

/-- What an act prints. -/
def Act.said : Act → List UInt8
  | .printf msg args => printable ((format msg args).getD [])
  | .msleep _ => []

/-- What acts print. -/
def said (acts : List Act) : List UInt8 := acts.flatMap Act.said

/-- For how long acts sleep. -/
def sleeps (acts : List Act) : List Nat :=
  acts.filterMap fun act =>
    match act with
    | .printf _ _ => none
    | .msleep ms => some ms

/-- No NUL in a string. -/
def Arg.Clean : Arg → Prop
  | .num _ => True
  | .str text => 0 ∉ text

instance : DecidablePred Arg.Clean := fun arg =>
  match arg with
  | .num _ => inferInstanceAs (Decidable True)
  | .str text => inferInstanceAs (Decidable (0 ∉ text))

/-- A message fits its arguments. -/
def Act.Formed : Act → Prop
  | .printf msg args =>
      (fitsLoop none msg (args.map Arg.isStr) = true ∧ 0 ∉ msg) ∧ ∀ arg ∈ args, arg.Clean
  | .msleep _ => True

instance : DecidablePred Act.Formed := fun act =>
  match act with
  | .printf msg args => inferInstanceAs (Decidable
      ((fitsLoop none msg (args.map Arg.isStr) = true ∧ 0 ∉ msg) ∧ ∀ arg ∈ args, arg.Clean))
  | .msleep _ => inferInstanceAs (Decidable True)

/-- The acts are done, or the port takes no more bytes somewhere in their texts. -/
structure Does (acts : List Act) (first last : Console) : Prop where
  prints : Prints (said acts) first.printing last.printing
  slept : last.printing.port ≠ none → last.slept = first.slept ++ sleeps acts

section Does

variable {frames : Nat → List UInt8} {acts more : List Act} {act : Act} {first middle last : Console}

/-- What comes behind a byte that is not taken is not done. -/
theorem Does.stuck (stuck : first.printing.port = none) (acts : List Act) : Does acts first first where
  prints := by
    refine ⟨fun answers port _ => ?_, fun answers port _ => ?_, fun _ => rfl⟩
    · exact absurd (stuck.symm.trans port) (Option.some_ne_none _).symm
    · exact absurd (stuck.symm.trans port) (Option.some_ne_none _).symm
  slept := fun going => absurd stuck going

theorem Does.nil (console : Console) : Does [] console console :=
  ⟨Prints.nil _, fun _ => (List.append_nil _).symm⟩

theorem Does.append (one : Does acts first middle) (two : Does more middle last) :
    Does (acts ++ more) first last where
  prints := by
    rw [said, List.flatMap_append]
    exact one.prints.append two.prints
  slept := fun going => by
    have going' : middle.printing.port ≠ none := fun stuck => by
      rw [two.prints.stuck stuck] at going
      exact going stuck
    rw [two.slept going, one.slept going', sleeps, sleeps, sleeps, List.filterMap_append,
      List.append_assoc]

/-- **An act does what it says.** -/
theorem act_does (sizes : ∀ k, (frames k).length = cmdlineMaxLength) (formed : act.Formed)
    (first : Console) : ∃ last, first.act frames act = some last ∧ Does [act] first last := by
  cases act with
  | printf msg args =>
      obtain ⟨⟨fits, inMsg⟩, clean⟩ := formed
      obtain ⟨text, run⟩ := format_some fits
      have textClean := format_clean inMsg (fun string member => clean _ member) run
      obtain ⟨printing, printed, prints⟩ := cmdPrintf_prints (sizes first.printed) textClean first.printing
      refine ⟨{ first with printing := printing, printed := first.printed + 1 },
        by rw [Console.act, run, Option.bind_some, printed, Option.map_some],
        ?_, fun _ => (List.append_nil _).symm⟩
      rw [said, List.flatMap_singleton, Act.said, run]
      exact prints
  | msleep ms =>
      refine ⟨_, rfl, ?_, fun going => ?_⟩
      · split
        · exact Prints.nil _
        · exact Prints.nil _
      · by_cases stuck : first.printing.port = none
        · rw [if_pos stuck] at going
          exact absurd stuck going
        · rw [if_neg stuck]
          rfl

/-- **Acts do what they say**, whatever the buffers hold. -/
theorem perform_does (sizes : ∀ k, (frames k).length = cmdlineMaxLength)
    (formed : ∀ act ∈ acts, act.Formed) (first : Console) :
    ∃ last, first.perform frames acts = some last ∧ Does acts first last := by
  induction acts generalizing first with
  | nil => exact ⟨first, rfl, Does.nil first⟩
  | cons act acts ih =>
      obtain ⟨middle, run, one⟩ := act_does sizes (formed act (List.mem_cons_self ..)) first
      obtain ⟨last, run', two⟩ := ih (fun act member => formed act (List.mem_cons_of_mem _ member)) middle
      refine ⟨last, by rw [Console.perform, run, Option.bind_some, run'], ?_⟩
      rw [← List.singleton_append]
      exact one.append two

end Does

/-! ### `echo`, as acts -/

section Echo

variable {frames : Nat → List UInt8} {argv : List (List UInt8)}

theorem format_echoHead (argc : Nat) :
    format (ascii "Echo got %d paramaters:\n") [.num argc] = some (echoHead argc ++ [newline]) := by
  have bytes : ascii "Echo got %d paramaters:\n" = [69, 99, 104, 111, 32, 103, 111, 116, 32, 37, 100, 32,
      112, 97, 114, 97, 109, 97, 116, 101, 114, 115, 58, 10] := ascii_ofList _
  rw [format, bytes]
  simp [formatLoop, convert, padNumber, echoHead, newline]

theorem format_echoLine (i : Nat) (arg : List UInt8) :
    format (ascii "[%2d]\t[%s]\n") [.num i, .str arg] = some (echoLine i arg ++ [newline]) := by
  have bytes : ascii "[%2d]\t[%s]\n" = [91, 37, 50, 100, 93, 9, 91, 37, 115, 93, 10] := ascii_ofList _
  rw [format, bytes]
  simp [formatLoop, convert, padNumber, echoLine, decimal2, newline]

theorem format_echoFoot (lastCmdRet : Int) :
    format (ascii "Last cmd ret: [%d]\n") [.num lastCmdRet] = some (echoFoot lastCmdRet ++ [newline]) := by
  have bytes : ascii "Last cmd ret: [%d]\n" =
      [76, 97, 115, 116, 32, 99, 109, 100, 32, 114, 101, 116, 58, 32, 91, 37, 100, 93, 10] :=
    ascii_ofList _
  rw [format, bytes]
  simp [formatLoop, convert, padNumber, echoFoot, newline]

/-- After `count` calls of `_cmd_printf`. -/
def Console.went (console : Console) (count : Nat) (printing : Printing) : Console :=
  { console with printing := printing, printed := console.printed + count }

theorem act_printf {msg text : List UInt8} {args : List Arg} (run : format msg args = some text)
    (console : Console) : console.act frames (.printf msg args) =
      (cmdPrintf (frames console.printed) text console.printing).map (console.went 1) := by
  rw [Console.act, run, Option.bind_some]
  rfl

theorem perform_echoArgs (i : Nat) (console : Console) (rest : List Act) (first : Nat)
    (place : console.printed = first + (i + 1)) :
    console.perform frames (echoActs i argv ++ rest) =
      (cmdEchoLoop (fun k => frames (first + k)) i argv console.printing).bind fun printing =>
        (console.went argv.length printing).perform frames rest := by
  induction argv generalizing i console with
  | nil => rfl
  | cons arg argv ih =>
      rw [echoActs, List.cons_append, Console.perform, act_printf (format_echoLine i arg), cmdEchoLoop,
        place, Option.bind_map, Option.bind_assoc]
      congr 1
      funext printing
      have later : (console.went 1 printing).printed = first + (i + 1 + 1) := by
        rw [Console.went, place]
        rfl
      rw [Function.comp_apply, ih (i + 1) _ later]
      congr 1
      funext last
      have counted : console.printed + 1 + argv.length = console.printed + (argv.length + 1) := by omega
      simp only [Console.went, List.length_cons, counted]

/-- **`echo` as acts is `cmdEcho`**, with the buffers from the first call on. -/
theorem perform_echo (argv : List (List UInt8)) (lastCmdRet : Int) (console : Console) :
    console.perform frames (cmdEchoActs argv lastCmdRet) =
      (cmdEcho (fun k => frames (console.printed + k)) argv lastCmdRet console.printing).map
        (console.went (argv.length + 2)) := by
  rw [cmdEchoActs, Console.perform, act_printf (format_echoHead argv.length), cmdEcho, Option.bind_map,
    Option.map_bind]
  congr 1
  funext printing
  rw [Function.comp_apply, Function.comp_apply,
    perform_echoArgs 0 (console.went 1 printing) _ console.printed rfl, Option.map_bind]
  congr 1
  funext printing
  have counted : console.printed + 1 + argv.length = console.printed + (argv.length + 1) := by omega
  rw [Console.perform, act_printf (format_echoFoot lastCmdRet), Function.comp_apply, Option.bind_map]
  simp only [Console.went, counted]
  cases cmdPrintf (frames (console.printed + (argv.length + 1))) (echoFoot lastCmdRet ++ [newline]) printing <;>
    rfl

end Echo

/-! ### Every message fits its arguments -/

section Formed

variable {argv : List (List UInt8)} {acts : List Act} {act : Act} {outside : Outside}

/-- The literal fits arguments of these kinds. -/
def Fitting (chars : List Char) (kinds : List Bool) : Prop :=
  fitsLoop none (chars.map fun c => UInt8.ofNat c.toNat) kinds = true ∧
    0 ∉ chars.map fun c => UInt8.ofNat c.toNat

instance (chars : List Char) (kinds : List Bool) : Decidable (Fitting chars kinds) :=
  inferInstanceAs (Decidable (_ ∧ _))

theorem printf_formed {chars : List Char} {args : List Arg} (kinds : List Bool)
    (fits : Fitting chars kinds) (same : args.map Arg.isStr = kinds) (clean : ∀ arg ∈ args, arg.Clean) :
    (Act.printf (ascii (String.ofList chars)) args).Formed := by
  rw [ascii_ofList]
  exact ⟨⟨same ▸ fits.1, fits.2⟩, clean⟩

/-- A message without arguments. -/
theorem text_formed {chars : List Char} (fits : Fitting chars []) :
    (Act.printf (ascii (String.ofList chars)) []).Formed :=
  printf_formed [] fits rfl fun _ member => absurd member List.not_mem_nil

theorem help_formed (item : CmdInfo) (member : item ∈ cmdList) : item.help.Formed := by
  revert item
  decide +kernel

theorem cmdHelp_formed (clean : ∀ arg ∈ argv, 0 ∉ arg) (given : argv ≠ []) :
    ∃ acts, cmdHelp argv = some (CmdFunc.cmdHelp.call argv.length argv, acts) ∧
      ∀ act ∈ acts, act.Formed := by
  match argv with
  | [] => exact absurd rfl given
  | [name] =>
      refine ⟨_, rfl, fun act member => ?_⟩
      obtain ⟨item, inTable, rfl⟩ := List.mem_map.mp member
      exact help_formed item inTable
  | [name, cmd] =>
      have ret : CmdFunc.cmdHelp.call 2 [name, cmd] = if (findCmd cmd).isSome then 0 else -1 := rfl
      cases item : findCmd cmd with
      | some found =>
          refine ⟨[found.help], ?_, fun act member => ?_⟩
          · rw [item] at ret
            simp only [cmdHelp, item, List.length_cons, List.length_nil, ret, Option.isSome_some, if_true]
          · rw [List.mem_singleton.mp member]
            exact help_formed found (List.mem_of_find?_eq_some item)
      | none =>
          refine ⟨[.printf (ascii "%s Error: command %s not found\n") [.str name, .str cmd]], ?_,
            fun act member => ?_⟩
          · rw [item] at ret
            simp only [cmdHelp, item, List.length_cons, List.length_nil, ret, Option.isSome_none,
              Bool.false_eq_true, if_false]
          · rw [List.mem_singleton.mp member]
            refine printf_formed [true, true] (by decide) rfl ?_
            exact List.forall_mem_cons.mpr ⟨clean name (List.mem_cons_self ..),
              List.forall_mem_singleton.mpr (clean cmd (List.mem_cons_of_mem _ (List.mem_cons_self ..)))⟩
  | name :: _ :: _ :: _ =>
      have nameClean : ∀ arg ∈ [Arg.str name], arg.Clean :=
        List.forall_mem_singleton.mpr (clean name (List.mem_cons_self ..))
      refine ⟨_, rfl, List.forall_mem_cons.mpr ⟨text_formed (by decide), List.forall_mem_cons.mpr ⟨?_,
        List.forall_mem_cons.mpr ⟨text_formed (by decide), List.forall_mem_cons.mpr ⟨?_,
          List.forall_mem_singleton.mpr (text_formed (by decide))⟩⟩⟩⟩⟩
      · exact printf_formed [true] (by decide) rfl nameClean
      · exact printf_formed [true] (by decide) rfl nameClean

theorem echoActs_formed (clean : ∀ arg ∈ argv, 0 ∉ arg) (i : Nat) : ∀ act ∈ echoActs i argv, act.Formed := by
  induction argv generalizing i with
  | nil => exact fun _ member => absurd member List.not_mem_nil
  | cons arg argv ih =>
      refine List.forall_mem_cons.mpr ⟨?_, ih (fun arg member => clean arg (List.mem_cons_of_mem _ member)) _⟩
      refine printf_formed [false, true] (by decide) rfl ?_
      exact List.forall_mem_cons.mpr ⟨trivial,
        List.forall_mem_singleton.mpr (clean arg (List.mem_cons_self ..))⟩

theorem cmdEchoActs_formed (clean : ∀ arg ∈ argv, 0 ∉ arg) (lastCmdRet : Int) :
    ∀ act ∈ cmdEchoActs argv lastCmdRet, act.Formed := by
  refine List.forall_mem_cons.mpr ⟨?_, List.forall_mem_append.mpr ⟨echoActs_formed clean 0,
    List.forall_mem_singleton.mpr ?_⟩⟩
  · exact printf_formed [false] (by decide) rfl (List.forall_mem_singleton.mpr trivial)
  · exact printf_formed [false] (by decide) rfl (List.forall_mem_singleton.mpr trivial)

theorem cmdSysInfo_formed : ∀ act ∈ cmdSysInfo, act.Formed := by decide +kernel

theorem cmdSleep_formed (beyond : List UInt8 → Int) (argv : List (List UInt8)) :
    ∀ act ∈ cmdSleep beyond argv, act.Formed := by
  match argv with
  | [] | [_] | _ :: _ :: _ :: _ => exact fun _ member => absurd member List.not_mem_nil
  | [_, _] =>
      refine List.forall_mem_cons.mpr ⟨?_, List.forall_mem_cons.mpr ⟨trivial,
        List.forall_mem_singleton.mpr ?_⟩⟩
      · exact printf_formed [false] (by decide) rfl (List.forall_mem_singleton.mpr trivial)
      · exact printf_formed [false] (by decide) rfl (List.forall_mem_singleton.mpr trivial)

theorem tasksInfoLine_formed (id status stackSize stackMaxReachedSize : Int) {name : List UInt8}
    (clean : 0 ∉ name) : (tasksInfoLine id status stackSize stackMaxReachedSize name).Formed :=
  printf_formed [false, false, false, false, true] (by decide) rfl
    (List.forall_mem_cons.mpr ⟨trivial, List.forall_mem_cons.mpr ⟨trivial, List.forall_mem_cons.mpr ⟨trivial,
      List.forall_mem_cons.mpr ⟨trivial, List.forall_mem_singleton.mpr clean⟩⟩⟩⟩)

theorem tasksInfoActs_formed {kernels : Nat → Kernel} {ids : List Nat} {ti : YosTaskInfo}
    (run : tasksInfoActs kernels ids ti = some acts) : ∀ act ∈ acts, act.Formed := by
  induction ids generalizing ti acts with
  | nil =>
      cases run
      exact fun _ member => absurd member List.not_mem_nil
  | cons i ids ih =>
      obtain ⟨⟨ret, info⟩, asked, run⟩ := Option.bind_eq_some_iff.mp run
      split at run
      · obtain ⟨name, reads, run⟩ := Option.bind_eq_some_iff.mp run
        obtain ⟨later, rest, rfl⟩ := Option.map_eq_some_iff.mp run
        exact List.forall_mem_cons.mpr ⟨tasksInfoLine_formed _ _ _ _ (cString_clean reads), ih rest⟩
      · exact ih run

/-- **Every message of a command fits its arguments.** -/
theorem CmdFunc.run_formed {func : CmdFunc} {lastCmdRet ret : Int} (clean : ∀ arg ∈ argv, 0 ∉ arg)
    (given : argv ≠ []) (run : func.run outside argv lastCmdRet = some (ret, acts)) :
    ∀ act ∈ acts, act.Formed := by
  cases func with
  | cmdHelp =>
      obtain ⟨acts', run', formed⟩ := cmdHelp_formed clean given
      cases run'.symm.trans run
      exact formed
  | cmdEcho =>
      cases run
      exact cmdEchoActs_formed clean lastCmdRet
  | cmdSysInfo =>
      cases run
      exact cmdSysInfo_formed
  | cmdSleep =>
      cases run
      exact cmdSleep_formed _ _
  | cmdTasksInfo =>
      obtain ⟨acts', listed, same⟩ := Option.map_eq_some_iff.mp run
      obtain ⟨rows, asked, rfl⟩ := Option.map_eq_some_iff.mp listed
      cases same
      exact List.forall_mem_cons.mpr ⟨text_formed (by decide), tasksInfoActs_formed asked⟩
  | cmdExit =>
      cases run
      exact List.forall_mem_singleton.mpr (text_formed (by decide))

/-- A command returns what `call` says, and does something unless `ts` finds a name without an end. -/
theorem CmdFunc.run_ret (func : CmdFunc) (lastCmdRet : Int) (clean : ∀ arg ∈ argv, 0 ∉ arg)
    (given : argv ≠ []) (listed : ∃ rows, Cmdline.cmdTasksInfo outside.kernels outside.ti = some rows) :
    ∃ acts, func.run outside argv lastCmdRet = some (func.call argv.length argv, acts) := by
  cases func with
  | cmdHelp =>
      obtain ⟨acts, run, _⟩ := cmdHelp_formed clean given
      exact ⟨acts, run⟩
  | cmdEcho | cmdSysInfo | cmdSleep | cmdExit => exact ⟨_, rfl⟩
  | cmdTasksInfo =>
      obtain ⟨rows, run⟩ := listed
      exact ⟨rows, by rw [CmdFunc.run, run]; rfl⟩

end Formed

end YosStm32.Cmdline
