/-
**The command line** (`cmdline.c`, `cmdline.h`): reading a line, looking the command up, calling it.

A command is a member of `CmdFunc`; what a call prints is left out, what it returns is `call`. The
line is read into the same block `_cmdline` again and again, and `_ARGV` keeps its offsets from line
to line. `doCmdline` recurses on what the port answers; its outcome lists, for each line handled,
the call that was made.
-/

import YosStm32.BasicIo.BasicIo
import YosStm32.Cmdline.MakeArgs

namespace YosStm32.Cmdline

open Lib BasicIo

/-- `CMDLINE_MAX_LENGTH`. -/
def cmdlineMaxLength : Nat := 256

/-- `CMDLINE_HELP_CMD_NAME`: `"help"`. -/
def cmdlineHelpCmdName : List UInt8 := [104, 101, 108, 112]

/-- `CMDLINE_EXIT_CMD_NAME`: `"exit"`. -/
def cmdlineExitCmdName : List UInt8 := [101, 120, 105, 116]

/-- The functions of type `_CMDLINE_CMD_FUNC` in the table. -/
inductive CmdFunc where
  | cmdHelp
  | cmdEcho
  | cmdSysInfo
  | cmdSleep
  | cmdTasksInfo
  | cmdExit
  deriving DecidableEq, Repr

/-- `struct _cmd_info`; the description is for printing only. -/
structure CmdInfo where
  func : Option CmdFunc
  cmd : List UInt8
  deriving DecidableEq, Repr

/-- `_cmd_list`: `help`, `echo`, `si`, `sleep`, `ts` and `exit`. -/
def cmdList : List CmdInfo :=
  [⟨some .cmdHelp, cmdlineHelpCmdName⟩,
    ⟨some .cmdEcho, [101, 99, 104, 111]⟩,
    ⟨some .cmdSysInfo, [115, 105]⟩,
    ⟨some .cmdSleep, [115, 108, 101, 101, 112]⟩,
    ⟨some .cmdTasksInfo, [116, 115]⟩,
    ⟨some .cmdExit, cmdlineExitCmdName⟩]

/-- The loop of `_find_cmd_item_by_name`. -/
def findCmd (name : List UInt8) : Option CmdInfo := cmdList.find? fun item => item.cmd = name

/-- `_find_cmd_item_by_name`; the outer `none` is a name without an end. -/
def findCmdItemByName (name : Option (List UInt8)) : Option (Option CmdInfo) :=
  match name with
  | none => some none
  | some name => (cString name).map findCmd

/-- The value that a command returns. -/
def CmdFunc.call (func : CmdFunc) (argc : Nat) (argv : List (List UInt8)) : Int :=
  match func with
  | .cmdHelp =>
      if argc = 1 then 0
      else if argc = 2 then
        if (argv[1]?.bind findCmd).isSome then 0 else -1
      else -2
  | .cmdEcho | .cmdSysInfo | .cmdSleep | .cmdTasksInfo | .cmdExit => 0

/-- The statics of `cmdline.c`: `_cmdline`, `_ARGV` and `_last_cmd_ret`. -/
structure Shell where
  cmdline : List UInt8
  argv : List Nat
  lastCmdRet : Int
  deriving DecidableEq, Repr

/-- A call of a command: its arguments, and `_last_cmd_ret` when it is called. -/
structure Call where
  func : CmdFunc
  argv : List (List UInt8)
  lastCmdRet : Int
  deriving DecidableEq, Repr

/-- The strings that the first `argc` elements of `_ARGV` point to. -/
def Shell.args (shell : Shell) (argc : Nat) : Option (List (List UInt8)) :=
  (shell.argv.take argc).mapM fun offset => cString (shell.cmdline.drop offset)

/-- `_do_cmds`: the value returned, the statics and the call made. -/
def doCmds (shell : Shell) (argc : Nat) : Option (Int × Shell × Option Call) :=
  if argc ≤ 0 then some (1, shell, none)
  else shell.argv[0]?.bind fun name =>
    (findCmdItemByName (some (shell.cmdline.drop name))).bind fun item =>
      match item with
      | some item =>
          match item.func with
          | some func => (shell.args argc).map fun argv =>
              (if func = .cmdExit then 0 else 1, { shell with lastCmdRet := func.call argc argv },
                some ⟨func, argv, shell.lastCmdRet⟩)
          | none => some (1, shell, none)
      | none => some (1, shell, none)

/-- What `do_cmdline` has done: the statics, the call made for each line, and what is left of the
input when it has returned. -/
structure Session where
  shell : Shell
  calls : List (Option Call)
  returned : Option Answers
  deriving DecidableEq, Repr

/-- One more line, handled before. -/
def Session.after (call : Option Call) (session : Session) : Session :=
  { session with calls := call :: session.calls }

/-- The loop of `do_cmdline`. -/
def doCmdlineLoop : (fuel : Nat) → Shell → Answers → Option Session
  | 0, _, _ => none
  | fuel + 1, shell, answers =>
      (basicIoReadline (some shell.cmdline) cmdlineMaxLength answers).bind fun read =>
        match read with
        | .waiting _ buf => some ⟨{ shell with cmdline := buf }, [], none⟩
        | .returned result buf left =>
            if result ≥ 0 then
              buf.bind fun buf => (makeArgs buf shell.argv).bind fun args =>
                (doCmds { shell with cmdline := args.cmdline, argv := args.argv } args.argc).bind
                  fun (cmdFlag, shell, call) =>
                    if cmdFlag ≠ 0 then
                      (doCmdlineLoop fuel shell left).map (Session.after call)
                    else some ⟨shell, [call], some left⟩
            else some ⟨shell, [], some left⟩

/-- `do_cmdline`. Each line takes one answer at least. -/
def doCmdline (shell : Shell) (answers : Answers) : Option Session :=
  doCmdlineLoop (answers.length + 1) shell answers

end YosStm32.Cmdline
