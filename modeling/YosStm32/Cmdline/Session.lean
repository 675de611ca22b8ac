/-
**What the command line does with a stream of lines.**

A line asks for the command of `_cmd_list` that its first token names, with its first tokens as
arguments (`Asks`), and the lines are handled one after another up to the first one that asks for `exit`
(`Handles`). `lineCall` and `lineCalls` compute what they ask for (`lineCalls_handles`). The block and the
array that `do_cmdline` uses for every line keep their lengths, and a line overwrites its part of the block
with its own terminator, so nothing of an earlier line is ever read (`doCmdlineLoop_line`).
-/

import YosStm32.Cmdline.Shell
import YosStm32.Cmdline.Tokens

namespace YosStm32.Cmdline

open Lib BasicIo

/-! ### The specification -/

/-- The arguments that a line stands for. -/
def lineArgs (line : List UInt8) : List (List UInt8) := (tokens line).take cmdlineMaxParaCnt

/-- The command of the table whose name is the first argument. -/
def lookup (args : List (List UInt8)) : Option CmdFunc :=
  (args.head?.bind findCmd).bind CmdInfo.func

/-- The call that a line asks for. -/
def lineCall (last : Int) (line : List UInt8) : Option Call :=
  (lookup (lineArgs line)).map fun func => ⟨func, lineArgs line, last⟩

/-- `_last_cmd_ret` after a line. -/
def retAfter (last : Int) (call : Option Call) : Int :=
  call.elim last fun call => call.func.call call.argv.length call.argv

/-- The first token of the line is `exit`. -/
def IsExit (line : List UInt8) : Prop := (tokens line).head? = some cmdlineExitCmdName

instance (line : List UInt8) : Decidable (IsExit line) := inferInstanceAs (Decidable (_ = _))

/-- The calls that the lines ask for, one after another. -/
def lineCalls : (last : Int) → (lines : List (List UInt8)) → List (Option Call)
  | _, [] => []
  | last, line :: lines =>
      lineCall last line ::
        if IsExit line then [] else lineCalls (retAfter last (lineCall last line)) lines

/-- What a line asks for when `_last_cmd_ret` is `last`. -/
inductive Asks (last : Int) (line : List UInt8) : Option Call → Prop where
  /-- A command of the table: its name is the first token. -/
  | command {item : CmdInfo} {func : CmdFunc} (known : item ∈ cmdList)
      (named : (lineArgs line).head? = some item.cmd) (calls : item.func = some func) :
      Asks last line (some ⟨func, lineArgs line, last⟩)
  /-- Nothing: there is no token, or no command of this name. -/
  | nothing (unknown : ∀ item ∈ cmdList, (lineArgs line).head? ≠ some item.cmd) : Asks last line none

/-- The lines are handled in order, up to the first one that asks for `exit`. -/
inductive Handles : Int → List (List UInt8) → List (Option Call) → Prop where
  | done (last : Int) : Handles last [] []
  | exit {last : Int} {line : List UInt8} {call : Option Call} (asks : Asks last line call)
      (isExit : IsExit line) (lines : List (List UInt8)) : Handles last (line :: lines) [call]
  | next {last : Int} {line : List UInt8} {call : Option Call} {lines : List (List UInt8)}
      {calls : List (Option Call)} (asks : Asks last line call) (goesOn : ¬ IsExit line)
      (later : Handles (retAfter last call) lines calls) : Handles last (line :: lines) (call :: calls)

theorem lineCall_asks (last : Int) (line : List UInt8) : Asks last line (lineCall last line) := by
  have hasFunc : ∀ item ∈ cmdList, item.func.isSome := by decide
  rw [lineCall, lookup]
  cases first : (lineArgs line).head? with
  | none => exact .nothing fun item _ => by simp [first]
  | some name =>
      rw [Option.bind_some]
      cases found : findCmd name with
      | none =>
          refine .nothing fun item member named => ?_
          have other := List.find?_eq_none.mp found item member
          rw [first, Option.some.injEq] at named
          exact other (decide_eq_true named.symm)
      | some item =>
          have member := List.mem_of_find?_eq_some found
          have named : item.cmd = name := by
            have matched := List.find?_some found
            exact of_decide_eq_true matched
          obtain ⟨func, calls⟩ := Option.isSome_iff_exists.mp (hasFunc item member)
          rw [Option.bind_some, calls]
          exact .command member (first.trans (congrArg some named.symm)) calls

/-- The computed calls are those that are asked for. -/
theorem lineCalls_handles (last : Int) (lines : List (List UInt8)) :
    Handles last lines (lineCalls last lines) := by
  induction lines generalizing last with
  | nil => exact .done last
  | cons line lines ih =>
      rw [lineCalls]
      split
      · rename_i isExit
        exact .exit (lineCall_asks last line) isExit lines
      · rename_i goesOn
        exact .next (lineCall_asks last line) goesOn (ih _)

/-! ### Looking a command up -/

/-- A list of results, all of them there. -/
theorem mapM_of_map {α β : Type} {f : α → Option β} {xs : List α} {ys : List β}
    (all : xs.map f = ys.map some) : xs.mapM f = some ys := by
  induction xs generalizing ys with
  | nil =>
      obtain rfl := List.map_eq_nil_iff.mp all.symm
      rfl
  | cons x xs ih =>
      cases ys with
      | nil => cases all
      | cons y ys =>
          rw [List.map_cons, List.map_cons, List.cons.injEq] at all
          rw [List.mapM_cons, all.1, ih all.2]
          rfl

/-- The command that ends the session is the one named `exit`. -/
theorem findCmd_exit {name : List UInt8} :
    (findCmd name).bind CmdInfo.func = some .cmdExit ↔ name = cmdlineExitCmdName := by
  constructor
  · intro exits
    obtain ⟨item, found, func⟩ := Option.bind_eq_some_iff.mp exits
    have named := List.find?_some found
    have member := List.mem_of_find?_eq_some found
    have only : ∀ item ∈ cmdList, item.func = some .cmdExit → item.cmd = cmdlineExitCmdName := by
      decide
    rw [← of_decide_eq_true named]
    exact only item member func
  · rintro rfl
    decide

/-- A line ends the session when its call is that of `exit`. -/
theorem lookup_exit {line : List UInt8} :
    lookup (lineArgs line) = some .cmdExit ↔ IsExit line := by
  rw [lookup, lineArgs, IsExit]
  cases tokens line with
  | nil => simp
  | cons name args =>
      show (findCmd name).bind CmdInfo.func = some .cmdExit ↔ some name = some cmdlineExitCmdName
      rw [findCmd_exit, Option.some.injEq]

/-! ### One line -/

section Line

variable {shell : Shell} {line : List UInt8}

/-- **The command of a line is called with the line's tokens.** -/
theorem doCmds_line {argc : Nat} (count : argc = (lineArgs line).length)
    (strings : (shell.argv.take argc).map (fun offset => cString (shell.cmdline.drop offset)) =
      (lineArgs line).map some) :
    doCmds shell argc =
      some (if IsExit line then 0 else 1,
        { shell with lastCmdRet := retAfter shell.lastCmdRet (lineCall shell.lastCmdRet line) },
        lineCall shell.lastCmdRet line) := by
  have args : shell.args argc = some (lineArgs line) := mapM_of_map strings
  have exits : lookup (lineArgs line) = some .cmdExit ↔ IsExit line := lookup_exit
  rw [lineCall]
  generalize lineArgs line = given at *
  cases given with
  | nil =>
      have goesOn : ¬ IsExit line := fun isExit => absurd (exits.mpr isExit) (Option.some_ne_none _).symm
      have none : argc ≤ 0 := Nat.le_of_eq count
      rw [doCmds, if_pos none, if_neg goesOn]
      rfl
  | cons name others =>
      have positive : 0 < argc := by
        rw [count]
        exact Nat.succ_pos _
      obtain ⟨offset, place, string⟩ : ∃ offset, shell.argv[0]? = some offset ∧
          cString (shell.cmdline.drop offset) = some name := by
        have first := congrArg (·[0]?) strings
        simpa [List.getElem?_take_of_lt positive] using first
      have found : findCmdItemByName (some (shell.cmdline.drop offset)) = some (findCmd name) := by
        rw [findCmdItemByName, string]
        rfl
      rw [doCmds, if_neg (Nat.not_le.mpr positive), place, Option.bind_some, found, Option.bind_some,
        args]
      have same : lookup (name :: others) = (findCmd name).bind CmdInfo.func := rfl
      rw [same] at exits ⊢
      cases item : findCmd name with
      | none =>
          rw [item] at exits
          have goesOn : ¬ IsExit line := fun isExit => absurd (exits.mpr isExit) (Option.some_ne_none _).symm
          rw [if_neg goesOn]
          rfl
      | some item' =>
          rw [item, Option.bind_some] at exits
          dsimp only
          rw [Option.bind_some]
          cases func : item'.func with
          | none =>
              rw [func] at exits
              have goesOn : ¬ IsExit line := fun isExit => absurd (exits.mpr isExit) (Option.some_ne_none _).symm
              rw [if_neg goesOn]
              rfl
          | some func' =>
              rw [func, Option.some.injEq] at exits
              simp only [Option.map_some, exits, retAfter, Option.elim_some, count]

/-- The block and the array have the lengths that they are declared with. -/
structure Declared (shell : Shell) : Prop where
  block : shell.cmdline.length = cmdlineMaxLength
  array : shell.argv.length = cmdlineMaxParaCnt

/-- A line that fits into the block, with room for its terminator. -/
structure Fits (line : List UInt8) : Prop where
  short : line.length < cmdlineMaxLength
  clean : 0 ∉ line
  unended : basicIoTextEndMark ∉ line

/-- **One line**: exactly the answers up to its end mark are used, its command is called, and the
loop goes on with the rest unless that is `exit`. -/
theorem doCmdlineLoop_line {answers : Answers} {more : List UInt8} (declared : Declared shell)
    (fits : Fits line) (bytes : answers.reduceOption = line ++ basicIoTextEndMark :: more)
    (fuel : Nat) :
    ∃ used left next, answers = used ++ some basicIoTextEndMark :: left ∧
      used.reduceOption = line ∧ left.reduceOption = more ∧ Declared next ∧
      next.lastCmdRet = retAfter shell.lastCmdRet (lineCall shell.lastCmdRet line) ∧
      doCmdlineLoop (fuel + 1) shell answers =
        if IsExit line then some ⟨next, [lineCall shell.lastCmdRet line], some left⟩
        else (doCmdlineLoop fuel next left).map
          (Session.after (lineCall shell.lastCmdRet line)) := by
  have inside : ([] : List UInt8).length + line.length < cmdlineMaxLength := by
    rw [List.length_nil, Nat.zero_add]
    exact fits.short
  obtain ⟨used, left, split, usedBytes, leftBytes, read⟩ :=
    readlineLoop_line bytes fits.unended inside (Nat.le_of_eq declared.block.symm)
  obtain ⟨args, made, count, strings⟩ :=
    makeArgs_strings fits.clean (shell.cmdline.drop (line.length + 1))
      (Nat.le_of_eq declared.array.symm)
  have lengths := makeArgs_lengths made
  have block : (line ++ 0 :: shell.cmdline.drop (line.length + 1)).length = cmdlineMaxLength := by
    have short := fits.short
    have whole := declared.block
    rw [List.length_append, List.length_cons, List.length_drop]
    omega
  refine ⟨used, left, ⟨args.cmdline, args.argv,
    retAfter shell.lastCmdRet (lineCall shell.lastCmdRet line)⟩, split, usedBytes, leftBytes,
    ⟨lengths.1.trans block, lengths.2.trans declared.array⟩, rfl, ?_⟩
  have line' : basicIoReadline (some shell.cmdline) cmdlineMaxLength answers =
      some (.returned (0 + line.length + 1 : Nat)
        (some (line ++ 0 :: shell.cmdline.drop (line.length + 1))) left) := read
  have called : doCmds ⟨args.cmdline, args.argv, shell.lastCmdRet⟩ args.argc = _ :=
    doCmds_line count strings
  rw [doCmdlineLoop, line', Option.bind_some]
  simp only [ge_iff_le, Int.natCast_nonneg, if_true, Option.bind_some, made, called]
  split <;> rfl

end Line

/-! ### All lines -/

/-- The lines as they arrive. -/
def stream (lines : List (List UInt8)) : List UInt8 := lines.flatMap (· ++ [basicIoTextEndMark])

/-- The input used up to the end of a line, when it is the first one that asks for `exit`. -/
def UsedUpTo (before : List (List UInt8)) (line : List UInt8) (answers left : Answers) : Prop :=
  ∃ used, answers = used ++ some basicIoTextEndMark :: left ∧
    used.reduceOption = stream before ++ line

theorem doCmdlineLoop_lines {lines : List (List UInt8)} {last : List UInt8} {shell : Shell}
    {answers : Answers} {fuel : Nat} (declared : Declared shell)
    (fits : ∀ line ∈ lines, Fits line) (short : last.length < cmdlineMaxLength)
    (unended : basicIoTextEndMark ∉ last)
    (bytes : answers.reduceOption = stream lines ++ last) (enough : answers.length < fuel) :
    ∃ session, doCmdlineLoop fuel shell answers = some session ∧
      session.calls = lineCalls shell.lastCmdRet lines ∧
      session.shell.lastCmdRet = session.calls.foldl retAfter shell.lastCmdRet ∧
      (∀ before line after, lines = before ++ line :: after → (∀ other ∈ before, ¬ IsExit other) →
        IsExit line → ∃ left, session.returned = some left ∧ UsedUpTo before line answers left) ∧
      ((∀ line ∈ lines, ¬ IsExit line) → session.returned = none) := by
  induction lines generalizing shell answers fuel with
  | nil =>
      cases fuel with
      | zero => exact absurd enough (Nat.not_lt_zero _)
      | succ fuel =>
          have inside : ([] : List UInt8).length + last.length < cmdlineMaxLength := by
            rw [List.length_nil, Nat.zero_add]
            exact short
          have waiting : basicIoReadline (some shell.cmdline) cmdlineMaxLength answers =
              some (.waiting (0 + last.length) (last ++ shell.cmdline.drop last.length)) :=
            readlineLoop_waiting bytes unended inside (Nat.le_of_eq declared.block.symm)
          refine ⟨⟨{ shell with cmdline := last ++ shell.cmdline.drop last.length }, [], none⟩,
            ?_, rfl, rfl, ?_, fun _ => rfl⟩
          · rw [doCmdlineLoop, waiting]
            rfl
          · intro before line after split
            cases before <;> cases split
  | cons line lines ih =>
      cases fuel with
      | zero => exact absurd enough (Nat.not_lt_zero _)
      | succ fuel =>
          have first : answers.reduceOption =
              line ++ basicIoTextEndMark :: (stream lines ++ last) := by
            rw [bytes, stream, List.flatMap_cons, List.append_assoc, List.append_assoc]
            rfl
          obtain ⟨used, left, next, rfl, usedBytes, leftBytes, declared', ret, run⟩ :=
            doCmdlineLoop_line declared (fits line (List.mem_cons_self ..)) first fuel
          by_cases isExit : IsExit line
          · rw [if_pos isExit] at run
            refine ⟨_, run, ?_, ret, ?_, fun none => absurd isExit (none line (List.mem_cons_self ..))⟩
            · rw [lineCalls, if_pos isExit]
            · intro before other after split others _
              cases before with
              | nil =>
                  rw [List.nil_append, List.cons.injEq] at split
                  obtain ⟨rfl, rfl⟩ := split
                  exact ⟨left, rfl, used, rfl, usedBytes⟩
              | cons head before =>
                  rw [List.cons_append, List.cons.injEq] at split
                  obtain ⟨rfl, _⟩ := split
                  exact absurd isExit (others line (List.mem_cons_self ..))
          · rw [if_neg isExit] at run
            have fuelLeft : left.length < fuel := by
              rw [List.length_append, List.length_cons] at enough
              omega
            obtain ⟨session, later, calls, lastRet, returned, waits⟩ := ih declared'
              (fun other member => fits other (List.mem_cons_of_mem _ member)) leftBytes fuelLeft
            rw [later] at run
            refine ⟨_, run, ?_, ?_, ?_, ?_⟩
            · show lineCall shell.lastCmdRet line :: session.calls = _
              rw [lineCalls, if_neg isExit, calls, ret]
            · show session.shell.lastCmdRet = _
              rw [lastRet, ret]
              rfl
            · intro before other after split others exits
              cases before with
              | nil =>
                  rw [List.nil_append, List.cons.injEq] at split
                  obtain ⟨rfl, _⟩ := split
                  exact absurd exits isExit
              | cons head before =>
                  rw [List.cons_append, List.cons.injEq] at split
                  obtain ⟨rfl, rfl⟩ := split
                  obtain ⟨rest, gone, used', rfl, usedBytes'⟩ := returned before other after rfl
                    (fun line member => others line (List.mem_cons_of_mem _ member)) exits
                  refine ⟨rest, gone, used ++ some basicIoTextEndMark :: used', ?_, ?_⟩
                  · rw [List.append_assoc]
                    rfl
                  · rw [List.reduceOption_append, List.reduceOption_cons_of_some, usedBytes,
                      usedBytes', stream, stream, List.flatMap_cons, List.append_assoc,
                      List.append_assoc]
                    rfl
            · exact fun none => waits fun other member => none other (List.mem_cons_of_mem _ member)

/-- **The command line, from the bytes of the port to the calls of the commands.** However the port
delivers the lines, with whatever failed reads in between and the start of a further line after them,
`do_cmdline` makes the calls that the lines ask for, one line after another; `_last_cmd_ret` is at each
call what the latest earlier one returned; and it returns at the first line whose first token is
`exit`, having used the input up to the end of that line, and otherwise has not returned. -/
theorem doCmdline_session {lines : List (List UInt8)} {last : List UInt8} {shell : Shell}
    {answers : Answers} (declared : Declared shell) (fits : ∀ line ∈ lines, Fits line)
    (short : last.length < cmdlineMaxLength) (unended : basicIoTextEndMark ∉ last)
    (bytes : answers.reduceOption = stream lines ++ last) :
    ∃ session, doCmdline shell answers = some session ∧
      session.calls = lineCalls shell.lastCmdRet lines ∧
      Handles shell.lastCmdRet lines session.calls ∧
      session.shell.lastCmdRet = session.calls.foldl retAfter shell.lastCmdRet ∧
      (∀ before line after, lines = before ++ line :: after → (∀ other ∈ before, ¬ IsExit other) →
        IsExit line → ∃ left, session.returned = some left ∧ UsedUpTo before line answers left) ∧
      ((∀ line ∈ lines, ¬ IsExit line) → session.returned = none) := by
  obtain ⟨session, run, calls, rest⟩ :=
    doCmdlineLoop_lines declared fits short unended bytes (Nat.lt_succ_self _)
  exact ⟨session, run, calls, calls ▸ lineCalls_handles shell.lastCmdRet lines, rest⟩

/-- `help me`, an empty line, and a quoted `exit`. -/
def sampleLines : List (List UInt8) :=
  [[104, 101, 108, 112, 32, 109, 101], [], [34, 101, 120, 105, 116, 34]]

/-- What a port answers that delivers the three lines after failed reads, and a byte more. -/
def sampleAnswers : Answers :=
  [none, some 104, some 101, none, some 108, some 112, some 32, some 109, some 101, some 10, some 10,
    some 34, some 101, some 120, some 105, some 116, some 34, some 10, some 7]

/-- No command is named `me`, so `help` fails; `exit` sees that, and nothing after its line is read. -/
theorem doCmdline_session_sampleAnswers :
    ∃ session, doCmdline ⟨List.replicate 256 0, List.replicate 10 0, 0⟩ sampleAnswers =
        some session ∧
      session.calls = [some ⟨.cmdHelp, [cmdlineHelpCmdName, [109, 101]], 0⟩, none,
        some ⟨.cmdExit, [cmdlineExitCmdName], -1⟩] ∧
      ∃ left, session.returned = some left ∧ left.reduceOption = [7] := by
  have fits : ∀ line ∈ sampleLines, Fits line := by
    intro line member
    simp only [sampleLines, List.mem_cons, List.not_mem_nil, or_false] at member
    rcases member with rfl | rfl | rfl <;> exact ⟨by decide, by decide, by decide⟩
  have bytes : sampleAnswers.reduceOption = stream sampleLines ++ [7] := rfl
  have declared : Declared ⟨List.replicate 256 0, List.replicate 10 0, 0⟩ :=
    ⟨List.length_replicate, List.length_replicate⟩
  obtain ⟨session, run, calls, _, _, returned, _⟩ :=
    doCmdline_session declared fits (by decide) (by decide) bytes
  have called : lineCalls 0 sampleLines = [some ⟨.cmdHelp, [cmdlineHelpCmdName, [109, 101]], 0⟩, none,
      some ⟨.cmdExit, [cmdlineExitCmdName], -1⟩] := by decide +kernel
  obtain ⟨left, back, used, split, before⟩ := returned (sampleLines.take 2) _ [] rfl
    (by decide +kernel) (by decide +kernel)
  refine ⟨session, run, calls.trans called, left, back, ?_⟩
  have rest := congrArg List.reduceOption split
  rw [bytes, List.reduceOption_append, before, List.reduceOption_cons_of_some] at rest
  have whole : stream sampleLines ++ [7] = stream sampleLines ++ left.reduceOption := rest
  exact (List.append_cancel_left whole).symm

end YosStm32.Cmdline
