/-
**The task of the command line** (`_cmdline_task` in `main.c`).

The task calls `do_cmdline` again and again, so `exit` ends a session and the next one starts with a banner
of its own; the line block, `_ARGV` and `_last_cmd_ret` stay from session to session. For the task the whole
stream of lines has one transcript (`cmdlineTask_transcript`), and it never returns.
-/

import YosStm32.Cmdline.Transcript

namespace YosStm32.Cmdline

open Lib BasicIo

/-- Calls that were made before. -/
def Talk.behind (calls : List (Option Call)) (talk : Talk) : Talk :=
  { talk with session := { talk.session with calls := calls ++ talk.session.calls } }

/-- What follows when `do_cmdline` has returned, if it has; its first line was line `n`. -/
def andAgain (again : Nat → Shell → Answers → Console → Option Talk) (n : Nat) (done : Talk) :
    Option Talk :=
  match done.session.returned with
  | none => some done
  | some left =>
      (again (n + done.session.calls.length) done.session.shell left done.console).map
        (Talk.behind done.session.calls)

/-- `_cmdline_task`. Each session that ends has used an answer at least. -/
def cmdlineTask (frames : Nat → List UInt8) (outside : Nat → Outside) :
    (fuel : Nat) → (n : Nat) → Shell → Answers → Console → Option Talk
  | 0, _, _, _, _ => none
  | fuel + 1, n, shell, answers, console =>
      (talk frames outside n shell answers console).bind (andAgain (cmdlineTask frames outside fuel) n)

/-! ### The specification -/

/-- The calls for the lines. -/
def taskCalls : (last : Int) → (lines : List (List UInt8)) → List (Option Call)
  | _, [] => []
  | last, line :: lines =>
      lineCall last line :: taskCalls (retAfter last (lineCall last line)) lines

/-- The acts for the lines from the `n`-th one on. -/
def taskTalk (outside : Nat → Outside) : (n : Nat) → (last : Int) → List (List UInt8) → Option (List Act)
  | _, _, [] => some [prompt]
  | n, last, line :: lines =>
      (lineActs (outside n) last line).bind fun acts =>
        (taskTalk outside (n + 1) (retAfter last (lineCall last line)) lines).map fun more =>
          prompt :: (acts ++ ((if IsExit line then banner else []) ++ more))

/-- What the task does from its start on. -/
def taskTranscript (outside : Nat → Outside) (last : Int) (lines : List (List UInt8)) :
    Option (List Act) :=
  (taskTalk outside 0 last lines).map (banner ++ ·)

section Lines

variable {frames : Nat → List UInt8} {outside : Nat → Outside} {lines : List (List UInt8)}
  {last : List UInt8} {shell : Shell} {answers : Answers}

theorem andAgain_after (again : Nat → Shell → Answers → Console → Option Talk) (n : Nat)
    (call : Option Call) (done : Talk) :
    andAgain again n (done.after call) = (andAgain again (n + 1) done).map (Talk.after call) := by
  have place : n + (done.session.calls.length + 1) = n + 1 + done.session.calls.length := by omega
  have returned : (done.after call).session.returned = done.session.returned := rfl
  rw [andAgain, andAgain, returned]
  cases done.session.returned with
  | none => rfl
  | some left =>
      show (again (n + (done.session.calls.length + 1)) _ left _).map _ = _
      rw [place, Option.map_map]
      rfl

/-- **Behind `exit`** a new session starts. -/
theorem behindLine_exit {line : List UInt8} {split next : Shell} {call : Option Call} {left : Answers}
    {rest : List Act} {calls : List (Option Call)} {fuel again n : Nat}
    (sizes : ∀ k, (frames k).length = cmdlineMaxLength) (isExit : IsExit line)
    (later : ∀ console, ∃ done,
      (talkLoop frames outside (left.length + 1) (n + 1) next left console).bind
          (andAgain (cmdlineTask frames outside again) (n + 1)) = some done ∧
        Does rest console done.console ∧ done.session.returned = none ∧
        (done.console.printing.port ≠ none → done.session.calls = calls)) (console : Console) :
    ∃ done, (behindLine frames outside fuel n line split next call left console).bind
        (andAgain (cmdlineTask frames outside (again + 1)) n) = some done ∧
      Does (banner ++ rest) console done.console ∧ done.session.returned = none ∧
      (done.console.printing.port ≠ none → done.session.calls = call :: calls) := by
  rw [behindLine, if_pos isExit]
  split_ifs with stuck
  · exact ⟨_, rfl, Does.stuck stuck _, rfl, fun going => absurd stuck going⟩
  · obtain ⟨started, greeted, does⟩ := perform_does sizes banner_formed console
    rw [Option.bind_some, andAgain]
    dsimp only
    rw [cmdlineTask, talk, List.length_singleton, greeted, Option.bind_some]
    by_cases stuck' : started.printing.port = none
    · rw [if_pos stuck']
      exact ⟨_, rfl, does.append (Does.stuck stuck' rest), rfl, fun going => absurd stuck' going⟩
    · rw [if_neg stuck']
      obtain ⟨done, run, does', returned, same⟩ := later started
      refine ⟨done.after call, by rw [run]; rfl, does.append does', returned, fun going => ?_⟩
      exact congrArg (call :: ·) (same going)

/-- **Behind any other line** the session goes on. -/
theorem behindLine_more {line : List UInt8} {split next : Shell} {call : Option Call} {left : Answers}
    {rest : List Act} {calls : List (Option Call)} {fuel n : Nat}
    {again : Nat → Shell → Answers → Console → Option Talk} (other : ¬ IsExit line)
    (later : ∀ console, ∃ done,
      (talkLoop frames outside fuel (n + 1) next left console).bind (andAgain again (n + 1)) = some done ∧
        Does rest console done.console ∧ done.session.returned = none ∧
        (done.console.printing.port ≠ none → done.session.calls = calls)) (console : Console) :
    ∃ done, (behindLine frames outside fuel n line split next call left console).bind (andAgain again n) =
        some done ∧
      Does rest console done.console ∧ done.session.returned = none ∧
      (done.console.printing.port ≠ none → done.session.calls = call :: calls) := by
  rw [behindLine, if_neg other]
  split_ifs with stuck
  · exact ⟨_, rfl, Does.stuck stuck rest, rfl, fun going => absurd stuck going⟩
  · obtain ⟨done, run, does, returned, same⟩ := later console
    refine ⟨done.after call, ?_, does, returned, fun going => ?_⟩
    · rw [Option.bind_map]
      have after : andAgain again n ∘ Talk.after call =
          Option.map (Talk.after call) ∘ andAgain again (n + 1) :=
        funext fun done => andAgain_after _ n call done
      rw [after, ← Option.map_bind, run, Option.map_some]
    · exact congrArg (call :: ·) (same going)

/-- What is printed for the lines, over all sessions. -/
theorem andAgain_lines {n fuel again : Nat} (sizes : ∀ k, (frames k).length = cmdlineMaxLength)
    (listed : ∀ n, ∃ rows, cmdTasksInfo (outside n).kernels (outside n).ti = some rows)
    (declared : Declared shell) (fits : ∀ line ∈ lines, Fits line)
    (short : last.length < cmdlineMaxLength) (unended : basicIoTextEndMark ∉ last)
    (bytes : answers.reduceOption = stream lines ++ last) (enough : answers.length < fuel)
    (enough' : answers.length ≤ again) :
    ∃ acts, taskTalk outside n shell.lastCmdRet lines = some acts ∧ ∀ console, ∃ done,
      (talkLoop frames outside fuel n shell answers console).bind
          (andAgain (cmdlineTask frames outside again) n) = some done ∧
        Does acts console done.console ∧ done.session.returned = none ∧
        (done.console.printing.port ≠ none → done.session.calls = taskCalls shell.lastCmdRet lines) := by
  induction lines generalizing shell answers n fuel again with
  | nil =>
      cases fuel with
      | zero => exact absurd enough (Nat.not_lt_zero _)
      | succ fuel =>
          refine ⟨_, rfl, fun console => ?_⟩
          obtain ⟨talk, run, does, returned, calls, -⟩ :=
            talkLoop_waiting outside n fuel sizes declared short unended bytes console
          refine ⟨talk, ?_, does, returned, fun _ => calls⟩
          rw [run, Option.bind_some, andAgain, returned]
  | cons line lines ih =>
      cases fuel with
      | zero => exact absurd enough (Nat.not_lt_zero _)
      | succ fuel =>
          have first : answers.reduceOption =
              line ++ basicIoTextEndMark :: (stream lines ++ last) := by
            rw [bytes, stream, List.flatMap_cons, List.append_assoc, List.append_assoc]
            rfl
          obtain ⟨acts, left, split, next, asked, formed, leftBytes, fewer, declared', ret, _, run⟩ :=
            talkLoop_line frames fuel declared (fits line (List.mem_cons_self ..)) first (listed n)
          have fits' : ∀ line ∈ lines, Fits line := fun other member =>
            fits other (List.mem_cons_of_mem _ member)
          rw [taskTalk, taskCalls, asked, Option.bind_some, ← ret]
          generalize lineCall shell.lastCmdRet line = call at run ⊢
          -- What is done behind the line: the next session, or the rest of this one.
          obtain ⟨more, rest, later⟩ : ∃ more, taskTalk outside (n + 1) next.lastCmdRet lines = some more ∧
              ∀ console : Console, ∃ done,
                (behindLine frames outside fuel n line split next call left console).bind
                    (andAgain (cmdlineTask frames outside again) n) = some done ∧
                Does ((if IsExit line then banner else []) ++ more) console done.console ∧
                done.session.returned = none ∧ (done.console.printing.port ≠ none →
                  done.session.calls = call :: taskCalls next.lastCmdRet lines) := by
            by_cases isExit : IsExit line
            · cases again with
              | zero => omega
              | succ again =>
                  obtain ⟨more, rest, later⟩ := ih (n := n + 1) declared' fits' leftBytes
                    (Nat.lt_succ_self left.length) (by omega : left.length ≤ again)
                  refine ⟨more, rest, ?_⟩
                  rw [if_pos isExit]
                  exact behindLine_exit sizes isExit later
            · obtain ⟨more, rest, later⟩ := ih (n := n + 1) declared' fits' leftBytes
                (Nat.lt_of_lt_of_le fewer (Nat.le_of_lt_succ enough)) (by omega : left.length ≤ again)
              refine ⟨more, rest, ?_⟩
              rw [if_neg isExit, List.nil_append]
              exact behindLine_more isExit later
          refine ⟨prompt :: (acts ++ ((if IsExit line then banner else []) ++ more)),
            by rw [rest, Option.map_some], fun console => ?_⟩
          rw [run]
          refine prompted_line sizes formed ?_ later console
          exact fun _ stuck => ⟨rfl, rfl, fun going => absurd stuck going⟩

/-- **The transcript of the task.** However the port delivers the lines and takes the bytes: the banner, for
each line a prompt and what its command prints, and the banner again behind each `exit`. The task does not
return. -/
theorem cmdlineTask_lines (sizes : ∀ k, (frames k).length = cmdlineMaxLength)
    (listed : ∀ n, ∃ rows, cmdTasksInfo (outside n).kernels (outside n).ti = some rows)
    (declared : Declared shell) (fits : ∀ line ∈ lines, Fits line)
    (short : last.length < cmdlineMaxLength) (unended : basicIoTextEndMark ∉ last)
    (bytes : answers.reduceOption = stream lines ++ last) :
    ∃ acts, taskTranscript outside shell.lastCmdRet lines = some acts ∧ ∀ console, ∃ done,
      cmdlineTask frames outside (answers.length + 1) 0 shell answers console = some done ∧
        Does acts console done.console ∧ done.session.returned = none ∧
        (done.console.printing.port ≠ none → done.session.calls = taskCalls shell.lastCmdRet lines) := by
  obtain ⟨acts, asked, run⟩ := andAgain_lines (n := 0) sizes listed declared fits short unended bytes
    (Nat.lt_succ_self _) (Nat.le_refl _)
  refine ⟨banner ++ acts, by rw [taskTranscript, asked, Option.map_some], fun console => ?_⟩
  obtain ⟨next, greeted, does⟩ := perform_does sizes banner_formed console
  rw [cmdlineTask, talk, greeted, Option.bind_some]
  by_cases stuck : next.printing.port = none
  · rw [if_pos stuck]
    exact ⟨_, rfl, does.append (Does.stuck stuck acts), rfl, fun going => absurd stuck going⟩
  · rw [if_neg stuck]
    obtain ⟨done, run, does', returned, calls⟩ := run next
    exact ⟨done, run, does.append does', returned, calls⟩

end Lines

end YosStm32.Cmdline
