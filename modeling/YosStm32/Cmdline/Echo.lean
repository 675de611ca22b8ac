/-
**What `echo` prints** (`_cmd_echo` in `cmdline.c`).

Each argument is printed as a line `[%2d]\t[%s]\n` of its own, through a buffer as long as the one
that the command line is read into. The line adds eight characters to the argument, so an argument with
more than 247 characters is cut short; and then its line is nowhere in the output
(`inFull_echoed`): what is left of it runs into the next line that is printed, which would have to end
as the argument does. A command line has no room for a second long argument, nor for one after a long
one that is quoted (`need_tokens`).
-/

import Mathlib.Tactic.SplitIfs
import YosStm32.BasicIo.Lines
import YosStm32.Cmdline.Print
import YosStm32.Cmdline.Session
import YosStm32.Lib.Infix

namespace YosStm32.Cmdline

open Lib BasicIo

/-! ### The command -/

/-- `"echo"`, the command's name. -/
def echoName : List UInt8 := [101, 99, 104, 111]

/-- `"Echo got %d paramaters:"`. -/
def echoHead (argc : Nat) : List UInt8 :=
  [69, 99, 104, 111, 32, 103, 111, 116, 32] ++ decimal argc ++
    [32, 112, 97, 114, 97, 109, 97, 116, 101, 114, 115, 58]

/-- `"[%2d]\t[%s]"`. -/
def echoLine (i : Nat) (arg : List UInt8) : List UInt8 :=
  91 :: (decimal2 i ++ [93, 9, 91] ++ (arg ++ [93]))

/-- `"Last cmd ret: [%d]"`. -/
def echoFoot (lastCmdRet : Int) : List UInt8 :=
  [76, 97, 115, 116, 32, 99, 109, 100, 32, 114, 101, 116, 58, 32, 91] ++ decimal lastCmdRet ++ [93]

/-- `'\n'`, at the end of each of these formats. -/
def newline : UInt8 := 10

/-- The loop of `_cmd_echo`; `frames` are what lies in the buffer of `_cmd_printf` at its calls, one
after another. -/
def cmdEchoLoop (frames : Nat → List UInt8) : (i : Nat) → List (List UInt8) → Printing → Option Printing
  | _, [], printing => some printing
  | i, arg :: argv, printing =>
      (cmdPrintf (frames (i + 1)) (echoLine i arg ++ [newline]) printing).bind
        (cmdEchoLoop frames (i + 1) argv)

/-- `_cmd_echo`, with `CMDLINE_OUTPUT_VERBOSE`. -/
def cmdEcho (frames : Nat → List UInt8) (argv : List (List UInt8)) (lastCmdRet : Int)
    (printing : Printing) : Option Printing :=
  (cmdPrintf (frames 0) (echoHead argv.length ++ [newline]) printing).bind fun printing =>
    (cmdEchoLoop frames 0 argv printing).bind
      (cmdPrintf (frames (argv.length + 1)) (echoFoot lastCmdRet ++ [newline]))

/-- The output contains the complete line of every argument. -/
def InFull (argv : List (List UInt8)) (output : List UInt8) : Prop :=
  ∀ i arg, argv[i]? = some arg → echoLine i arg ++ [newline] <:+: output

/-! ### What is printed -/

/-- What the buffer of `_cmd_printf` has room for. -/
def printable (text : List UInt8) : List UInt8 := text.take (cmdlineMaxLength - 1)

/-- The arguments' lines, as printed. -/
def echoedArgs : (i : Nat) → List (List UInt8) → List UInt8
  | _, [] => []
  | i, arg :: argv => printable (echoLine i arg ++ [newline]) ++ echoedArgs (i + 1) argv

/-- All that `echo` prints. -/
def echoed (argv : List (List UInt8)) (lastCmdRet : Int) : List UInt8 :=
  printable (echoHead argv.length ++ [newline]) ++
    (echoedArgs 0 argv ++ printable (echoFoot lastCmdRet ++ [newline]))

section Printed

variable {frames : Nat → List UInt8} {argv : List (List UInt8)} {arg text more : List UInt8} {c : UInt8}

/-- Neither a NUL nor a tab nor an end of line, in the first line and in the last one. -/
theorem not_mem_echoHead (other : c = 0 ∨ c = 9 ∨ c = 10) (argc : Nat) : c ∉ echoHead argc := by
  have below : c < 45 := by rcases other with rfl | rfl | rfl <;> decide
  rw [echoHead, List.mem_append, List.mem_append, not_or, not_or]
  refine ⟨⟨?_, not_mem_decimal below⟩, ?_⟩ <;> rcases other with rfl | rfl | rfl <;> decide

theorem not_mem_echoFoot (other : c = 0 ∨ c = 9 ∨ c = 10) (lastCmdRet : Int) :
    c ∉ echoFoot lastCmdRet := by
  have below : c < 45 := by rcases other with rfl | rfl | rfl <;> decide
  rw [echoFoot, List.mem_append, List.mem_append, not_or, not_or]
  refine ⟨⟨?_, not_mem_decimal below⟩, ?_⟩ <;> rcases other with rfl | rfl | rfl <;> decide

theorem not_mem_echoLine (other : c = 0 ∨ c = 10) (clean : c ∉ arg) (i : Nat) : c ∉ echoLine i arg := by
  have below : c < 45 ∧ c ≠ 32 := by rcases other with rfl | rfl <;> decide
  have number : c ∉ decimal2 i := not_mem_decimal2 below.1 below.2
  have format : c ∉ [91, 93, 9, 91, 93] := by rcases other with rfl | rfl <;> decide
  simp only [List.mem_cons, List.not_mem_nil, not_or] at format
  simp only [echoLine, List.mem_cons, List.mem_append, List.not_mem_nil, not_or]
  tauto

theorem clean_line (clean : 0 ∉ text) : 0 ∉ text ++ [newline] := by
  rw [List.mem_append, not_or]
  exact ⟨clean, by decide⟩

/-- One part of a command after another. -/
theorem prints_bind {one two : Printing → Option Printing} {printing : Printing}
    (first : ∃ middle, one printing = some middle ∧ Prints text printing middle)
    (second : ∀ middle, ∃ last, two middle = some last ∧ Prints more middle last) :
    ∃ last, (one printing).bind two = some last ∧ Prints (text ++ more) printing last := by
  obtain ⟨middle, run, prints⟩ := first
  obtain ⟨last, run', prints'⟩ := second middle
  exact ⟨last, by rw [run, Option.bind_some, run'], prints.append prints'⟩

theorem cmdEchoLoop_prints (sizes : ∀ k, (frames k).length = cmdlineMaxLength)
    (clean : ∀ arg ∈ argv, 0 ∉ arg) (i : Nat) (printing : Printing) :
    ∃ last, cmdEchoLoop frames i argv printing = some last ∧
      Prints (echoedArgs i argv) printing last := by
  induction argv generalizing i printing with
  | nil => exact ⟨printing, rfl, Prints.nil printing⟩
  | cons arg argv ih =>
      have line : 0 ∉ echoLine i arg ++ [newline] :=
        clean_line (not_mem_echoLine (Or.inl rfl) (clean arg (List.mem_cons_self ..)) i)
      exact prints_bind (cmdPrintf_prints (sizes _) line printing)
        (ih (fun arg member => clean arg (List.mem_cons_of_mem _ member)) (i + 1))

/-- **What `_cmd_echo` prints**, whatever its buffers hold before. -/
theorem cmdEcho_prints (sizes : ∀ k, (frames k).length = cmdlineMaxLength)
    (clean : ∀ arg ∈ argv, 0 ∉ arg) (lastCmdRet : Int) (printing : Printing) :
    ∃ last, cmdEcho frames argv lastCmdRet printing = some last ∧
      Prints (echoed argv lastCmdRet) printing last := by
  have head := clean_line (not_mem_echoHead (Or.inl rfl) argv.length)
  have foot := clean_line (not_mem_echoFoot (Or.inl rfl) lastCmdRet)
  exact prints_bind (cmdPrintf_prints (sizes 0) head printing) fun printing =>
    prints_bind (cmdEchoLoop_prints sizes clean 0 printing) (cmdPrintf_prints (sizes _) foot)

end Printed

/-! ### The room that tokens take in a line -/

/-- Written without quotes: not empty, and no blank in it. -/
def Plain (word : List UInt8) : Prop := word ≠ [] ∧ ∀ byte ∈ word, blank byte = false

instance (word : List UInt8) : Decidable (Plain word) := inferInstanceAs (Decidable (_ ∧ _))

/-- What a line with these tokens needs: an opening quote before a token that is not plain, and a blank or
a closing quote between a token and the next one. -/
def need : List (List UInt8) → Nat
  | [] => 0
  | word :: words =>
      word.length + (if Plain word then 0 else 1) +
        (if words = [] then 0 else 1) + need words

section Need

variable {word line : List UInt8} {words before after : List (List UInt8)}

theorem need_cons_le (word : List UInt8) (words : List (List UInt8)) :
    need (word :: words) ≤ word.length + 2 + need words := by
  rw [need]
  split_ifs <;> omega

theorem need_singleton_le (word : List UInt8) : need [word] ≤ word.length + 1 := by
  rw [need, if_pos rfl, need]
  split_ifs <;> omega

theorem need_plain (plain : Plain word) (words : List (List UInt8)) :
    need (word :: words) = word.length + (if words = [] then 0 else 1) + need words := by
  rw [need, if_pos plain, Nat.add_zero]

/-- **A line is no shorter than what its tokens need.** -/
theorem need_tokens (line : List UInt8) : need (tokens line) ≤ line.length := by
  have plain {c : UInt8} {word : List UInt8} (first : blank c = false)
      (inside : ∀ byte ∈ word, blank byte = false) : Plain (c :: word) :=
    ⟨List.cons_ne_nil _ _, fun byte member => by
      rcases List.mem_cons.mp member with rfl | later
      · exact first
      · exact inside byte later⟩
  induction line using tokens_induction with
  | nil => exact Nat.le_refl 0
  | blanks c s _ ih => exact Nat.le_succ_of_le ih
  | closed c word s _ ih =>
      have bound := need_cons_le word (tokens s)
      rw [List.length_cons, List.length_append, List.length_cons]
      omega
  | unclosed c word => exact need_singleton_le word
  | ended c word d s first inside ih =>
      rw [need_plain (plain first inside), List.length_cons, List.length_cons, List.length_append,
        List.length_cons]
      split_ifs <;> omega
  | last c word first inside => exact (need_plain (plain first inside) []).le

/-- A token takes its own room at least. -/
theorem length_le_need (member : word ∈ words) : word.length ≤ need words := by
  induction words with
  | nil => cases member
  | cons other words ih =>
      rw [need]
      rcases List.mem_cons.mp member with rfl | later
      · omega
      · have bound := ih later
        omega

theorem need_pos (word : List UInt8) (words : List (List UInt8)) : 0 < need (word :: words) := by
  rw [need]
  split_ifs with plain
  · have nonempty := List.length_pos_of_ne_nil plain.1
    omega
  · have nonempty := List.length_pos_of_ne_nil plain.1
    omega
  · omega
  · omega

theorem need_append_le (before after : List (List UInt8)) : need before ≤ need (before ++ after) := by
  induction before with
  | nil => exact Nat.zero_le _
  | cons word before ih =>
      rw [List.cons_append, need, need]
      by_cases last : before = []
      · rw [last, if_pos rfl, need]
        omega
      · have more : before ++ after ≠ [] := fun none => last (List.append_eq_nil_iff.mp none).1
        rw [if_neg last, if_neg more]
        omega

/-- Each token in front takes its room and a separator. -/
theorem need_front (member : word ∈ before) (words : List (List UInt8)) (more : words ≠ []) :
    word.length + 1 + need words ≤ need (before ++ words) := by
  have rest (before : List (List UInt8)) : need words ≤ need (before ++ words) := by
    induction before with
    | nil => exact Nat.le_refl _
    | cons other before ih =>
        rw [List.cons_append, need]
        omega
  induction before with
  | nil => cases member
  | cons other before ih =>
      have later : before ++ words ≠ [] := fun none => more (List.append_eq_nil_iff.mp none).2
      rw [List.cons_append, need, if_neg later]
      rcases List.mem_cons.mp member with rfl | member
      · have bound := rest before
        omega
      · have bound := ih member
        omega

/-- **A long argument is alone** in a command line for `echo`, and the last one if it is quoted. -/
theorem long_alone {arg : List UInt8}
    (needs : need (echoName :: (before ++ arg :: after)) < cmdlineMaxLength)
    (long : cmdlineMaxLength ≤ arg.length + 8) :
    (∀ other ∈ before ++ after, other.length ≤ 2) ∧ (after ≠ [] → Plain arg) ∧
      arg.length + 5 ≤ cmdlineMaxLength := by
  have name : Plain echoName := ⟨List.cons_ne_nil _ _, no_blank rfl⟩
  have nonempty : before ++ arg :: after ≠ [] := fun none =>
    List.cons_ne_nil _ _ (List.append_eq_nil_iff.mp none).2
  have first : echoName ∈ echoName :: before := List.mem_cons_self ..
  have front := need_front first (arg :: after) (List.cons_ne_nil _ _)
  rw [List.cons_append] at front
  have size : echoName.length = 4 := rfl
  have whole : cmdlineMaxLength = 256 := rfl
  have own : arg.length + need after ≤ need (arg :: after) := by
    rw [need]
    omega
  refine ⟨fun other member => ?_, fun more => ?_, by omega⟩
  · rcases List.mem_append.mp member with earlier | later
    · have bound := need_front earlier (arg :: after) (List.cons_ne_nil _ _)
      rw [need_plain name, if_neg nonempty] at needs
      omega
    · have bound := length_le_need later
      omega
  · by_contra quoted
    rw [need, if_neg quoted, if_neg more] at front
    obtain ⟨other, others, rfl⟩ := List.exists_cons_of_ne_nil more
    have positive := need_pos other others
    omega

end Need

/-! ### Where the lines of the arguments are -/

/-- The arguments' lines, as they ought to be. -/
def echoLines : (i : Nat) → List (List UInt8) → List (List UInt8)
  | _, [] => []
  | i, arg :: argv => echoLine i arg :: echoLines (i + 1) argv

section Lines

variable {argv before after : List (List UInt8)} {arg line text : List UInt8} {i k : Nat}

theorem echoLine_length (small : i < 10) (arg : List UInt8) :
    (echoLine i arg).length = arg.length + 7 := by
  have number := decimal2_length small
  simp only [echoLine, List.length_cons, List.length_append, List.length_nil, number]
  omega

theorem printable_short (short : text.length < cmdlineMaxLength) : printable text = text :=
  List.take_of_length_le (Nat.le_pred_of_lt short)

/-- A line, with its end, of an argument that is not long. -/
theorem printable_echoLine (small : i < 10) (short : arg.length + 8 < cmdlineMaxLength) :
    printable (echoLine i arg ++ [newline]) = echoLine i arg ++ [newline] := by
  refine printable_short ?_
  rw [List.length_append, echoLine_length small, List.length_singleton]
  exact short

theorem infix_echoedArgs (place : argv[k]? = some arg) (i : Nat) :
    printable (echoLine (i + k) arg ++ [newline]) <:+: echoedArgs i argv := by
  induction argv generalizing i k with
  | nil => cases place
  | cons first argv ih =>
      rw [echoedArgs]
      cases k with
      | zero =>
          obtain rfl := Option.some.inj place
          exact (List.prefix_append _ _).isInfix
      | succ k =>
          have later := ih place (i + 1)
          rw [Nat.add_right_comm] at later
          exact later.trans (List.suffix_append _ _).isInfix

theorem echoedArgs_append (before after : List (List UInt8)) (i : Nat) :
    echoedArgs i (before ++ after) = echoedArgs i before ++ echoedArgs (i + before.length) after := by
  induction before generalizing i with
  | nil => rfl
  | cons first before ih =>
      rw [List.cons_append, echoedArgs, echoedArgs, ih, List.append_assoc, List.length_cons,
        Nat.add_right_comm, Nat.add_assoc]

/-- Arguments that are not long. -/
theorem echoedArgs_short (few : i + argv.length ≤ 10)
    (short : ∀ arg ∈ argv, arg.length + 8 < cmdlineMaxLength) :
    echoedArgs i argv = (echoLines i argv).flatMap (· ++ [newline]) := by
  induction argv generalizing i with
  | nil => rfl
  | cons arg argv ih =>
      rw [List.length_cons] at few
      rw [echoedArgs, echoLines, List.flatMap_cons,
        printable_echoLine (by omega) (short arg (List.mem_cons_self ..)),
        ih (by omega) fun other member => short other (List.mem_cons_of_mem _ member)]

theorem mem_echoLines (member : line ∈ echoLines i argv) :
    ∃ j arg, arg ∈ argv ∧ i ≤ j ∧ j < i + argv.length ∧ line = echoLine j arg := by
  induction argv generalizing i with
  | nil => cases member
  | cons arg argv ih =>
      rw [List.length_cons]
      rcases List.mem_cons.mp member with rfl | later
      · exact ⟨i, arg, List.mem_cons_self .., Nat.le_refl i, by omega, rfl⟩
      · obtain ⟨j, other, inside, low, high, rfl⟩ := ih later
        exact ⟨j, other, List.mem_cons_of_mem _ inside, by omega, by omega, rfl⟩

/-- The format in front of an argument, with a tab in it. -/
theorem echoLine_split (k : Nat) (arg : List UInt8) :
    echoLine k arg = (91 :: (decimal2 k ++ [93, 9, 91])) ++ (arg ++ [93]) := rfl

theorem tab_mem_echoLine (small : k < 10) (arg : List UInt8) :
    9 ∈ (echoLine k arg).take (cmdlineMaxLength - 1) := by
  have format : (91 :: (decimal2 k ++ [93, 9, 91])).length = 6 := by
    rw [List.length_cons, List.length_append, decimal2_length small]
    rfl
  have fits : (91 :: (decimal2 k ++ [93, 9, 91])).length ≤ cmdlineMaxLength - 1 := by
    rw [format]
    decide
  rw [echoLine_split, List.take_append, List.take_of_length_le fits]
  simp

/-- The line of a long argument, when it is in the output, is what is left of it and the next line. -/
theorem cut_line (small : k < 10) (long : cmdlineMaxLength ≤ arg.length + 8) (unended : newline ∉ arg)
    {front later : List (List UInt8)} {next : List UInt8} (next_unended : newline ∉ next)
    (others : ∀ line ∈ front ++ later, newline ∉ line ∧ line.length + 1 < cmdlineMaxLength)
    (inside : echoLine k arg ++ [newline] <:+: front.flatMap (· ++ [newline]) ++
      (printable (echoLine k arg ++ [newline]) ++ (next :: later).flatMap (· ++ [newline]))) :
    echoLine k arg <:+ (echoLine k arg).take (cmdlineMaxLength - 1) ++ next := by
  have length := echoLine_length small arg
  have cut : printable (echoLine k arg ++ [newline]) = (echoLine k arg).take (cmdlineMaxLength - 1) :=
    List.take_append_of_le_length (by omega)
  have lineUnended := not_mem_echoLine (Or.inr rfl) unended k
  have text : front.flatMap (· ++ [newline]) ++
      (printable (echoLine k arg ++ [newline]) ++ (next :: later).flatMap (· ++ [newline])) =
      (front ++ ((echoLine k arg).take (cmdlineMaxLength - 1) ++ next) :: later).flatMap
        (· ++ [newline]) := by
    rw [cut, List.flatMap_append, List.flatMap_cons, List.flatMap_cons]
    simp only [List.append_assoc]
  rw [text] at inside
  have joined : newline ∉ (echoLine k arg).take (cmdlineMaxLength - 1) ++ next := by
    rw [List.mem_append, not_or]
    exact ⟨fun member => lineUnended (List.mem_of_mem_take member), next_unended⟩
  have tooShort {other : List UInt8} (member : other ∈ front ++ later) : ¬ echoLine k arg <:+ other :=
    fun ends => by
      have bound := (others other member).2
      have same := ends.length_le
      omega
  obtain ⟨other, member, ends⟩ := infix_lines lineUnended (fun other member => by
    rcases List.mem_append.mp member with early | late
    · exact (others other (List.mem_append_left _ early)).1
    · rcases List.mem_cons.mp late with rfl | late
      · exact joined
      · exact (others other (List.mem_append_right _ late)).1) inside
  rcases List.mem_append.mp member with early | late
  · exact absurd ends (tooShort (List.mem_append_left _ early))
  · rcases List.mem_cons.mp late with rfl | late
    · exact ends
    · exact absurd ends (tooShort (List.mem_append_right _ late))

end Lines

/-! ### The arguments in the output -/

/-- The range of `int`. -/
def IsInt (n : Int) : Prop := -2147483648 ≤ n ∧ n ≤ 2147483647

instance (n : Int) : Decidable (IsInt n) := inferInstanceAs (Decidable (_ ∧ _))

section InFull

variable {argv before after : List (List UInt8)} {arg : List UInt8} {lastCmdRet : Int}

theorem echoHead_length (few : argv.length ≤ cmdlineMaxParaCnt) : (echoHead argv.length).length ≤ 24 := by
  have small : (argv.length : Int).natAbs < 10 ^ 2 := by
    rw [Int.natAbs_natCast]
    exact Nat.lt_of_le_of_lt few (by decide)
  have number := decimal_length_le (by decide) small
  simp only [echoHead, List.length_append, List.length_cons, List.length_nil]
  omega

theorem echoFoot_length (isInt : IsInt lastCmdRet) :
    16 ≤ (echoFoot lastCmdRet).length ∧ (echoFoot lastCmdRet).length ≤ 27 := by
  have small : lastCmdRet.natAbs < 10 ^ 10 := by
    obtain ⟨low, high⟩ := isInt
    omega
  have number := decimal_length_le (by decide) small
  simp only [echoFoot, List.length_append, List.length_cons, List.length_nil]
  omega

/-- The first line and the last one are printed whole. -/
theorem echoed_eq (few : argv.length ≤ cmdlineMaxParaCnt) (isInt : IsInt lastCmdRet) :
    echoed argv lastCmdRet = (echoHead argv.length ++ [newline]) ++
      (echoedArgs 0 argv ++ (echoFoot lastCmdRet ++ [newline])) := by
  have head := echoHead_length few
  have foot := echoFoot_length isInt
  have whole : cmdlineMaxLength = 256 := rfl
  rw [echoed, printable_short, printable_short]
  · rw [List.length_append, List.length_singleton]
    omega
  · rw [List.length_append, List.length_singleton]
    omega

theorem inFull_of_short (few : argv.length ≤ cmdlineMaxParaCnt) (isInt : IsInt lastCmdRet)
    (short : ∀ arg ∈ argv, arg.length + 8 < cmdlineMaxLength) :
    InFull argv (echoed argv lastCmdRet) := by
  intro i arg place
  obtain ⟨inside, rfl⟩ := List.getElem?_eq_some_iff.mp place
  have line := infix_echoedArgs place 0
  rw [Nat.zero_add, printable_echoLine (Nat.lt_of_lt_of_le inside few)
    (short _ (List.getElem_mem inside))] at line
  rw [echoed_eq few isInt]
  exact line.trans (List.infix_append' _ _ _)

/-- The lines of arguments that are not long. -/
theorem echoLines_fit {i : Nat} (few : i + argv.length ≤ 10) (unended : ∀ arg ∈ argv, newline ∉ arg)
    (short : ∀ arg ∈ argv, arg.length + 8 < cmdlineMaxLength) :
    ∀ line ∈ echoLines i argv, newline ∉ line ∧ line.length + 1 < cmdlineMaxLength := by
  intro line member
  obtain ⟨j, arg, inside, -, small, rfl⟩ := mem_echoLines member
  refine ⟨not_mem_echoLine (Or.inr rfl) (unended arg inside) j, ?_⟩
  rw [echoLine_length (by omega)]
  exact short arg inside

/-- The lines of the output around that of an argument. -/
theorem echoed_around (few : (before ++ arg :: after).length ≤ cmdlineMaxParaCnt) (isInt : IsInt lastCmdRet)
    (short : ∀ other ∈ before ++ after, other.length + 8 < cmdlineMaxLength) :
    echoed (before ++ arg :: after) lastCmdRet =
      (echoHead (before ++ arg :: after).length :: echoLines 0 before).flatMap (· ++ [newline]) ++
        (printable (echoLine before.length arg ++ [newline]) ++
          (echoLines (before.length + 1) after ++ [echoFoot lastCmdRet]).flatMap (· ++ [newline])) := by
  have total : before.length + 1 + after.length ≤ 10 := by
    rw [List.length_append, List.length_cons] at few
    have whole : cmdlineMaxParaCnt = 10 := rfl
    omega
  have early : echoedArgs 0 before = (echoLines 0 before).flatMap (· ++ [newline]) :=
    echoedArgs_short (by omega) fun other member => short other (List.mem_append_left _ member)
  have late : echoedArgs (before.length + 1) after = _ :=
    echoedArgs_short total fun other member => short other (List.mem_append_right _ member)
  rw [echoed_eq few isInt, echoedArgs_append, Nat.zero_add, echoedArgs, early, late]
  simp only [List.flatMap_cons, List.flatMap_append, List.flatMap_nil, List.append_assoc,
    List.append_nil]

/-- **A long argument's line is not in the output.** -/
theorem not_infix_of_long
    (few : (echoName :: before ++ arg :: after).length ≤ cmdlineMaxParaCnt) (isInt : IsInt lastCmdRet)
    (needs : need (echoName :: before ++ arg :: after) < cmdlineMaxLength)
    (unended : ∀ other ∈ echoName :: before ++ arg :: after, newline ∉ other)
    (long : cmdlineMaxLength ≤ arg.length + 8) :
    ¬ echoLine (echoName :: before).length arg ++ [newline] <:+:
      echoed (echoName :: before ++ arg :: after) lastCmdRet := by
  intro inside
  obtain ⟨tiny, plain, bounded⟩ := long_alone needs long
  have whole : cmdlineMaxLength = 256 := rfl
  have short : ∀ other ∈ echoName :: before ++ after, other.length + 8 < cmdlineMaxLength := by
    intro other member
    rcases List.mem_cons.mp member with rfl | member
    · decide
    · have bound := tiny other member
      omega
  rw [echoed_around few isInt short] at inside
  have head := echoHead_length few
  have foot := echoFoot_length isInt
  rw [List.length_append, List.length_cons, List.length_cons] at few
  have atMost : cmdlineMaxParaCnt = 10 := rfl
  have small : (echoName :: before).length < 10 := by
    rw [List.length_cons]
    omega
  have argUnended := unended arg (List.mem_append_right _ (List.mem_cons_self ..))
  have footFits : newline ∉ echoFoot lastCmdRet ∧ (echoFoot lastCmdRet).length + 1 < cmdlineMaxLength :=
    ⟨not_mem_echoFoot (Or.inr (Or.inr rfl)) _, by omega⟩
  have early : ∀ line ∈ echoHead (echoName :: before ++ arg :: after).length ::
      echoLines 0 (echoName :: before), newline ∉ line ∧ line.length + 1 < cmdlineMaxLength := by
    intro line member
    rcases List.mem_cons.mp member with rfl | member
    · exact ⟨not_mem_echoHead (Or.inr (Or.inr rfl)) _, by omega⟩
    · exact echoLines_fit (by omega) (fun other member => unended other (List.mem_append_left _ member))
        (fun other member => short other (List.mem_append_left _ member)) line member
  have late : ∀ line ∈ echoLines ((echoName :: before).length + 1) after,
      newline ∉ line ∧ line.length + 1 < cmdlineMaxLength :=
    echoLines_fit (by rw [List.length_cons]; omega)
      (fun other member => unended other (List.mem_append_right _ (List.mem_cons_of_mem _ member)))
      fun other member => short other (List.mem_append_right _ member)
  cases after with
  | nil =>
      -- The last line follows: it has no tab, and the argument's line has one in front.
      rw [← List.append_nil (_ :: echoLines 0 (echoName :: before))] at early
      have ends := cut_line small long argUnended footFits.1 early inside
      have longer : (echoLine (echoName :: before).length arg).length <
          ((echoLine (echoName :: before).length arg).take (cmdlineMaxLength - 1) ++
            echoFoot lastCmdRet).length := by
        rw [List.length_append, List.length_take, echoLine_length small]
        omega
      have tab := mem_of_suffix_append (List.take_prefix _ _) ends longer (tab_mem_echoLine small arg)
      exact not_mem_echoFoot (Or.inr (Or.inl rfl)) _ tab
  | cons next after =>
      -- The line of a tiny argument follows: it has a tab, and this argument has none in it.
      have nextFits := late _ (List.mem_cons_self ..)
      have ends := cut_line small long argUnended nextFits.1 (fun line member => by
        rcases List.mem_append.mp member with member | member
        · exact early line member
        · rcases List.mem_append.mp member with member | member
          · exact late line (List.mem_cons_of_mem _ member)
          · rw [List.mem_singleton.mp member]
            exact footFits) inside
      have nextTiny := tiny next (List.mem_append_right _ (List.mem_cons_self ..))
      have nextSmall : (echoName :: before).length + 1 < 10 := by
        rw [List.length_cons] at few ⊢
        omega
      have nextEnds : echoLine ((echoName :: before).length + 1) next <:+ arg ++ [93] := by
        have whole := List.suffix_append ((echoLine (echoName :: before).length arg).take
          (cmdlineMaxLength - 1)) (echoLine ((echoName :: before).length + 1) next)
        have own := List.suffix_append (91 :: (decimal2 (echoName :: before).length ++ [93, 9, 91]))
          (arg ++ [93])
        rw [← echoLine_split] at own
        refine List.suffix_of_suffix_length_le whole (own.trans ends) ?_
        rw [echoLine_length nextSmall, List.length_append, List.length_singleton]
        omega
      have tab := nextEnds.subset (List.mem_of_mem_take (tab_mem_echoLine nextSmall next))
      rcases List.mem_append.mp tab with inArg | last
      · exact absurd ((plain (List.cons_ne_nil _ _)).2 9 inArg) (by decide)
      · exact absurd (List.mem_singleton.mp last) (by decide)

/-- **The output contains every argument's line** exactly when none of them is long. -/
theorem inFull_echoed (few : argv.length ≤ cmdlineMaxParaCnt) (isInt : IsInt lastCmdRet)
    (isEcho : argv.head? = some echoName) (needs : need argv < cmdlineMaxLength)
    (unended : ∀ arg ∈ argv, newline ∉ arg) :
    InFull argv (echoed argv lastCmdRet) ↔ ∀ arg ∈ argv, arg.length + 8 < cmdlineMaxLength := by
  refine ⟨fun full arg member => ?_, inFull_of_short few isInt⟩
  by_contra long
  obtain ⟨others, rfl⟩ := List.head?_eq_some_iff.mp isEcho
  rcases List.mem_cons.mp member with rfl | later
  · exact long (by decide)
  · obtain ⟨before, after, rfl⟩ := List.append_of_mem later
    refine not_infix_of_long few isInt needs unended (Nat.le_of_not_lt long) (full _ arg ?_)
    rw [← List.cons_append, List.getElem?_append_right (Nat.le_refl _), Nat.sub_self]
    rfl

end InFull

/-! ### Lines for `echo` -/

/-- The first token of the line is `echo`. -/
def IsEcho (line : List UInt8) : Prop := (tokens line).head? = some echoName

section EchoLine

variable {line : List UInt8} {lastCmdRet : Int}

theorem lineArgs_unended (unended : newline ∉ line) : ∀ arg ∈ lineArgs line, newline ∉ arg :=
  fun _ member inside => unended (mem_tokens (List.mem_of_mem_take member) inside)

theorem lineArgs_clean (clean : 0 ∉ line) : ∀ arg ∈ lineArgs line, 0 ∉ arg :=
  fun _ member inside => clean (mem_tokens (List.mem_of_mem_take member) inside)

theorem lineArgs_echo (isEcho : IsEcho line) : (lineArgs line).head? = some echoName := by
  rw [lineArgs, List.head?_take, if_neg (by decide)]
  exact isEcho

theorem need_lineArgs (line : List UInt8) : need (lineArgs line) ≤ line.length := by
  have front := need_append_le (lineArgs line) ((tokens line).drop cmdlineMaxParaCnt)
  rw [lineArgs, List.take_append_drop] at front
  exact front.trans (need_tokens line)

/-- A line whose first token is `echo` calls `_cmd_echo`. -/
theorem lineCall_echo (isEcho : IsEcho line) (last : Int) :
    ¬ IsExit line ∧ lineCall last line = some ⟨.cmdEcho, lineArgs line, last⟩ := by
  constructor
  · intro isExit
    rw [IsExit, isEcho] at isExit
    exact absurd (Option.some.inj isExit) (by decide)
  · rw [lineCall, lookup, lineArgs_echo isEcho]
    rfl

/-- The arguments of a line in what is printed for it. -/
theorem inFull_line (fits : Fits line) (isInt : IsInt lastCmdRet) (isEcho : IsEcho line) :
    InFull (lineArgs line) (echoed (lineArgs line) lastCmdRet) ↔
      ∀ arg ∈ lineArgs line, arg.length + 8 < cmdlineMaxLength :=
  inFull_echoed (List.length_take_le _ _) isInt (lineArgs_echo isEcho)
    (Nat.lt_of_le_of_lt (need_lineArgs line) fits.short) (lineArgs_unended fits.unended)

/-- What `basic_io_readline` delivers into the block of the command line. -/
theorem delivered_line {shell : Shell} {answers left : Answers} {result : Int} {buf : List UInt8}
    (declared : Declared shell)
    (delivered : basicIoReadline (some shell.cmdline) cmdlineMaxLength answers =
      some (.returned result (some buf) left)) (reads : cString buf = some line) :
    Fits line ∧ ∃ rest, buf = line ++ 0 :: rest := by
  obtain ⟨text, same, unended, short⟩ :=
    readline_text (by decide) (Nat.le_of_eq declared.block.symm) delivered
  obtain ⟨rest, rfl⟩ := cString_split reads
  have clean := cString_clean reads
  have front := prefix_of_split clean (Option.some.inj same)
  exact ⟨⟨Nat.lt_of_le_of_lt front.length_le short, clean, fun member => unended (front.subset member)⟩,
    rest, rfl⟩

/-- `_cmd_echo` is called for the line in `buf`, with the arguments `argv`. -/
def CallsEcho (shell : Shell) (buf : List UInt8) (argv : List (List UInt8)) : Prop :=
  ∃ args next, makeArgs buf shell.argv = some args ∧
    doCmds { shell with cmdline := args.cmdline, argv := args.argv } args.argc =
      some (1, next, some ⟨.cmdEcho, argv, shell.lastCmdRet⟩)

theorem callsEcho {shell : Shell} (declared : Declared shell) (clean : 0 ∉ line) (isEcho : IsEcho line)
    (rest : List UInt8) : CallsEcho shell (line ++ 0 :: rest) (lineArgs line) := by
  obtain ⟨args, made, count, strings⟩ := makeArgs_strings clean rest (Nat.le_of_eq declared.array.symm)
  obtain ⟨goesOn, call⟩ := lineCall_echo isEcho shell.lastCmdRet
  have called : doCmds ⟨args.cmdline, args.argv, shell.lastCmdRet⟩ args.argc = _ :=
    doCmds_line count strings
  rw [if_neg goesOn, call] at called
  exact ⟨args, _, made, called⟩

/-- What `_cmd_echo` has printed when it returns. -/
theorem cmdEcho_output {frames : Nat → List UInt8} {argv : List (List UInt8)}
    (sizes : ∀ k, (frames k).length = cmdlineMaxLength) (clean : ∀ arg ∈ argv, 0 ∉ arg)
    (port : Acceptances) :
    ∃ printing, cmdEcho frames argv lastCmdRet ⟨[], some port⟩ = some printing ∧
      (printing.port.isSome ↔ (echoed argv lastCmdRet).length ≤ port.count true) ∧
      (printing.port.isSome → printing.output = echoed argv lastCmdRet) := by
  obtain ⟨printing, run, prints⟩ := cmdEcho_prints sizes clean lastCmdRet ⟨[], some port⟩
  refine ⟨printing, run, ?_⟩
  rcases Nat.lt_or_ge (port.count true) (echoed argv lastCmdRet).length with few | enough
  · rw [prints.part port rfl few]
    exact ⟨iff_of_false Bool.false_ne_true (Nat.not_le_of_lt few), fun isSome => by cases isSome⟩
  · obtain ⟨left, rfl, -⟩ := prints.whole port rfl enough
    exact ⟨iff_of_true rfl enough, fun _ => rfl⟩

/-- **What `echo` reproduces.** Whatever line is delivered into the block of the command line: if its
first token is `echo`, then `_cmd_echo` is called with its tokens and returns once the port has taken
enough bytes, and its output contains the complete line of every argument exactly when no argument has
more than 247 characters. -/
theorem cmdEcho_inFull_iff {shell : Shell} {answers left : Answers} {result : Int} {buf : List UInt8}
    {frames : Nat → List UInt8} (declared : Declared shell) (isInt : IsInt shell.lastCmdRet)
    (sizes : ∀ k, (frames k).length = cmdlineMaxLength)
    (delivered : basicIoReadline (some shell.cmdline) cmdlineMaxLength answers =
      some (.returned result (some buf) left)) (reads : cString buf = some line)
    (isEcho : IsEcho line) :
    CallsEcho shell buf (lineArgs line) ∧
      ∀ port, ∃ printing,
        cmdEcho frames (lineArgs line) shell.lastCmdRet ⟨[], some port⟩ = some printing ∧
        (printing.port.isSome ↔ (echoed (lineArgs line) shell.lastCmdRet).length ≤ port.count true) ∧
        (printing.port.isSome → (InFull (lineArgs line) printing.output ↔
          ∀ arg ∈ lineArgs line, arg.length + 8 < cmdlineMaxLength)) := by
  obtain ⟨fits, rest, rfl⟩ := delivered_line declared delivered reads
  refine ⟨callsEcho declared fits.clean isEcho rest, fun port => ?_⟩
  obtain ⟨printing, run, returns, output⟩ := cmdEcho_output sizes (lineArgs_clean fits.clean) port
  refine ⟨printing, run, returns, fun returned => ?_⟩
  rw [output returned]
  exact inFull_line fits isInt isEcho

end EchoLine

/-- The statics of the command line before its first line. -/
def freshShell : Shell := ⟨List.replicate cmdlineMaxLength 0, List.replicate cmdlineMaxParaCnt 0, 0⟩

theorem freshShell_declared : Declared freshShell :=
  ⟨List.length_replicate .., List.length_replicate ..⟩

/-- A word. -/
def letters (n : Nat) : List UInt8 := List.replicate n 97

/-- `echo` and a word. -/
def echoLetters (n : Nat) : List UInt8 := echoName ++ 32 :: letters n

section Letters

variable {n : Nat}

theorem not_mem_letters {byte : UInt8} (other : byte ≠ 97) : byte ∉ letters n :=
  fun member => other (List.eq_of_mem_replicate member)

theorem not_mem_echoLetters {byte : UInt8} (other : byte ∉ 97 :: 32 :: echoName) :
    byte ∉ echoLetters n := by
  rw [List.mem_cons, List.mem_cons, not_or, not_or] at other
  rw [echoLetters, List.mem_append, List.mem_cons, not_or, not_or]
  exact ⟨other.2.2, other.2.1, not_mem_letters other.1⟩

theorem readline_echoLetters (short : n ≤ 250) :
    ∃ rest left, basicIoReadline (some freshShell.cmdline) cmdlineMaxLength
      ((echoLetters n ++ [newline]).map some) =
        some (.returned (n + 6 : Nat) (some (echoLetters n ++ 0 :: rest)) left) := by
  have bytes : ((echoLetters n ++ [newline]).map some).reduceOption =
      echoLetters n ++ basicIoTextEndMark :: [] := by
    rw [List.reduceOption, List.filterMap_map]
    exact List.filterMap_some
  have length : (echoLetters n).length = n + 5 := by
    rw [echoLetters, List.length_append, List.length_cons, letters, List.length_replicate]
    exact Nat.add_comm _ _
  have fits : (echoLetters n).length < cmdlineMaxLength := by
    rw [length]
    exact Nat.lt_succ_of_le (Nat.add_le_add_right short 5)
  obtain ⟨left, -, -, run⟩ := reads_line (Nat.le_of_eq freshShell_declared.block.symm) bytes
    (not_mem_echoLetters (by decide)) fits
  rw [List.length_append, length] at run
  exact ⟨_, left, run⟩

theorem tokens_echoLetters (positive : 0 < n) : tokens (echoLetters n) = [echoName, letters n] := by
  obtain ⟨n, rfl⟩ := Nat.exists_eq_add_one_of_ne_zero positive.ne'
  have inside : ∀ byte ∈ letters n, blank byte = false := by
    intro byte member
    rw [List.eq_of_mem_replicate member]
    decide
  have word : tokens (97 :: letters n) = [97 :: letters n] := tokens_last (by decide) (by decide) inside
  have first : tokens (101 :: ([99, 104, 111] ++ 32 :: (97 :: letters n))) =
      (101 :: [99, 104, 111]) :: tokens (97 :: letters n) :=
    tokens_word (by decide) (by decide) (no_blank rfl) (by decide)
  rw [word] at first
  exact first

theorem isEcho_echoLetters (positive : 0 < n) :
    IsEcho (echoLetters n) ∧ lineArgs (echoLetters n) = [echoName, letters n] := by
  rw [IsEcho, lineArgs, tokens_echoLetters positive]
  exact ⟨rfl, rfl⟩

end Letters

/-- `echo a`. -/
theorem cmdEcho_inFull_iff_oneLetter :
    ∃ port printing, cmdEcho (fun _ => List.replicate cmdlineMaxLength 7) [echoName, letters 1] 0
        ⟨[], some port⟩ = some printing ∧
      printing.port.isSome ∧ InFull [echoName, letters 1] printing.output := by
  obtain ⟨isEcho, args⟩ := isEcho_echoLetters Nat.zero_lt_one
  obtain ⟨rest, left, delivered⟩ := readline_echoLetters (by decide : 1 ≤ 250)
  obtain ⟨-, prints⟩ := cmdEcho_inFull_iff freshShell_declared (by decide)
    (fun _ => List.length_replicate ..) delivered
    (cString_terminated (not_mem_echoLetters (by decide))) isEcho
  obtain ⟨printing, run, returns, full⟩ :=
    prints (List.replicate (echoed (lineArgs (echoLetters 1)) freshShell.lastCmdRet).length true)
  have returned := returns.mpr (Nat.le_of_eq List.count_replicate_self.symm)
  rw [args] at run full
  exact ⟨_, printing, run, returned, (full returned).mpr (by decide)⟩

/-- A word of 250 letters: the line is delivered whole, and not echoed whole. -/
theorem cmdEcho_cutsShort :
    ∃ buf left port printing,
      basicIoReadline (some freshShell.cmdline) cmdlineMaxLength
        ((echoLetters 250 ++ [newline]).map some) = some (.returned 256 (some buf) left) ∧
      cString buf = some (echoLetters 250) ∧ IsEcho (echoLetters 250) ∧
      CallsEcho freshShell buf [echoName, letters 250] ∧
      cmdEcho (fun _ => List.replicate cmdlineMaxLength 7) [echoName, letters 250] 0
        ⟨[], some port⟩ = some printing ∧
      printing.port.isSome ∧ ¬ InFull [echoName, letters 250] printing.output := by
  obtain ⟨isEcho, args⟩ := isEcho_echoLetters (by decide : 0 < 250)
  obtain ⟨rest, left, delivered⟩ := readline_echoLetters (Nat.le_refl 250)
  have line : 0 ∉ echoLetters 250 := not_mem_echoLetters (by decide)
  have reads : cString (echoLetters 250 ++ 0 :: rest) = some (echoLetters 250) := cString_terminated line
  have fits := (delivered_line freshShell_declared delivered reads).1
  have sizes : ∀ k : Nat, ((fun _ => List.replicate cmdlineMaxLength 7 : Nat → List UInt8) k).length =
      cmdlineMaxLength := fun _ => List.length_replicate ..
  obtain ⟨printing, run, returns, output⟩ := cmdEcho_output sizes (lineArgs_clean line)
    (List.replicate (echoed (lineArgs (echoLetters 250)) freshShell.lastCmdRet).length true)
  have returned := returns.mpr (Nat.le_of_eq List.count_replicate_self.symm)
  have calls := callsEcho freshShell_declared line isEcho rest
  have notFull : ¬ InFull (lineArgs (echoLetters 250)) printing.output := by
    rw [output returned, inFull_line fits (by decide) isEcho, args]
    intro short
    have bound := short (letters 250) (by simp)
    rw [letters, List.length_replicate] at bound
    exact absurd bound (by decide)
  rw [args] at run calls notFull
  exact ⟨_, left, _, printing, delivered, reads, isEcho, calls, run, returned, notFull⟩

end YosStm32.Cmdline
