/-
**The uptime on the display** (`_oled_task` in `main.c`, section "About OLED" of `README.md`).

Four counters of 8 bits hold the days, hours, minutes and seconds. The carries are made at the top of
the loop and the seconds are counted at its bottom, so between the two `ss` may be 60. What is shown in
the round after `k` completed ones is `k` in mixed radix (`Counts`), and the display is inverted in every
second minute. The readings of the sensor may change at any time, and are arbitrary in every round.
-/

import Mathlib.Data.List.Forall2
import Mathlib.Data.List.Induction
import YosStm32.Cmdline.Print
import YosStm32.Lib.Run
import YosStm32.Oled.Glyphs

namespace YosStm32.Oled

open Cmdline Lib

/-! ### The task -/

/-- The variables of `_oled_task`. -/
structure OledTask where
  dd : UInt8
  hh : UInt8
  mm : UInt8
  ss : UInt8
  buf : List UInt8
  invert : Int
  deriving DecidableEq, Repr

/-- `_temperature` and `_humidity` when they are read. -/
structure Readings where
  temperature : Int8
  humidity : UInt8
  deriving DecidableEq, Repr

/-- What the task does: a text that is formatted and drawn, with what `yos_ssd1306_puts` sends for it,
and the other calls. -/
inductive OledCall where
  | draw (text : List UInt8) (messages : List Message)
  | displayInvert (invert : Int)
  | msleep (ms : Nat)
  deriving DecidableEq, Repr

def OledCall.text : OledCall → Option (List UInt8)
  | .draw text _ => some text
  | _ => none

def OledCall.inverts : OledCall → Option Int
  | .displayInvert invert => some invert
  | _ => none

/-- What a call sends to the display. -/
def OledCall.messages : OledCall → List Message
  | .draw _ messages => messages
  | .displayInvert invert => ssd1306DisplayInvert invert
  | .msleep _ => []

/-- The most recent argument of `ssd1306_display_invert`. -/
def lastInvert (calls : List OledCall) : Option Int := (calls.filterMap OledCall.inverts).getLast?

/-- The carries at the top of the loop. -/
def OledTask.carry (task : OledTask) : OledTask :=
  if task.ss = 60 then
    if task.mm + 1 = 60 then
      if task.hh + 1 = 24 then { task with ss := 0, mm := 0, hh := 0, dd := task.dd + 1 }
      else { task with ss := 0, mm := 0, hh := task.hh + 1 }
    else { task with ss := 0, mm := task.mm + 1 }
  else task

/-- A number padded to some width: `%03u`, `%02u`, `%3d`, `%3u`. -/
def padded (pad : UInt8) (width : Nat) (n : Int) : List UInt8 := List.leftpad width pad (decimal n)

/-- The texts of a round, with their column and page. -/
def uptimeTexts (dd hh mm ss : Nat) (readings : Readings) : List (UInt8 × UInt8 × List UInt8) :=
  [(0, 2, padded 48 3 dd ++ [32, 68]),
    (6, 2, padded 48 2 hh ++ [32, 72]),
    (11, 2, padded 48 2 mm ++ [32, 77]),
    (16, 2, padded 48 2 ss ++ [32, 83]),
    (0, 4, [84, 58, 32] ++ padded 32 3 readings.temperature.toInt),
    (8, 4, [72, 58, 32] ++ padded 32 3 readings.humidity.toNat ++ [37])]

/-- `snprintf(buf, sizeof(buf), ...)` and `yos_ssd1306_puts`, for some texts. -/
def drawAll (signed : Bool) : List (UInt8 × UInt8 × List UInt8) → (buf : List UInt8) →
    Option (List UInt8 × List OledCall)
  | [], buf => some (buf, [])
  | (col, y, text) :: texts, buf =>
      (vsnprintf buf 16 text).bind fun buf =>
        (yosSsd1306Puts signed (some yosSsd1306Font6X8)
          (yosSsd1306CharColToPixel (some yosSsd1306Font6X8) col) y (some buf)).bind fun messages =>
            (drawAll signed texts buf).map fun (buf, calls) => (buf, .draw text messages :: calls)

/-- A round of the loop of `_oled_task`. -/
def oledRound (signed : Bool) (task : OledTask) (readings : Readings) :
    Option (OledTask × List OledCall) :=
  let task := task.carry
  (drawAll signed
      (uptimeTexts task.dd.toNat task.hh.toNat task.mm.toNat task.ss.toNat readings) task.buf).map
    fun (buf, calls) =>
      if task.ss = 0 then
        ({ task with buf := buf, invert := if task.invert = 0 then 1 else 0, ss := task.ss + 1 },
          calls ++ [.displayInvert task.invert, .msleep 1000])
      else ({ task with buf := buf, ss := task.ss + 1 }, calls ++ [.msleep 1000])

/-- The task before the loop, with what lies in `buf`. -/
def OledTask.start (buf : List UInt8) : OledTask :=
  { dd := 0, hh := 0, mm := 0, ss := 0, buf := buf, invert := 0 }

/-- What `_oled_task` sends before the loop: `"YOS OLED"` on an empty screen. -/
def oledStart (signed : Bool) : Option (List Message) :=
  (yosSsd1306Puts signed (some yosSsd1306Font6X8) 0 0
    (some [89, 79, 83, 32, 79, 76, 69, 68, 0])).map fun messages =>
      ssd1306Init ++ ssd1306Fill 0 ++ messages

/-- The loop as an event system; a round comes with its readings. -/
def oledStep (signed : Bool) (task : OledTask) (readings : Readings) : Option OledTask :=
  (oledRound signed task readings).map Prod.fst

def oledCalls (signed : Bool) (task : OledTask) (readings : Readings) : List OledCall :=
  ((oledRound signed task readings).map Prod.snd).getD []

/-! ### The counters -/

/-- The days, hours, minutes and seconds of some number of rounds. -/
structure Counts (k : Nat) (task : OledTask) : Prop where
  ss : task.ss.toNat = k % 60
  mm : task.mm.toNat = k / 60 % 60
  hh : task.hh.toNat = k / 3600 % 24
  dd : task.dd.toNat = k / 86400 % 256

section Counters

variable {k : Nat} {task : OledTask}

theorem toNat_succ (c : UInt8) : (c + 1).toNat = (c.toNat + 1) % 256 := UInt8.toNat_add c 1

theorem succ_eq_iff {c : UInt8} {n : Nat} (small : n < 256) :
    c + 1 = UInt8.ofNat n ↔ (c.toNat + 1) % 256 = n := by
  rw [← UInt8.toNat_inj, toNat_ofNat_small small, toNat_succ]

/-- **One second later.** -/
theorem Counts.succ (counts : Counts k task) {next : OledTask} (seconds : next.ss = task.ss + 1)
    (minutes : next.mm = task.mm) (hours : next.hh = task.hh) (days : next.dd = task.dd) :
    Counts (k + 1) next.carry := by
  obtain ⟨ss, mm, hh, dd⟩ := counts
  have minute : task.ss + 1 = 60 ↔ (task.ss.toNat + 1) % 256 = 60 := succ_eq_iff (by decide)
  have hour : task.mm + 1 = 60 ↔ (task.mm.toNat + 1) % 256 = 60 := succ_eq_iff (by decide)
  have day : task.hh + 1 = 24 ↔ (task.hh.toNat + 1) % 256 = 24 := succ_eq_iff (by decide)
  rw [OledTask.carry, seconds, minutes, hours, days]
  simp only [minute, hour, day]
  split_ifs
  -- A day, an hour or a minute ends, or none: the counters are digits of `k + 1` in every branch.
  all_goals
    refine ⟨?_, ?_, ?_, ?_⟩ <;>
      simp only [seconds, minutes, hours, days, UInt8.toNat_zero, toNat_succ] <;> omega

end Counters

/-! ### The texts -/

/-- Where a column of characters begins. -/
def pixel (col : UInt8) : UInt8 := yosSsd1306CharColToPixel (some yosSsd1306Font6X8) col

/-- A text fits the buffer with its terminator, and the screen in its place. -/
structure TextFits (entry : UInt8 × UInt8 × List UInt8) : Prop where
  buffer : entry.2.2.length < 16
  clean : 0 ∉ entry.2.2
  columns : (pixel entry.1).toNat + entry.2.2.length * 6 < 128
  page : entry.2.1.toNat + 1 ≤ 8

section Texts

theorem zero_not_mem_padded {pad : UInt8} (visible : 0 ≠ pad) (width : Nat) (n : Int) :
    0 ∉ padded pad width n := by
  intro member
  rcases List.mem_append.mp member with inPad | inNumber
  · exact visible (List.eq_of_mem_replicate inPad)
  · exact not_mem_decimal (by decide) inNumber

/-- Three digits at most. -/
theorem decimal_natural_length_le {n : Nat} (small : n < 256) : (decimal n).length ≤ 3 := by
  have digits : (Nat.toDigits 10 n).length ≤ 3 :=
    (Nat.length_toDigits_le_iff (by decide : 1 < 10) (by decide : 0 < 3)).mpr
      (Nat.lt_trans small (by decide))
  rw [decimal, if_neg (Int.not_lt.mpr (Int.natCast_nonneg n)), Int.natAbs_natCast, List.length_append,
    List.length_map, List.length_nil]
  omega

/-- A number between two labels. -/
theorem textFits_labelled {col y pad : UInt8} {first last : List UInt8} {width most : Nat} {n : Int}
    (narrow : width ≤ most) (short : (decimal n).length ≤ most) (visible : 0 ≠ pad)
    (cleanFirst : 0 ∉ first) (cleanLast : 0 ∉ last)
    (buffer : first.length + most + last.length < 16)
    (columns : (pixel col).toNat + (first.length + most + last.length) * 6 < 128)
    (page : y.toNat + 1 ≤ 8) : TextFits (col, y, first ++ padded pad width n ++ last) := by
  have number : (padded pad width n).length ≤ most := by
    rw [padded, List.length_leftpad]
    exact Nat.max_le.mpr ⟨narrow, short⟩
  have length : (first ++ padded pad width n ++ last).length ≤ first.length + most + last.length := by
    rw [List.length_append, List.length_append]
    omega
  refine ⟨Nat.lt_of_le_of_lt length buffer, fun member => ?_, ?_, page⟩
  · rcases List.mem_append.mp member with inFront | inLast
    · rcases List.mem_append.mp inFront with inFirst | inNumber
      · exact cleanFirst inFirst
      · exact zero_not_mem_padded visible width n inNumber
    · exact cleanLast inLast
  · exact Nat.lt_of_le_of_lt (Nat.add_le_add_left (Nat.mul_le_mul_right 6 length) _) columns

/-- A counter with its unit. -/
theorem textFits_counter {col y : UInt8} {width n : Nat} {unit : List UInt8} (narrow : width ≤ 3)
    (small : n < 256) (clean : 0 ∉ unit) (short : unit.length = 2)
    (columns : (pixel col).toNat + 30 < 128) (page : y.toNat + 1 ≤ 8) :
    TextFits (col, y, padded 48 width n ++ unit) := by
  have labelled : TextFits (col, y, [] ++ padded 48 width n ++ unit) :=
    textFits_labelled narrow (decimal_natural_length_le small) (by decide) List.not_mem_nil clean
      (by rw [short]; decide) (by rw [short]; exact columns) page
  rwa [List.nil_append] at labelled

/-- **Every text fits its buffer and its place on the screen.** -/
theorem uptimeTexts_fit {dd hh mm ss : Nat} (days : dd < 256) (hours : hh < 256) (minutes : mm < 256)
    (seconds : ss < 256) (readings : Readings) :
    ∀ entry ∈ uptimeTexts dd hh mm ss readings, TextFits entry := by
  have degrees : readings.temperature.toInt.natAbs < 10 ^ 3 := by
    have low := readings.temperature.le_toInt
    have high := readings.temperature.toInt_lt
    show _ < 1000
    omega
  intro entry member
  simp only [uptimeTexts, List.mem_cons, List.not_mem_nil, or_false] at member
  rcases member with rfl | rfl | rfl | rfl | rfl | rfl
  · exact textFits_counter (by decide) days (by decide) rfl (by decide) (by decide)
  · exact textFits_counter (by decide) hours (by decide) rfl (by decide) (by decide)
  · exact textFits_counter (by decide) minutes (by decide) rfl (by decide) (by decide)
  · exact textFits_counter (by decide) seconds (by decide) rfl (by decide) (by decide)
  · rw [← List.append_nil ([84, 58, 32] ++ _)]
    exact textFits_labelled (by decide : 3 ≤ 4) (decimal_length_le (by decide) degrees) (by decide)
      (by decide) List.not_mem_nil (by decide) (by decide) (by decide)
  · exact textFits_labelled (by decide : 3 ≤ 3) (decimal_natural_length_le readings.humidity.toNat_lt)
      (by decide) (by decide) (by decide) (by decide) (by decide) (by decide)

end Texts

/-! ### A round -/

/-- The call draws a text, whole and in its place. -/
def OledCall.Shows (signed : Bool) (entry : UInt8 × UInt8 × List UInt8) (call : OledCall) : Prop :=
  ∃ messages, call = .draw entry.2.2 messages ∧
    TextDrawn BuiltInFont.font6X8.glyphs signed (pixel entry.1).toNat entry.2.1.toNat entry.2.2 messages

/-- If the call draws, it does not invert the display. -/
def OledCall.Keeps (call : OledCall) : Prop :=
  ∀ text messages, call = .draw text messages →
    ∀ display : Display, (display.receiveAll messages).inverted = display.inverted

section Round

variable {signed : Bool} {k : Nat} {task : OledTask} {texts : List (UInt8 × UInt8 × List UInt8)}
  {calls : List OledCall}

/-- What `snprintf` stores of a text that fits. -/
theorem vsnprintf_fits {buf text : List UInt8} {size : Nat} (room : buf.length = size)
    (fits : text.length < size) :
    ∃ rest, vsnprintf buf size text = some (text ++ 0 :: rest) ∧ (text ++ 0 :: rest).length = size := by
  have nonzero : size ≠ 0 := Nat.ne_zero_of_lt fits
  have whole : text.take (size - 1) = text := List.take_of_length_le (Nat.le_sub_one_of_lt fits)
  refine ⟨buf.drop (text.length + 1), ?_, ?_⟩
  · rw [vsnprintf, if_neg nonzero, whole, if_pos (by omega)]
  · rw [List.length_append, List.length_cons, List.length_drop]
    omega

/-- **Texts that fit are formatted and drawn**, one after the other. -/
theorem drawAll_shows (fit : ∀ entry ∈ texts, TextFits entry) {buf : List UInt8}
    (room : buf.length = 16) :
    ∃ last calls, drawAll signed texts buf = some (last, calls) ∧ last.length = 16 ∧
      List.Forall₂ (OledCall.Shows signed) texts calls := by
  induction texts generalizing buf with
  | nil => exact ⟨buf, [], rfl, room, .nil⟩
  | cons entry texts ih =>
      obtain ⟨col, y, text⟩ := entry
      have fits := fit _ (List.mem_cons_self ..)
      obtain ⟨rest, stored, room⟩ := vsnprintf_fits room fits.buffer
      obtain ⟨last, calls, run, room, shown⟩ :=
        ih (fun entry member => fit entry (List.mem_cons_of_mem _ member)) room
      obtain ⟨messages, sent, drawn⟩ :=
        BuiltInFont.font6X8.glyphs.puts_whole signed fits.clean rest fits.columns fits.page
      have call : yosSsd1306Puts signed (some yosSsd1306Font6X8)
          (yosSsd1306CharColToPixel (some yosSsd1306Font6X8) col) y (some (text ++ 0 :: rest)) =
            some messages := sent
      rw [drawAll, stored, Option.bind_some, call, Option.bind_some, run]
      exact ⟨last, _, rfl, room, .cons ⟨messages, rfl, drawn⟩ shown⟩

/-- Calls that draw have nothing to do with the inversion. -/
theorem shows_keeps (shown : List.Forall₂ (OledCall.Shows signed) texts calls) :
    lastInvert calls = none ∧ ∀ call ∈ calls, call.Keeps := by
  induction shown with
  | nil => exact ⟨rfl, fun _ member => absurd member List.not_mem_nil⟩
  | cons one _ ih =>
      obtain ⟨messages, rfl, drawn⟩ := one
      refine ⟨ih.1, fun call member => ?_⟩
      rcases List.mem_cons.mp member with rfl | later
      · intro _ _ same
        cases same
        exact drawn.inverted
      · exact ih.2 call later

theorem lastInvert_append (first second : List OledCall) :
    lastInvert (first ++ second) = (lastInvert second).or (lastInvert first) := by
  rw [lastInvert, List.filterMap_append, List.getLast?_append]
  rfl

theorem OledTask.carry_buf (task : OledTask) : task.carry.buf = task.buf := by
  rw [OledTask.carry]
  split_ifs <;> rfl

theorem OledTask.carry_invert (task : OledTask) : task.carry.invert = task.invert := by
  rw [OledTask.carry]
  split_ifs <;> rfl

/-- The calls of a task in its loop: the first `k` rounds are completed. -/
structure Running (k : Nat) (task : OledTask) (past : List OledCall) : Prop where
  room : task.buf.length = 16
  counts : Counts k task.carry
  /-- It has been turned round in every round that began a minute. -/
  invert : task.invert = ((k + 59) / 60 % 2 : Nat)
  last : 0 < k → lastInvert past = some (((k - 1) / 60 % 2 : Nat) : Int)
  plain : ∀ call ∈ past, call.Keeps

theorem Running.start {buf : List UInt8} (room : buf.length = 16) : Running 0 (OledTask.start buf) [] where
  room := room
  counts := ⟨rfl, rfl, rfl, rfl⟩
  invert := rfl
  last := fun positive => absurd positive (Nat.lt_irrefl 0)
  plain := fun _ member => absurd member List.not_mem_nil

theorem toggled {n : Nat} {invert : Int} (same : invert = (n % 2 : Nat)) :
    (if invert = 0 then (1 : Int) else 0) = ((n + 1) % 2 : Nat) := by
  split <;> omega

/-- **What a round does**, and where it leaves the task. -/
theorem Running.round {past : List OledCall} (running : Running k task past) (signed : Bool)
    (readings : Readings) :
    ∃ next draws more, oledRound signed task readings = some (next, draws ++ more) ∧
      List.Forall₂ (OledCall.Shows signed)
        (uptimeTexts (k / 86400 % 256) (k / 3600 % 24) (k / 60 % 60) (k % 60) readings) draws ∧
      more.filterMap OledCall.text = [] ∧
      lastInvert (past ++ (draws ++ more)) = some ((k / 60 % 2 : Nat) : Int) ∧
      Running (k + 1) next (past ++ (draws ++ more)) := by
  obtain ⟨room, counts, invert, last, plain⟩ := running
  rw [← task.carry_buf] at room
  rw [← task.carry_invert] at invert
  have fit := uptimeTexts_fit task.carry.dd.toNat_lt task.carry.hh.toNat_lt task.carry.mm.toNat_lt
    task.carry.ss.toNat_lt readings
  rw [oledRound]
  generalize task.carry = task at room counts invert fit
  obtain ⟨buf, draws, run, room, shown⟩ :
      ∃ buf draws, drawAll signed _ task.buf = some (buf, draws) ∧ _ := drawAll_shows fit room
  rw [counts.dd, counts.hh, counts.mm, counts.ss] at shown
  obtain ⟨noInvert, keeps⟩ := shows_keeps shown
  have begins : task.ss = 0 ↔ k % 60 = 0 := by
    rw [← counts.ss, ← UInt8.toNat_inj]
    rfl
  -- Whatever comes after the draws draws nothing.
  have plain' : ∀ {more : List OledCall}, (∀ call ∈ more, call.Keeps) →
      ∀ call ∈ past ++ (draws ++ more), call.Keeps := by
    intro more silent call member
    rcases List.mem_append.mp member with before | member
    · exact plain call before
    · exact (List.mem_append.mp member).elim (keeps call) (silent call)
  simp only [run, Option.map_some]
  by_cases minute : task.ss = 0
  · have first := begins.mp minute
    have silent : ∀ call ∈ [OledCall.displayInvert task.invert, .msleep 1000], call.Keeps := by
      simp [OledCall.Keeps]
    have most : lastInvert (past ++ (draws ++ [.displayInvert task.invert, .msleep 1000])) =
        some ((k / 60 % 2 : Nat) : Int) := by
      have same : (k + 59) / 60 = k / 60 := by omega
      rw [lastInvert_append, lastInvert_append, invert, same]
      rfl
    have turned : (if task.invert = 0 then (1 : Int) else 0) = ((k + 1 + 59) / 60 % 2 : Nat) := by
      have same : (k + 1 + 59) / 60 = (k + 59) / 60 + 1 := by omega
      rw [same]
      exact toggled invert
    rw [if_pos minute]
    exact ⟨_, draws, _, rfl, shown, rfl, most, room, counts.succ rfl rfl rfl rfl, turned,
      fun _ => most, plain' silent⟩
  · have further : k % 60 ≠ 0 := fun first => minute (begins.mpr first)
    have silent : ∀ call ∈ [OledCall.msleep 1000], call.Keeps := by simp [OledCall.Keeps]
    have most : lastInvert (past ++ (draws ++ [.msleep 1000])) = some ((k / 60 % 2 : Nat) : Int) := by
      have same : (k - 1) / 60 = k / 60 := by omega
      rw [lastInvert_append, lastInvert_append, noInvert, last (by omega), same]
      rfl
    have kept : task.invert = ((k + 1 + 59) / 60 % 2 : Nat) := by
      have same : (k + 1 + 59) / 60 = (k + 59) / 60 := by omega
      rw [same]
      exact invert
    rw [if_neg minute]
    exact ⟨_, draws, _, rfl, shown, rfl, most, room, counts.succ rfl rfl rfl rfl, kept,
      fun _ => most, plain' silent⟩

end Round

/-! ### The loop -/

section Loop

variable {signed : Bool}

/-- The calls of some completed rounds, from the buffer that the task starts with. -/
def oledHistory (signed : Bool) (buf : List UInt8) (past : List Readings) : List OledCall :=
  emitted (oledStep signed) (oledCalls signed) (OledTask.start buf) past

/-- Before the loop the display shows the title, and is not inverted. -/
theorem oledStart_shows (signed : Bool) :
    ∃ title, oledStart signed = some (ssd1306Init ++ ssd1306Fill 0 ++ title) ∧
      TextDrawn BuiltInFont.font6X8.glyphs signed 0 0 [89, 79, 83, 32, 79, 76, 69, 68] title ∧
      ∀ display : Display,
        (display.receiveAll (ssd1306Init ++ ssd1306Fill 0 ++ title)).inverted = false := by
  obtain ⟨title, sent, drawn⟩ : ∃ title, yosSsd1306Puts signed (some yosSsd1306Font6X8) 0 0
      (some ([89, 79, 83, 32, 79, 76, 69, 68] ++ 0 :: [])) = some title ∧ _ :=
    BuiltInFont.font6X8.glyphs.puts_whole signed (by decide) [] (by decide) (by decide)
  refine ⟨title, congrArg (Option.map _) sent, drawn, fun display => ?_⟩
  rw [Display.receiveAll_append, drawn.inverted, Display.receiveAll_append]
  rfl

/-- **Every number of rounds is completed**, whatever the readings. -/
theorem oledTask_running {buf : List UInt8} (room : buf.length = 16) (past : List Readings) :
    ∃ task, runEvents (oledStep signed) (OledTask.start buf) past = some task ∧
      Running past.length task (oledHistory signed buf past) := by
  induction past using List.reverseRecOn with
  | nil => exact ⟨_, rfl, Running.start room⟩
  | append_singleton past readings ih =>
      obtain ⟨task, run, running⟩ := ih
      obtain ⟨next, draws, more, round, -, -, -, running⟩ := running.round signed readings
      have step : oledStep signed task readings = some next := by
        rw [oledStep, round]
        rfl
      have out : oledCalls signed task readings = draws ++ more := by
        rw [oledCalls, round]
        rfl
      have history : oledHistory signed buf (past ++ [readings]) =
          oledHistory signed buf past ++ (draws ++ more) := by
        rw [oledHistory, emitted_append run, emitted_cons step, out, emitted_nil, List.append_nil]
        rfl
      refine ⟨next, runEvents_append.mpr ⟨task, run, ?_⟩, ?_⟩
      · exact runEvents_cons.mpr ⟨next, step, rfl⟩
      · rw [history, List.length_append]
        exact running

/-- **In every round the whole uptime is shown**: no text is cut, by its buffer or by the screen. -/
theorem oledTask_shows (signed : Bool) {buf : List UInt8} (room : buf.length = 16)
    (past : List Readings) (now : Readings) :
    ∃ task next draws more, runEvents (oledStep signed) (OledTask.start buf) past = some task ∧
      oledRound signed task now = some (next, draws ++ more) ∧
      List.Forall₂ (OledCall.Shows signed)
        (uptimeTexts (past.length / 86400 % 256) (past.length / 3600 % 24) (past.length / 60 % 60)
          (past.length % 60) now) draws ∧
      more.filterMap OledCall.text = [] := by
  obtain ⟨task, run, running⟩ := oledTask_running room past
  obtain ⟨next, draws, more, round, shown, rest, -, -⟩ := running.round signed now
  exact ⟨task, next, draws, more, run, round, shown, rest⟩

end Loop

end YosStm32.Oled
