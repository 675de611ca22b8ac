/-
**The tasks of `main.c` together.**

The sensor's task stores `_temperature` and then `_humidity`, the display's task reads the one and then the
other, and both use the I2C bus. The rounds of the two may come in any order: the sensor may complete rounds
while the display is between its two reads, and the display may do so while the sensor is between its two
stores (`MainEvent`). On the bus their transactions interleave in any way. What the display shows in the end
is what the readings were when it read them (`main_screen`): nothing of what the sensor's task puts on the
bus gets to the display, nothing that was drawn is lost, and no text is left over.
-/

import YosStm32.Aht20.SensorTask
import YosStm32.Iic.Progress
import YosStm32.Oled.Receiver
import YosStm32.Oled.Screen

namespace YosStm32.Main

open Lib Iic Oled Aht20

/-! ### The readings -/

/-- A round of one of the tasks. What the other one does in the middle of it is counted with it: rounds of
the display between the sensor's two stores, rounds of the sensor between the display's two reads. When a
round of the display reads the temperature between the two stores and the humidity after them, nothing is
lost if it is put behind the sensor's round. -/
inductive MainEvent where
  | sensor (reply : Reply) (inside : Nat)
  | display (between : List Reply)

/-- The globals and the variables of both tasks. -/
structure MainState where
  sensor : SensorTask
  oled : OledTask

/-- `_temperature` is stored first and read first. -/
def mainStep (signed : Bool) (s : MainState) : MainEvent → Option MainState
  | .sensor reply inside =>
      (sensorStep s.sensor reply).bind fun sensor =>
        (runEvents (oledStep signed) s.oled (List.replicate inside
          ⟨sensor.readings.temperature, s.sensor.readings.humidity⟩)).map fun oled => ⟨sensor, oled⟩
  | .display between =>
      (runEvents sensorStep s.sensor between).bind fun sensor =>
        (oledStep signed s.oled ⟨s.sensor.readings.temperature, sensor.readings.humidity⟩).map fun oled =>
          ⟨sensor, oled⟩

/-- What the sensor answers in some rounds. -/
def MainEvent.replies : MainEvent → List Reply
  | .sensor reply _ => [reply]
  | .display between => between

/-- What the display reads, after what the sensor has answered before. -/
def readingsRead (past : List Reply) : List MainEvent → List Readings
  | [] => []
  | .sensor reply inside :: events =>
      List.replicate inside ⟨(readingsAfter (past ++ [reply])).temperature, (readingsAfter past).humidity⟩ ++
        readingsRead (past ++ [reply]) events
  | .display between :: events =>
      ⟨(readingsAfter past).temperature, (readingsAfter (past ++ between)).humidity⟩ ::
        readingsRead (past ++ between) events

section Rounds

variable {signed : Bool} {statusWord : UInt8} {buf : List UInt8}

/-- The sensor's task goes on with any rounds, and its readings are known. -/
theorem sensor_continues {past : List Reply} {sensor : SensorTask}
    (run : runEvents sensorStep (SensorTask.start statusWord).1 past = some sensor) (more : List Reply) :
    sensor.readings = readingsAfter past ∧ ∃ next, runEvents sensorStep sensor more = some next ∧
      runEvents sensorStep (SensorTask.start statusWord).1 (past ++ more) = some next := by
  obtain ⟨same, run', running, -⟩ := aht20Task_running statusWord past
  obtain rfl := Option.some.inj (run.symm.trans run')
  obtain ⟨next, all, -⟩ := aht20Task_running statusWord (past ++ more)
  obtain ⟨middle, first, second⟩ := runEvents_append.mp all
  obtain rfl := Option.some.inj (run.symm.trans first)
  exact ⟨running.readings, next, second, all⟩

/-- So does the display's task. -/
theorem oled_continues (room : buf.length = 16) {past : List Readings} {oled : OledTask}
    (run : runEvents (oledStep signed) (OledTask.start buf) past = some oled) (more : List Readings) :
    ∃ next, runEvents (oledStep signed) oled more = some next ∧
      runEvents (oledStep signed) (OledTask.start buf) (past ++ more) = some next := by
  obtain ⟨next, all, -⟩ : ∃ next, runEvents (oledStep signed) (OledTask.start buf) (past ++ more) =
      some next ∧ _ := oledTask_running room (past ++ more)
  obtain ⟨middle, first, second⟩ := runEvents_append.mp all
  obtain rfl := Option.some.inj (run.symm.trans first)
  exact ⟨next, second, all⟩

/-- **The two tasks, round by round.** Each is where it would be alone; only the readings pass between them. -/
theorem main_rounds (signed : Bool) (room : buf.length = 16) (statusWord : UInt8) (events : List MainEvent) :
    ∃ last, runEvents (mainStep signed) ⟨(SensorTask.start statusWord).1, OledTask.start buf⟩ events =
        some last ∧
      runEvents sensorStep (SensorTask.start statusWord).1 (events.flatMap MainEvent.replies) =
        some last.sensor ∧
      runEvents (oledStep signed) (OledTask.start buf) (readingsRead [] events) = some last.oled := by
  suffices general : ∀ (past : List Reply) (read : List Readings) (s : MainState),
      runEvents sensorStep (SensorTask.start statusWord).1 past = some s.sensor →
      runEvents (oledStep signed) (OledTask.start buf) read = some s.oled →
      ∃ last, runEvents (mainStep signed) s events = some last ∧
        runEvents sensorStep (SensorTask.start statusWord).1 (past ++ events.flatMap MainEvent.replies) =
          some last.sensor ∧
        runEvents (oledStep signed) (OledTask.start buf) (read ++ readingsRead past events) =
          some last.oled from general [] [] _ rfl rfl
  induction events with
  | nil =>
      intro past read s sensor oled
      rw [List.flatMap_nil, readingsRead, List.append_nil, List.append_nil]
      exact ⟨s, rfl, sensor, oled⟩
  | cons event events ih =>
      intro past read s sensor oled
      cases event with
      | sensor reply inside =>
          obtain ⟨before, next, one, sensor'⟩ := sensor_continues sensor [reply]
          obtain ⟨after, -⟩ := sensor_continues sensor' []
          obtain ⟨_, step, rest⟩ := runEvents_cons.mp one
          rw [runEvents_nil, Option.some.injEq] at rest
          obtain ⟨shown, draws, oled'⟩ := oled_continues room oled
            (List.replicate inside ⟨next.readings.temperature, s.sensor.readings.humidity⟩)
          obtain ⟨last, run, sensor'', oled''⟩ := ih (past ++ [reply]) _ ⟨next, shown⟩ sensor' oled'
          rw [List.append_assoc] at sensor'' oled''
          rw [before, after] at oled''
          refine ⟨last, runEvents_cons.mpr ⟨⟨next, shown⟩, ?_, run⟩, sensor'', oled''⟩
          rw [mainStep, step, Option.bind_some, rest, draws]
          rfl
      | display between =>
          obtain ⟨before, next, one, sensor'⟩ := sensor_continues sensor between
          obtain ⟨after, -⟩ := sensor_continues sensor' []
          obtain ⟨shown, draws, oled'⟩ := oled_continues room oled
            [⟨s.sensor.readings.temperature, next.readings.humidity⟩]
          obtain ⟨_, step, rest⟩ := runEvents_cons.mp draws
          rw [runEvents_nil, Option.some.injEq] at rest
          obtain ⟨last, run, sensor'', oled''⟩ := ih (past ++ between) _ ⟨next, shown⟩ sensor' oled'
          rw [List.append_assoc] at sensor'' oled''
          rw [before, after] at oled''
          refine ⟨last, runEvents_cons.mpr ⟨⟨next, shown⟩, ?_, run⟩, sensor'', oled''⟩
          rw [mainStep, one, Option.bind_some, step, rest]
          rfl

/-- The display reads the first temperature with the humidity of before, and then both. -/
theorem main_rounds_sample :
    ∃ last, runEvents (mainStep false) ⟨(SensorTask.start 0x18).1, OledTask.start (List.replicate 16 0)⟩
        [.sensor ⟨0x18, sampleFrame⟩ 1, .display [⟨0x98, sampleFrame⟩]] = some last ∧
      runEvents (oledStep false) (OledTask.start (List.replicate 16 0)) [⟨23, 0⟩, ⟨23, 50⟩] =
        some last.oled := by
  have read : readingsRead [] [.sensor ⟨0x18, sampleFrame⟩ 1, .display [⟨0x98, sampleFrame⟩]] =
      [⟨23, 0⟩, ⟨23, 50⟩] := by decide +kernel
  obtain ⟨last, run, -, oled⟩ := main_rounds false (List.length_replicate ..) 0x18
    [.sensor ⟨0x18, sampleFrame⟩ 1, .display [⟨0x98, sampleFrame⟩]]
  rw [read] at oled
  exact ⟨last, run, oled⟩

end Rounds

/-! ### The bus -/

/-- The ids that `yos_create_task` returns to `main`, after the idle task and the shell. -/
def oledTaskId : Nat := 2

def aht20TaskId : Nat := 3

/-- A call of the sensor's task that uses the bus. -/
def onBus : SensorCall → Option Transaction
  | .transaction tr => some tr
  | .msleep _ => none

/-- What the sensor's task does on the bus in some rounds. -/
def sensorProgram (statusWord : UInt8) (replies : List Reply) : List Transaction :=
  ((SensorTask.start statusWord).2 ++
    emitted sensorStep sensorCalls (SensorTask.start statusWord).1 replies).filterMap onBus

/-- What the display's task sends in some rounds. -/
def oledMessages (signed : Bool) (buf : List UInt8) (readings : List Readings) : List Message :=
  (oledStart signed).getD [] ++ (oledHistory signed buf readings).flatMap OledCall.messages

/-- What the tasks do on the bus. -/
def mainPrograms (signed : Bool) (buf : List UInt8) (statusWord : UInt8) (events : List MainEvent)
    (id : Nat) : List Transaction :=
  if id = oledTaskId then (oledMessages signed buf (readingsRead [] events)).map Message.transaction
  else if id = aht20TaskId then sensorProgram statusWord (events.flatMap MainEvent.replies)
  else []

section Bus

variable {signed : Bool} {statusWord : UInt8} {buf : List UInt8} {events : List MainEvent}

/-- All that these calls do on the bus is with the sensor. -/
def ForSensor (calls : List SensorCall) : Prop :=
  ∀ call ∈ calls, ∀ tr, onBus call = some tr → tr.addr = aht20Address

theorem ForSensor.append {first second : List SensorCall} (one : ForSensor first) (two : ForSensor second) :
    ForSensor (first ++ second) := fun call member =>
  (List.mem_append.mp member).elim (one call) (two call)

theorem forSensor_msleep (ms : Nat) : ForSensor [.msleep ms] := by
  intro call member tr is
  rw [List.mem_singleton.mp member] at is
  cases is

theorem forSensor_transaction {tr : Transaction} (addr : tr.addr = aht20Address) :
    ForSensor [.transaction tr] := by
  intro call member tr is
  rw [List.mem_singleton.mp member] at is
  cases is
  exact addr

theorem forSensor_init (statusWord : UInt8) : ForSensor (aht20Init statusWord) := by
  unfold aht20Init
  refine ForSensor.append (((((forSensor_msleep _).append (forSensor_transaction rfl)).append
    (forSensor_msleep _)).append (forSensor_transaction rfl)).append (forSensor_transaction rfl)) ?_
  split
  · exact (forSensor_transaction rfl).append (forSensor_msleep _)
  · exact fun _ member => absurd member List.not_mem_nil

theorem forSensor_round (reply : Reply) : ForSensor (roundCalls reply) := by
  unfold roundCalls
  refine ForSensor.append (ForSensor.append ((forSensor_transaction rfl).append
    ((forSensor_msleep 100).append (forSensor_transaction rfl))) ?_) (forSensor_msleep _)
  split
  · exact forSensor_transaction rfl
  · exact fun _ member => absurd member List.not_mem_nil

/-- Every transaction of the sensor's task is one with the sensor. -/
theorem sensorProgram_address {replies : List Reply} {tr : Transaction}
    (member : tr ∈ sensorProgram statusWord replies) : tr.addr = aht20Address := by
  obtain ⟨-, -, -, calls⟩ := aht20Task_running statusWord replies
  rw [sensorProgram, calls] at member
  obtain ⟨call, inCalls, isBus⟩ := List.mem_filterMap.mp member
  rcases List.mem_append.mp inCalls with first | later
  · exact forSensor_init statusWord call first tr isBus
  · obtain ⟨reply, -, here⟩ := List.mem_flatMap.mp later
    exact forSensor_round reply call here tr isBus

/-- No other task uses the bus. -/
theorem mainPrograms_limited (id : Nat) (large : 4 ≤ id) :
    mainPrograms signed buf statusWord events id = [] := by
  rw [mainPrograms, if_neg (by unfold oledTaskId; omega), if_neg (by unfold aht20TaskId; omega)]

/-- **The sensor's task keeps away from the display.** -/
theorem mainPrograms_alone (other : Nat) (different : other ≠ oledTaskId) :
    ∀ tr ∈ mainPrograms signed buf statusWord events other, ¬ tr.With 0x3C := by
  intro tr member here
  rw [mainPrograms, if_neg different] at member
  split at member
  · have addr := sensorProgram_address member
    rw [Transaction.With, addr] at here
    exact absurd here (by decide)
  · cases member

/-- **At any moment the display has what its task has sent**, and nothing else. -/
theorem main_display {first last : Threads Bus Task} {turns : List (ThreadEvent Unit)}
    (initialised : IicInitialised (mainPrograms signed buf statusWord events) first)
    (run : runEvents (Threads.step iicAct) first turns = some last) (display : Display) :
    Served (oledMessages signed buf (readingsRead [] events)) display
      (Receiver.hearAll ⟨display, .nothing⟩ (heard 0x3C false (last.shared.log.map Prod.snd))) :=
  display_alone initialised (if_pos rfl) mainPrograms_alone run display

/-- A measurement of 23 degrees and 50 per cent, and a round of the display. -/
def sampleEvents : List MainEvent := [.sensor ⟨0x18, sampleFrame⟩ 0, .display []]

/-- The bus after `yiic_master_init`, with these rounds to come. -/
def sampleStart : Threads Bus Task where
  shared := { mutex := ⟨-1⟩, currentTranType := .transmit, log := [] }
  locals := fun id =>
    ⟨(mainPrograms true (List.replicate 16 0) 0x18 sampleEvents id).flatMap Transaction.steps, .write⟩
  running := 0

theorem sampleStart_initialised :
    IicInitialised (mainPrograms true (List.replicate 16 0) 0x18 sampleEvents) sampleStart :=
  ⟨⟨⟨0⟩, rfl⟩, rfl, fun _ => rfl⟩

/-- After enough rounds the bus has carried all transactions. -/
theorem main_carried {first last : Threads Bus Task} {rounds : List (List (ThreadEvent Unit))}
    (initialised : IicInitialised (mainPrograms signed buf statusWord events) first)
    (fair : EachStep (runEvents (Threads.step iicAct)) (TwoTurns 4) first rounds)
    (enough : ∑ id ∈ Finset.range 4,
      ((mainPrograms signed buf statusWord events id).flatMap Transaction.steps).length ≤ rounds.length)
    (run : runEvents (Threads.step iicAct) first rounds.flatten = some last) :
    ∃ whole, last.shared.log = traces whole ∧
      ∀ id, doneBy whole id = mainPrograms signed buf statusWord events id := by
  obtain ⟨left, all⟩ := initialised_left initialised.2.2 mainPrograms_limited
  obtain ⟨_, inv⟩ := iic_inv initialised (runEvents_nil first)
  exact rounds_finish inv left fair (all.trans enough) run

/-- A run in which every task finishes. -/
theorem main_display_sample :
    ∃ (turns : List (ThreadEvent Unit)) (last : Threads Bus Task) (whole : List (Nat × Transaction)),
      runEvents (Threads.step iicAct) sampleStart turns = some last ∧ last.shared.log = traces whole ∧
      (∀ id, doneBy whole id = mainPrograms true (List.replicate 16 0) 0x18 sampleEvents id) ∧
      Served (oledMessages true (List.replicate 16 0) (readingsRead [] sampleEvents)) ⟨0, 0, false, []⟩
        (Receiver.hearAll ⟨⟨0, 0, false, []⟩, .nothing⟩ (heard 0x3C false (last.shared.log.map Prod.snd))) := by
  obtain ⟨rounds, last, fair, enough, run⟩ := rounds_exist sampleStart_initialised mainPrograms_limited _
  obtain ⟨whole, log, finished⟩ := main_carried sampleStart_initialised fair enough run
  exact ⟨_, last, whole, run, log, finished, main_display sampleStart_initialised run _⟩

/-- What the display has made of a bus that has carried all transactions. -/
theorem finished_screen (room : buf.length = 16) {log : List (Nat × BusOp)} {whole : List (Nat × Transaction)}
    (traced : log = traces whole) (finished : ∀ id, doneBy whole id = mainPrograms signed buf statusWord events id)
    (display : Display) :
    ∃ shows, Receiver.hearAll ⟨display, .nothing⟩ (heard 0x3C false (log.map Prod.snd)) = ⟨shows, .nothing⟩ ∧
      ∀ page column, page < 8 → column < 128 → shows.screen page column =
        (latest signed (readingsRead [] events) page column).or
          ((lastWide signed (readingsRead [] events) page column).or (titleAt signed page column)) := by
  have draws : mainPrograms signed buf statusWord events oledTaskId =
      (oledMessages signed buf (readingsRead [] events)).map Message.transaction := if_pos rfl
  have got : heard 0x3C false (log.map Prod.snd) =
      talks 0x3C ((oledMessages signed buf (readingsRead [] events)).map Message.transaction) := by
    have inOrder : ∀ id, doneBy whole id <+: mainPrograms signed buf statusWord events id := by
      intro id
      rw [finished]
    rw [traced, (heard_traces 0x3C whole).1, talks_alone inOrder mainPrograms_alone, finished, draws]
  obtain ⟨start, task, started, -, screen⟩ := oledTask_screen signed room (readingsRead [] events)
  rw [got, Receiver.hear_messages]
  refine ⟨_, rfl, fun page column inside right => ?_⟩
  rw [oledMessages, started]
  exact screen display page column inside right

/-- **What the display shows in the end**, however the rounds of the tasks and their transactions interleave:
the texts of the last round, with the readings as they were when they were read, under them a last fourth
character, under that the title. -/
theorem main_screen (room : buf.length = 16) {first last : Threads Bus Task}
    {rounds : List (List (ThreadEvent Unit))}
    (initialised : IicInitialised (mainPrograms signed buf statusWord events) first)
    (fair : EachStep (runEvents (Threads.step iicAct)) (TwoTurns 4) first rounds)
    (enough : ∑ id ∈ Finset.range 4,
      ((mainPrograms signed buf statusWord events id).flatMap Transaction.steps).length ≤ rounds.length)
    (run : runEvents (Threads.step iicAct) first rounds.flatten = some last) (display : Display) :
    ∃ shows, Receiver.hearAll ⟨display, .nothing⟩ (heard 0x3C false (last.shared.log.map Prod.snd)) =
        ⟨shows, .nothing⟩ ∧
      ∀ page column, page < 8 → column < 128 → shows.screen page column =
        (latest signed (readingsRead [] events) page column).or
          ((lastWide signed (readingsRead [] events) page column).or (titleAt signed page column)) := by
  obtain ⟨whole, log, finished⟩ := main_carried initialised fair enough run
  exact finished_screen room log finished display

/-- The second column of the `2` of `T:  23`. -/
theorem main_screen_sample :
    ∃ (rounds : List (List (ThreadEvent Unit))) (last : Threads Bus Task) (shows : Display),
      runEvents (Threads.step iicAct) sampleStart rounds.flatten = some last ∧
      Receiver.hearAll ⟨⟨0, 0, false, []⟩, .nothing⟩ (heard 0x3C false (last.shared.log.map Prod.snd)) =
        ⟨shows, .nothing⟩ ∧ shows.screen 4 25 = some 0x42 := by
  obtain ⟨rounds, last, fair, enough, run⟩ := rounds_exist sampleStart_initialised mainPrograms_limited _
  obtain ⟨shows, got, screen⟩ := main_screen (List.length_replicate ..) sampleStart_initialised fair enough run
    ⟨0, 0, false, []⟩
  refine ⟨rounds, last, shows, run, got, (screen 4 25 (by decide) (by decide)).trans ?_⟩
  decide +kernel

end Bus

end YosStm32.Main
