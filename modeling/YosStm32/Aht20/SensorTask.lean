/-
**The sensor's task** (`_aht20_task` and `_ath20_event_cb` in `main.c`).

In every round the task asks the sensor for a measurement, and for its state 100 ms later; only a sensor that
is not busy is asked for the measurement itself, and only one with the right checksum is taken over. So
after any rounds `_temperature` and `_humidity` are those of the last measurement that has come through
(`Running`). A measurement that the sensor sent with the right checksum, and that is received with a
small error, leaves them alone (`aht20Task_errors`).
-/

import Mathlib.Data.List.Induction
import YosStm32.Aht20.Checksum
import YosStm32.Aht20.Readings
import YosStm32.Lib.Run
import YosStm32.Oled.Uptime

namespace YosStm32.Aht20

open Iic Lib
open Oled (Readings)

/-! ### The task -/

/-- `_ath20_event_cb`. -/
def ath20EventCb (temperature : Int8) (humidity : UInt8) (status : Aht20Status) (readings : Readings) :
    Readings :=
  if status = .success then { readings with temperature := temperature, humidity := humidity } else readings

/-- The globals of the driver, with `_temperature` and `_humidity`. -/
structure SensorTask where
  driver : Driver Readings
  readings : Readings

/-- `_aht20_task` before its loop, with the globals as the program finds them. -/
def SensorTask.start (statusWord : UInt8) : SensorTask × List SensorCall :=
  let driver : Driver Readings :=
    { aht20 := ⟨0, Vector.replicate 5 0, 0⟩, triggered := 0, readEventCallback := none }
  ({ driver := registerAht20EventCallback driver (some ath20EventCb)
     readings := ⟨0, 0⟩ }, aht20Init statusWord)

/-- A round of the loop. -/
def aht20Round (task : SensorTask) (reply : Reply) : Option (SensorTask × List SensorCall) :=
  let (driver, trigger) := aht20TriggerMeasurement task.driver
  (aht20Event driver task.readings reply).map fun (driver, readings, event) =>
    ({ driver := driver, readings := readings }, trigger ++ [.msleep 100] ++ event ++ [.msleep 1000])

/-- The loop as an event system; a round comes with what the sensor answers. -/
def sensorStep (task : SensorTask) (reply : Reply) : Option SensorTask := (aht20Round task reply).map Prod.fst

def sensorCalls (task : SensorTask) (reply : Reply) : List SensorCall :=
  ((aht20Round task reply).map Prod.snd).getD []

/-! ### What rounds do -/

/-- The sensor is not busy, and its measurement has the right checksum. -/
def Reply.Taken (reply : Reply) : Prop := reply.status &&& 0x80 = 0 ∧ reply.frame.Valid

instance (reply : Reply) : Decidable reply.Taken := inferInstanceAs (Decidable (_ ∧ _))

/-- The readings that a measurement stands for. -/
def Aht20T.readings (frame : Aht20T) : Readings := ⟨aht20GetTemperature frame, aht20GetHumidity frame⟩

/-- The readings after some rounds: those of the last measurement that has been taken over. -/
def readingsAfter (replies : List Reply) : Readings :=
  ((replies.filter fun reply => decide reply.Taken).getLast?.map fun reply => reply.frame.readings).getD
    ⟨0, 0⟩

/-- A write to the sensor. -/
def sensorWrite (bytes : List UInt8) : Transaction :=
  ⟨.transmit, aht20Address, bytes.map iicStubWrite⟩

/-- A read from it. -/
def sensorRead (count : Nat) : Transaction := ⟨.receive, aht20Address, [iicStubRead count]⟩

/-- The calls of a round. -/
def roundCalls (reply : Reply) : List SensorCall :=
  [.transaction (sensorWrite [aht20MeasureCmd, aht20MeasureParam1, aht20MeasureParam2]), .msleep 100,
      .transaction (sensorRead 1)] ++
    (if reply.status &&& 0x80 = 0 then [.transaction (sensorRead 7)] else []) ++ [.msleep 1000]

section Rounds

variable {task : SensorTask}

theorem readingsAfter_concat (replies : List Reply) (reply : Reply) :
    readingsAfter (replies ++ [reply]) =
      if reply.Taken then reply.frame.readings else readingsAfter replies := by
  rw [readingsAfter, List.filter_append, List.filter_singleton]
  by_cases taken : reply.Taken
  · rw [if_pos taken, decide_eq_true taken, cond_true, List.getLast?_concat]
    rfl
  · rw [if_neg taken, decide_eq_false taken, cond_false, List.append_nil]
    rfl

/-- The callback takes over what has the right checksum. -/
theorem ath20EventCb_eq {frame : Aht20T} {sum : UInt8} (checked : crc frame.bytes 6 = some sum)
    (readings : Readings) :
    ath20EventCb (aht20GetTemperature frame) (aht20GetHumidity frame)
        (if sum ≠ frame.crc then .crcFail else .success) readings =
      if frame.Valid then frame.readings else readings := by
  have valid : frame.Valid ↔ sum = frame.crc := by
    rw [Aht20T.Valid, checked, Option.some.injEq]
  by_cases same : sum = frame.crc
  · rw [if_pos (valid.mpr same), if_neg (not_not_intro same)]
    rfl
  · rw [if_neg fun right => same (valid.mp right), if_pos same]
    rfl

/-- **What a round does.** -/
theorem aht20Round_eq (callback : task.driver.readEventCallback = some ath20EventCb) (reply : Reply) :
    ∃ next, aht20Round task reply = some (next, roundCalls reply) ∧
      next.driver.readEventCallback = some ath20EventCb ∧
      next.readings = if reply.Taken then reply.frame.readings else task.readings := by
  have triggered : (aht20TriggerMeasurement task.driver).1.triggered ≠ 0 :=
    (by decide : (1 : UInt8) ≠ 0)
  have callback' : (aht20TriggerMeasurement task.driver).1.readEventCallback = some ath20EventCb := callback
  rw [aht20Round]
  by_cases idle : reply.status &&& 0x80 = 0
  · have checked := reply.frame.crc_bytes
    have taken : reply.Taken ↔ reply.frame.Valid := and_iff_right idle
    dsimp only
    rw [aht20Event_read triggered idle checked callback', roundCalls, if_pos idle, Option.map_some]
    refine ⟨_, rfl, callback, ?_⟩
    simp only [taken]
    exact ath20EventCb_eq checked task.readings
  · dsimp only
    rw [aht20Event_busy triggered idle, roundCalls, if_neg idle, Option.map_some]
    refine ⟨_, rfl, callback, ?_⟩
    rw [if_neg fun taken : reply.Taken => idle taken.1]

end Rounds

/-! ### The loop -/

section Loop

/-- The task in its loop, after some rounds. -/
structure Running (replies : List Reply) (task : SensorTask) : Prop where
  callback : task.driver.readEventCallback = some ath20EventCb
  readings : task.readings = readingsAfter replies

/-- **Every number of rounds is completed**, whatever the sensor answers; what the task has put on the bus
does not depend on more than whether the sensor was busy. -/
theorem aht20Task_running (statusWord : UInt8) (replies : List Reply) :
    ∃ task, runEvents sensorStep (SensorTask.start statusWord).1 replies = some task ∧
      Running replies task ∧
      emitted sensorStep sensorCalls (SensorTask.start statusWord).1 replies =
        replies.flatMap roundCalls := by
  induction replies using List.reverseRecOn with
  | nil => exact ⟨_, rfl, ⟨rfl, rfl⟩, rfl⟩
  | append_singleton replies reply ih =>
      obtain ⟨task, run, running, calls⟩ := ih
      obtain ⟨next, round, callback, readings⟩ := aht20Round_eq running.callback reply
      have step : sensorStep task reply = some next := by
        rw [sensorStep, round]
        rfl
      have out : sensorCalls task reply = roundCalls reply := by
        rw [sensorCalls, round]
        rfl
      refine ⟨next, runEvents_append.mpr ⟨task, run, runEvents_cons.mpr ⟨next, step, rfl⟩⟩,
        ⟨callback, ?_⟩, ?_⟩
      · rw [readingsAfter_concat, ← running.readings]
        exact readings
      · rw [emitted_append run, calls, emitted_cons step, out, emitted_nil, List.append_nil,
          List.flatMap_append, List.flatMap_singleton]

/-- What the sensor sent in a round, and what has been received. -/
structure Exchange where
  status : UInt8
  sent : Aht20T
  received : Aht20T
  deriving DecidableEq, Repr

def Exchange.reply (exchange : Exchange) : Reply := ⟨exchange.status, exchange.received⟩

/-- The measurement was sent with the right checksum, and is received as it was or with a small error. -/
structure Exchange.Noisy (exchange : Exchange) : Prop where
  valid : exchange.sent.Valid
  received : exchange.received = exchange.sent ∨ SmallError 8 56 (wrongBits exchange.sent exchange.received)

/-- The sensor was not busy, and its measurement came through. -/
def Exchange.Intact (exchange : Exchange) : Prop :=
  exchange.status &&& 0x80 = 0 ∧ exchange.received = exchange.sent

instance (exchange : Exchange) : Decidable exchange.Intact := inferInstanceAs (Decidable (_ ∧ _))

theorem Exchange.Noisy.taken_iff {exchange : Exchange} (noisy : exchange.Noisy) :
    exchange.reply.Taken ↔ exchange.Intact := by
  constructor
  · rintro ⟨idle, valid⟩
    refine ⟨idle, noisy.received.resolve_right fun error => ?_⟩
    exact smallError_detected noisy.valid error valid
  · rintro ⟨idle, same⟩
    have valid := noisy.valid
    rw [← same] at valid
    exact ⟨idle, valid⟩

/-- **Small errors never show.** After any rounds in which every measurement is sent with the right checksum
and received as it was or with a small error, the readings are those of the last one that came through. -/
theorem aht20Task_errors (statusWord : UInt8) {exchanges : List Exchange}
    (noisy : ∀ exchange ∈ exchanges, exchange.Noisy) :
    ∃ task, runEvents sensorStep (SensorTask.start statusWord).1 (exchanges.map Exchange.reply) =
        some task ∧
      task.readings =
        ((exchanges.filter fun exchange => decide exchange.Intact).getLast?.map
          fun exchange => exchange.sent.readings).getD ⟨0, 0⟩ := by
  obtain ⟨task, run, running, -⟩ := aht20Task_running statusWord (exchanges.map Exchange.reply)
  refine ⟨task, run, ?_⟩
  rw [running.readings, readingsAfter, List.filter_map, List.getLast?_map, Option.map_map]
  have intact : exchanges.filter ((fun reply => decide reply.Taken) ∘ Exchange.reply) =
      exchanges.filter fun exchange => decide exchange.Intact :=
    List.filter_congr fun exchange member => decide_eq_decide.mpr (noisy exchange member).taken_iff
  rw [intact]
  cases last : (exchanges.filter fun exchange => decide exchange.Intact).getLast? with
  | none => rw [Option.map_none, Option.map_none]
  | some exchange =>
      have member := List.mem_of_getLast? last
      have same := (of_decide_eq_true (List.mem_filter.mp member).2 : exchange.Intact).2
      exact congrArg Aht20T.readings same

/-- 50 per cent and 23 degrees. -/
def sampleFrame : Aht20T := ⟨0x18, #v[0x80, 0x00, 0x05, 0xE6, 0x66], 216⟩

/-- The measurement comes through, then with a wrong bit, then while the sensor is busy. -/
def sampleExchanges : List Exchange :=
  [⟨0x18, sampleFrame, sampleFrame⟩,
    ⟨0x18, sampleFrame, { sampleFrame with data := #v[0x80, 0x00, 0x0D, 0xE6, 0x66] }⟩,
    ⟨0x98, sampleFrame, sampleFrame⟩]

theorem aht20Task_errors_oneBit :
    ∃ task, runEvents sensorStep (SensorTask.start 0x18).1 (sampleExchanges.map Exchange.reply) =
        some task ∧ task.readings = ⟨23, 50⟩ := by
  have noisy : ∀ exchange ∈ sampleExchanges, exchange.Noisy := by
    have valid : sampleFrame.Valid := by decide +kernel
    intro exchange member
    simp only [sampleExchanges, List.mem_cons, List.not_mem_nil, or_false] at member
    rcases member with rfl | rfl | rfl
    · exact ⟨valid, Or.inl rfl⟩
    · exact ⟨valid, Or.inr (.odd (by decide +kernel))⟩
    · exact ⟨valid, Or.inl rfl⟩
  obtain ⟨task, run, readings⟩ := aht20Task_errors 0x18 noisy
  refine ⟨task, run, readings.trans ?_⟩
  decide +kernel

end Loop

end YosStm32.Aht20
