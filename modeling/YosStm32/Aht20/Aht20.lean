/-
**The sensor driver** (`aht20.c`, `aht20.h`, `i2c.h`, `iic_stub.c`, with `HOST_TYPE` 1).

What a function does on the bus is a list of calls: whole transactions of the I2C driver, and
`yos_task_msleep`, which is what `_delay_ms` stands for. The bytes that the sensor answers are arguments of
the functions that read them. Both versions of `crc` are here; `CRC_TYPE` selects the first one.
-/

import YosStm32.Iic.Yiic

namespace YosStm32.Aht20

open Iic

/-! ### Constants -/

/-- `AHT20_ADDRESS`. -/
def aht20Address : UInt8 := 0x38

/-- `AHT20_INIT_CMD`, `AHT20_INIT_PARAM_1` and `AHT20_INIT_PARAM_2`. -/
def aht20InitCmd : UInt8 := 0xBE
def aht20InitParam1 : UInt8 := 0x08
def aht20InitParam2 : UInt8 := 0x00

/-- `AHT20_MEASURE_CMD`, `AHT20_MEASURE_PARAM_1` and `AHT20_MEASURE_PARAM_2`. -/
def aht20MeasureCmd : UInt8 := 0xAC
def aht20MeasureParam1 : UInt8 := 0x33
def aht20MeasureParam2 : UInt8 := 0x00

/-- `AHT20_SOFT_RESET_CMD`. -/
def aht20SoftResetCmd : UInt8 := 0xBA

/-- `AHT20_STATUS_WORD`. -/
def aht20StatusWord : UInt8 := 0x71

/-- `AHT20_CAL`, used as a mask. -/
def aht20Cal : UInt8 := 3

/-- `AHT20_AFTER_POWER_ON_DELAY`. -/
def aht20AfterPowerOnDelay : Nat := 40 + 5

/-- `AHT20_DELAY`. -/
def aht20Delay : Nat := 30

/-- `enum AHT20_STATUS`. -/
inductive Aht20Status where
  | notReady
  | crcFail
  | success
  deriving DecidableEq, Repr

/-- `aht20_t`, the seven bytes of a measurement. -/
structure Aht20T where
  state : UInt8
  data : Vector UInt8 5
  crc : UInt8
  deriving DecidableEq, Repr

/-- The bytes in memory, as they are received. -/
def Aht20T.bytes (frame : Aht20T) : List UInt8 := frame.state :: frame.data.toList ++ [frame.crc]

/-! ### The bus -/

/-- What the driver calls. -/
inductive SensorCall where
  | transaction (tr : Transaction)
  | msleep (ms : Nat)
  deriving DecidableEq, Repr

/-- `I2C_WRITE`, of `i2c.h`. -/
def i2cWrite : Int := 0

/-- `I2C_READ`. -/
def i2cRead : Int := 1

/-- `iic_stub_start`, some transfers, `iic_stub_stop`. -/
def iicStub (readOrWrite : Int) (transfers : List Transfer) : SensorCall :=
  .transaction
    { type := if readOrWrite = i2cWrite then .transmit else .receive
      addr := aht20Address
      transfers := transfers }

/-- `iic_stub_write`. -/
def iicStubWrite (byte : UInt8) : Transfer := .transmit (some [byte])

/-- `iic_stub_read` into a buffer. -/
def iicStubRead (bufLen : Nat) : Transfer := .receive true bufLen

/-- `aht20_send_full_command`. -/
def aht20SendFullCommand (cmd param1 param2 : UInt8) : List SensorCall :=
  [iicStub i2cWrite [iicStubWrite cmd, iicStubWrite param1, iicStubWrite param2]]

/-- `aht20_send_cmd`. -/
def aht20SendCmd (cmd : UInt8) : List SensorCall := [iicStub i2cWrite [iicStubWrite cmd]]

/-- `aht20_read_cmd`; `read` is what the sensor answers. -/
def aht20ReadCmd (read : UInt8) : UInt8 × List SensorCall := (read, [iicStub i2cRead [iicStubRead 1]])

/-- `aht20_init`; `statusWord` is what the sensor answers. -/
def aht20Init (statusWord : UInt8) : List SensorCall :=
  let (statusWord, read) := aht20ReadCmd statusWord
  [.msleep aht20AfterPowerOnDelay] ++ aht20SendCmd aht20SoftResetCmd ++ [.msleep aht20Delay] ++
    aht20SendCmd aht20StatusWord ++ read ++
    if statusWord &&& aht20Cal = 0 then
      aht20SendFullCommand aht20InitCmd aht20InitParam1 aht20InitParam2 ++
        [.msleep aht20AfterPowerOnDelay]
    else []

/-! ### The checksum -/

/-- The loop over `j` in `crc`. -/
def crcBits : (left : Nat) → UInt8 → UInt8
  | 0, crc => crc
  | left + 1, crc =>
      if crc &&& 0x80 ≠ 0 then crcBits left (crc <<< 1 ^^^ 0x31) else crcBits left (crc <<< 1)

/-- The loop over `i` in `crc`. A read past the end is `none`. -/
def crcLoop (data : List UInt8) : (left i : Nat) → UInt8 → Option UInt8
  | 0, _, crc => some crc
  | left + 1, i, crc => data[i]?.bind fun byte => crcLoop data left (i + 1) (crcBits 8 (crc ^^^ byte))

/-- `crc`, for `CRC_SAVE_SPACE`. -/
def crc (data : List UInt8) (len : UInt8) : Option UInt8 := crcLoop data len.toNat 0 0xFF

/-- `crc_lookup`. -/
def crcLookup : List UInt8 :=
  [0x00, 0x31, 0x62, 0x53, 0xC4, 0xF5, 0xA6, 0x97, 0xB9, 0x88, 0xDB, 0xEA, 0x7D, 0x4C, 0x1F, 0x2E,
    0x43, 0x72, 0x21, 0x10, 0x87, 0xB6, 0xE5, 0xD4, 0xFA, 0xCB, 0x98, 0xA9, 0x3E, 0x0F, 0x5C, 0x6D,
    0x86, 0xB7, 0xE4, 0xD5, 0x42, 0x73, 0x20, 0x11, 0x3F, 0x0E, 0x5D, 0x6C, 0xFB, 0xCA, 0x99, 0xA8,
    0xC5, 0xF4, 0xA7, 0x96, 0x01, 0x30, 0x63, 0x52, 0x7C, 0x4D, 0x1E, 0x2F, 0xB8, 0x89, 0xDA, 0xEB,
    0x3D, 0x0C, 0x5F, 0x6E, 0xF9, 0xC8, 0x9B, 0xAA, 0x84, 0xB5, 0xE6, 0xD7, 0x40, 0x71, 0x22, 0x13,
    0x7E, 0x4F, 0x1C, 0x2D, 0xBA, 0x8B, 0xD8, 0xE9, 0xC7, 0xF6, 0xA5, 0x94, 0x03, 0x32, 0x61, 0x50,
    0xBB, 0x8A, 0xD9, 0xE8, 0x7F, 0x4E, 0x1D, 0x2C, 0x02, 0x33, 0x60, 0x51, 0xC6, 0xF7, 0xA4, 0x95,
    0xF8, 0xC9, 0x9A, 0xAB, 0x3C, 0x0D, 0x5E, 0x6F, 0x41, 0x70, 0x23, 0x12, 0x85, 0xB4, 0xE7, 0xD6,
    0x7A, 0x4B, 0x18, 0x29, 0xBE, 0x8F, 0xDC, 0xED, 0xC3, 0xF2, 0xA1, 0x90, 0x07, 0x36, 0x65, 0x54,
    0x39, 0x08, 0x5B, 0x6A, 0xFD, 0xCC, 0x9F, 0xAE, 0x80, 0xB1, 0xE2, 0xD3, 0x44, 0x75, 0x26, 0x17,
    0xFC, 0xCD, 0x9E, 0xAF, 0x38, 0x09, 0x5A, 0x6B, 0x45, 0x74, 0x27, 0x16, 0x81, 0xB0, 0xE3, 0xD2,
    0xBF, 0x8E, 0xDD, 0xEC, 0x7B, 0x4A, 0x19, 0x28, 0x06, 0x37, 0x64, 0x55, 0xC2, 0xF3, 0xA0, 0x91,
    0x47, 0x76, 0x25, 0x14, 0x83, 0xB2, 0xE1, 0xD0, 0xFE, 0xCF, 0x9C, 0xAD, 0x3A, 0x0B, 0x58, 0x69,
    0x04, 0x35, 0x66, 0x57, 0xC0, 0xF1, 0xA2, 0x93, 0xBD, 0x8C, 0xDF, 0xEE, 0x79, 0x48, 0x1B, 0x2A,
    0xC1, 0xF0, 0xA3, 0x92, 0x05, 0x34, 0x67, 0x56, 0x78, 0x49, 0x1A, 0x2B, 0xBC, 0x8D, 0xDE, 0xEF,
    0x82, 0xB3, 0xE0, 0xD1, 0x46, 0x77, 0x24, 0x15, 0x3B, 0x0A, 0x59, 0x68, 0xFF, 0xCE, 0x9D, 0xAC]

/-- The loop of `crc` for `CRC_SAVE_CPU`; `data` goes on with every turn. -/
def crcTableLoop : (len : Nat) → List UInt8 → UInt8 → Option UInt8
  | 0, _, crc => some crc
  | _ + 1, [], _ => none
  | len + 1, byte :: data, crc =>
      crcLookup[(crc ^^^ byte).toNat]?.bind fun crc => crcTableLoop len data crc

/-- `crc`, for `CRC_SAVE_CPU`. -/
def crcTable (data : List UInt8) (len : UInt8) : Option UInt8 := crcTableLoop len.toNat data 0xFF

/-! ### Measurements -/

/-- `aht20_read`: the global `aht20`, the returned status and the calls. -/
def aht20Read (received : Aht20T) : Option (Aht20T × Aht20Status × List SensorCall) :=
  (crc received.bytes 6).map fun sum =>
    (received, if sum ≠ received.crc then .crcFail else .success,
      -- `sizeof(aht20)`
      [iicStub i2cRead [iicStubRead 7]])

/-- The 20 bits that `aht20_get_temperature` puts together. -/
def rawTemperature (frame : Aht20T) : Nat :=
  (frame.data[2].toNat &&& 0x0F) <<< 16 ||| frame.data[3].toNat <<< 8 ||| frame.data[4].toNat

/-- `aht20_get_temperature`. The `int32_t` is far from its ends (`rawTemperature_lt`). -/
def aht20GetTemperature (frame : Aht20T) : Int8 :=
  Int8.ofInt (((rawTemperature frame * 25) >>> 17 : Nat) - 50)

/-- The 20 bits that `aht20_get_humidity` puts together. -/
def rawHumidity (frame : Aht20T) : Nat :=
  frame.data[0].toNat <<< 12 ||| frame.data[1].toNat <<< 4 ||| (frame.data[2].toNat &&& 0xF0) >>> 4

/-- `aht20_get_humidity`. -/
def aht20GetHumidity (frame : Aht20T) : UInt8 := UInt8.ofNat ((rawHumidity frame * 25) >>> 18)

/-! ### Events -/

/-- The globals of `aht20.c`; a callback works on a state of the program's. -/
structure Driver (Program : Type) where
  aht20 : Aht20T
  triggered : UInt8
  readEventCallback : Option (Int8 → UInt8 → Aht20Status → Program → Program)

/-- What the sensor answers when a measurement is asked for: a byte with its state, and the measurement. -/
structure Reply where
  status : UInt8
  frame : Aht20T
  deriving DecidableEq, Repr

section Events

variable {Program : Type}

/-- `register_aht20_event_callback`. -/
def registerAht20EventCallback (driver : Driver Program)
    (callback : Option (Int8 → UInt8 → Aht20Status → Program → Program)) : Driver Program :=
  { driver with readEventCallback := callback }

/-- `aht20_trigger_measurement`. -/
def aht20TriggerMeasurement (driver : Driver Program) : Driver Program × List SensorCall :=
  ({ driver with triggered := 1 },
    aht20SendFullCommand aht20MeasureCmd aht20MeasureParam1 aht20MeasureParam2)

/-- `aht20_event`. The measurement is only asked for when the sensor is not busy. -/
def aht20Event (driver : Driver Program) (program : Program) (reply : Reply) :
    Option (Driver Program × Program × List SensorCall) :=
  if driver.triggered = 0 then some (driver, program, [])
  else
    let (status, asked) := aht20ReadCmd reply.status
    if status &&& 0x80 = 0 then
      (aht20Read reply.frame).map fun (frame, status, read) =>
        ({ driver with aht20 := frame, triggered := 0 },
          match driver.readEventCallback with
          | some callback => callback (aht20GetTemperature frame) (aht20GetHumidity frame) status program
          | none => program,
          asked ++ read)
    else some (driver, program, asked)

variable {driver : Driver Program} {reply : Reply}

/-- A busy sensor is left alone until the next event. -/
theorem aht20Event_busy (triggered : driver.triggered ≠ 0) (busy : ¬ reply.status &&& 0x80 = 0)
    (program : Program) :
    aht20Event driver program reply = some (driver, program, [iicStub i2cRead [iicStubRead 1]]) := by
  rw [aht20Event, if_neg triggered]
  exact if_neg busy

/-- A measurement is read and handed to the callback. -/
theorem aht20Event_read (triggered : driver.triggered ≠ 0) (idle : reply.status &&& 0x80 = 0) {sum : UInt8}
    (checked : crc reply.frame.bytes 6 = some sum)
    {callback : Int8 → UInt8 → Aht20Status → Program → Program}
    (registered : driver.readEventCallback = some callback) (program : Program) :
    aht20Event driver program reply =
      some ({ driver with aht20 := reply.frame, triggered := 0 },
        callback (aht20GetTemperature reply.frame) (aht20GetHumidity reply.frame)
          (if sum ≠ reply.frame.crc then .crcFail else .success) program,
        [iicStub i2cRead [iicStubRead 1], iicStub i2cRead [iicStubRead 7]]) := by
  rw [aht20Event, if_neg triggered]
  refine (if_pos idle).trans ?_
  rw [aht20Read, checked, registered]
  rfl

end Events

end YosStm32.Aht20
