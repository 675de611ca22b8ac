/-
**The display driver** (`ssd1306xled.c`, `yiic_stub.c`).

What the driver sends comes in messages: `ssd1306_start_command` or `ssd1306_start_data`, some calls of
`ssd1306_byte`, and `ssd1306_stop`. Each of them is one transaction on the I2C bus
(`Message.transaction_ops`). `Display` is what the receiver makes of them: the comments in the source
name the commands. What the source does not say of the device is assumed there: the commands that select a
page and a column set the address counter in the addressing mode that the driver chooses too (`0x20, 0x00`),
and the two commands for an address window (`0x21` and `0x22`) leave the counter as it is.
-/

import YosStm32.Iic.Transactions

namespace YosStm32.Oled

open Iic

/-! ### The driver -/

/-- The bytes between a start and the stop. -/
inductive Message where
  | command (bytes : List UInt8)
  | data (bytes : List UInt8)
  deriving DecidableEq, Repr

/-- `ssd1306_init_sequence`. -/
def ssd1306InitSequence : List UInt8 :=
  [0xAE, 0xD5, 0xF0, 0xA8, 0x3F, 0xD3, 0x00, 0x40 ||| 0x00, 0x8D, 0x14, 0x20, 0x00, 0xA0 ||| 0x01, 0xC8,
    0xDA, 0x12, 0x81, 0x3F, 0xD9, 0x22, 0xDB, 0x20, 0xA4, 0xA6, 0x2E, 0xAF, 0x22, 0x00, 0x3F, 0x21, 0x00,
    0x7F]

/-- `ssd1306_init`. -/
def ssd1306Init : List Message := [.command ssd1306InitSequence]

/-- `ssd1306_setpos`. -/
def ssd1306Setpos (x y : UInt8) : List Message :=
  [.command [0xB0 ||| (y &&& 0x07), x &&& 0x0F, (0x10 : UInt8) ||| (x >>> 4)]]

/-- `ssd1306_fill`. -/
def ssd1306Fill (p : UInt8) : List Message :=
  ssd1306Setpos 0 0 ++ [.data (List.replicate (128 * 8) p)]

/-- `ssd1306_display_invert`. -/
def ssd1306DisplayInvert (invert : Int) : List Message :=
  [.command [if invert ≠ 0 then 0xA7 else 0xA6]]

/-! ### The bus -/

/-- `SSD1306_SADDR`. -/
def ssd1306Saddr : UInt8 := 0x78

/-- The control byte: `data` in `ssd1306_start_command` and in `ssd1306_start_data`. -/
def Message.control : Message → UInt8
  | .command _ => 0x00
  | .data _ => 0x40

def Message.bytes : Message → List UInt8
  | .command bytes => bytes
  | .data bytes => bytes

/-- The calls of the I2C driver; every byte is a call of its own. -/
def Message.transaction (message : Message) : Transaction where
  type := .transmit
  addr := ssd1306Saddr >>> 1
  transfers := (message.control :: message.bytes).map fun byte => .transmit (some [byte])

/-- **A message is one write transaction**: the address, the control byte, the bytes. -/
theorem Message.transaction_ops (message : Message) :
    message.transaction.ops =
      .start :: .address 0x3C .write :: (message.control :: message.bytes).map .transmit ++ [.stop] := by
  have bytes : ∀ bytes : List UInt8,
      (bytes.map fun byte => Transfer.transmit (some [byte])).flatMap Transfer.ops =
        bytes.map .transmit := by
    intro bytes
    rw [List.flatMap_map]
    exact List.map_eq_flatMap.symm
  rw [Transaction.ops, Message.transaction, bytes]
  rfl

/-! ### The display -/

/-- A byte of the display memory that is written. -/
structure Cell where
  page : Nat
  column : Nat
  byte : UInt8
  deriving DecidableEq, Repr

/-- The address counter, whether the display is inverted, and what has been written. The counter goes
on past the last column here. -/
structure Display where
  page : Nat
  column : Nat
  inverted : Bool
  written : List Cell
  deriving DecidableEq, Repr

/-- One command byte; how many argument bytes follow it. What the page, the two halves of the column, `0x21`
and `0x22` do to the counter is the assumption above. -/
def Display.command (display : Display) (byte : UInt8) : Display × Nat :=
  if byte < 0x10 then ({ display with column := display.column / 16 * 16 + byte.toNat }, 0)
  else if byte < 0x20 then
    ({ display with column := (byte.toNat - 0x10) * 16 + display.column % 16 }, 0)
  else if 0xB0 ≤ byte ∧ byte < 0xB8 then ({ display with page := byte.toNat - 0xB0 }, 0)
  else if byte = 0xA6 then ({ display with inverted := false }, 0)
  else if byte = 0xA7 then ({ display with inverted := true }, 0)
  else if byte = 0x21 ∨ byte = 0x22 then (display, 2)
  else if byte ∈ [0x20, 0x81, 0x8D, 0xA8, 0xD3, 0xD5, 0xD9, 0xDA, 0xDB] then (display, 1)
  else (display, 0)

/-- A command message; `skip` more bytes are arguments. -/
def Display.commands (display : Display) : (skip : Nat) → List UInt8 → Display
  | _, [] => display
  | 0, byte :: bytes => (display.command byte).1.commands (display.command byte).2 bytes
  | skip + 1, _ :: bytes => display.commands skip bytes

/-- A message that arrives. -/
def Display.receive (display : Display) : Message → Display
  | .command bytes => display.commands 0 bytes
  | .data bytes =>
      { display with
        column := display.column + bytes.length
        written := display.written ++
          bytes.mapIdx fun i byte => ⟨display.page, display.column + i, byte⟩ }

/-- Messages that arrive, in order. -/
def Display.receiveAll (display : Display) (messages : List Message) : Display :=
  messages.foldl Display.receive display

section Display

variable (display : Display)

theorem Display.receiveAll_append (first second : List Message) :
    display.receiveAll (first ++ second) = (display.receiveAll first).receiveAll second :=
  List.foldl_append

/-- A command without arguments. -/
theorem Display.commands_cons {next : Display} {byte : UInt8} (one : display.command byte = (next, 0))
    (bytes : List UInt8) : display.commands 0 (byte :: bytes) = next.commands 0 bytes := by
  rw [Display.commands, one]

theorem Display.command_page {byte : UInt8} {page : Nat} (is : byte.toNat = 0xB0 + page)
    (range : page < 8) : display.command byte = ({ display with page := page }, 0) := by
  have low : ¬ byte < 0x10 := by
    rw [UInt8.lt_iff_toNat_lt, is]
    exact Nat.not_lt.mpr (Nat.le_add_right_of_le (by decide))
  have high : ¬ byte < 0x20 := by
    rw [UInt8.lt_iff_toNat_lt, is]
    exact Nat.not_lt.mpr (Nat.le_add_right_of_le (by decide))
  have inside : 0xB0 ≤ byte ∧ byte < 0xB8 := by
    rw [UInt8.le_iff_toNat_le, UInt8.lt_iff_toNat_lt, is]
    exact ⟨Nat.le_add_right _ _, Nat.add_lt_add_left range 0xB0⟩
  rw [Display.command, if_neg low, if_neg high, if_pos inside, is, Nat.add_sub_cancel_left]

theorem Display.command_columnLow {byte : UInt8} (range : byte.toNat < 16) :
    display.command byte =
      ({ display with column := display.column / 16 * 16 + byte.toNat }, 0) := by
  have low : byte < 0x10 := UInt8.lt_iff_toNat_lt.mpr range
  rw [Display.command, if_pos low]

theorem Display.command_columnHigh {byte : UInt8} {nibble : Nat} (is : byte.toNat = 0x10 + nibble)
    (range : nibble < 16) :
    display.command byte =
      ({ display with column := nibble * 16 + display.column % 16 }, 0) := by
  have low : ¬ byte < 0x10 := by
    rw [UInt8.lt_iff_toNat_lt, is]
    exact Nat.not_lt.mpr (Nat.le_add_right _ _)
  have high : byte < 0x20 := by
    rw [UInt8.lt_iff_toNat_lt, is]
    exact Nat.add_lt_add_left range 0x10
  rw [Display.command, if_neg low, if_pos high, is, Nat.add_sub_cancel_left]

theorem setpos_page (y : UInt8) : (0xB0 ||| (y &&& 0x07)).toNat = 0xB0 + y.toNat % 8 := by
  have mask : y.toNat &&& (0x07 : UInt8).toNat = y.toNat % 8 := Nat.and_two_pow_sub_one_eq_mod _ 3
  have range : y.toNat % 8 < 2 ^ 3 := Nat.mod_lt _ (by decide)
  rw [UInt8.toNat_or, UInt8.toNat_and, mask]
  exact (Nat.two_pow_add_eq_or_of_lt range 22).symm

theorem setpos_columnLow (x : UInt8) : (x &&& 0x0F).toNat = x.toNat % 16 := by
  rw [UInt8.toNat_and]
  exact Nat.and_two_pow_sub_one_eq_mod _ 4

theorem setpos_columnHigh (x : UInt8) : ((0x10 : UInt8) ||| (x >>> 4)).toNat = 0x10 + x.toNat / 16 := by
  have shift : x.toNat >>> ((4 : UInt8).toNat % 8) = x.toNat / 16 := Nat.shiftRight_eq_div_pow _ 4
  have range : x.toNat / 16 < 2 ^ 4 := Nat.div_lt_of_lt_mul x.toNat_lt
  rw [UInt8.toNat_or, UInt8.toNat_shiftRight, shift]
  exact (Nat.two_pow_add_eq_or_of_lt range 1).symm

/-- **`ssd1306_setpos` sets the address counter**, to the page modulo 8. -/
theorem Display.receiveAll_setpos (x y : UInt8) :
    display.receiveAll (ssd1306Setpos x y) =
      { display with page := y.toNat % 8, column := x.toNat } := by
  have low : (x &&& 0x0F).toNat < 16 := by
    rw [setpos_columnLow]
    exact Nat.mod_lt _ (by decide)
  have high : x.toNat / 16 < 16 := Nat.div_lt_of_lt_mul x.toNat_lt
  have column : x.toNat / 16 * 16 + (display.column / 16 * 16 + x.toNat % 16) % 16 = x.toNat := by
    omega
  show display.commands 0 _ = _
  rw [Display.commands_cons _ (Display.command_page _ (setpos_page y) (Nat.mod_lt _ (by decide))),
    Display.commands_cons _ (Display.command_columnLow _ low),
    Display.commands_cons _ (Display.command_columnHigh _ (setpos_columnHigh x) high), setpos_columnLow]
  simp only [column]
  rfl

/-- A row of bytes that is placed. -/
theorem Display.written_row (x y : UInt8) (bytes : List UInt8) :
    (display.receiveAll (ssd1306Setpos x y ++ [.data bytes])).written =
      display.written ++ bytes.mapIdx fun i byte => ⟨y.toNat % 8, x.toNat + i, byte⟩ := by
  rw [Display.receiveAll_append, Display.receiveAll_setpos]
  rfl

/-- What is written piece by piece. -/
theorem Display.written_flatMap {α : Type} {messages : α → List Message} {cells : α → List Cell}
    {pieces : List α} (each : ∀ piece ∈ pieces, ∀ display : Display,
      (display.receiveAll (messages piece)).written = display.written ++ cells piece) :
    (display.receiveAll (pieces.flatMap messages)).written =
      display.written ++ pieces.flatMap cells := by
  induction pieces generalizing display with
  | nil => exact (List.append_nil _).symm
  | cons piece pieces ih =>
      rw [List.flatMap_cons, List.flatMap_cons, Display.receiveAll_append,
        ih _ fun piece member => each piece (List.mem_cons_of_mem _ member),
        each piece (List.mem_cons_self ..), List.append_assoc]

/-- Whether the display is inverted, when no piece changes that. -/
theorem Display.inverted_flatMap {α : Type} {messages : α → List Message} {pieces : List α}
    (each : ∀ piece ∈ pieces, ∀ display : Display,
      (display.receiveAll (messages piece)).inverted = display.inverted) :
    (display.receiveAll (pieces.flatMap messages)).inverted = display.inverted := by
  induction pieces generalizing display with
  | nil => rfl
  | cons piece pieces ih =>
      rw [List.flatMap_cons, Display.receiveAll_append,
        ih _ fun piece member => each piece (List.mem_cons_of_mem _ member),
        each piece (List.mem_cons_self ..)]

/-- **`ssd1306_display_invert` inverts the display, or ends it.** -/
theorem Display.receiveAll_displayInvert (invert : Int) :
    display.receiveAll (ssd1306DisplayInvert invert) =
      { display with inverted := decide (invert ≠ 0) } := by
  by_cases on : invert ≠ 0
  · rw [ssd1306DisplayInvert, if_pos on, decide_eq_true on]
    rfl
  · rw [ssd1306DisplayInvert, if_neg on, decide_eq_false on]
    rfl

end Display

end YosStm32.Oled
