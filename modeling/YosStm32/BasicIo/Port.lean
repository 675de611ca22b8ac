/-
**The port behind the basic IO** (`basic_io.c`, `basic_io.h`).

`_bipo` and each function of a port may be `NULL`, which is `none` here. A port's state is of any type;
a function of it that goes wrong in memory has no result.
-/

import Mathlib.Logic.Function.Basic

namespace YosStm32.BasicIo

/-- `struct basic_io_port_operations`, as far as reading is concerned. -/
structure BasicIoPortOperations (Port : Type) where
  basicIoPortCanRead : Option (Port → Int)
  /-- The returned value, what `b` points to and the port. -/
  basicIoPortReadByteNoBlock : Option (Port → Option UInt8 → Option (Int × Option UInt8 × Port))

variable {Port : Type}

/-- `basic_io_has_data_to_read`. -/
def basicIoHasDataToRead (bipo : Option (BasicIoPortOperations Port)) (port : Port) : Int :=
  match bipo.bind BasicIoPortOperations.basicIoPortCanRead with
  | none => 0
  | some canRead => canRead port

/-- `basic_io_read_byte`. -/
def basicIoReadByte (bipo : Option (BasicIoPortOperations Port)) (port : Port)
    (byteRead : Option UInt8) : Option (Int × Option UInt8 × Port) :=
  match bipo.bind BasicIoPortOperations.basicIoPortReadByteNoBlock with
  | none => some (-1, byteRead, port)
  | some readByte => readByte port byteRead

end YosStm32.BasicIo
