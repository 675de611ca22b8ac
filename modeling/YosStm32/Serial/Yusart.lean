/-
**The serial port** (`yusart.c`, `yusart.h`): its receive path.

The interrupt handler puts every byte that arrives into `_yusart_rx_rb`, over the oldest one when
the buffer is full; `yusart_io_read_byte_no_block` takes one byte out with the interrupts disabled,
so neither function is ever interrupted by the other. The registers of the port are the environment:
`dr` is `some` of the received byte when the flag `USART_SR_RXNE` is set.
-/

import YosStm32.RingBuf.YRingBuffer

namespace YosStm32.Serial

open RingBuf

/-- `YUSART_RECEIVE_BUFFER_SIZE_BYTE`. -/
def yusartReceiveBufferSizeByte : Nat := 256

/-- `yusart_init`, as far as the buffer is concerned; `block` is `_yusart_receive_buffer`. -/
def yusartInit (rb : YRingBuffer) (block : List UInt8) : Option YRingBuffer :=
  yRingBufferInit (some rb) (some block) yusartReceiveBufferSizeByte

/-- `usart1_isr`. -/
def usart1Isr (rb : YRingBuffer) (dr : Option UInt8) : Option YRingBuffer :=
  match dr with
  | some d => (yRingBufferPutData (some rb) (some [d]) 1 true).bind fun (_, rb) => rb
  | none => some rb

/-- The condition of `yusart_io_read_byte_no_block` with what it does to the local `data` and to the
buffer: `YRingBufferGetData(&_yusart_rx_rb, &data, sizeof(data)) == sizeof(data)`. -/
def receiveData (rb : YRingBuffer) (data : UInt8) : Option (Bool × UInt8 × YRingBuffer) :=
  (yRingBufferGetData (some rb) (some [data]) 1).bind fun (cnt, data, rb) =>
    (data.bind List.head?).bind fun data => rb.map fun rb => (cnt == 1, data, rb)

/-- `yusart_io_read_byte_no_block`: the returned value, what `b` points to and the buffer. The pointer
`b` may be `NULL`, and `data` is what the uninitialised local holds. -/
def yusartIoReadByteNoBlock (rb : YRingBuffer) (b : Option UInt8) (data : UInt8) :
    Option (Int × Option UInt8 × YRingBuffer) :=
  (receiveData rb data).map fun (received, data, rb) =>
    if received then (0, b.map fun _ => data, rb) else (-1, b, rb)

/-- `yusart_can_receive`. -/
def yusartCanReceive (rb : YRingBuffer) : Int :=
  if yRingBufferGetSize (some rb) > 0 then 1 else 0

end YosStm32.Serial
