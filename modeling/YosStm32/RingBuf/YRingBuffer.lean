/-
**The ring buffer** (`yringbuffer.c`, `yringbuffer.h`).

A pointer to a block of bytes is `none` for `NULL` and `some` of the bytes. A function that reaches
through `rb->data` or the caller's pointer is partial: `none` is an access at or past the end of the
block. The two `while (cnt < len)` loops recurse on `len - cnt`; a `break` ends them early.
-/

import YosStm32.Lib.Ring

namespace YosStm32.RingBuf

/-- `struct YRingBuffer`. -/
structure YRingBuffer where
  data : Option (List UInt8)
  size : Nat
  start : Nat
  endIdx : Nat
  currentLen : Nat
  deriving DecidableEq, Repr

/-- `YRingBufferInit`. -/
def yRingBufferInit (rb : Option YRingBuffer) (data : Option (List UInt8)) (size : Nat) :
    Option YRingBuffer :=
  match rb, data with
  | some rb, some block =>
      if size ≤ 0 then some rb
      else some
        { rb with
          data := some block
          size := size
          start := 0
          endIdx := 0
          currentLen := 0 }
  | rb, _ => rb

/-- A byte written into a block. -/
def writeByte (block : List UInt8) (index : Nat) (byte : UInt8) : Option (List UInt8) :=
  if index < block.length then some (block.set index byte) else none

namespace YRingBuffer

/-- `((char *)(rb->data))[rb->end++] = ((char *)data)[cnt++]`, where `byte` is what is read. -/
def storeEnd (rb : YRingBuffer) (byte : Option UInt8) : Option YRingBuffer :=
  rb.data.bind fun block => byte.bind fun byte =>
    (writeByte block rb.endIdx byte).map fun block =>
      { rb with data := some block, endIdx := rb.endIdx + 1 }

/-- `((char *)(rb->data))[rb->start++]`. -/
def loadStart (rb : YRingBuffer) : Option (UInt8 × YRingBuffer) :=
  rb.data.bind fun block => block[rb.start]?.map fun byte =>
    (byte, { rb with start := rb.start + 1 })

/-- `if (rb->start >= rb->size) rb->start = 0`. -/
def wrapStart (rb : YRingBuffer) : YRingBuffer :=
  if rb.start ≥ rb.size then { rb with start := 0 } else rb

/-- `if (rb->end >= rb->size) rb->end = 0`. -/
def wrapEnd (rb : YRingBuffer) : YRingBuffer :=
  if rb.endIdx ≥ rb.size then { rb with endIdx := 0 } else rb

section Wrap

variable (rb : YRingBuffer)

@[simp] theorem wrapStart_data : rb.wrapStart.data = rb.data := by unfold wrapStart; split <;> rfl
@[simp] theorem wrapStart_size : rb.wrapStart.size = rb.size := by unfold wrapStart; split <;> rfl
@[simp] theorem wrapStart_endIdx : rb.wrapStart.endIdx = rb.endIdx := by
  unfold wrapStart; split <;> rfl
@[simp] theorem wrapStart_currentLen : rb.wrapStart.currentLen = rb.currentLen := by
  unfold wrapStart; split <;> rfl
@[simp] theorem wrapEnd_data : rb.wrapEnd.data = rb.data := by unfold wrapEnd; split <;> rfl
@[simp] theorem wrapEnd_size : rb.wrapEnd.size = rb.size := by unfold wrapEnd; split <;> rfl
@[simp] theorem wrapEnd_start : rb.wrapEnd.start = rb.start := by unfold wrapEnd; split <;> rfl
@[simp] theorem wrapEnd_currentLen : rb.wrapEnd.currentLen = rb.currentLen := by
  unfold wrapEnd; split <;> rfl

theorem wrapped_size : rb.wrapStart.wrapEnd.size = rb.size := rb.wrapStart.wrapEnd_size.trans rb.wrapStart_size

theorem wrapStart_start : rb.wrapStart.start = if rb.start ≥ rb.size then 0 else rb.start := by
  unfold wrapStart; split <;> rfl

theorem wrapEnd_endIdx : rb.wrapEnd.endIdx = if rb.endIdx ≥ rb.size then 0 else rb.endIdx := by
  unfold wrapEnd; split <;> rfl

end Wrap

/-- The branches of the loop of `YRingBufferPutData` for one byte; the inner `none` is `break`. -/
def putByte (rb : YRingBuffer) (dropIfFull : Bool) (byte : Option UInt8) :
    Option (Option YRingBuffer) :=
  if rb.endIdx = rb.start then
    if rb.currentLen = rb.size then
      if dropIfFull then
        (rb.storeEnd byte).map fun rb => some { rb with start := rb.start + 1 }
      else some none
    else (rb.storeEnd byte).map fun rb => some { rb with currentLen := rb.currentLen + 1 }
  else (rb.storeEnd byte).map fun rb => some { rb with currentLen := rb.currentLen + 1 }

/-- The branches of the loop of `YRingBufferGetData`; the inner `none` is `break`. -/
def getByte (rb : YRingBuffer) : Option (Option (UInt8 × YRingBuffer)) :=
  if rb.endIdx = rb.start then
    if rb.currentLen = rb.size then
      rb.loadStart.map fun (byte, rb) => some (byte, { rb with currentLen := rb.currentLen - 1 })
    else some none
  else rb.loadStart.map fun (byte, rb) => some (byte, { rb with currentLen := rb.currentLen - 1 })

end YRingBuffer

/-- The loop of `YRingBufferPutData`, with `left = len - cnt`. -/
def putLoop (dropIfFull : Bool) (data : List UInt8) :
    (left cnt : Nat) → YRingBuffer → Option (Nat × YRingBuffer)
  | 0, cnt, rb => some (cnt, rb)
  | left + 1, cnt, rb =>
      (rb.putByte dropIfFull data[cnt]?).bind fun iteration =>
        match iteration with
        | none => some (cnt, rb)
        | some rb => putLoop dropIfFull data left (cnt + 1) rb.wrapStart.wrapEnd

/-- `YRingBufferPutData`. -/
def yRingBufferPutData (rb : Option YRingBuffer) (data : Option (List UInt8)) (len : Nat)
    (dropIfFull : Bool) : Option (Nat × Option YRingBuffer) :=
  match rb, data with
  | some rb, some data =>
      if rb.data = none then some (0, some rb)
      else (putLoop dropIfFull data len 0 rb).map fun (cnt, rb) => (cnt, some rb)
  | rb, _ => some (0, rb)

/-- The loop of `YRingBufferGetData`, with `left = len - cnt`; `data` is the caller's buffer. -/
def getLoop : (left cnt : Nat) → List UInt8 → YRingBuffer →
    Option (Nat × List UInt8 × YRingBuffer)
  | 0, cnt, data, rb => some (cnt, data, rb)
  | left + 1, cnt, data, rb =>
      rb.getByte.bind fun iteration =>
        match iteration with
        | none => some (cnt, data, rb)
        | some (byte, rb) => (writeByte data cnt byte).bind fun data =>
            getLoop left (cnt + 1) data rb.wrapStart

/-- `YRingBufferGetData`: the count, the caller's buffer and the ring buffer. -/
def yRingBufferGetData (rb : Option YRingBuffer) (data : Option (List UInt8)) (len : Nat) :
    Option (Nat × Option (List UInt8) × Option YRingBuffer) :=
  match rb, data with
  | some rb, some data =>
      if rb.data = none then some (0, some data, some rb)
      else (getLoop len 0 data rb).map fun (cnt, data, rb) => (cnt, some data, some rb)
  | rb, data => some (0, data, rb)

/-- `YRingBufferGetCurrentLen`. -/
def yRingBufferGetCurrentLen (rb : Option YRingBuffer) : Nat :=
  match rb with
  | none => 0
  | some rb => rb.currentLen

/-- `YRingBufferGetSize`. -/
def yRingBufferGetSize (rb : Option YRingBuffer) : Nat :=
  match rb with
  | none => 0
  | some rb => rb.size

/-- `YRingBufferClear`. -/
def yRingBufferClear (rb : Option YRingBuffer) : Option YRingBuffer :=
  rb.map fun rb => { rb with start := 0, endIdx := 0, currentLen := 0 }

end YosStm32.RingBuf
