/-
**Writing to the port** (`basic_io.c`, `basic_io.h`).

A port is what its `basic_io_port_write_byte_no_block` answers from now on: `true` for a call that
takes the byte and returns 0, `false` for one that refuses it. A call of `basic_io_write` that asks for
more answers is waiting. What the port has taken is at any time the front of the data, as far as the
loop has come; a call that must not block ends at the first refusal, and goes on where it has ended
when it is repeated (`writeLoop_resume`).
-/

import Mathlib.Tactic.SplitIfs

namespace YosStm32.BasicIo

/-- The answers of a port. -/
abbrev Acceptances := List Bool

/-- A call of `basic_io_write` that has returned, or that still offers a byte; `sent` is what the port
has taken. -/
inductive Write where
  | returned (result : Int) (sent : List UInt8) (left : Acceptances)
  | waiting (byteWritten : Nat) (sent : List UInt8)
  deriving DecidableEq, Repr

/-- The loop of `basic_io_write`. -/
def writeLoop (data : List UInt8) (dataLen : Nat) (block : Int) :
    Acceptances → (byteWritten : Nat) → (sent : List UInt8) → Option Write
  | [], byteWritten, sent =>
      if byteWritten < dataLen then data[byteWritten]?.map fun _ => .waiting byteWritten sent
      else some (.returned byteWritten sent [])
  | accepted :: left, byteWritten, sent =>
      if byteWritten < dataLen then
        data[byteWritten]?.bind fun byte =>
          if accepted then writeLoop data dataLen block left (byteWritten + 1) (sent ++ [byte])
          else if block = 0 then some (.returned byteWritten sent left)
          else writeLoop data dataLen block left byteWritten sent
      else some (.returned byteWritten sent (accepted :: left))

/-- `basic_io_write`; there is no port while `_bipo` or its function is `NULL`. -/
def basicIoWrite (port : Option Acceptances) (data : Option (List UInt8)) (dataLen : Nat) (block : Int) :
    Option Write :=
  match port, data with
  | some answers, some data => writeLoop data dataLen block answers 0 []
  | port, _ => some (.returned (-1) [] (port.getD []))

/-- A caller that repeats the call that does not block, from the offset that it has returned. -/
def writeRepeatedly (data : List UInt8) (dataLen : Nat) :
    (fuel : Nat) → Acceptances → (offset : Nat) → (sent : List UInt8) → Option Write
  | 0, _, _, _ => none
  | fuel + 1, answers, offset, sent =>
      (basicIoWrite (some answers) (some (data.drop offset)) (dataLen - offset) 0).bind fun call =>
        match call with
        | .returned result more left =>
            if offset + result < dataLen then
              writeRepeatedly data dataLen fuel left (offset + result.toNat) (sent ++ more)
            else some (.returned (offset + result) (sent ++ more) left)
        | .waiting byteWritten more => some (.waiting (offset + byteWritten) (sent ++ more))

section Loop

variable {data : List UInt8} {dataLen byteWritten : Nat} {block : Int} {answers : Acceptances}

theorem take_concat (room : dataLen ≤ data.length) (inside : byteWritten < dataLen) :
    ∃ byte, data[byteWritten]? = some byte ∧ data.take byteWritten ++ [byte] = data.take (byteWritten + 1) := by
  have valid : byteWritten < data.length := by omega
  exact ⟨data[byteWritten], List.getElem?_eq_getElem valid, (List.take_succ_eq_append_getElem valid).symm⟩

/-- The loop has written everything. -/
theorem writeLoop_done (answers : Acceptances) (sent : List UInt8) :
    writeLoop data dataLen block answers dataLen sent = some (.returned dataLen sent answers) := by
  cases answers with
  | nil => rw [writeLoop, if_neg (Nat.lt_irrefl _)]
  | cons => rw [writeLoop, if_neg (Nat.lt_irrefl _)]

/-- **A call that blocks** passes over the refusals. -/
theorem writeLoop_blocking (room : dataLen ≤ data.length) (blocks : block ≠ 0)
    (inside : byteWritten ≤ dataLen) (answers : Acceptances) :
    (dataLen ≤ byteWritten + answers.count true → ∃ used left, answers = used ++ left ∧
        byteWritten + used.count true = dataLen ∧
        writeLoop data dataLen block answers byteWritten (data.take byteWritten) =
          some (.returned dataLen (data.take dataLen) left)) ∧
      (byteWritten + answers.count true < dataLen →
        writeLoop data dataLen block answers byteWritten (data.take byteWritten) =
          some (.waiting (byteWritten + answers.count true)
            (data.take (byteWritten + answers.count true)))) := by
  rcases Nat.lt_or_eq_of_le inside with further | rfl
  · obtain ⟨byte, read, next⟩ := take_concat room further
    induction answers generalizing byteWritten byte with
    | nil =>
        rw [List.count_nil, Nat.add_zero, writeLoop, if_pos further, read]
        exact ⟨fun enough => by omega, fun _ => rfl⟩
    | cons accepted left ih =>
        rw [writeLoop, if_pos further, read, Option.bind_some]
        cases accepted with
        | false =>
            obtain ⟨enough, short⟩ := ih inside further byte read next
            rw [List.count_cons_of_ne (by decide), if_neg (by decide), if_neg blocks]
            refine ⟨fun all => ?_, short⟩
            obtain ⟨used, rest, rfl, count, run⟩ := enough all
            refine ⟨false :: used, rest, rfl, ?_, run⟩
            rw [List.count_cons_of_ne (by decide)]
            exact count
        | true =>
            rw [List.count_cons_self, if_pos rfl, next]
            rcases Nat.lt_or_eq_of_le further with more | last
            · obtain ⟨byte', read', next'⟩ := take_concat room more
              obtain ⟨enough, short⟩ := ih further more byte' read' next'
              rw [← Nat.add_assoc, Nat.add_right_comm]
              refine ⟨fun all => ?_, short⟩
              obtain ⟨used, rest, rfl, count, run⟩ := enough all
              refine ⟨true :: used, rest, rfl, ?_, run⟩
              rw [List.count_cons_self]
              omega
            · have written : byteWritten + 1 = dataLen := last
              rw [written, writeLoop_done]
              refine ⟨fun _ => ⟨[true], left, rfl, ?_, rfl⟩, fun short => by omega⟩
              rw [List.count_singleton_self]
              exact written
  · rw [writeLoop_done]
    exact ⟨fun _ => ⟨[], answers, rfl, rfl, rfl⟩, fun short => by omega⟩

/-- Bytes that the port takes one after the other. -/
theorem writeLoop_accepted (room : dataLen ≤ data.length) (k : Nat) (inside : byteWritten + k ≤ dataLen)
    (answers : Acceptances) :
    writeLoop data dataLen block (List.replicate k true ++ answers) byteWritten (data.take byteWritten) =
      writeLoop data dataLen block answers (byteWritten + k) (data.take (byteWritten + k)) := by
  induction k generalizing byteWritten with
  | zero => rfl
  | succ k ih =>
      have further : byteWritten < dataLen := by omega
      obtain ⟨byte, read, next⟩ := take_concat room further
      rw [List.replicate_succ, List.cons_append, writeLoop, if_pos further, read, Option.bind_some,
        if_pos rfl, next, ih (by omega), Nat.add_assoc, Nat.add_comm 1 k]

/-- What the port has taken is the front of the data. -/
def Write.Sends (data : List UInt8) (dataLen : Nat) : Write → Prop
  | .returned result sent _ => ∃ n, n ≤ dataLen ∧ result = (n : Int) ∧ sent = data.take n
  | .waiting byteWritten sent => byteWritten < dataLen ∧ sent = data.take byteWritten

theorem writeLoop_sends (room : dataLen ≤ data.length) (inside : byteWritten ≤ dataLen)
    (block : Int) (answers : Acceptances) :
    ∃ call, writeLoop data dataLen block answers byteWritten (data.take byteWritten) = some call ∧
      call.Sends data dataLen := by
  rcases Nat.lt_or_eq_of_le inside with further | rfl
  · obtain ⟨byte, read, next⟩ := take_concat room further
    induction answers generalizing byteWritten byte with
    | nil =>
        rw [writeLoop, if_pos further, read]
        exact ⟨_, rfl, further, rfl⟩
    | cons accepted left ih =>
        rw [writeLoop, if_pos further, read, Option.bind_some]
        split_ifs with accepts stops
        · rw [next]
          rcases Nat.lt_or_eq_of_le further with more | last
          · obtain ⟨byte', read', next'⟩ := take_concat room more
            exact ih further more byte' read' next'
          · have written : byteWritten + 1 = dataLen := last
            rw [written, writeLoop_done]
            exact ⟨_, rfl, dataLen, Nat.le_refl _, rfl, rfl⟩
        · exact ⟨_, rfl, byteWritten, inside, rfl, rfl⟩
        · exact ih inside further byte read next
  · rw [writeLoop_done]
    exact ⟨_, rfl, byteWritten, Nat.le_refl _, rfl, rfl⟩

/-- A call that has not written everything has used up an answer. -/
theorem writeLoop_left {sent more : List UInt8} {result : Int} {left : Acceptances}
    (inside : byteWritten ≤ dataLen)
    (run : writeLoop data dataLen block answers byteWritten sent = some (.returned result more left)) :
    byteWritten ≤ result ∧ result ≤ dataLen ∧ (result < dataLen → left.length < answers.length) := by
  induction answers generalizing byteWritten sent with
  | nil =>
      rw [writeLoop] at run
      split_ifs at run with further
      · cases read : data[byteWritten]? <;> rw [read] at run <;> cases run
      · cases run
        omega
  | cons accepted answers ih =>
      rw [List.length_cons]
      rw [writeLoop] at run
      split_ifs at run with further accepts stops
      · obtain ⟨byte, -, run⟩ := Option.bind_eq_some_iff.mp run
        have later := ih (by omega) run
        omega
      · obtain ⟨byte, -, run⟩ := Option.bind_eq_some_iff.mp run
        cases run
        omega
      · obtain ⟨byte, -, run⟩ := Option.bind_eq_some_iff.mp run
        have later := ih inside run
        omega
      · cases run
        omega

end Loop

/-! ### Calls that do not block -/

/-- A call that starts `offset` bytes into the data, after `sent`. -/
def Write.after (offset : Nat) (sent : List UInt8) : Write → Write
  | .returned result more left => .returned (offset + result) (sent ++ more) left
  | .waiting byteWritten more => .waiting (offset + byteWritten) (sent ++ more)

section Repeated

variable {data : List UInt8} {dataLen byteWritten : Nat}

/-- Writing the rest of the data. -/
theorem writeLoop_after (data : List UInt8) {dataLen offset : Nat} (inside : offset ≤ dataLen)
    (block : Int) (answers : Acceptances) (byteWritten : Nat) (sent more : List UInt8) :
    writeLoop data dataLen block answers (offset + byteWritten) (sent ++ more) =
      (writeLoop (data.drop offset) (dataLen - offset) block answers byteWritten more).map
        (Write.after offset sent) := by
  have bound : offset + byteWritten < dataLen ↔ byteWritten < dataLen - offset := by omega
  induction answers generalizing byteWritten more with
  | nil =>
      simp only [writeLoop, bound, List.getElem?_drop]
      split_ifs
      · rw [Option.map_map]
        rfl
      · simp [Write.after]
  | cons accepted left ih =>
      simp only [writeLoop, bound, List.getElem?_drop]
      split_ifs
      · rw [Option.map_bind]
        refine Option.bind_congr fun byte _ => ?_
        rw [Nat.add_assoc, List.append_assoc]
        exact ih (byteWritten + 1) (more ++ [byte]) (by omega)
      · rw [Option.map_bind]
        refine Option.bind_congr fun byte _ => ?_
        simp [Write.after]
      · rw [Option.map_bind]
        exact Option.bind_congr fun byte _ => ih byteWritten more bound
      · simp [Write.after]

/-- **A call that blocks is a call that does not, and then one for the rest.** -/
theorem writeLoop_resume {block : Int} (blocks : block ≠ 0) (data : List UInt8) (dataLen : Nat)
    (answers : Acceptances) (byteWritten : Nat) (sent : List UInt8) :
    writeLoop data dataLen block answers byteWritten sent =
      (writeLoop data dataLen 0 answers byteWritten sent).bind fun call =>
        match call with
        | .returned result sent left =>
            if result < dataLen then writeLoop data dataLen block left result.toNat sent
            else some (.returned result sent left)
        | .waiting byteWritten sent => some (.waiting byteWritten sent) := by
  induction answers generalizing byteWritten sent with
  | nil =>
      simp only [writeLoop]
      split_ifs with further
      · cases data[byteWritten]? <;> rfl
      · rw [Option.bind_some]
        dsimp only
        rw [if_neg (by omega)]
  | cons accepted left ih =>
      simp only [writeLoop]
      split_ifs with further accepts
      · rw [Option.bind_assoc]
        exact Option.bind_congr fun byte _ => ih (byteWritten + 1) (sent ++ [byte])
      · rw [Option.bind_assoc]
        refine Option.bind_congr fun byte _ => ?_
        rw [Option.bind_some]
        dsimp only
        rw [if_pos (by omega), Int.toNat_natCast]
      · rw [Option.bind_some]
        dsimp only
        rw [if_neg (by omega)]

/-- **Repeating a call that does not block does what one call that blocks does.** -/
theorem writeRepeatedly_eq {block : Int} (blocks : block ≠ 0) {offset fuel : Nat}
    (inside : offset ≤ dataLen) {answers : Acceptances} (enough : answers.length < fuel)
    (sent : List UInt8) :
    writeRepeatedly data dataLen fuel answers offset sent =
      writeLoop data dataLen block answers offset sent := by
  induction fuel generalizing answers offset sent with
  | zero => omega
  | succ fuel ih =>
      have rest := writeLoop_after data inside 0 answers 0 sent []
      rw [Nat.add_zero, List.append_nil] at rest
      rw [writeRepeatedly, writeLoop_resume blocks, rest, Option.bind_map]
      refine Option.bind_congr fun call run => ?_
      cases call with
      | waiting => rfl
      | returned result more left =>
          obtain ⟨positive, bound, shorter⟩ := writeLoop_left (Nat.zero_le _) run
          dsimp only [Function.comp_apply, Write.after]
          split_ifs with further
          · have place : ((offset : Int) + result).toNat = offset + result.toNat := by omega
            rw [place]
            exact ih (by omega) (by omega) (sent ++ more)
          · rfl

/-- From some place on the port takes every byte. -/
theorem count_of_eventually {pattern : Nat → Bool} {last : Nat} (accepts : ∀ i, last ≤ i → pattern i = true)
    (n : Nat) : n ≤ ((List.range (last + n)).map pattern).count true := by
  have late : (List.range n).map (fun i => pattern (last + i)) = List.replicate n true := by
    refine List.eq_replicate_iff.mpr ⟨by simp, fun accepted member => ?_⟩
    obtain ⟨i, -, rfl⟩ := List.mem_map.mp member
    exact accepts _ (Nat.le_add_right _ _)
  have tail : (List.map (fun i => last + i) (List.range n)).map pattern = List.replicate n true := by
    rw [List.map_map]
    exact late
  rw [List.range_add, List.map_append, tail, List.count_append, List.count_replicate_self]
  exact Nat.le_add_left _ _

/-- **What `basic_io_write` does** with any answers of the port. What the port takes is the front of the
data, as long as the returned count. A call that does not block ends at the first refusal; one that
blocks writes everything once the port has taken enough bytes, in particular when it refuses finitely
often; and the first kind, repeated, does the same as the second. -/
theorem basicIoWrite_spec (room : dataLen ≤ data.length) (answers : Acceptances) :
    (∀ block, ∃ call, basicIoWrite (some answers) (some data) dataLen block = some call ∧
        call.Sends data dataLen) ∧
      (∀ k left, answers = List.replicate k true ++ false :: left → k < dataLen →
        basicIoWrite (some answers) (some data) dataLen 0 = some (.returned k (data.take k) left)) ∧
      (∀ left, answers = List.replicate dataLen true ++ left →
        basicIoWrite (some answers) (some data) dataLen 0 =
          some (.returned dataLen (data.take dataLen) left)) ∧
      ∀ block, block ≠ 0 →
        (dataLen ≤ answers.count true → ∃ used left, answers = used ++ left ∧
          used.count true = dataLen ∧
          basicIoWrite (some answers) (some data) dataLen block =
            some (.returned dataLen (data.take dataLen) left)) ∧
        (∀ pattern : Nat → Bool, (∃ last, ∀ i, last ≤ i → pattern i = true) → ∃ k left,
          basicIoWrite (some ((List.range k).map pattern)) (some data) dataLen block =
            some (.returned dataLen (data.take dataLen) left)) ∧
        writeRepeatedly data dataLen (answers.length + 1) answers 0 [] =
          basicIoWrite (some answers) (some data) dataLen block := by
  refine ⟨fun block => writeLoop_sends room (Nat.zero_le _) block answers,
    fun k left split further => ?_, fun left split => ?_, fun block blocks => ⟨fun enough => ?_,
    fun pattern ⟨last, accepts⟩ => ?_, writeRepeatedly_eq blocks (Nat.zero_le _) (Nat.lt_succ_self _) []⟩⟩
  · obtain ⟨byte, read, -⟩ := take_concat room further
    have run : writeLoop data dataLen 0 (List.replicate k true ++ false :: left) 0 (data.take 0) = _ :=
      writeLoop_accepted room k (by omega) (false :: left)
    rw [Nat.zero_add] at run
    rw [split]
    refine run.trans ?_
    rw [writeLoop, if_pos further, read, Option.bind_some, if_neg (by decide), if_pos rfl]
  · have run : writeLoop data dataLen 0 (List.replicate dataLen true ++ left) 0 (data.take 0) = _ :=
      writeLoop_accepted room dataLen (by omega) left
    rw [Nat.zero_add] at run
    rw [split]
    exact run.trans (writeLoop_done _ _)
  · obtain ⟨used, left, split, count, run⟩ :=
      (writeLoop_blocking room blocks (Nat.zero_le _) answers).1 (by omega)
    rw [Nat.zero_add] at count
    exact ⟨used, left, split, count, run⟩
  · have enough := count_of_eventually accepts dataLen
    obtain ⟨-, left, -, -, run⟩ := (writeLoop_blocking room blocks (Nat.zero_le _) _).1
      (Nat.le_trans enough (Nat.le_add_left _ _))
    exact ⟨last + dataLen, left, run⟩

/-- Two bytes out of three, with a refusal between them: two calls that do not block, or one that
does. -/
theorem basicIoWrite_spec_oneRefusal :
    basicIoWrite (some [true, false, true]) (some [7, 8, 9]) 2 0 = some (.returned 1 [7] [true]) ∧
      writeRepeatedly [7, 8, 9] 2 4 [true, false, true] 0 [] =
        basicIoWrite (some [true, false, true]) (some [7, 8, 9]) 2 1 := by
  obtain ⟨-, first, -, blocking⟩ :=
    basicIoWrite_spec (by decide : 2 ≤ ([7, 8, 9] : List UInt8).length) [true, false, true]
  exact ⟨first 1 [true] rfl (by decide), (blocking 1 (by decide)).2.2⟩

end Repeated

end YosStm32.BasicIo
