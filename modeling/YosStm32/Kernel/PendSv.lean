/-
**The processor and `pend_sv_handler`** (`yos.c`, `ystack.h`).

`Cpu` is what a task can see of the processor: the eight registers that exception entry stacks on
PSP (`HardFrame`), the eight that the handler saves itself (`SavedRegs`), and PSP. Each inline-asm
block is a function under its macro's name; `pendSvHandler` is the handler from exception entry to
exception return, with the C statements of `pendSvSwitch` in the middle. What it has done when it is
about to restore a context is `Switched`: the context of the old task lies below its PSP. When a context
lies at the saved stack pointer of the next task (`ContextAt`), the handler returns with that context on
the processor (`pendSvHandler_returns`); and whenever it returns it has done so (`pendSvHandler_effect`).
-/

import YosStm32.Kernel.Scheduler

namespace YosStm32

open Lib

/-- The registers that exception entry stacks, lowest address first. -/
structure HardFrame where
  r0 : Nat
  r1 : Nat
  r2 : Nat
  r3 : Nat
  r12 : Nat
  lr : Nat
  pc : Nat
  xpsr : Nat
  deriving DecidableEq, Repr

/-- The registers that the handler saves, lowest address first. -/
structure SavedRegs where
  r4 : Nat
  r5 : Nat
  r6 : Nat
  r7 : Nat
  r8 : Nat
  r9 : Nat
  r10 : Nat
  r11 : Nat
  deriving DecidableEq, Repr

namespace HardFrame

def words (f : HardFrame) : List Nat := [f.r0, f.r1, f.r2, f.r3, f.r12, f.lr, f.pc, f.xpsr]

def ofWords : List Nat → Option HardFrame
  | [r0, r1, r2, r3, r12, lr, pc, xpsr] => some ⟨r0, r1, r2, r3, r12, lr, pc, xpsr⟩
  | _ => none

@[simp] theorem ofWords_words (f : HardFrame) : ofWords f.words = some f := rfl

@[simp] theorem length_words (f : HardFrame) : f.words.length = 8 := rfl

end HardFrame

namespace SavedRegs

def words (f : SavedRegs) : List Nat := [f.r4, f.r5, f.r6, f.r7, f.r8, f.r9, f.r10, f.r11]

def ofWords : List Nat → Option SavedRegs
  | [r4, r5, r6, r7, r8, r9, r10, r11] => some ⟨r4, r5, r6, r7, r8, r9, r10, r11⟩
  | _ => none

@[simp] theorem ofWords_words (f : SavedRegs) : ofWords f.words = some f := rfl

@[simp] theorem length_words (f : SavedRegs) : f.words.length = 8 := rfl

end SavedRegs

/-- What a task sees of the processor. -/
structure Cpu where
  hard : HardFrame
  saved : SavedRegs
  psp : Nat
  deriving DecidableEq, Repr

/-- The saved context of a task, lowest address first. -/
def Cpu.words (cpu : Cpu) : List Nat := cpu.saved.words ++ cpu.hard.words

/-- The kernel, the processor and the main stack. -/
structure Machine where
  kernel : Kernel
  cpu : Cpu
  mainStack : List Nat

/-- The value of LR in a handler that returns to a thread on PSP. -/
def excReturn : Nat := 0xFFFFFFFD

namespace Machine

/-- Exception entry: the stacking on PSP, and the pending bit cleared. -/
def exceptionEntry (m : Machine) : Machine :=
  let pushed := pushWords m.kernel.mem m.cpu.psp m.cpu.hard.words.reverse
  { m with
    kernel := { m.kernel with mem := pushed.1, pendsv := false }
    cpu := { m.cpu with hard := { m.cpu.hard with lr := excReturn }, psp := pushed.2 } }

/-- `SAVE_PSP`: `mrs r0, psp`. -/
def savePsp (m : Machine) : Machine :=
  { m with cpu := { m.cpu with hard := { m.cpu.hard with r0 := m.cpu.psp } } }

/-- `SAVE_REGS_TO_STACK`: `stmdb r0!, {r4-r11}`. -/
def saveRegsToStack (m : Machine) : Machine :=
  let pushed := pushWords m.kernel.mem m.cpu.hard.r0 m.cpu.saved.words.reverse
  { m with
    kernel := { m.kernel with mem := pushed.1 }
    cpu := { m.cpu with hard := { m.cpu.hard with r0 := pushed.2 } } }

/-- `SAVE_LR_TO_STACK`: `push {lr}`, on the main stack. -/
def saveLrToStack (m : Machine) : Machine :=
  { m with mainStack := m.cpu.hard.lr :: m.mainStack }

/-- `RESTORE_LR_FROM_STACK`: `pop {lr}`. -/
def restoreLrFromStack (m : Machine) : Option Machine :=
  match m.mainStack with
  | [] => none
  | lr :: rest => some
      { m with
        mainStack := rest
        cpu := { m.cpu with hard := { m.cpu.hard with lr := lr } } }

/-- `ldr r0, _tmp_sp`. -/
def loadTmpSp (m : Machine) : Machine :=
  { m with cpu := { m.cpu with hard := { m.cpu.hard with r0 := m.kernel.tmpSp } } }

/-- `RESTORE_REGS_FROM_STACK`: `ldmia r0!, {r4-r11}`. -/
def restoreRegsFromStack (m : Machine) : Option Machine :=
  let popped := popWords m.kernel.mem m.cpu.hard.r0 8
  (SavedRegs.ofWords popped.1).map fun saved =>
    { m with cpu := { m.cpu with saved := saved, hard := { m.cpu.hard with r0 := popped.2 } } }

/-- `RESTORE_PSP`: `msr psp, r0`. -/
def restorePsp (m : Machine) : Machine :=
  { m with cpu := { m.cpu with psp := m.cpu.hard.r0 } }

/-- `bx lr`: exception return, with the unstacking from PSP. -/
def exceptionReturn (m : Machine) : Option Machine :=
  if m.cpu.hard.lr = excReturn then
    let popped := popWords m.kernel.mem m.cpu.psp 8
    (HardFrame.ofWords popped.1).map fun hard =>
      { m with cpu := { m.cpu with hard := hard, psp := popped.2 } }
  else none

/-- The first part of the handler: the context of the task is on its stack. -/
def saveContext (m : Machine) : Machine := m.exceptionEntry.savePsp.saveRegsToStack

/-- The last part of the handler: the context at `_tmp_sp` is on the processor. -/
def restoreContext (m : Machine) : Option Machine :=
  m.loadTmpSp.restoreRegsFromStack.bind fun m => m.restorePsp.exceptionReturn

/-- `pend_sv_handler`. -/
def pendSvHandler (m : Machine) : Option Machine :=
  let m := m.saveContext.saveLrToStack
  (pendSvSwitch m.kernel m.cpu.hard.r0).bind fun kernel =>
    ({ m with kernel := kernel } : Machine).restoreLrFromStack.bind restoreContext

section Handler

variable {m m' : Machine}

@[simp] theorem loadTmpSp_kernel : m.loadTmpSp.kernel = m.kernel := rfl
@[simp] theorem restorePsp_kernel : m.restorePsp.kernel = m.kernel := rfl

/-- **Saving**: the context lies below PSP, and nothing else in memory changes. -/
theorem saveContext_spec (m : Machine) (room : 64 ≤ m.cpu.psp) (small : m.cpu.psp < 2 ^ 32) :
    ∃ mem, m.saveContext.kernel = { m.kernel with mem := mem, pendsv := false } ∧
      m.saveContext.cpu.hard.r0 = m.cpu.psp - 64 ∧ m.saveContext.cpu.hard.lr = excReturn ∧
      HoldsWords mem (m.cpu.psp - 64) m.cpu.words ∧
      ∀ a, a < m.cpu.psp - 64 ∨ m.cpu.psp ≤ a → mem a = m.kernel.mem a := by
  obtain ⟨pointer, hard, frame⟩ := pushWords_spec m.kernel.mem m.cpu.psp m.cpu.hard.words.reverse
    (by rw [List.length_reverse, HardFrame.length_words]; omega) small
  rcases stacked : pushWords m.kernel.mem m.cpu.psp m.cpu.hard.words.reverse with ⟨mem₁, sp₁⟩
  rw [stacked, List.length_reverse, HardFrame.length_words] at pointer hard frame
  rw [List.reverse_reverse] at hard
  simp only at pointer hard frame
  obtain ⟨pointer', saved, frame'⟩ := pushWords_spec mem₁ sp₁ m.cpu.saved.words.reverse
    (by rw [List.length_reverse, SavedRegs.length_words]; omega) (by omega)
  rcases stored : pushWords mem₁ sp₁ m.cpu.saved.words.reverse with ⟨mem₂, sp₂⟩
  rw [stored, List.length_reverse, SavedRegs.length_words] at pointer' saved frame'
  rw [List.reverse_reverse] at saved
  simp only at pointer' saved frame'
  have bottom : sp₁ - 4 * 8 = m.cpu.psp - 64 := by omega
  have middle : m.cpu.psp - 64 + 4 * 8 = sp₁ := by omega
  rw [bottom] at pointer' frame' saved
  have context : m.saveContext =
      { m with
        kernel := { m.kernel with mem := mem₂, pendsv := false }
        cpu :=
          { m.cpu with
            hard := { m.cpu.hard with lr := excReturn, r0 := sp₂ }
            psp := sp₁ } } := by
    simp only [saveContext, exceptionEntry, savePsp, saveRegsToStack, stacked, stored]
  rw [context]
  refine ⟨mem₂, rfl, pointer', rfl, ?_, fun a outside => ?_⟩
  · refine saved.append (HoldsWords.congr ?_ fun a above below => frame' a (Or.inr ?_))
    · rw [SavedRegs.length_words, middle, pointer]
      exact hard
    · rw [SavedRegs.length_words] at above
      omega
  · rw [frame' a (by omega), frame a (by omega)]

/-- **Restoring**: the context that lies at `_tmp_sp`. -/
theorem restoreContext_spec (m : Machine) {cpu : Cpu} (link : m.cpu.hard.lr = excReturn)
    (pointer : m.kernel.tmpSp = cpu.psp - 64) (room : 64 ≤ cpu.psp) (small : cpu.psp < 2 ^ 32)
    (holds : HoldsWords m.kernel.mem (cpu.psp - 64) cpu.words) :
    m.restoreContext = some { m with cpu := cpu } := by
  obtain ⟨saved, hard⟩ := holds.split
  rw [SavedRegs.length_words] at hard
  have first := popWords_of_holds saved (by rw [SavedRegs.length_words]; omega)
  have second := popWords_of_holds hard (by rw [HardFrame.length_words]; omega)
  rw [SavedRegs.length_words] at first
  rw [HardFrame.length_words] at second
  have top : cpu.psp - 64 + 4 * 8 + 4 * 8 = cpu.psp := by omega
  rw [top] at second
  have load : m.loadTmpSp.restoreRegsFromStack = some
      { m with
        cpu :=
          { m.cpu with
            saved := cpu.saved
            hard := { m.cpu.hard with r0 := cpu.psp - 64 + 4 * 8 } } } := by
    simp only [restoreRegsFromStack, loadTmpSp, pointer, first, SavedRegs.ofWords_words,
      Option.map_some]
  rw [restoreContext, load, Option.bind_some]
  simp only [restorePsp, exceptionReturn, link, if_true, second, HardFrame.ofWords_words,
    Option.map_some]

theorem restoreRegsFromStack_kernel (load : m.restoreRegsFromStack = some m') :
    m'.kernel = m.kernel := by
  unfold restoreRegsFromStack at load
  generalize popWords m.kernel.mem m.cpu.hard.r0 8 = popped at load
  obtain ⟨saved, _, rfl⟩ := Option.map_eq_some_iff.mp load
  rfl

theorem exceptionReturn_kernel (back : m.exceptionReturn = some m') : m'.kernel = m.kernel := by
  unfold exceptionReturn at back
  generalize popWords m.kernel.mem m.cpu.psp 8 = popped at back
  split at back
  · obtain ⟨hard, _, rfl⟩ := Option.map_eq_some_iff.mp back
    rfl
  · cases back

/-- Restoring only changes the processor. -/
theorem restoreContext_kernel (restored : m.restoreContext = some m') : m'.kernel = m.kernel := by
  obtain ⟨loaded, load, back⟩ := Option.bind_eq_some_iff.mp restored
  rw [exceptionReturn_kernel back, restorePsp_kernel, restoreRegsFromStack_kernel load,
    loadTmpSp_kernel]

end Handler

end Machine

/-- What the C statements of `pend_sv_handler` do to the stack pointers. -/
theorem pendSvSwitch_stacks {k k' : Kernel} {tmpSp : Nat} (switched : pendSvSwitch k tmpSp = some k') :
    ∃ old next, k.currentTask = some old ∧ k.nextTask = some next ∧ k'.currentTask = some next ∧
      k'.mem = k.mem ∧ k'.image = k.image ∧ k'.taskIdForNext = k.taskIdForNext ∧
      k'.tmpSp = (k'.allTasks next).sp ∧
      ∀ id, (k'.allTasks id).sp = (if id = old then tmpSp else (k.allTasks id).sp) ∧
        (k'.allTasks id).bp = (k.allTasks id).bp := by
  unfold pendSvSwitch at switched
  split at switched
  · rename_i old next current pointer
    cases switched
    refine ⟨old, next, current, pointer, rfl, rfl, rfl, rfl, ?_, fun id => ?_⟩
    · simp only [Kernel.setStatus, Kernel.setTask_allTasks, Function.update_self]
    · have saved : ((k.setTask old (saveSp (k.allTasks old) tmpSp)).allTasks id).sp =
          (if id = old then tmpSp else (k.allTasks id).sp) ∧
          ((k.setTask old (saveSp (k.allTasks old) tmpSp)).allTasks id).bp =
            (k.allTasks id).bp := by
        rw [Kernel.setTask_allTasks, Function.update_apply]
        split
        · rename_i same
          rw [same]
          have fixed := (saveSp_kept (k.allTasks old) tmpSp).2.2.2
          exact ⟨(saveSp_kept _ _).1, congrArg (fun f => f.2.2.1) fixed⟩
        · exact ⟨rfl, rfl⟩
      by_cases same : id = next
      · rw [same] at saved ⊢
        simp only [Kernel.setStatus, Kernel.setTask_allTasks, Function.update_self]
        exact saved
      · simp only [Kernel.setStatus, Kernel.setTask_allTasks, Function.update_of_ne same]
        exact saved
  · cases switched

/-- They run when there are two tasks. -/
theorem pendSvSwitch_isSome {k : Kernel} {old next : Nat} (current : k.currentTask = some old)
    (pointer : k.nextTask = some next) (tmpSp : Nat) : ∃ k', pendSvSwitch k tmpSp = some k' := by
  rw [pendSvSwitch, current, pointer]
  exact ⟨_, rfl⟩

/-- A context lies at the saved stack pointer of a task. -/
structure ContextAt (k : Kernel) (t : Nat) (cpu : Cpu) : Prop where
  sp : (k.allTasks t).sp = cpu.psp - 64
  room : 64 ≤ cpu.psp
  small : cpu.psp < 2 ^ 32
  holds : HoldsWords k.mem (cpu.psp - 64) cpu.words

/-- What `pend_sv_handler` has made of the kernel when it is about to restore: the context of the task
`old` is saved, the task `next` is current. -/
structure Switched (m : Machine) (k : Kernel) (old next : Nat) : Prop where
  resumed : k.currentTask = some next
  image : k.image = m.kernel.image
  count : k.taskIdForNext = m.kernel.taskIdForNext
  sp : ∀ id, (k.allTasks id).sp = if id = old then m.cpu.psp - 64 else (m.kernel.allTasks id).sp
  bp : ∀ id, (k.allTasks id).bp = (m.kernel.allTasks id).bp
  holds : HoldsWords k.mem (m.cpu.psp - 64) m.cpu.words
  frame : ∀ a, a < m.cpu.psp - 64 ∨ m.cpu.psp ≤ a → k.mem a = m.kernel.mem a

section Handled

variable {m m' : Machine} {old next : Nat}

/-- The handler up to the restoring. -/
theorem pendSvHandler_switched (current : m.kernel.currentTask = some old)
    (pointer : m.kernel.nextTask = some next) (room : 64 ≤ m.cpu.psp) (small : m.cpu.psp < 2 ^ 32) :
    ∃ ready : Machine, m.pendSvHandler = ready.restoreContext ∧ Switched m ready.kernel old next ∧
      ready.cpu.hard.lr = excReturn ∧ ready.kernel.tmpSp = (ready.kernel.allTasks next).sp := by
  obtain ⟨mem, kernel, sp, link, holds, frame⟩ := m.saveContext_spec room small
  obtain ⟨k, switched⟩ := pendSvSwitch_isSome (k := m.saveContext.kernel)
    (by rw [kernel]; exact current) (by rw [kernel]; exact pointer) m.saveContext.cpu.hard.r0
  have handler : m.pendSvHandler =
      ({ m.saveContext with kernel := k } : Machine).restoreContext := by
    rw [Machine.pendSvHandler]
    simp only [Machine.saveLrToStack, switched, Option.bind_some, Machine.restoreLrFromStack]
  rw [kernel, sp] at switched
  obtain ⟨old', next', current', pointer', resumed, sameMem, image, count, tmpSp, tasks⟩ :=
    pendSvSwitch_stacks switched
  obtain rfl : old = old' := Option.some.inj (current.symm.trans current')
  obtain rfl : next = next' := Option.some.inj (pointer.symm.trans pointer')
  exact ⟨_, handler, ⟨resumed, image, count, fun id => (tasks id).1, fun id => (tasks id).2,
    sameMem ▸ holds, fun a outside => sameMem ▸ frame a outside⟩, link, tmpSp⟩

/-- **`pend_sv_handler` returns** with the context that lies at the saved stack pointer of the next
task. -/
theorem pendSvHandler_returns (current : m.kernel.currentTask = some old)
    (pointer : m.kernel.nextTask = some next) (room : 64 ≤ m.cpu.psp) (small : m.cpu.psp < 2 ^ 32) :
    ∃ k, Switched m k old next ∧ ∀ cpu, ContextAt k next cpu →
      ∃ m', m.pendSvHandler = some m' ∧ m'.kernel = k ∧ m'.cpu = cpu := by
  obtain ⟨ready, handler, switched, link, tmpSp⟩ := pendSvHandler_switched current pointer room small
  refine ⟨ready.kernel, switched, fun cpu context => ⟨{ ready with cpu := cpu }, ?_, rfl, rfl⟩⟩
  rw [handler]
  exact ready.restoreContext_spec link (tmpSp.trans context.sp) context.room context.small context.holds

/-- **What `pend_sv_handler` has done** when it returns. -/
theorem pendSvHandler_effect (handled : m.pendSvHandler = some m') (room : 64 ≤ m.cpu.psp)
    (small : m.cpu.psp < 2 ^ 32) :
    ∃ old next, m.kernel.currentTask = some old ∧ m.kernel.nextTask = some next ∧
      Switched m m'.kernel old next ∧ ∀ cpu, ContextAt m'.kernel next cpu → m'.cpu = cpu := by
  obtain ⟨mem, kernel, _⟩ := m.saveContext_spec room small
  obtain ⟨k, switch, _⟩ := Option.bind_eq_some_iff.mp handled
  simp only [Machine.saveLrToStack] at switch
  rw [kernel] at switch
  obtain ⟨old, next, current, pointer, _⟩ := pendSvSwitch_stacks switch
  obtain ⟨ready, handler, switched, link, tmpSp⟩ := pendSvHandler_switched current pointer room small
  rw [handler] at handled
  rw [Machine.restoreContext_kernel handled]
  refine ⟨old, next, current, pointer, switched, fun cpu context => ?_⟩
  rw [ready.restoreContext_spec link (tmpSp.trans context.sp) context.room context.small context.holds]
    at handled
  exact congrArg Machine.cpu (Option.some.inj handled).symm

end Handled

end YosStm32
