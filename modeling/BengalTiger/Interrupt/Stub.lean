import BengalTiger.Lib.X86
import BengalTiger.Sched.Model

set_option autoImplicit false

/-!
# Interrupt stubs and context switches

The assembly stubs of `kernel/isr.s`: a stub completes what the processor pushed to a `struct regs`,
calls a handler with the address of that frame, and returns from the frame whose address the handler
returned. The frame that `task_create` builds on the stack of a new task is one of these.

## Main definitions

* `Interrupt.entered`, `Interrupt.restoreRegs` — an interrupt up to the call of
  its handler, and from its return on.
* `Interrupt.initialStack` — the words that `task_create` writes.

## Main results

* `Interrupt.context_restored` — the return from a frame restores what was interrupted.
* `Interrupt.new_task_entered` — the return from the first frame calls the function.
-/

namespace BengalTiger.Interrupt

open X86

/-- The stubs `isr0` to `isr31`, `irq0` to `irq15` and `isr128`. -/
inductive Stub
  | isr (n : Fin 32)
  | irq (n : Fin 16)
  | isr128

/-- The number that a stub pushes. -/
def Stub.vector : Stub → Word
  | .isr n => BitVec.ofNat 32 n
  | .irq n => BitVec.ofNat 32 (n + 32)
  | .isr128 => 128

/-- The exceptions with `ISR_ERRCODE`, for which the processor pushes an error code. -/
def Stub.errCode : Stub → Bool
  | .isr n => n ∈ [8, 10, 11, 12, 13, 14, 17, 21, 30]
  | _ => false

/-- `ISR_NOERRCODE`, `ISR_ERRCODE` and `IRQ`, up to the jump. -/
def Stub.head (s : Stub) (st : State) : State :=
  let st := st.maskFlags (~~~0x200)
  let st := if s.errCode then st else st.push 0
  st.push s.vector

/-- `isr_common` and `irq_common` up to the call. -/
def saveRegs (st : State) : State :=
  let st := ((((st.pusha.pushSeg .ds).pushSeg .es).pushSeg .fs).pushSeg .gs).maskFlags (~~~0x400)
  let st := st.setReg .eax (st.cpu.reg .eax &&& 0xFFFF0000 ||| 0x10)
  let ax := (st.cpu.reg .eax).setWidth 16
  let st := (((st.setSeg .ds ax).setSeg .es ax).setSeg .fs ax).setSeg .gs ax
  let st := st.setReg .eax st.esp
  st.push (st.cpu.reg .eax)

/-- `isr_common` and `irq_common` from the return of the handler on, which is in `eax`. -/
def restoreRegs (st : State) : State :=
  let st := st.setReg .esp (st.cpu.reg .eax)
  (((((st.popSeg .gs).popSeg .fs).popSeg .es).popSeg .ds).popa.drop 8).iret

section Interrupt

variable (addr : Stub → Word) (s : Stub) (err : Option Word)

/-- The state in which the handler is called, its argument on top of the stack. -/
def entered (st : State) : State := saveRegs (s.head (st.deliver 0x08 (addr s) err))

/-- The address of the frame of an interrupt. -/
def frame (st : State) : Word := st.esp - 68

/-- The words of a `struct regs` for a program with the registers `c`, except for `eax`. -/
def regs (c : Cpu) (eax : Word) : List Word :=
  [(c.seg .gs).setWidth 32, (c.seg .fs).setWidth 32, (c.seg .es).setWidth 32,
    (c.seg .ds).setWidth 32, c.reg .edi, c.reg .esi, c.reg .ebp, c.reg .esp - 20, c.reg .ebx,
    c.reg .edx, c.reg .ecx, eax, s.vector, err.getD 0, c.eip, c.cs.setWidth 32, c.eflags]

variable {s err}

/-- **The frame of an interrupt**, below it the argument of the handler. -/
lemma words_entered (addr : Stub → Word) (he : err.isSome = s.errCode) (st : State) :
    (entered addr s err st).mem (frame st - 4) = frame st ∧
      Words (entered addr s err st).mem (frame st) (regs s err st.cpu (st.cpu.reg .eax)) := by
  have h20 : st.cpu.reg .esp - 20 = st.esp - 4 - 4 - 4 - 4 - 4 := by
    rw [State.esp]
    bv_omega
  have h68 : frame st =
      st.esp - 4 - 4 - 4 - 4 - 4 - 4 - 4 - 4 - 4 - 4 - 4 - 4 - 4 - 4 - 4 - 4 - 4 := by
    rw [frame]
    bv_omega
  -- the words in the order in which they are pushed
  have h := Words.foldl_store (frame st :: regs s err st.cpu (st.cpu.reg .eax)).reverse
    (words_nil st.mem st.esp) (by simp [regs])
  rw [List.append_nil, List.reverse_reverse] at h
  have h' : Words (entered addr s err st).mem (frame st - 4)
      (frame st :: regs s err st.cpu (st.cpu.reg .eax)) := by
    simp only [regs, h20, h68] at h ⊢
    cases err <;>
      simpa [entered, saveRegs, Stub.head, ← he, State.deliver, State.pusha, store] using h
  rwa [Words, BitVec.sub_add_cancel] at h'

/-- The registers that the return from the `struct regs` at `a` loads. -/
def loadCpu (m : Word → Word) (a : Word) : Cpu where
  reg
    | .eax => m (a + 44)
    | .ecx => m (a + 40)
    | .edx => m (a + 36)
    | .ebx => m (a + 32)
    | .esp => a + 68
    | .ebp => m (a + 24)
    | .esi => m (a + 20)
    | .edi => m (a + 16)
  seg
    | .ds => (m (a + 12)).setWidth 16
    | .es => (m (a + 8)).setWidth 16
    | .fs => (m (a + 4)).setWidth 16
    | .gs => (m a).setWidth 16
  cs := (m (a + 60)).setWidth 16
  eip := m (a + 56)
  eflags := m (a + 64)

lemma restoreRegs_eq (st : State) :
    restoreRegs st = ⟨loadCpu st.mem (st.cpu.reg .eax), st.mem⟩ := by
  refine congrArg₂ State.mk (Cpu.ext (funext fun r => ?_) (funext fun g => ?_) ?_ ?_ ?_) rfl
  · cases r <;> simp [State.popa, loadCpu, BitVec.add_assoc]
  · cases g <;> simp [State.popa, loadCpu, BitVec.add_assoc]
  all_goals simp [State.popa, loadCpu, BitVec.add_assoc]

/-- A frame gives back the registers that it was made of. -/
lemma loadCpu_of_words {m : Word → Word} {a v : Word} {c : Cpu} (h : Words m a (regs s err c v))
    (ha : a + 68 = c.reg .esp) :
    loadCpu m a = { c with reg := Function.update c.reg .eax v } := by
  simp only [regs, Words, BitVec.add_assoc, BitVec.reduceAdd, BitVec.ofNat_eq_ofNat] at h ha
  obtain ⟨hgs, hfs, hes, hds, hdi, hsi, hbp, -, hbx, hdx, hcx, hax, -, -, hip, hcs, hfl, -⟩ := h
  refine Cpu.ext (funext fun r => ?_) (funext fun g => ?_) ?_ hip hfl
  · cases r <;> simp [loadCpu, *]
  · cases g <;> simp [loadCpu, *]
  · simp [loadCpu, *]

/-- **Contexts are restored.** Whatever stub is entered from whatever state, its handler is called
with the address of a frame that holds all registers of the interrupted program. Whenever later a
handler, of this interrupt or of another one of any kind, returns that address in a state `t` with
the frame as it was, but for a value `v` in the place of `eax`, the program continues with all its
registers, its stack pointer included, and with `v` in `eax`. -/
theorem context_restored (addr : Stub → Word) (s : Stub) (err : Option Word)
    (he : err.isSome = s.errCode) (st t : State) (v : Word) (hret : t.cpu.reg .eax = frame st)
    (hmem : Words t.mem (frame st) (regs s err st.cpu v)) :
    ((entered addr s err st).mem (frame st - 4) = frame st ∧
        Words (entered addr s err st).mem (frame st) (regs s err st.cpu (st.cpu.reg .eax))) ∧
      restoreRegs t = ⟨{ st.cpu with reg := Function.update st.cpu.reg .eax v }, t.mem⟩ := by
  refine ⟨words_entered addr he st, ?_⟩
  rw [restoreRegs_eq, hret, loadCpu_of_words hmem (BitVec.sub_add_cancel ..)]

/-- A timer interrupt whose handler returns the frame as it is goes unnoticed. -/
theorem context_restored_tick :
    ∃ st : State, st.esp = 0x1000 ∧
      (restoreRegs ((entered (fun _ => 0) (.irq 0) none st).setReg .eax (frame st))).cpu =
        { st.cpu with reg := Function.update st.cpu.reg .eax (st.cpu.reg .eax) } := by
  obtain ⟨st, hst⟩ : ∃ st : State, st.esp = 0x1000 :=
    ⟨⟨⟨fun _ => 0x1000, fun _ => 0x10, 0x08, 0x100000, 0x202⟩, fun _ => 0⟩, rfl⟩
  have h := words_entered (fun _ => 0) (show none.isSome = (Stub.irq 0).errCode from rfl) st
  refine ⟨st, hst, ?_⟩
  rw [(context_restored (fun _ => 0) (.irq 0) none rfl st _ (st.cpu.reg .eax) (by simp)
    (by simpa only [State.setReg] using h.2)).2]

end Interrupt

/-! ## New tasks -/

/-- The words that `task_create` writes on a new stack, and the address that becomes `regs_ptr`. -/
def initialStack (m : Word → Word) (stack : ℕ) (entry taskExit : Word) : (Word → Word) × Word :=
  let x := [taskExit, 0x202, 0x08, entry, 0, 0, 0, 0, 0, 0].foldl store
    (m, BitVec.ofNat 32 (alignDown (u32 (stack + Sched.stackSize)) 16))
  [x.2, x.2, 0, 0, 0x10, 0x10, 0x10, 0x10].foldl store x

/-- The words of the frame of a new task. -/
lemma words_initialStack (m : Word → Word) (stack : ℕ) (entry taskExit : Word) :
    ∃ sp, Words (initialStack m stack entry taskExit).1 (initialStack m stack entry taskExit).2
      [0x10, 0x10, 0x10, 0x10, 0, 0, sp, sp, 0, 0, 0, 0, 0, 0, entry, 0x08, 0x202, taskExit] := by
  have h := Words.foldl_store [taskExit, 0x202, 0x08, entry, 0, 0, 0, 0, 0, 0]
    (words_nil m (BitVec.ofNat 32 (alignDown (u32 (stack + Sched.stackSize)) 16))) (by simp)
  rw [initialStack]
  generalize List.foldl store _ _ = x at h ⊢
  exact ⟨x.2, by simpa using Words.foldl_store [x.2, x.2, 0, 0, 0x10, 0x10, 0x10, 0x10] h (by simp)⟩

/-- **New tasks.** The frame of a new task is at its `regs_ptr`, on its stack. When a handler
returns its address in a state `t` with those words in place, the function of the task starts with
the segments of the kernel and interrupts enabled, as after a call from an aligned stack, with
`task_exit` as the return address. -/
theorem new_task_entered (m : Word → Word) {stack : ℕ} (entry taskExit : Word) (t : State)
    (hs : stack + Sched.stackSize < 4294967296) {x : (Word → Word) × Word}
    (hx : x = initialStack m stack entry taskExit) (hret : t.cpu.reg .eax = x.2)
    (hmem : ∀ i < 18, t.mem (x.2 + 4 * BitVec.ofNat 32 i) = x.1 (x.2 + 4 * BitVec.ofNat 32 i)) :
    (x.2.toNat = Sched.initialFrame stack ∧ stack ≤ x.2.toNat ∧
      x.2.toNat + 72 ≤ stack + Sched.stackSize) ∧
    ∃ c, restoreRegs t = ⟨c, t.mem⟩ ∧ c.eip = entry ∧ c.cs = 0x08 ∧ (∀ g, c.seg g = 0x10) ∧
      c.eflags = 0x202 ∧ t.mem (c.reg .esp) = taskExit ∧ ((c.reg .esp).toNat + 4) % 16 = 0 := by
  obtain ⟨top, htop⟩ : ∃ top, top = alignDown (u32 (stack + Sched.stackSize)) 16 := ⟨_, rfl⟩
  have hsize : Sched.stackSize = 8192 := rfl
  have hdiv : alignDown (u32 (stack + Sched.stackSize)) 16 =
      (stack + Sched.stackSize) / 16 * 16 := by
    rw [u32_of_lt hs, alignDown]
  have hframe : Sched.initialFrame stack = top - 72 := by
    rw [Sched.initialFrame, ← htop, sub32_of_le (by omega) (by omega)]
  have hword : (BitVec.ofNat 32 top).toNat = top := Nat.mod_eq_of_lt (by omega)
  have ha : x.2 = BitVec.ofNat 32 top - 72 := by
    simp only [hx, initialStack, List.foldl_cons, List.foldl_nil, store, ← htop]
    bv_omega
  have hsub : x.2.toNat = top - 72 := by bv_omega
  have hsp : (x.2 + 68).toNat = top - 4 := by bv_omega
  obtain ⟨sp, h⟩ := words_initialStack m stack entry taskExit
  rw [← hx] at h
  have h := h.congr hmem
  simp only [Words, BitVec.add_assoc, BitVec.reduceAdd, BitVec.ofNat_eq_ofNat] at h
  obtain ⟨hgs, hfs, hes, hds, -, -, -, -, -, -, -, -, -, -, hip, hcs, hfl, hexit, -⟩ := h
  refine ⟨by omega, loadCpu t.mem x.2, by rw [restoreRegs_eq, hret], hip, ?_, fun g => ?_, hfl,
    hexit, ?_⟩
  · simp [loadCpu, hcs]
  · cases g <;> simp [loadCpu, hgs, hfs, hes, hds]
  · change ((x.2 + 68).toNat + 4) % 16 = 0
    omega

/-- A task with a stack at 5 MB starts. -/
theorem new_task_entered_first :
    ∃ t c, restoreRegs t = ⟨c, t.mem⟩ ∧ c.eip = 0x100200 ∧ t.mem (c.reg .esp) = 0x100100 := by
  obtain ⟨-, c, hc, he, -, -, -, hexit, -⟩ := new_task_entered (fun _ => 0) 0x100200 0x100100
    ⟨⟨fun _ => _, fun _ => 0x10, 0x08, 0, 0⟩, _⟩ (show 0x500000 + Sched.stackSize < _ by decide)
    rfl rfl fun _ _ => rfl
  exact ⟨_, c, hc, he, hexit⟩

end BengalTiger.Interrupt
