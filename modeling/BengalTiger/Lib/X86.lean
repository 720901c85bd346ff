import Mathlib.Logic.Function.Basic

set_option autoImplicit false

/-!
# A fragment of the 32-bit x86 instruction set

The instructions that save the registers of an interrupted program on its stack and restore them.
The memory is that of stacks: the double words at aligned addresses.

## Main definitions

* `X86.Cpu`, `X86.State` — the registers; the registers and the memory.
* `X86.Words` — the words from an address upwards.

## Main results

* `X86.Words.foldl_store` — what is pushed stands on the stack, the last word first.
-/

namespace X86

open Function

/-- Double words and addresses. -/
abbrev Word := BitVec 32

/-- The general registers. -/
inductive Reg
  | eax | ecx | edx | ebx | esp | ebp | esi | edi
  deriving DecidableEq

/-- The data segment registers. -/
inductive Seg
  | ds | es | fs | gs
  deriving DecidableEq

/-- The registers of the processor. -/
@[ext] structure Cpu where
  reg : Reg → Word
  seg : Seg → BitVec 16
  cs : BitVec 16
  eip : Word
  eflags : Word

/-- The registers and the memory. -/
structure State where
  cpu : Cpu
  mem : Word → Word

/-- A word is stored below an address, which moves down. -/
def store (x : (Word → Word) × Word) (v : Word) : (Word → Word) × Word :=
  (update x.1 (x.2 - 4) v, x.2 - 4)

namespace State

variable (st : State)

/-- The stack pointer. -/
@[simp] def esp : Word := st.cpu.reg .esp

/-- A general register is set. -/
@[simp] def setReg (r : Reg) (v : Word) : State :=
  { st with cpu := { st.cpu with reg := update st.cpu.reg r v } }

/-- A segment register is set. -/
@[simp] def setSeg (s : Seg) (v : BitVec 16) : State :=
  { st with cpu := { st.cpu with seg := update st.cpu.seg s v } }

/-- The flags are masked. -/
@[simp] def maskFlags (v : Word) : State :=
  { st with cpu := { st.cpu with eflags := st.cpu.eflags &&& v } }

/-- `push`. -/
@[simp] def push (v : Word) : State :=
  let x := store (st.mem, st.esp) v
  { st.setReg .esp x.2 with mem := x.1 }

/-- The word on top of the stack. -/
@[simp] def top : Word := st.mem st.esp

/-- `add $n, %esp`. -/
@[simp] def drop (n : Word) : State := st.setReg .esp (st.esp + n)

/-- `pop` into a general register. -/
@[simp] def popReg (r : Reg) : State := (st.setReg r st.top).drop 4

/-- `push` of a segment register. -/
@[simp] def pushSeg (s : Seg) : State := st.push ((st.cpu.seg s).setWidth 32)

/-- `pop` into a segment register. -/
@[simp] def popSeg (s : Seg) : State := (st.setSeg s (st.top.setWidth 16)).drop 4

/-- `pusha`, with the stack pointer as it was before. -/
def pusha : State :=
  let r := st.cpu.reg
  (((((((st.push (r .eax)).push (r .ecx)).push (r .edx)).push (r .ebx)).push (r .esp)).push
    (r .ebp)).push (r .esi)).push (r .edi)

/-- `popa`; the word for the stack pointer is skipped. -/
def popa : State :=
  (((((((st.popReg .edi).popReg .esi).popReg .ebp).drop 4).popReg .ebx).popReg .edx).popReg
    .ecx).popReg .eax

/-- `iret` at the same privilege level. -/
def iret : State :=
  let eip := st.top
  let st := st.drop 4
  let cs := st.top.setWidth 16
  let st := st.drop 4
  { st.drop 4 with cpu := { (st.drop 4).cpu with eip := eip, cs := cs, eflags := st.top } }

/-- An interrupt through an interrupt gate at the same privilege level: the processor pushes the
flags, the code segment, the instruction pointer and, for some exceptions, an error code, and
clears TF, IF, NT, RF and VM. -/
def deliver (cs : BitVec 16) (target : Word) (err : Option Word) : State :=
  let st' := ((st.push st.cpu.eflags).push (st.cpu.cs.setWidth 32)).push st.cpu.eip
  let st' := (err.elim st' st'.push).maskFlags (~~~0x34300)
  { st' with cpu := { st'.cpu with cs := cs, eip := target } }

end State

/-- The words `ws` stand at `a` and above. -/
def Words (m : Word → Word) (a : Word) : List Word → Prop
  | [] => True
  | w :: ws => m a = w ∧ Words m (a + 4) ws

variable {m m' : Word → Word} {a : Word} {ws : List Word}

lemma words_nil (m : Word → Word) (a : Word) : Words m a [] := trivial

/-- The words only depend on the memory that they are in. -/
lemma Words.congr (h : Words m a ws)
    (hm : ∀ i < ws.length, m' (a + 4 * BitVec.ofNat 32 i) = m (a + 4 * BitVec.ofNat 32 i)) :
    Words m' a ws := by
  induction ws generalizing a with
  | nil => trivial
  | cons w ws ih =>
    refine ⟨by simpa using (hm 0 (Nat.succ_pos _)).trans (by simpa using h.1),
      ih h.2 fun i hi => ?_⟩
    have e : a + 4 + 4 * BitVec.ofNat 32 i = a + 4 * BitVec.ofNat 32 (i + 1) := by
      rw [BitVec.ofNat_add]
      grind
    rw [e]
    exact hm (i + 1) (Nat.succ_lt_succ hi)

lemma Words.store (h : Words m a ws) (hlen : ws.length < 1000) (v : Word) :
    Words (store (m, a) v).1 (store (m, a) v).2 (v :: ws) := by
  refine ⟨update_self .., ?_⟩
  rw [X86.store, BitVec.sub_add_cancel]
  refine h.congr fun i hi => update_of_ne ?_ _ _
  have hn : (BitVec.ofNat 32 i).toNat = i := Nat.mod_eq_of_lt (by omega)
  bv_omega

/-- **What is pushed** stands on the stack, the last word first. -/
lemma Words.foldl_store (vs : List Word) (h : Words m a ws) (hlen : vs.length + ws.length < 1000) :
    Words (vs.foldl X86.store (m, a)).1 (vs.foldl X86.store (m, a)).2 (vs.reverse ++ ws) := by
  induction vs generalizing m a ws with
  | nil => exact h
  | cons v vs ih =>
    rw [List.length_cons] at hlen
    rw [List.reverse_cons, List.append_assoc]
    exact ih (h.store (by omega) v) (by rw [List.length_append, List.length_singleton]; omega)

end X86
