import Mathlib.Data.UInt
import Mathlib.Data.Fintype.Basic

set_option autoImplicit false

/-!
# Hardware interrupts at the 8259A controllers

`irq_handler` of `kernel/isr.c` and the functions of `kernel/pic.c` that it calls, with the
registers of the controllers that these act on.

## Main definitions

* `Interrupt.irqHandler` — the code; `Interrupt.wiring` — which driver serves which line.

## Main results

* `Interrupt.requests_served` — every request is ended, and only real ones are handled.
-/

namespace BengalTiger.Interrupt

/-- A controller: the requests in service, and whether its command port reads them. -/
structure Chip where
  isr : UInt8
  readIsr : Bool
  deriving DecidableEq

/-- The command port is written: `PIC_READ_ISR`, or `PIC_EOI`, which ends the service of the request
of highest priority. -/
def Chip.command (c : Chip) (v : UInt8) : Chip :=
  if v = 0x0B then { c with readIsr := true }
  else if v = 0x20 then { c with isr := c.isr &&& (c.isr - 1) }
  else c

/-- The two controllers. -/
structure Pic where
  master : Chip
  slave : Chip
  deriving DecidableEq

/-- `outb` to `PIC1_COMMAND`. -/
def Pic.out1 (p : Pic) (v : UInt8) : Pic := { p with master := p.master.command v }

/-- `outb` to `PIC2_COMMAND`. -/
def Pic.out2 (p : Pic) (v : UInt8) : Pic := { p with slave := p.slave.command v }

/-- `pic_send_eoi`. -/
def picSendEoi (p : Pic) (irq : UInt8) : Pic := (if irq ≥ 8 then p.out2 0x20 else p).out1 0x20

/-- The functions that `irq_handler` calls. -/
inductive Call
  | timerHandler
  | schedulerTick
  | keyboardHandler
  | serialIrqHandler
  | mouseHandler
  | nicHandleIrq (irq : UInt8)
  deriving DecidableEq

/-- The `switch` of `irq_handler` and what follows it. -/
def dispatch (intNo : UInt32) (irq : UInt8) : List Call :=
  (if intNo = 32 then [.timerHandler, .schedulerTick] else if intNo = 33 then [.keyboardHandler]
    else if intNo = 36 then [.serialIrqHandler] else if intNo = 44 then [.mouseHandler] else []) ++
    [.nicHandleIrq irq]

/-- `irq_handler` for a frame with the number `intNo`; it reads the register in service with
`pic_is_spurious_irq7` and `pic_is_spurious_irq15`. -/
def irqHandler (p : Pic) (intNo : UInt32) : Pic × List Call :=
  let irq := (intNo - 32).toUInt8
  if irq = 7 then
    let p := p.out1 0x0B
    if p.master.isr &&& 0x80 = 0 then (p, []) else (picSendEoi p irq, dispatch intNo irq)
  else if irq = 15 then
    let p := p.out2 0x0B
    if p.slave.isr &&& 0x80 = 0 then (p.out1 0x20, []) else (picSendEoi p irq, dispatch intNo irq)
  else (picSendEoi p irq, dispatch intNo irq)

/-- What the controllers deliver: a request of a device, or a request 7 or 15 whose line fell before
it was acknowledged. -/
inductive Source
  | device (n : Fin 16)
  | spurious7
  | spurious15

/-- The line of a request. -/
def Source.line : Source → Fin 16
  | .device n => n
  | .spurious7 => 7
  | .spurious15 => 15

/-- The number that the stub of a request pushes: the lines are at the vectors from 32 on. -/
def Source.intNo (src : Source) : UInt32 := UInt32.ofNat (32 + src.line)

/-- The drivers of the devices of a PC, by the line to which the device is wired. -/
def wiring : List (Fin 16 × List Call) :=
  [(0, [.timerHandler, .schedulerTick]), (1, [.keyboardHandler]), (4, [.serialIrqHandler]),
    (12, [.mouseHandler])]

/-- The calls that a request is for: the driver of the device on its line, if the line has one, and
the network driver, whose card may share any line. A spurious request is for none. -/
def Source.calls : Source → List Call
  | .device n => (wiring.lookup n).getD [] ++ [.nicHandleIrq (UInt8.ofNat n)]
  | _ => []

/-- The controllers deliver a request. One of the slave is in service at line 2 of the master too; a
spurious one is not in service at its own controller. -/
def Pic.acknowledge (p : Pic) : Source → Pic
  | .device n =>
    if n < 8 then { p with master.isr := p.master.isr ||| 1 <<< UInt8.ofNat n }
    else { p with
      master.isr := p.master.isr ||| 4
      slave.isr := p.slave.isr ||| 1 <<< UInt8.ofNat (n - 8) }
  | .spurious7 => p
  | .spurious15 => { p with master.isr := p.master.isr ||| 4 }

/-- A request is delivered and handled. -/
def request (x : Pic × List Call) (src : Source) : Pic × List Call :=
  let y := irqHandler (x.1.acknowledge src) src.intNo
  (y.1, x.2 ++ y.2)

/-- Nothing is in service. -/
def Pic.Idle (p : Pic) : Prop := p.master.isr = 0 ∧ p.slave.isr = 0

/-- **One request** is ended, and calls what it is for. -/
lemma irqHandler_idle {p : Pic} (h : p.Idle) (src : Source) :
    (irqHandler (p.acknowledge src) src.intNo).1.Idle ∧
      (irqHandler (p.acknowledge src) src.intNo).2 = src.calls := by
  obtain ⟨⟨i, b⟩, ⟨i', b'⟩⟩ := p
  obtain ⟨rfl, rfl⟩ : i = 0 ∧ i' = 0 := h
  -- the registers in service are known, so the cases are finitely many
  unfold Pic.Idle
  cases src with
  | device n => revert n b b'; decide
  | spurious7 => revert b b'; decide
  | spurious15 => revert b b'; decide

/-- **Requests are served.** After any sequence of requests, spurious ones included, nothing is in
service at either controller, so that no line is held back, and the functions called are the drivers
of the devices that asked, in their order and once each. -/
theorem requests_served (l : List Source) {p : Pic} (h : p.Idle) :
    (l.foldl request (p, [])).1.Idle ∧ (l.foldl request (p, [])).2 = l.flatMap Source.calls := by
  have hrun : ∀ (l : List Source) (p : Pic) (calls : List Call), p.Idle →
      (l.foldl request (p, calls)).1.Idle ∧
        (l.foldl request (p, calls)).2 = calls ++ l.flatMap Source.calls := by
    intro l
    induction l with
    | nil => exact fun p calls h => ⟨h, (List.append_nil calls).symm⟩
    | cons src l ih =>
      intro p calls h
      obtain ⟨hidle, hcalls⟩ := irqHandler_idle h src
      rw [List.foldl_cons, List.flatMap_cons, ← List.append_assoc, ← hcalls]
      exact ih _ _ hidle
  exact hrun l p [] h

/-- A spurious request between two of the keyboard. -/
theorem requests_served_spurious :
    ([Source.device 1, .spurious15, .device 1].foldl request (⟨⟨0, false⟩, ⟨0, false⟩⟩, [])).2 =
      [.keyboardHandler, .nicHandleIrq 1, .keyboardHandler, .nicHandleIrq 1] :=
  (requests_served [.device 1, .spurious15, .device 1] ⟨rfl, rfl⟩).2

end BengalTiger.Interrupt
