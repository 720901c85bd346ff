import BengalTiger.Common
import BengalTiger.Lib.ByteMem
import BengalTiger.Lib.System

set_option autoImplicit false

/-!
# The transmit side of the network drivers

`nic_send_packet` of `kernel/nic.c` with its two drivers, the Intel E1000 (a ring of eight
descriptors with buffers) and the Realtek RTL8139 (four buffers), beside the device. A call is a
sequence of driver steps, and the device may take its own steps between any two of them: it is
seen while the driver waits for a descriptor, and between the `memset` and the `memcpy` that fill
a buffer. Each driver step is the stretch of the source named at its phase.

The ownership of a slot and the three lists of frames are history variables. The registers that
do not take part in sending, the interrupt flags and the receive side are left out; a buffer's
address, which the drivers store for the device at every call, never changes and is left out.

## Main definitions

* `Nic.TxState` — the transmit state; `Nic.Phase` — where a call stands.
* `Nic.nicSendPacket` — the beginning of a call; `Nic.e1000Step`,
  `Nic.rtl8139Step` — the steps of the drivers.
* `Nic.complete`, `Nic.process` — the steps of the device.
-/

namespace BengalTiger.Nic

open ByteMem Function

/-- A frame. -/
abbrev Frame := List UInt8

/-- `nic_state.driver_type`. -/
inductive DriverType where
  | none
  | e1000
  | rtl8139
  deriving DecidableEq

/-- The fields of `e1000_tx_desc_t` that the driver changes. -/
structure TxDesc where
  length : ℕ
  cmd : ℕ
  status : ℕ

/-- Where a call of `nic_send_packet` stands. -/
inductive Phase where
  /-- No call is being executed. -/
  | idle
  /-- In the wait loop of `e1000_send`, with the value of `timeout`. -/
  | wait (data : Frame) (timeout : ℤ)
  /-- Before the `memset` of the buffer. -/
  | clear (data : Frame)
  /-- Before the `memcpy` into the buffer. -/
  | copy (data : Frame)
  /-- Before the descriptor (E1000) or the address register (RTL8139) is written. -/
  | describe (data : Frame)
  /-- Before the write that hands the slot over: TDT (E1000) or TSDn (RTL8139). -/
  | handOver (data : Frame)

/-- No call is being executed. -/
def Phase.isIdle : Phase → Bool
  | .idle => true
  | _ => false

/-- The transmit state of the drivers and of the device. -/
structure TxState where
  initialized : Bool
  driverType : DriverType
  txPackets : ℕ
  txBytes : ℕ
  /-- `e1000_tx_descs`, `e1000_tx_bufs`, `e1000_tx_cur` and the registers TDH, TDT. -/
  descs : ℕ → TxDesc
  e1000Bufs : ℕ → Mem
  e1000Cur : ℕ
  tdh : ℕ
  tdt : ℕ
  /-- `rtl_tx_bufs`, `rtl_tx_cur` and the registers TSD0..TSD3. -/
  rtlBufs : ℕ → Mem
  rtlCur : ℕ
  tsd : ℕ → ℕ
  phase : Phase
  /-- The result of the last call. -/
  rc : ℤ
  /-- The slots handed over and not yet completed. -/
  owned : ℕ → Bool
  /-- The frames passed to `nic_send_packet`, those for which it returned 0, and those the
  device put on the wire. -/
  passed : List Frame
  accepted : List Frame
  wire : List Frame

/-- `E1000_NUM_TX_DESC`. -/
def numTxDesc : ℕ := 8

/-- The transmit part of `e1000_init_device`: all descriptors available, an empty ring. -/
def e1000InitTx (s : TxState) : TxState :=
  { s with
    initialized := true, driverType := .e1000
    descs := fun i => if i < numTxDesc then ⟨0, 0, 1⟩ else s.descs i
    e1000Cur := 0, tdh := 0, tdt := 0 }

/-- The transmit part of `rtl8139_init_device`. -/
def rtl8139InitTx (s : TxState) : TxState :=
  { s with initialized := true, driverType := .rtl8139, rtlCur := 0 }

/-- `send_len`: frames are padded to 60 bytes. -/
def sendLen (length : ℕ) : ℕ := if length < 60 then 60 else length

/-- The padded frame. -/
def pad (data : Frame) : Frame := data ++ List.replicate (sendLen data.length - data.length) 0

/-- The call ends with result `rc`. -/
def TxState.ret (s : TxState) (rc : ℤ) : TxState := { s with phase := .idle, rc := rc }

/-- The frame is one that was passed to `nic_send_packet`. -/
def TxState.pass (s : TxState) (data : Frame) : TxState :=
  { s with passed := s.passed ++ [data] }

/-- The choice of the driver and its check of the length, before its first action on the
transmit state. -/
def startSend (s : TxState) (data : Frame) : TxState :=
  match s.driverType with
  | .none => s.ret (-1)
  | .e1000 => if 1518 < data.length then s.ret (-1) else { s with phase := .wait data 100000 }
  | .rtl8139 => if 1518 < data.length then s.ret (-1) else { s with phase := .clear data }

/-- The beginning of `nic_send_packet`; `none` is the null pointer. -/
def nicSendPacket (s : TxState) (data : Option Frame) : TxState :=
  data.elim (s.ret (-1)) fun d =>
    if s.initialized = false ∨ d.length = 0 then (s.pass d).ret (-1) else startSend (s.pass d) d

/-! ## The E1000 driver -/

/-- The DD bit of a descriptor. -/
def TxState.dd (s : TxState) (i : ℕ) : Bool := (s.descs i).status % 2 == 1

/-- One round of `while (!(status & 0x01) && timeout-- > 0);` and the check after it. -/
def e1000Wait (s : TxState) (data : Frame) (timeout : ℤ) : TxState :=
  if s.dd s.e1000Cur then
    if timeout ≤ 0 then s.ret (-1) else { s with phase := .clear data }
  else if 0 < timeout then { s with phase := .wait data (timeout - 1) }
  else if timeout - 1 ≤ 0 then s.ret (-1)
  else { s with phase := .clear data }

/-- Replace the buffer at the driver's position. -/
def TxState.setE1000Buf (s : TxState) (m : Mem) (p : Phase) : TxState :=
  { s with e1000Bufs := update s.e1000Bufs s.e1000Cur m, phase := p }

/-- `E1000_TX_CMD_EOP | E1000_TX_CMD_IFCS | E1000_TX_CMD_RS`. -/
def txCmd : ℕ := 0x01 + 0x02 + 0x08

/-- Fill in the descriptor; its DD bit is cleared. -/
def e1000Describe (s : TxState) (data : Frame) : TxState :=
  { s with
    descs := update s.descs s.e1000Cur ⟨sendLen data.length, txCmd, 0⟩
    phase := .handOver data }

/-- Advance `e1000_tx_cur` and write it to TDT, which hands the slot over; count the frame. -/
def e1000HandOver (s : TxState) (data : Frame) : TxState :=
  { s with
    e1000Cur := (s.e1000Cur + 1) % numTxDesc
    tdt := (s.e1000Cur + 1) % numTxDesc
    txPackets := u32 (s.txPackets + 1)
    txBytes := u32 (s.txBytes + sendLen data.length)
    owned := update s.owned s.e1000Cur true
    accepted := s.accepted ++ [data]
    phase := .idle, rc := 0 }

/-- The next step of `e1000_send`. -/
def e1000Step (s : TxState) : TxState :=
  match s.phase with
  | .idle => s
  | .wait data timeout => e1000Wait s data timeout
  | .clear data =>
    s.setE1000Buf (fill (s.e1000Bufs s.e1000Cur) 0 0 (sendLen data.length)) (.copy data)
  | .copy data => s.setE1000Buf (write (s.e1000Bufs s.e1000Cur) 0 data) (.describe data)
  | .describe data => e1000Describe s data
  | .handOver data => e1000HandOver s data

/-! ## The RTL8139 driver -/

/-- Replace the buffer at the driver's position. -/
def TxState.setRtlBuf (s : TxState) (m : Mem) (p : Phase) : TxState :=
  { s with rtlBufs := update s.rtlBufs s.rtlCur m, phase := p }

/-- Write the length to TSDn, which hands the slot over; advance `rtl_tx_cur`, count the
frame. -/
def rtl8139HandOver (s : TxState) (data : Frame) : TxState :=
  { s with
    tsd := update s.tsd s.rtlCur (sendLen data.length)
    rtlCur := (s.rtlCur + 1) % 4
    txPackets := u32 (s.txPackets + 1)
    txBytes := u32 (s.txBytes + sendLen data.length)
    owned := update s.owned s.rtlCur true
    accepted := s.accepted ++ [data]
    phase := .idle, rc := 0 }

/-- The next step of `rtl8139_send`. -/
def rtl8139Step (s : TxState) : TxState :=
  match s.phase with
  | .idle => s
  -- this driver never waits
  | .wait _ _ => s
  | .clear data =>
    s.setRtlBuf (fill (s.rtlBufs s.rtlCur) 0 0 (sendLen data.length)) (.copy data)
  | .copy data => s.setRtlBuf (write (s.rtlBufs s.rtlCur) 0 data) (.describe data)
  | .describe data => { s with phase := .handOver data }
  | .handOver data => rtl8139HandOver s data

/-- The next step of the active driver. -/
def driverStep (s : TxState) : TxState :=
  match s.driverType with
  | .none => s
  | .e1000 => e1000Step s
  | .rtl8139 => rtl8139Step s

/-! ## The device -/

/-- The active driver's buffer of a slot. -/
def TxState.buf (s : TxState) (i : ℕ) : Mem :=
  match s.driverType with
  | .rtl8139 => s.rtlBufs i
  | _ => s.e1000Bufs i

/-- The active driver's next slot. -/
def TxState.cur (s : TxState) : ℕ :=
  match s.driverType with
  | .rtl8139 => s.rtlCur
  | _ => s.e1000Cur

/-- The length that the device is told for a slot. -/
def TxState.len (s : TxState) (i : ℕ) : ℕ :=
  match s.driverType with
  | .rtl8139 => s.tsd i
  | _ => (s.descs i).length

/-- The frame that the device takes from a slot. -/
def TxState.frame (s : TxState) (i : ℕ) : Frame := read (s.buf i) 0 (s.len i)

/-- Completion of slot `i`: the device puts the frame on the wire and gives the slot back; the
E1000 sets the descriptor's DD bit. -/
def complete (s : TxState) (i : ℕ) : TxState :=
  { s with
    wire := s.wire ++ [s.frame i]
    owned := update s.owned i false
    descs := match s.driverType with
      | .e1000 => update s.descs i { s.descs i with status := (s.descs i).status ||| 1 }
      | _ => s.descs }

/-- The E1000 processes the descriptor at its head and advances it. -/
def process (s : TxState) : TxState :=
  { complete s s.tdh with tdh := (s.tdh + 1) % numTxDesc }

end BengalTiger.Nic
