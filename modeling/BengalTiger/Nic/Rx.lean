import BengalTiger.Net.Model

set_option autoImplicit false

/-!
# The receive ring of the RTL8139

`rtl8139_poll_rx` of `kernel/nic.c` reads headers and frames from a ring that the device writes, and
keeps the offset of the next header. Nothing that the device shows is trusted here: the contents of
the ring and the registers are arbitrary, and change between any two rounds. `net_rx_packet` can
poll again before the call that handed it a frame goes on, so the calls form a stack. The indices
that are read, the frames and the sums before their conversion to 16 bits are history variables.

## Main definitions

* `Nic.RxState` — the state of the receive side; `Nic.View` — what the device
  shows in a round.
* `Nic.rxRound` — a round of the loop; `Nic.rxRing` — all calls and rounds.
* `Nic.RxSafe` — everything that was read and handed on is in bounds.

## Main results

* `Nic.rx_ring_safe` — in every run everything is in bounds.
* `Nic.rxRound_of_shows` — a round on a frame that the device has stored does what the
  queue model of the receive path does.
-/

namespace BengalTiger.Nic

open ByteMem List

/-! ## The code -/

/-- `RTL_RX_RING_SIZE`. -/
def rtlRxRingSize : ℕ := 8192

/-- The size of `rtl_rx_buf`. -/
def rtlRxBufSize : ℕ := rtlRxRingSize + 16 + 1536

lemma rtlRxBufSize_eq : rtlRxBufSize = 9744 := rfl

/-- The receive side of the driver. -/
structure RxState where
  /-- `rtl_rx_offset`. -/
  offset : ℕ
  /-- The register CAPR. -/
  capr : ℕ
  rxPackets : ℕ
  rxBytes : ℕ
  /-- The budgets of the calls of `rtl8139_poll_rx` that are being executed, the innermost first. -/
  calls : List ℕ
  /-- The indices of `rtl_rx_buf` that were read, the sums before they were stored in the offset,
  and the frames handed to `net_rx_packet`. -/
  reads : List ℕ
  sums : List ℕ
  frames : List Frame

/-- What the device shows in a round: the registers CMD and CBR, and the contents of
`rtl_rx_buf`. -/
structure View where
  cmd : UInt8
  cbr : UInt16
  ring : Mem

/-- The receive part of `rtl8139_init_device`. -/
def rtl8139InitRx (s : RxState) : RxState := { s with offset := 0 }

/-- The two-byte field at an index of the ring. -/
def field16 (ring : Mem) (i : ℕ) : ℕ := (ring i).toNat ||| (ring (i + 1)).toNat <<< 8

/-- The offset and CAPR are set. -/
def RxState.moveTo (s : RxState) (offset : ℕ) : RxState :=
  { s with offset := offset, capr := u16 (offset + 65536 - 16) }

/-- A round of the loop of `rtl8139_poll_rx` in the innermost call, from its condition on. -/
def rxRound (s : RxState) (v : View) : RxState :=
  match s.calls with
  | [] => s
  | budget :: calls =>
    if v.cmd &&& 0x01 ≠ 0 ∨ budget = 0 then { s with calls := calls }
    else
      let hdr := s.offset
      let status := field16 v.ring hdr
      let pktLen := field16 v.ring (hdr + 2)
      let s := { s with reads := s.reads ++ [hdr, hdr + 1, hdr + 2, hdr + 3] }
      if status &&& 0x01 = 0 ∨ pktLen < 18 ∨ 1536 < pktLen then
        { s.moveTo (v.cbr.toNat % rtlRxRingSize) with calls := calls }
      else
        let frameLen := u16 (pktLen - 4)
        let sum := (hdr + pktLen + 4 + 3) &&& 0xFFFFFFFC
        { s.moveTo (u16 sum % rtlRxRingSize) with
          rxPackets := u32 (s.rxPackets + 1)
          rxBytes := u32 (s.rxBytes + frameLen)
          calls := (budget - 1) :: calls
          reads := s.reads ++ (List.range frameLen).map fun i => hdr + 4 + i
          sums := s.sums ++ [sum]
          frames := s.frames ++ [read v.ring (hdr + 4) frameLen] }

/-- What can happen: `rtl8139_poll_rx` is called, also from inside `net_rx_packet`, or the innermost
call takes a round. -/
inductive RxOp where
  | call
  | round (v : View)

/-- The state after an operation. -/
def RxOp.exec (s : RxState) : RxOp → RxState
  | .call => { s with calls := 32 :: s.calls }
  | .round v => rxRound s v

/-- All calls and rounds after `rtl8139_init_device`. -/
def rxRing : System RxState RxOp where
  init s := (∃ s₀, s = rtl8139InitRx s₀) ∧ s.calls = [] ∧ s.reads = [] ∧ s.sums = [] ∧ s.frames = []
  step s op t := t = op.exec s

/-! ## Bounds -/

/-- **Everything is in bounds**: the offset, the indices that were read, the lengths of the frames
that were handed on, and the sums before their conversion. -/
structure RxSafe (s : RxState) : Prop where
  offset_lt : s.offset < 8192
  reads_lt : ∀ i ∈ s.reads, i < rtlRxBufSize
  frames_len : ∀ f ∈ s.frames, 14 ≤ f.length ∧ f.length ≤ 1532
  sums_lt : ∀ n ∈ s.sums, n < 65536

variable {s : RxState} {v : View}

/-- **What a round can do**: end the call, move to the device's offset, or hand on a frame. -/
lemma rxRound_cases (s : RxState) (v : View) :
    (∃ calls, rxRound s v = { s with calls := calls }) ∨
    (∃ calls, rxRound s v =
      { s.moveTo (v.cbr.toNat % 8192) with
        calls := calls
        reads := s.reads ++ [s.offset, s.offset + 1, s.offset + 2, s.offset + 3] }) ∨
    ∃ calls rxPackets rxBytes pktLen, 18 ≤ pktLen ∧ pktLen ≤ 1536 ∧
      pktLen = field16 v.ring (s.offset + 2) ∧ rxRound s v =
        { s.moveTo (u16 ((s.offset + pktLen + 4 + 3) &&& 0xFFFFFFFC) % 8192) with
          rxPackets := rxPackets
          rxBytes := rxBytes
          calls := calls
          reads := s.reads ++ [s.offset, s.offset + 1, s.offset + 2, s.offset + 3] ++
            (List.range (pktLen - 4)).map fun i => s.offset + 4 + i
          sums := s.sums ++ [(s.offset + pktLen + 4 + 3) &&& 0xFFFFFFFC]
          frames := s.frames ++ [read v.ring (s.offset + 4) (pktLen - 4)] } := by
  unfold rxRound
  cases s.calls with
  | nil => exact .inl ⟨s.calls, rfl⟩
  | cons budget calls =>
    dsimp only
    split_ifs with hend hbad
    · exact .inl ⟨calls, rfl⟩
    · exact .inr (.inl ⟨calls, rfl⟩)
    · have hlen : u16 (field16 v.ring (s.offset + 2) - 4) = field16 v.ring (s.offset + 2) - 4 :=
        Nat.mod_eq_of_lt (by omega)
      rw [hlen]
      exact .inr (.inr ⟨_, _, _, _, by omega, by omega, rfl, rfl⟩)

/-- **A round keeps everything in bounds.**

**Proof sketch.** The header ends at most three bytes behind the offset, the frame at most 1535
bytes behind it, and both ends lie in the part of the buffer behind the ring. The sum is at most
`8191 + 1536 + 7`. -/
lemma RxSafe.rxRound (h : RxSafe s) (v : View) : RxSafe (rxRound s v) := by
  have hoffset := h.offset_lt
  have hhdr : ∀ i ∈ [s.offset, s.offset + 1, s.offset + 2, s.offset + 3], i < rtlRxBufSize := by
    rw [rtlRxBufSize_eq]
    intro i hi
    simp only [mem_cons, not_mem_nil, or_false] at hi
    omega
  have hreads : ∀ i ∈ s.reads ++ [s.offset, s.offset + 1, s.offset + 2, s.offset + 3],
      i < rtlRxBufSize := by
    intro i hi
    exact (mem_append.1 hi).elim (h.reads_lt i) (hhdr i)
  obtain ⟨calls, heq⟩ | ⟨calls, heq⟩ | ⟨calls, rxPackets, rxBytes, pktLen, h18, h1536, -, heq⟩ :=
    rxRound_cases s v
  · rw [heq]
    exact ⟨hoffset, h.reads_lt, h.frames_len, h.sums_lt⟩
  · rw [heq]
    exact ⟨Nat.mod_lt _ (by decide), hreads, h.frames_len, h.sums_lt⟩
  · rw [heq]
    refine ⟨Nat.mod_lt _ (by decide), fun i hi => ?_, fun f hf => ?_, fun n hn => ?_⟩
    · rcases mem_append.1 hi with hi | hi
      · exact hreads i hi
      · obtain ⟨j, hj, rfl⟩ := mem_map.1 hi
        have hj := mem_range.1 hj
        rw [rtlRxBufSize_eq]
        omega
    · rcases mem_append.1 hf with hf | hf
      · exact h.frames_len f hf
      · rw [mem_singleton.1 hf, length_read]
        omega
    · rcases mem_append.1 hn with hn | hn
      · exact h.sums_lt n hn
      · rw [mem_singleton.1 hn]
        have hle : (s.offset + pktLen + 4 + 3) &&& 0xFFFFFFFC ≤ s.offset + pktLen + 4 + 3 :=
          Nat.and_le_left
        omega

/-- **The receive ring stays in bounds**: whatever the device shows, in every sequence of calls and
rounds after `rtl8139_init_device`. -/
theorem rx_ring_safe {s : RxState} (hs : rxRing.Reachable s) : RxSafe s := by
  apply hs.invariant RxSafe
  · rintro s ⟨⟨s₀, rfl⟩, -, hreads, hsums, hframes⟩
    refine ⟨Nat.zero_lt_succ _, ?_, ?_, ?_⟩
    · rw [hreads]
      exact fun i hi => absurd hi not_mem_nil
    · rw [hframes]
      exact fun f hf => absurd hf not_mem_nil
    · rw [hsums]
      exact fun n hn => absurd hn not_mem_nil
  · rintro s op t h rfl
    cases op with
    | call => exact ⟨h.offset_lt, h.reads_lt, h.frames_len, h.sums_lt⟩
    | round v => exact h.rxRound v

/-- The receive side after the driver was initialised. -/
def initRx : RxState := rtl8139InitRx ⟨77, 0, 0, 0, [], [], [], []⟩

/-- A header with a status that is not ok, while CBR points to the end of the ring. -/
def badView : View := ⟨0, 8191, fun _ => 0⟩

/-- A header at the end of the ring, with a frame of the smallest length behind it. -/
def endView : View := ⟨0, 0, fun i => if i = 8194 then 0 else if i = 8193 then 18 else 1⟩

/-- A bad header moves the offset to the last byte of the ring, where a frame is read. -/
theorem rx_ring_safe_end :
    ∃ s, rxRing.Reachable s ∧ s.frames = [List.replicate 14 1] ∧ 8191 ∈ s.reads ∧
      8208 ∈ s.reads ∧ s.offset = 24 ∧ RxSafe s := by
  have hinit : rxRing.Reachable initRx := .init ⟨⟨_, rfl⟩, rfl, rfl, rfl, rfl⟩
  have hrun : rxRing.Reachable (RxOp.exec (RxOp.exec (RxOp.exec (RxOp.exec initRx .call)
      (.round badView)) .call) (.round endView)) :=
    .step (.step (.step (.step hinit rfl) rfl) rfl) rfl
  exact ⟨_, hrun, by decide, by decide, by decide, by decide, rx_ring_safe hrun⟩

/-! ## The queue model -/

/-- The device has stored a frame at the offset: the header with the status and the length, which
counts the CRC, and the frame behind it. -/
structure Shows (v : View) (offset : ℕ) (item : Net.RxItem) : Prop where
  waiting : v.cmd &&& 0x01 = 0
  status : field16 v.ring offset &&& 0x01 = 0 ↔ item.error = true
  length : field16 v.ring (offset + 2) = item.frame.length + 4
  frame : read v.ring (offset + 4) item.frame.length = item.frame

/-- **A round on a stored frame** does what the queue model of the receive path does: a frame with
errors or of a wrong length ends the call, another one is handed on. -/
theorem rxRound_of_shows {item : Net.RxItem} {budget : ℕ} {calls : List ℕ}
    (hv : Shows v s.offset item) (hcalls : s.calls = (budget + 1) :: calls) :
    if item.error = true ∨ item.frame.length + 4 < 18 ∨ 1536 < item.frame.length + 4 then
      (rxRound s v).frames = s.frames ∧ (rxRound s v).calls = calls
    else (rxRound s v).frames = s.frames ++ [item.frame] ∧
      (rxRound s v).calls = budget :: calls := by
  have hgo : ¬(v.cmd &&& 0x01 ≠ 0 ∨ budget + 1 = 0) := by
    simp [hv.waiting]
  unfold rxRound
  rw [hcalls]
  simp only [if_neg hgo, hv.status, hv.length]
  split_ifs with hbad
  · exact ⟨rfl, rfl⟩
  · have hlen : u16 (item.frame.length + 4 - 4) = item.frame.length := Nat.mod_eq_of_lt (by omega)
    rw [hlen, hv.frame]
    exact ⟨rfl, rfl⟩

end BengalTiger.Nic
