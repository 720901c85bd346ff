import BengalTiger.Nic.TxRun

set_option autoImplicit false

/-!
# The transmit ring of the E1000

All interleavings of `e1000_send` calls with a device that works through the ring in order: while
TDH differs from TDT it may process the descriptor at TDH, set its DD bit and advance TDH. The
law of the ring is that the descriptors not yet done are those from head to tail, so that the
device sees every accepted frame until it has sent it.

The driver hands over a descriptor whenever the DD bit allows it, also the last free one. With
all eight descriptors outstanding TDH and TDT meet, the device takes the ring for empty, and
nothing is sent any more. This is the only way for the law to fail.

## Main definitions

* `Nic.ring` — the interleavings; `Nic.window` — the slots from head to
  tail; `Nic.RingLaw` — the law.

## Main results

* `Nic.ring_law_iff` — the law holds between calls exactly when fewer than eight
  accepted frames are unsent.
* `Nic.ring_law_fails` — eight calls without a step of the device break the law.
-/

namespace BengalTiger.Nic

open ByteMem Function List

/-- What can happen: a call begins, the driver takes its next step, the device processes the
descriptor at its head. -/
inductive RingOp where
  | call (data : Option Frame)
  | driver
  | device

/-- When an operation can happen. For the device an empty ring is one whose head and tail are
equal. -/
def RingOp.enabled (s : TxState) : RingOp → Bool
  | .call data => s.phase.isIdle && (data.elim true fun d => d.length < 65536)
  | .driver => !s.phase.isIdle
  | .device => s.tdh ≠ s.tdt

/-- The state after an operation. -/
def RingOp.exec (s : TxState) : RingOp → TxState
  | .call data => nicSendPacket s data
  | .driver => driverStep s
  | .device => process s

/-- The states after `e1000_init_device`. -/
def IsRingInit (s : TxState) : Prop :=
  (∃ s₀, s = e1000InitTx s₀) ∧
    s.phase = .idle ∧ (∀ i, s.owned i = false) ∧ s.passed = [] ∧ s.accepted = [] ∧ s.wire = []

/-- The interleavings of calls and device steps. -/
def ring : System TxState RingOp := System.ofExec IsRingInit RingOp.enabled RingOp.exec

/-- The circular window from head to tail. -/
def window (s : TxState) : List ℕ :=
  (List.range ((s.tdt + numTxDesc - s.tdh) % numTxDesc)).map fun j => (s.tdh + j) % numTxDesc

/-- The descriptors not yet done are those from head to tail, and they hold the accepted frames
that are not on the wire yet, in order. -/
def RingLaw (s : TxState) : Prop :=
  (∀ i < numTxDesc, s.dd i = false ↔ i ∈ window s) ∧
    s.accepted.map pad = s.wire ++ (window s).map s.frame

/-- Between the write of a descriptor and the write of TDT. -/
def Phase.isHandOver : Phase → Bool
  | .handOver _ => true
  | _ => false

/-- The invariant of the ring with `n` frames outstanding. -/
structure RingInv (s : TxState) (n : ℕ) : Prop where
  tx : TxInv s
  e1000 : s.driverType = .e1000
  le : n ≤ 8
  head : s.tdh < 8
  cur : s.e1000Cur = (s.tdh + n) % 8
  tail : s.tdt = s.e1000Cur
  owned : ∀ i, s.owned i = true ↔ ∃ j < n, i = (s.tdh + j) % 8
  dd : ∀ i < 8, s.dd i = false ↔
    s.owned i = true ∨ s.phase.isHandOver = true ∧ i = s.e1000Cur
  frames : s.accepted.map pad = s.wire ++ (List.range n).map fun j => s.frame ((s.tdh + j) % 8)

section Steps

variable {s : TxState} {n : ℕ}

variable (h : RingInv s n)

include h

/-- The driver's position. -/
lemma RingInv.cur_eq : s.cur = s.e1000Cur := by
  simp [TxState.cur, h.e1000]

/-- A slot that the driver may fill exists only when the ring is not full. -/
lemma RingInv.lt_of_free (hfree : s.owned s.cur = false) : n < 8 := by
  by_contra hn
  have hfull : s.owned s.cur = true := by
    rw [h.owned, h.cur_eq, h.cur]
    refine ⟨0, by omega, ?_⟩
    have := h.le
    omega
  rw [hfull] at hfree
  cases hfree

/-- A step that changes no slot of the device and no register of the ring. -/
lemma RingInv.of_eq {t : TxState} (ht : TxInv t) (hd : t.driverType = s.driverType)
    (hhead : t.tdh = s.tdh) (hcur : t.e1000Cur = s.e1000Cur) (htail : t.tdt = s.tdt)
    (howned : t.owned = s.owned)
    (hdd : ∀ i < 8, t.dd i = false ↔
      s.owned i = true ∨ t.phase.isHandOver = true ∧ i = s.e1000Cur)
    (haccepted : t.accepted = s.accepted) (hwire : t.wire = s.wire)
    (hframe : ∀ i, s.owned i = true → t.frame i = s.frame i) : RingInv t n where
  tx := ht
  e1000 := hd.trans h.e1000
  le := h.le
  head := by rw [hhead]; exact h.head
  cur := by rw [hcur, hhead]; exact h.cur
  tail := by rw [htail, hcur]; exact h.tail
  owned := by rw [howned, hhead]; exact h.owned
  dd := by rw [howned, hcur]; exact hdd
  frames := by
    rw [haccepted, hwire, h.frames, hhead]
    congr 1
    apply map_congr_left
    intro j hj
    apply (hframe _ _).symm
    rw [h.owned]
    exact ⟨j, mem_range.1 hj, rfl⟩

omit h in
/-- The E1000 driver begins with its check of the length. -/
lemma startSend_e1000 (hd : s.driverType = .e1000) (d : Frame) :
    startSend s d =
      if 1518 < d.length then s.ret (-1) else { s with phase := .wait d 100000 } := by
  unfold startSend
  split
  case h_2 => rfl
  all_goals simp_all

omit h in
/-- The beginning of a call changes the phase, the result and the history only. -/
lemma nicSendPacket_eq (hd : s.driverType = .e1000) (data : Option Frame) :
    ∃ passed p rc, p.isHandOver = false ∧
      nicSendPacket s data = { s with passed := passed, phase := p, rc := rc } := by
  cases data with
  | none => exact ⟨_, .idle, _, rfl, rfl⟩
  | some d =>
    have hsend : nicSendPacket s (some d) =
        if s.initialized = false ∨ d.length = 0 then (s.pass d).ret (-1)
        else startSend (s.pass d) d := rfl
    rw [hsend, startSend_e1000 (show (s.pass d).driverType = .e1000 from hd)]
    split_ifs
    · exact ⟨_, .idle, _, rfl, rfl⟩
    · exact ⟨_, .idle, _, rfl, rfl⟩
    · exact ⟨_, .wait d 100000, _, rfl, rfl⟩

omit h in
/-- The wait loop changes the phase and the result only. -/
lemma e1000Wait_eq (s : TxState) (data : Frame) (timeout : ℤ) :
    ∃ p rc, p.isHandOver = false ∧
      e1000Wait s data timeout = { s with phase := p, rc := rc } := by
  unfold e1000Wait
  split_ifs
  · exact ⟨.idle, _, rfl, rfl⟩
  · exact ⟨.clear data, _, rfl, rfl⟩
  · exact ⟨.wait data (timeout - 1), _, rfl, rfl⟩
  · exact ⟨.idle, _, rfl, rfl⟩
  · exact ⟨.clear data, _, rfl, rfl⟩

/-- Outside the handing over the DD bit tells the owner. -/
lemma RingInv.dd_eq (hp : s.phase.isHandOver = false) {i : ℕ} (hi : i < 8) :
    s.dd i = false ↔ s.owned i = true := by
  rw [h.dd i hi, hp]
  simp

/-- A call begins. -/
lemma RingInv.nicSendPacket (hp : s.phase = .idle) (data : Option Frame) :
    RingInv (nicSendPacket s data) n := by
  have htx : TxInv (Nic.nicSendPacket s data) :=
    h.tx.nicSendPacket hp (by simp [slotFree, h.e1000]) data
  obtain ⟨passed, p, rc, hho, heq⟩ := nicSendPacket_eq h.e1000 data
  rw [heq] at htx ⊢
  refine h.of_eq htx rfl rfl rfl rfl rfl ?_ rfl rfl fun _ _ => rfl
  intro i hi
  show s.dd i = false ↔ s.owned i = true ∨ p.isHandOver = true ∧ i = s.e1000Cur
  rw [h.dd_eq (by rw [hp]; rfl) hi, hho]
  simp

/-- A round of the wait loop. -/
lemma RingInv.wait {data : Frame} {timeout : ℤ} (hp : s.phase = .wait data timeout) :
    RingInv (e1000Wait s data timeout) n := by
  have hf := h.tx.filled
  rw [hp] at hf
  have htx := h.tx.e1000Wait h.e1000 hf.1 timeout
  obtain ⟨p, rc, hho, heq⟩ := e1000Wait_eq s data timeout
  rw [heq] at htx ⊢
  refine h.of_eq htx rfl rfl rfl rfl rfl ?_ rfl rfl fun _ _ => rfl
  intro i hi
  show s.dd i = false ↔ s.owned i = true ∨ p.isHandOver = true ∧ i = s.e1000Cur
  rw [h.dd_eq (by rw [hp]; rfl) hi, hho]
  simp

/-- The driver fills the buffer of a slot of its own. -/
lemma RingInv.setE1000Buf {m : Mem} {p : Phase} (hfree : s.owned s.cur = false)
    (hs : s.phase.isHandOver = false) (hp : p.isHandOver = false)
    (htx : TxInv (s.setE1000Buf m p)) :
    RingInv (s.setE1000Buf m p) n := by
  refine h.of_eq htx rfl rfl rfl rfl rfl ?_ rfl rfl ?_
  · intro i hi
    show s.dd i = false ↔ s.owned i = true ∨ p.isHandOver = true ∧ i = s.e1000Cur
    rw [h.dd_eq hs hi, hp]
    simp
  · intro i hi
    have hne : i ≠ s.e1000Cur := by
      intro e
      rw [e, ← h.cur_eq, hfree] at hi
      cases hi
    refine frame_congr ?_ (by rfl)
    unfold TxState.buf
    rw [show (s.setE1000Buf m p).driverType = s.driverType from rfl, h.e1000]
    exact update_of_ne hne _ _

/-- The descriptor of the slot is written, and its DD bit cleared. -/
lemma RingInv.e1000Describe {data : Frame} (hp : s.phase = .describe data) :
    RingInv (e1000Describe s data) n := by
  have hf := h.tx.filled
  rw [hp] at hf
  have hfree := hf.2.1
  have hother : ∀ i, s.owned i = true → i ≠ s.e1000Cur := by
    intro i hi e
    rw [e, ← h.cur_eq, hfree] at hi
    cases hi
  refine h.of_eq (h.tx.e1000Describe h.e1000 hp) rfl rfl rfl rfl rfl ?_ rfl rfl ?_
  · intro i hi
    show (Nic.e1000Describe s data).dd i = false ↔
      s.owned i = true ∨ true = true ∧ i = s.e1000Cur
    by_cases e : i = s.e1000Cur
    · simp [Nic.e1000Describe, TxState.dd, e]
    · have hdd : (Nic.e1000Describe s data).dd i = s.dd i := by
        simp [Nic.e1000Describe, TxState.dd, update_of_ne e]
      rw [hdd, h.dd_eq (by rw [hp]; rfl) hi]
      simp [e]
  · intro i hi
    refine frame_congr (by rfl) ?_
    unfold TxState.len
    rw [show (Nic.e1000Describe s data).driverType = s.driverType from rfl, h.e1000]
    simp [Nic.e1000Describe, update_of_ne (hother i hi)]

/-- The write of TDT adds a frame to the ring. -/
lemma RingInv.e1000HandOver {data : Frame} (hp : s.phase = .handOver data) :
    RingInv (e1000HandOver s data) (n + 1) := by
  have hf := h.tx.filled
  rw [hp] at hf
  obtain ⟨-, hfree, hread, hdesc⟩ := hf
  have hn := h.lt_of_free hfree
  have hhead := h.head
  have hcur := h.cur
  have howned : (Nic.e1000HandOver s data).owned = update s.owned s.e1000Cur true := rfl
  -- the descriptor handed over is the last one of the ring
  refine ⟨h.tx.e1000HandOver h.e1000 hp, h.e1000, by omega, hhead, ?_, rfl, ?_, ?_, ?_⟩
  · show (s.e1000Cur + 1) % 8 = (s.tdh + (n + 1)) % 8
    omega
  · intro i
    rw [howned]
    show _ ↔ ∃ j < n + 1, i = (s.tdh + j) % 8
    by_cases e : i = s.e1000Cur
    · rw [e, update_self]
      simp only [true_iff]
      exact ⟨n, by omega, hcur⟩
    · rw [update_of_ne e, h.owned]
      constructor
      · rintro ⟨j, hj, rfl⟩
        exact ⟨j, by omega, rfl⟩
      · rintro ⟨j, hj, rfl⟩
        refine ⟨j, ?_, rfl⟩
        by_contra hge
        exact e (by rw [hcur]; congr 2; omega)
  · intro i hi
    rw [howned]
    show s.dd i = false ↔ _ ∨ false = true ∧ _
    rw [h.dd i hi, hp]
    by_cases e : i = s.e1000Cur
    · simp [e, Phase.isHandOver]
    · simp [e, Phase.isHandOver]
  · show (s.accepted ++ [data]).map pad =
      s.wire ++ (List.range (n + 1)).map fun j => s.frame ((s.tdh + j) % 8)
    have hlast : s.frame ((s.tdh + n) % 8) = pad data := by
      rw [← hcur, ← h.cur_eq]
      unfold TxState.frame
      have hlen : s.len s.cur = sendLen data.length := by
        rw [← (hdesc h.e1000).1]
        simp [TxState.len, h.e1000]
      rw [hlen, hread]
    rw [map_append, h.frames, range_succ, map_append, append_assoc]
    simp [hlast]

/-- **Driver steps** keep the invariant. -/
lemma RingInv.driverStep : ∃ n, RingInv (driverStep s) n := by
  have hstep : Nic.driverStep s = e1000Step s := by simp [Nic.driverStep, h.e1000]
  have htx := h.tx.driverStep
  have hf := h.tx.filled
  rw [hstep] at htx ⊢
  unfold e1000Step at htx ⊢
  cases hp : s.phase with
  | idle => exact ⟨n, h⟩
  | wait data timeout => exact ⟨n, h.wait hp⟩
  | clear data =>
    rw [hp] at htx hf
    exact ⟨n, h.setE1000Buf hf.2 (by rw [hp]; rfl) rfl htx⟩
  | copy data =>
    rw [hp] at htx hf
    exact ⟨n, h.setE1000Buf hf.2.1 (by rw [hp]; rfl) rfl htx⟩
  | describe data => exact ⟨n, h.e1000Describe hp⟩
  | handOver data => exact ⟨n + 1, h.e1000HandOver hp⟩

/-- The device takes the first frame from the ring. -/
lemma RingInv.process (hne : s.tdh ≠ s.tdt) : RingInv (process s) (n - 1) := by
  have hhead := h.head
  have hle := h.le
  have hcur := h.cur
  rw [h.tail, hcur] at hne
  have hn : 0 < n ∧ n < 8 := by omega
  have hown : s.owned s.tdh = true := by
    rw [h.owned]
    exact ⟨0, hn.1, by omega⟩
  have howned : (Nic.process s).owned = update s.owned s.tdh false := rfl
  have hc := h.tx.complete hown
  have htx : TxInv (Nic.process s) := ⟨hc.dd, hc.idle, hc.filled, hc.held, hc.sent⟩
  -- the ring now begins at the next descriptor, and places count from there
  refine ⟨htx, h.e1000, by omega, ?_, ?_, h.tail, ?_, ?_, ?_⟩
  · exact Nat.mod_lt _ (by decide)
  · show s.e1000Cur = ((s.tdh + 1) % 8 + (n - 1)) % 8
    omega
  · intro i
    rw [howned]
    show _ ↔ ∃ j < n - 1, i = ((s.tdh + 1) % 8 + j) % 8
    by_cases e : i = s.tdh
    · rw [e, update_self]
      simp only [Bool.false_eq_true, false_iff]
      rintro ⟨j, hj, hij⟩
      omega
    · rw [update_of_ne e, h.owned]
      constructor
      · rintro ⟨j, hj, rfl⟩
        have hj0 : j ≠ 0 := by
          rintro rfl
          exact e (by omega)
        exact ⟨j - 1, by omega, by omega⟩
      · rintro ⟨j, hj, rfl⟩
        exact ⟨j + 1, by omega, by omega⟩
  · intro i hi
    rw [howned]
    show (complete s s.tdh).dd i = false ↔ _ ∨ s.phase.isHandOver = true ∧ i = s.e1000Cur
    by_cases e : i = s.tdh
    · have hset : (complete s s.tdh).dd s.tdh = true := by
        simp [complete, TxState.dd, h.e1000]
      rw [e, hset, update_self]
      have : s.tdh ≠ s.e1000Cur := by omega
      simp [this]
    · have hsame : (complete s s.tdh).dd i = s.dd i := by
        unfold TxState.dd
        rw [descs_complete_of_ne s e]
      rw [hsame, update_of_ne e]
      exact h.dd i hi
  · show s.accepted.map pad = (s.wire ++ [s.frame s.tdh]) ++
      (List.range (n - 1)).map fun j => (complete s s.tdh).frame (((s.tdh + 1) % 8 + j) % 8)
    obtain ⟨k, rfl⟩ : ∃ k, n = k + 1 := ⟨n - 1, by omega⟩
    rw [h.frames, range_succ_eq_map, map_cons, map_map, append_assoc]
    congr 1
    rw [singleton_append, Nat.add_zero, Nat.mod_eq_of_lt hhead, Nat.add_sub_cancel]
    congr 1
    apply map_congr_left
    intro j hj
    rw [frame_complete]
    show s.frame ((s.tdh + (j + 1)) % 8) = _
    congr 1
    omega

omit h in
/-- The ring is empty after `e1000_init_device`. -/
lemma RingInv.of_isRingInit (h : IsRingInit s) : RingInv s 0 := by
  have hinit : IsInit s := by
    obtain ⟨⟨s₀, hs⟩, hrest⟩ := h
    exact ⟨⟨s₀, .inl hs⟩, hrest⟩
  obtain ⟨⟨s₀, rfl⟩, hphase, howned, -, haccepted, hwire⟩ := h
  refine ⟨.of_isInit hinit, rfl, by omega, Nat.zero_lt_succ 7, rfl, rfl, ?_, ?_, ?_⟩
  · intro i
    simp [howned]
  · intro i hi
    have hdd : (e1000InitTx s₀).dd i = true := by
      simp [e1000InitTx, TxState.dd, numTxDesc, hi]
    rw [hdd, howned, hphase]
    simp [Phase.isHandOver]
  · rw [haccepted, hwire]
    rfl

omit h in
/-- The invariant holds in every interleaving. -/
lemma ringInv_of_reachable (hs : ring.Reachable s) : ∃ n, RingInv s n := by
  apply hs.invariant (fun s => ∃ n, RingInv s n) (fun s h => ⟨0, .of_isRingInit h⟩)
  rintro s op t ⟨n, h⟩ ⟨hen, rfl⟩
  cases op with
  | call data =>
    simp only [RingOp.enabled, Bool.and_eq_true] at hen
    have hp : s.phase = .idle := by
      have hidle := hen.1
      cases hp : s.phase <;> simp [hp, Phase.isIdle] at hidle
      rfl
    exact ⟨n, h.nicSendPacket hp data⟩
  | driver => exact h.driverStep
  | device => exact ⟨n - 1, h.process (by simpa [RingOp.enabled] using hen)⟩

end Steps

/-- **The law of the transmit ring** holds between the calls, and while a call waits or fills a
buffer, exactly when fewer than eight accepted frames are unsent. -/
theorem ring_law_iff {s : TxState} (hs : ring.Reachable s) (hp : s.phase.isHandOver = false) :
    RingLaw s ↔ s.accepted.length < s.wire.length + 8 := by
  obtain ⟨n, h⟩ := ringInv_of_reachable hs
  have hhead := h.head
  have hle := h.le
  have hcount : s.accepted.length = s.wire.length + n := by
    have := congrArg List.length h.frames
    simpa using this
  have hwidth : (s.tdt + 8 - s.tdh) % 8 = n % 8 := by
    rw [h.tail, h.cur]
    omega
  have hwindow : window s = (List.range (n % 8)).map fun j => (s.tdh + j) % 8 := by
    unfold window numTxDesc
    rw [hwidth]
  rw [hcount]
  constructor
  · intro hlaw
    by_contra hfull
    have hn : n = 8 := by omega
    -- all eight descriptors are outstanding, and the window is empty
    have hmem := (hlaw.1 s.tdh hhead).1 <| (h.dd_eq hp hhead).2 <|
      (h.owned s.tdh).2 ⟨0, by omega, by omega⟩
    rw [hwindow, hn] at hmem
    simp at hmem
  · intro hlt
    rw [Nat.mod_eq_of_lt (by omega : n < 8)] at hwindow
    refine ⟨fun i hi => ?_, ?_⟩
    · rw [h.dd_eq hp hi, h.owned, hwindow, mem_map]
      simp only [mem_range]
      constructor
      · rintro ⟨j, hj, rfl⟩
        exact ⟨j, hj, rfl⟩
      · rintro ⟨j, hj, rfl⟩
        exact ⟨j, hj, rfl⟩
    · rw [h.frames, hwindow, map_map]
      rfl

/-- The operations of a list, taken one after the other, form an interleaving. -/
lemma reachable_ring {s : TxState} (hs : ring.Reachable s) (ops : List RingOp)
    (h : System.allEnabled RingOp.enabled RingOp.exec s ops = true) :
    ring.Reachable (ops.foldl RingOp.exec s) :=
  System.Reachable.exec hs h

lemma reachable_e1000InitTx : ring.Reachable (e1000InitTx coldTx) :=
  .init ⟨⟨coldTx, rfl⟩, rfl, fun _ => rfl, rfl, rfl, rfl⟩

/-- The steps of a whole call on an E1000 whose next descriptor is done. -/
def e1000Send (data : Frame) : List RingOp := .call (some data) :: List.replicate 5 .driver

/-- Two calls, between them a step of the device. -/
def twoFrames : List RingOp := e1000Send [1] ++ [.device] ++ e1000Send [2]

/-- The law after two calls with a step of the device between them. -/
theorem ring_law_iff_twoFrames :
    ring.Reachable (twoFrames.foldl RingOp.exec (e1000InitTx coldTx)) ∧
      RingLaw (twoFrames.foldl RingOp.exec (e1000InitTx coldTx)) := by
  have hs := reachable_ring reachable_e1000InitTx twoFrames (by decide)
  exact ⟨hs, (ring_law_iff hs (by decide)).2 (by decide)⟩

/-- Eight calls without a step of the device. -/
def fullRing : List RingOp :=
  e1000Send [1] ++ e1000Send [2] ++ e1000Send [3] ++ e1000Send [4] ++ e1000Send [5] ++
    e1000Send [6] ++ e1000Send [7] ++ e1000Send [8]

/-- After eight calls without a step of the device, all of which returned 0, no descriptor is
done, but the window is empty and the device cannot take a step. -/
theorem ring_law_fails :
    ∃ s, ring.Reachable s ∧ s.phase.isIdle = true ∧ s.accepted.length = 8 ∧ s.wire = [] ∧
      (∀ i < numTxDesc, s.dd i = false) ∧ window s = [] ∧ RingOp.device.enabled s = false ∧
      ¬ RingLaw s := by
  have hs := reachable_ring reachable_e1000InitTx fullRing (by decide)
  refine ⟨fullRing.foldl RingOp.exec (e1000InitTx coldTx), hs, by decide, by decide, by decide,
    by decide, by decide, by decide, ?_⟩
  intro hlaw
  have hmem := (hlaw.1 0 (by decide)).1 (by decide)
  rw [show window (fullRing.foldl RingOp.exec (e1000InitTx coldTx)) = [] by decide] at hmem
  exact not_mem_nil hmem

end BengalTiger.Nic
