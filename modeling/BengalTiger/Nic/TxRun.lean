import BengalTiger.Nic.Tx

set_option autoImplicit false

/-!
# Ownership of the transmit buffers

All interleavings of `nic_send_packet` calls with completions by the device, in any order. The
E1000 driver waits for the descriptor's DD bit and so never touches a buffer of the device, and
every frame on the wire is a padded frame that was passed to `nic_send_packet`. The RTL8139
driver does not look at the state of its next slot: with five calls and no completion it
overwrites a frame that is being sent. Its calls are safe exactly when the next slot is free at
the call.

## Main definitions

* `Nic.ownership` — the interleavings, restricted by a guard on the calls.
* `Nic.slotFree` — the next slot of an RTL8139 is free.
* `Nic.TxInv` — the invariant.

## Main results

* `Nic.tx_ownership` — the law for guarded calls, and that the guard is needed.
* `Nic.tx_ownership_fails` — the law fails without the guard.
-/

namespace BengalTiger.Nic

open ByteMem Function

/-- What can happen: a call begins, the driver takes its next step, the device completes a
slot. -/
inductive TxOp where
  | call (data : Option Frame)
  | driver
  | complete (slot : ℕ)

/-- When an operation can happen; `guard` restricts the states in which calls begin. Lengths are
of type `uint16_t`. -/
def TxOp.enabled (guard : TxState → Bool) (s : TxState) : TxOp → Bool
  | .call data => s.phase.isIdle && guard s && (data.elim true fun d => d.length < 65536)
  | .driver => !s.phase.isIdle
  | .complete slot => s.owned slot

/-- The state after an operation. -/
def TxOp.exec (s : TxState) : TxOp → TxState
  | .call data => nicSendPacket s data
  | .driver => driverStep s
  | .complete slot => Nic.complete s slot

/-- The states after `nic_init`: one of the two drivers, or none. -/
def IsInit (s : TxState) : Prop :=
  (∃ s₀, s = e1000InitTx s₀ ∨ s = rtl8139InitTx s₀ ∨
      s = { s₀ with initialized := false, driverType := .none }) ∧
    s.phase = .idle ∧ (∀ i, s.owned i = false) ∧ s.passed = [] ∧ s.accepted = [] ∧ s.wire = []

/-- The interleavings of calls and completions. -/
def ownership (guard : TxState → Bool) : System TxState TxOp :=
  System.ofExec IsInit (TxOp.enabled guard) TxOp.exec

/-- The operations of a list, taken one after the other, form an interleaving. -/
lemma reachable_foldl {guard : TxState → Bool} {s : TxState}
    (hs : (ownership guard).Reachable s) (ops : List TxOp)
    (h : System.allEnabled (TxOp.enabled guard) TxOp.exec s ops = true) :
    (ownership guard).Reachable (ops.foldl TxOp.exec s) :=
  System.Reachable.exec hs h

/-- The slot whose buffer the driver's next step writes. -/
def TxState.writes (s : TxState) : Option ℕ :=
  match s.phase with
  | .clear _ | .copy _ => some s.cur
  | _ => none

/-- The next slot of an RTL8139 is free. -/
def slotFree (s : TxState) : Bool := s.driverType ≠ .rtl8139 || !s.owned s.rtlCur

/-- The slot being filled belongs to the driver and holds the part of the padded frame that has
been written. -/
def Filled (s : TxState) : Phase → Prop
  | .idle => True
  | .wait data _ => data ∈ s.passed ∧ s.driverType = .e1000
  | .clear data => data ∈ s.passed ∧ s.owned s.cur = false
  | .copy data => data ∈ s.passed ∧ s.owned s.cur = false ∧
      ∃ m, s.buf s.cur = fill m 0 0 (sendLen data.length)
  | .describe data => data ∈ s.passed ∧ s.owned s.cur = false ∧
      read (s.buf s.cur) 0 (sendLen data.length) = pad data
  | .handOver data => data ∈ s.passed ∧ s.owned s.cur = false ∧
      read (s.buf s.cur) 0 (sendLen data.length) = pad data ∧
      (s.driverType = .e1000 →
        (s.descs s.cur).length = sendLen data.length ∧ s.dd s.cur = false)

/-- The invariant of the interleavings in which the next slot of an RTL8139 is free at each
call. -/
structure TxInv (s : TxState) : Prop where
  /-- The DD bit of a slot that the device owns is clear. -/
  dd : s.driverType = .e1000 → ∀ i, s.owned i = true → s.dd i = false
  /-- Without a driver no call gets beyond its checks. -/
  idle : s.driverType = .none → s.phase = .idle
  filled : Filled s s.phase
  /-- A slot that the device owns holds a frame that was passed. -/
  held : ∀ i, s.owned i = true → s.frame i ∈ s.passed.map pad
  sent : ∀ f ∈ s.wire, f ∈ s.passed.map pad

/-! ## Both drivers fill a buffer in the same way -/

/-- Replace the buffer at the active driver's position. -/
def TxState.setBuf (s : TxState) (m : Mem) (p : Phase) : TxState :=
  match s.driverType with
  | .rtl8139 => s.setRtlBuf m p
  | _ => s.setE1000Buf m p

section SetBuf

variable (s : TxState) (m : Mem) (p : Phase)

@[simp] lemma setBuf_driverType : (s.setBuf m p).driverType = s.driverType := by
  unfold TxState.setBuf
  split <;> rfl

@[simp] lemma setBuf_phase : (s.setBuf m p).phase = p := by
  unfold TxState.setBuf
  cases s.driverType <;> rfl

@[simp] lemma setBuf_owned : (s.setBuf m p).owned = s.owned := by
  unfold TxState.setBuf
  cases s.driverType <;> rfl

@[simp] lemma setBuf_passed : (s.setBuf m p).passed = s.passed := by
  unfold TxState.setBuf
  cases s.driverType <;> rfl

@[simp] lemma setBuf_wire : (s.setBuf m p).wire = s.wire := by
  unfold TxState.setBuf
  cases s.driverType <;> rfl

@[simp] lemma setBuf_descs : (s.setBuf m p).descs = s.descs := by
  unfold TxState.setBuf
  cases s.driverType <;> rfl

@[simp] lemma setBuf_cur : (s.setBuf m p).cur = s.cur := by
  unfold TxState.cur
  rw [setBuf_driverType]
  unfold TxState.setBuf
  cases s.driverType <;> rfl

@[simp] lemma setBuf_len : (s.setBuf m p).len = s.len := by
  unfold TxState.len
  rw [setBuf_driverType]
  unfold TxState.setBuf
  cases s.driverType <;> rfl

@[simp] lemma setBuf_buf_cur : (s.setBuf m p).buf s.cur = m := by
  unfold TxState.buf TxState.cur
  rw [setBuf_driverType]
  unfold TxState.setBuf
  cases s.driverType <;> simp [TxState.setRtlBuf, TxState.setE1000Buf]

/-- The other buffers stay. -/
lemma setBuf_buf_of_ne {i : ℕ} (h : i ≠ s.cur) : (s.setBuf m p).buf i = s.buf i := by
  unfold TxState.cur at h
  unfold TxState.buf
  rw [setBuf_driverType]
  unfold TxState.setBuf
  cases hd : s.driverType <;> rw [hd] at h <;>
    simp [TxState.setRtlBuf, TxState.setE1000Buf, update_of_ne h]

end SetBuf

/-- The `memset` of either driver. -/
lemma driverStep_clear {s : TxState} {data : Frame} (hd : s.driverType ≠ .none)
    (hp : s.phase = .clear data) :
    driverStep s = s.setBuf (fill (s.buf s.cur) 0 0 (sendLen data.length)) (.copy data) := by
  unfold driverStep e1000Step rtl8139Step TxState.setBuf TxState.buf TxState.cur
  rw [hp]
  cases h : s.driverType with
  | none => exact absurd h hd
  | e1000 => rfl
  | rtl8139 => rfl

/-- The `memcpy` of either driver. -/
lemma driverStep_copy {s : TxState} {data : Frame} (hd : s.driverType ≠ .none)
    (hp : s.phase = .copy data) :
    driverStep s = s.setBuf (write (s.buf s.cur) 0 data) (.describe data) := by
  unfold driverStep e1000Step rtl8139Step TxState.setBuf TxState.buf TxState.cur
  rw [hp]
  cases h : s.driverType with
  | none => exact absurd h hd
  | e1000 => rfl
  | rtl8139 => rfl

/-- A slot's frame depends on its buffer and its length. -/
lemma frame_congr {s t : TxState} {i : ℕ} (hb : t.buf i = s.buf i) (hl : t.len i = s.len i) :
    t.frame i = s.frame i := by
  unfold TxState.frame
  rw [hb, hl]

/-- Writing the driver's own buffer keeps the invariant. -/
lemma TxInv.setBuf {s : TxState} (h : TxInv s) (hd : s.driverType ≠ .none)
    (hfree : s.owned s.cur = false) {m : Mem} {p : Phase} (hp : Filled (s.setBuf m p) p) :
    TxInv (s.setBuf m p) where
  dd hd i hi := by
    rw [setBuf_driverType] at hd
    rw [setBuf_owned] at hi
    have := h.dd hd i hi
    unfold TxState.dd at this ⊢
    rw [setBuf_descs]
    exact this
  idle hn := absurd (by rwa [setBuf_driverType] at hn) hd
  filled := by rwa [setBuf_phase]
  held i hi := by
    rw [setBuf_owned] at hi
    have hne : i ≠ s.cur := by
      intro e
      rw [e, hfree] at hi
      cases hi
    rw [frame_congr (setBuf_buf_of_ne s m p hne) (by rw [setBuf_len]), setBuf_passed]
    exact h.held i hi
  sent := by
    rw [setBuf_wire, setBuf_passed]
    exact h.sent

/-! ## The driver's steps keep the invariant -/

section Driver

variable {s : TxState} {data : Frame}

variable (h : TxInv s)

include h

/-- A call that ends early. -/
lemma TxInv.ret (rc : ℤ) : TxInv (s.ret rc) where
  dd := h.dd
  idle _ := rfl
  filled := trivial
  held := h.held
  sent := h.sent

/-- A step that only moves on to another phase. -/
lemma TxInv.setPhase (hd : s.driverType ≠ .none) {p : Phase} (hp : Filled s p) :
    TxInv { s with phase := p } where
  dd := h.dd
  idle hn := absurd hn hd
  filled := by
    cases p <;> exact hp
  held := h.held
  sent := h.sent

/-- The wait loop of `e1000_send` ends with a slot of the driver or without one. -/
lemma TxInv.e1000Wait (hd : s.driverType = .e1000) (hdata : data ∈ s.passed) (timeout : ℤ) :
    TxInv (e1000Wait s data timeout) := by
  have hne : s.driverType ≠ .none := by simp [hd]
  have hcur : s.cur = s.e1000Cur := by simp [TxState.cur, hd]
  unfold Nic.e1000Wait
  split_ifs with hdd ht ht' ht''
  · exact h.ret _
  · apply h.setPhase hne
    refine ⟨hdata, ?_⟩
    by_contra hown
    rw [Bool.not_eq_false, hcur] at hown
    rw [h.dd hd _ hown] at hdd
    cases hdd
  · exact h.setPhase hne ⟨hdata, hd⟩
  · exact h.ret _
  · omega

/-- The `memset` of the buffer. -/
lemma TxInv.clear (hd : s.driverType ≠ .none) (hp : s.phase = .clear data) :
    TxInv (driverStep s) := by
  have hf := h.filled
  rw [hp] at hf
  obtain ⟨hdata, hfree⟩ := hf
  rw [driverStep_clear hd hp]
  apply h.setBuf hd hfree
  refine ⟨by rwa [setBuf_passed], by rwa [setBuf_owned, setBuf_cur], s.buf s.cur, ?_⟩
  rw [setBuf_cur, setBuf_buf_cur]

/-- The `memcpy` into the buffer. -/
lemma TxInv.copy (hd : s.driverType ≠ .none) (hp : s.phase = .copy data) :
    TxInv (driverStep s) := by
  have hf := h.filled
  rw [hp] at hf
  obtain ⟨hdata, hfree, m, hm⟩ := hf
  have hlen : data.length ≤ sendLen data.length := by
    unfold sendLen
    split_ifs <;> omega
  rw [driverStep_copy hd hp]
  apply h.setBuf hd hfree
  refine ⟨by rwa [setBuf_passed], by rwa [setBuf_owned, setBuf_cur], ?_⟩
  rw [setBuf_cur, setBuf_buf_cur, hm, read_write_fill m 0 hlen, pad]

/-- The descriptor of a slot of the driver is filled in. -/
lemma TxInv.e1000Describe (hd : s.driverType = .e1000) (hp : s.phase = .describe data) :
    TxInv (e1000Describe s data) := by
  have hf := h.filled
  rw [hp] at hf
  obtain ⟨hdata, hfree, hread⟩ := hf
  have hcur : s.cur = s.e1000Cur := by simp [TxState.cur, hd]
  rw [hcur] at hfree
  -- the device owns none of the descriptors that are changed
  have hother : ∀ i, s.owned i = true → i ≠ s.e1000Cur := by
    intro i hi e
    rw [e, hfree] at hi
    cases hi
  have hdescs : ∀ i, s.owned i = true → (Nic.e1000Describe s data).descs i = s.descs i :=
    fun i hi => update_of_ne (hother i hi) _ _
  refine ⟨?_, fun hn => ?_, ?_, ?_, h.sent⟩
  · intro hd' i hi
    have := h.dd hd i hi
    unfold TxState.dd at this ⊢
    rwa [hdescs i hi]
  · rw [show (Nic.e1000Describe s data).driverType = s.driverType from rfl, hd] at hn
    cases hn
  · have hcur' : (Nic.e1000Describe s data).cur = s.e1000Cur := hcur
    refine ⟨hdata, by rwa [hcur'], hread, fun _ => ?_⟩
    rw [hcur']
    simp [Nic.e1000Describe, TxState.dd]
  · intro i hi
    have hlen : (Nic.e1000Describe s data).len i = s.len i := by
      unfold TxState.len
      rw [show (Nic.e1000Describe s data).driverType = s.driverType from rfl, hd]
      dsimp only
      rw [hdescs i hi]
    have hframe : (Nic.e1000Describe s data).frame i = s.frame i := frame_congr rfl hlen
    rw [hframe]
    exact h.held i hi

/-- A slot is handed over whose buffer holds the padded frame. -/
lemma TxInv.handOver {t : TxState} (hdata : data ∈ s.passed) (hd : t.driverType = s.driverType)
    (hphase : t.phase = .idle) (hpassed : t.passed = s.passed) (hwire : t.wire = s.wire)
    (howned : t.owned = update s.owned s.cur true) (hdescs : t.descs = s.descs)
    (hdd : s.driverType = .e1000 → s.dd s.cur = false) (hcur : t.frame s.cur = pad data)
    (hother : ∀ i, i ≠ s.cur → t.frame i = s.frame i) : TxInv t := by
  have hcases : ∀ i, t.owned i = true → i = s.cur ∨ i ≠ s.cur ∧ s.owned i = true := by
    intro i hi
    by_cases e : i = s.cur
    · exact .inl e
    · rw [howned, update_of_ne e] at hi
      exact .inr ⟨e, hi⟩
  refine ⟨?_, fun _ => hphase, ?_, ?_, ?_⟩
  · intro he i hi
    rw [hd] at he
    have hddi : t.dd i = s.dd i := by
      unfold TxState.dd
      rw [hdescs]
    rw [hddi]
    obtain e | ⟨-, hi⟩ := hcases i hi
    · rw [e]
      exact hdd he
    · exact h.dd he i hi
  · rw [hphase]
    trivial
  · intro i hi
    rw [hpassed]
    obtain e | ⟨e, hi⟩ := hcases i hi
    · rw [e, hcur]
      exact List.mem_map_of_mem hdata
    · rw [hother i e]
      exact h.held i hi
  · rw [hwire, hpassed]
    exact h.sent

/-- The write of TDT. -/
lemma TxInv.e1000HandOver (hd : s.driverType = .e1000) (hp : s.phase = .handOver data) :
    TxInv (e1000HandOver s data) := by
  have hf := h.filled
  rw [hp] at hf
  obtain ⟨hdata, -, hread, hdesc⟩ := hf
  have hcur : s.cur = s.e1000Cur := by simp [TxState.cur, hd]
  have hlen : s.len s.cur = sendLen data.length := by
    rw [← (hdesc hd).1]
    simp [TxState.len, hd]
  apply h.handOver (t := Nic.e1000HandOver s data) hdata rfl rfl rfl rfl
  · show update s.owned s.e1000Cur true = _
    rw [hcur]
  · rfl
  · exact fun _ => (hdesc hd).2
  · show read (s.buf s.cur) 0 (s.len s.cur) = pad data
    rw [hlen, hread]
  · intro i _
    rfl

/-- The write of TSDn. -/
lemma TxInv.rtl8139HandOver (hd : s.driverType = .rtl8139) (hp : s.phase = .handOver data) :
    TxInv (rtl8139HandOver s data) := by
  have hf := h.filled
  rw [hp] at hf
  obtain ⟨hdata, -, hread, -⟩ := hf
  have hcur : s.cur = s.rtlCur := by simp [TxState.cur, hd]
  have hlen : ∀ i, (Nic.rtl8139HandOver s data).len i =
      update s.tsd s.rtlCur (sendLen data.length) i := by
    intro i
    unfold TxState.len
    rw [show (Nic.rtl8139HandOver s data).driverType = s.driverType from rfl, hd]
    rfl
  apply h.handOver (t := Nic.rtl8139HandOver s data) hdata rfl rfl rfl rfl
  · show update s.owned s.rtlCur true = _
    rw [hcur]
  · rfl
  · intro he
    rw [hd] at he
    cases he
  · show read (s.buf s.cur) 0 _ = pad data
    rw [hlen, ← hcur, update_self, hread]
  · intro i hi
    refine frame_congr (by rfl) ?_
    rw [hlen, ← hcur, update_of_ne hi]
    simp [TxState.len, hd]

/-- **Driver steps** keep the invariant. -/
lemma TxInv.driverStep : TxInv (driverStep s) := by
  have hf := h.filled
  -- the drivers differ in waiting, describing and handing over
  cases hd : s.driverType with
  | none =>
    unfold Nic.driverStep
    rw [hd]
    exact h
  | e1000 =>
    have hne : s.driverType ≠ .none := by simp [hd]
    have hstep : Nic.driverStep s = e1000Step s := by simp [Nic.driverStep, hd]
    cases hp : s.phase with
    | clear data => exact h.clear hne hp
    | copy data => exact h.copy hne hp
    | idle =>
      rw [hstep, e1000Step, hp]
      exact h
    | wait data timeout =>
      rw [hp] at hf
      rw [hstep, e1000Step, hp]
      exact h.e1000Wait hd hf.1 timeout
    | describe data =>
      rw [hstep, e1000Step, hp]
      exact h.e1000Describe hd hp
    | handOver data =>
      rw [hstep, e1000Step, hp]
      exact h.e1000HandOver hd hp
  | rtl8139 =>
    have hne : s.driverType ≠ .none := by simp [hd]
    have hstep : Nic.driverStep s = rtl8139Step s := by simp [Nic.driverStep, hd]
    cases hp : s.phase with
    | clear data => exact h.clear hne hp
    | copy data => exact h.copy hne hp
    | idle =>
      rw [hstep, rtl8139Step, hp]
      exact h
    | wait data timeout =>
      rw [hstep, rtl8139Step, hp]
      exact h
    | describe data =>
      rw [hp] at hf
      rw [hstep, rtl8139Step, hp]
      apply h.setPhase hne
      refine ⟨hf.1, hf.2.1, hf.2.2, fun he => ?_⟩
      rw [hd] at he
      cases he
    | handOver data =>
      rw [hstep, rtl8139Step, hp]
      exact h.rtl8139HandOver hd hp

end Driver

/-! ## Calls and completions keep the invariant -/

/-- The list of frames passed only grows. -/
lemma TxInv.pass {s : TxState} (h : TxInv s) (hp : s.phase = .idle) (d : Frame) :
    TxInv (s.pass d) where
  dd := h.dd
  idle := h.idle
  filled := by
    show Filled _ s.phase
    rw [hp]
    trivial
  held i hi := by
    have hmem : s.frame i ∈ s.passed.map pad := h.held i hi
    show s.frame i ∈ (s.passed ++ [d]).map pad
    rw [List.map_append]
    exact List.mem_append_left _ hmem
  sent f hf := by
    show f ∈ (s.passed ++ [d]).map pad
    rw [List.map_append]
    exact List.mem_append_left _ (h.sent f hf)

/-- The driver begins, on an RTL8139 with its next slot free. -/
lemma TxInv.startSend {s : TxState} (h : TxInv s) (hguard : slotFree s = true) {d : Frame}
    (hd : d ∈ s.passed) : TxInv (startSend s d) := by
  unfold Nic.startSend
  split
  case h_1 => exact h.ret _
  case h_2 he =>
    split_ifs
    · exact h.ret _
    · exact h.setPhase (by simp [he]) ⟨hd, he⟩
  case h_3 he =>
    split_ifs
    · exact h.ret _
    · refine h.setPhase (by simp [he]) ⟨hd, ?_⟩
      simpa [slotFree, he, TxState.cur] using hguard

/-- A call begins, on an RTL8139 with its next slot free. -/
lemma TxInv.nicSendPacket {s : TxState} (h : TxInv s) (hp : s.phase = .idle)
    (hguard : slotFree s = true) (data : Option Frame) : TxInv (nicSendPacket s data) := by
  cases data with
  | none => exact h.ret _
  | some d =>
    show TxInv (if _ then (s.pass d).ret (-1) else Nic.startSend (s.pass d) d)
    split_ifs
    · exact (h.pass hp d).ret _
    · exact (h.pass hp d).startSend hguard (List.mem_append_right _ (List.mem_singleton.2 rfl))

/-- A completion changes no frame. -/
lemma frame_complete (s : TxState) (i j : ℕ) : (complete s i).frame j = s.frame j := by
  refine frame_congr (by rfl) ?_
  unfold TxState.len
  rw [show (complete s i).driverType = s.driverType from rfl]
  cases hd : s.driverType with
  | none => simp [complete, hd]
  | rtl8139 => rfl
  | e1000 =>
    by_cases e : j = i
    · simp [complete, hd, e]
    · simp [complete, hd, update_of_ne e]

/-- A completion leaves the other descriptors. -/
lemma descs_complete_of_ne (s : TxState) {i j : ℕ} (e : j ≠ i) :
    (complete s i).descs j = s.descs j := by
  unfold complete
  cases s.driverType <;> simp [update_of_ne e]

/-- A completed slot was the device's, so what the driver is filling stays as it is. -/
lemma Filled.complete {s : TxState} {i : ℕ} (hi : s.owned i = true) {p : Phase}
    (h : Filled s p) : Filled (complete s i) p := by
  have howned : s.owned s.cur = false → (Nic.complete s i).owned s.cur = false := by
    intro hfree
    have e : s.cur ≠ i := by
      intro e
      rw [e, hi] at hfree
      cases hfree
    show update s.owned i false s.cur = false
    rw [update_of_ne e, hfree]
  cases p with
  | idle => trivial
  | wait data timeout => exact h
  | clear data => exact ⟨h.1, howned h.2⟩
  | copy data => exact ⟨h.1, howned h.2.1, h.2.2⟩
  | describe data => exact ⟨h.1, howned h.2.1, h.2.2⟩
  | handOver data =>
    obtain ⟨hdata, hfree, hread, hdesc⟩ := h
    have e : s.cur ≠ i := by
      intro e
      rw [e, hi] at hfree
      cases hfree
    refine ⟨hdata, howned hfree, hread, fun hd => ?_⟩
    have hcur : (Nic.complete s i).descs s.cur = s.descs s.cur := descs_complete_of_ne s e
    show ((Nic.complete s i).descs s.cur).length = _ ∧ (Nic.complete s i).dd s.cur = false
    unfold TxState.dd
    rw [hcur]
    exact hdesc hd

/-- A completion keeps the invariant. -/
lemma TxInv.complete {s : TxState} (h : TxInv s) {i : ℕ} (hi : s.owned i = true) :
    TxInv (complete s i) := by
  have hcases : ∀ j, (Nic.complete s i).owned j = true → j ≠ i ∧ s.owned j = true := by
    intro j hj
    by_cases e : j = i
    · simp [Nic.complete, e] at hj
    · exact ⟨e, by simpa [Nic.complete, update_of_ne e] using hj⟩
  refine ⟨?_, h.idle, h.filled.complete hi, ?_, ?_⟩
  · intro hd j hj
    obtain ⟨e, hj⟩ := hcases j hj
    unfold TxState.dd
    rw [descs_complete_of_ne s e]
    exact h.dd hd j hj
  · intro j hj
    rw [frame_complete]
    exact h.held j (hcases j hj).2
  · intro f hf
    obtain hf | hf := List.mem_append.1 hf
    · exact h.sent f hf
    · rw [List.mem_singleton.1 hf]
      exact h.held i hi

/-- The invariant holds after `nic_init`. -/
lemma TxInv.of_isInit {s : TxState} (h : IsInit s) : TxInv s := by
  obtain ⟨-, hphase, howned, -, -, hwire⟩ := h
  have hno : ∀ i, ¬ s.owned i = true := by simp [howned]
  refine ⟨fun _ i hi => absurd hi (hno i), fun _ => hphase, ?_, fun i hi => absurd hi (hno i), ?_⟩
  · rw [hphase]
    trivial
  · simp [hwire]

/-- The invariant holds in every interleaving whose calls find the next slot of an RTL8139
free. -/
lemma txInv_of_reachable {s : TxState} (hs : (ownership slotFree).Reachable s) : TxInv s := by
  apply hs.invariant TxInv (fun s => TxInv.of_isInit)
  rintro s op t h ⟨hen, rfl⟩
  cases op with
  | call data =>
    simp only [TxOp.enabled, Bool.and_eq_true] at hen
    obtain ⟨⟨hidle, hguard⟩, -⟩ := hen
    have hp : s.phase = .idle := by
      cases hp : s.phase <;> simp [hp, Phase.isIdle] at hidle
      rfl
    exact h.nicSendPacket hp hguard data
  | driver => exact h.driverStep
  | complete slot => exact h.complete hen

/-- A driver step changes only the buffer it writes. -/
lemma buf_driverStep_of_ne {s : TxState} {i : ℕ} (h : s.writes ≠ some i) :
    (driverStep s).buf i = s.buf i := by
  by_cases hd : s.driverType = .none
  · rw [driverStep, hd]
  cases hp : s.phase with
  | clear data =>
    rw [driverStep_clear hd hp]
    apply setBuf_buf_of_ne
    rintro rfl
    exact h (by simp [TxState.writes, hp])
  | copy data =>
    rw [driverStep_copy hd hp]
    apply setBuf_buf_of_ne
    rintro rfl
    exact h (by simp [TxState.writes, hp])
  | idle =>
    unfold driverStep e1000Step rtl8139Step
    rw [hp]
    split <;> rfl
  | wait data timeout =>
    unfold driverStep e1000Step rtl8139Step e1000Wait
    rw [hp]
    dsimp only
    split <;> try rfl
    split_ifs <;> rfl
  | describe data =>
    unfold driverStep e1000Step rtl8139Step
    rw [hp]
    split <;> rfl
  | handOver data =>
    unfold driverStep e1000Step rtl8139Step
    rw [hp]
    split <;> rfl

/-- The slot being written is the driver's. -/
lemma TxInv.writes_free {s : TxState} (h : TxInv s) {i : ℕ} (hi : s.owned i = true) :
    s.writes ≠ some i := by
  have hf := h.filled
  unfold TxState.writes
  intro hw
  split at hw
  case h_1 hp =>
    rw [hp] at hf
    cases hw
    rw [hf.2] at hi
    cases hi
  case h_2 hp =>
    rw [hp] at hf
    cases hw
    rw [hf.2.1] at hi
    cases hi
  case h_3 => cases hw

/-- The step after the beginning of a call writes a buffer on an RTL8139 only. -/
lemma writes_nicSendPacket {s : TxState} (hinit : s.initialized = true) {data : Frame}
    (h0 : 0 < data.length) (h1518 : data.length ≤ 1518) :
    (nicSendPacket s (some data)).writes =
      if s.driverType = .rtl8139 then some s.rtlCur else none := by
  have hchecks : ¬ (s.initialized = false ∨ data.length = 0) := by
    rw [hinit]
    simp only [Bool.true_eq_false, false_or]
    omega
  show (if _ then (s.pass data).ret (-1) else startSend (s.pass data) data).writes = _
  rw [if_neg hchecks]
  have hpass : (s.pass data).driverType = s.driverType := rfl
  rw [startSend, hpass, if_neg (by omega), if_neg (by omega)]
  cases hd : s.driverType with
  | none => rfl
  | e1000 => rfl
  | rtl8139 =>
    show some (TxState.cur _) = some s.rtlCur
    simp [TxState.cur, TxState.pass, hd]

/-- **Ownership of the transmit buffers.** In every interleaving in which a call on an RTL8139
finds the next slot free, no step of a driver changes a buffer that the device owns, and every
frame on the wire is a padded frame that was passed to `nic_send_packet`. The condition concerns
the RTL8139 only, and it is needed: a call that finds the slot in use begins by writing to it. -/
theorem tx_ownership {s : TxState} (hs : (ownership slotFree).Reachable s) :
    (∀ i, s.owned i = true → s.writes ≠ some i ∧ (driverStep s).buf i = s.buf i) ∧
      (∀ f ∈ s.wire, f ∈ s.passed.map pad) ∧
      ∀ data : Frame, 0 < data.length → data.length ≤ 1518 → s.initialized = true →
        (slotFree s = false ↔
          ∃ i, s.owned i = true ∧ (nicSendPacket s (some data)).writes = some i) := by
  have h := txInv_of_reachable hs
  refine ⟨fun i hi => ⟨h.writes_free hi, buf_driverStep_of_ne (h.writes_free hi)⟩, h.sent, ?_⟩
  intro data h0 h1518 hinit
  have hfree : slotFree s = false ↔ s.driverType = .rtl8139 ∧ s.owned s.rtlCur = true := by
    simp [slotFree]
  rw [hfree, writes_nicSendPacket hinit h0 h1518]
  constructor
  · rintro ⟨hd, hown⟩
    exact ⟨s.rtlCur, hown, if_pos hd⟩
  · rintro ⟨i, hown, hw⟩
    split_ifs at hw with hd
    cases hw
    exact ⟨hd, hown⟩

/-- A machine before `nic_init`. -/
def coldTx : TxState where
  initialized := false
  driverType := .none
  txPackets := 0
  txBytes := 0
  descs _ := ⟨0, 0, 0⟩
  e1000Bufs _ _ := 0
  e1000Cur := 0
  tdh := 0
  tdt := 0
  rtlBufs _ _ := 0
  rtlCur := 0
  tsd _ := 0
  phase := .idle
  rc := 0
  owned _ := false
  passed := []
  accepted := []
  wire := []

/-- The steps of a whole call on an RTL8139. -/
def rtlSend (data : Frame) : List TxOp := .call (some data) :: List.replicate 4 .driver

lemma isInit_rtl8139 : IsInit (rtl8139InitTx coldTx) :=
  ⟨⟨coldTx, .inr (.inl rfl)⟩, rfl, fun _ => rfl, rfl, rfl, rfl⟩

/-- One frame sent and completed on an RTL8139. -/
def oneFrame : List TxOp := rtlSend [1] ++ [.complete 0]

/-- One frame on an RTL8139 meets the condition and arrives on the wire. -/
theorem tx_ownership_oneFrame :
    (ownership slotFree).Reachable (oneFrame.foldl TxOp.exec (rtl8139InitTx coldTx)) ∧
      ∀ f ∈ (oneFrame.foldl TxOp.exec (rtl8139InitTx coldTx)).wire,
        f ∈ (oneFrame.foldl TxOp.exec (rtl8139InitTx coldTx)).passed.map pad := by
  have hinit : (ownership slotFree).Reachable (rtl8139InitTx coldTx) := .init isInit_rtl8139
  have hs := reachable_foldl hinit oneFrame (by decide)
  exact ⟨hs, (tx_ownership hs).2.1⟩

/-- Five calls on an RTL8139 without a completion, the fifth just begun. -/
def fifthCall : List TxOp :=
  rtlSend [1] ++ rtlSend [2] ++ rtlSend [3] ++ rtlSend [4] ++ [.call (some [5])]

/-- The fifth call clears the buffer of slot 0, and the device completes the slot. -/
def blankFrame : List TxOp := fifthCall ++ [.driver, .complete 0]

/-- Without the condition the fifth call changes the buffer of a frame that the device has not
sent yet; when the device completes the slot after the `memset`, a frame of zeros that nobody
passed to `nic_send_packet` goes out. -/
theorem tx_ownership_fails :
    ∃ s t, (ownership fun _ => true).Reachable s ∧ (ownership fun _ => true).Reachable t ∧
      s.owned 0 = true ∧ s.writes = some 0 ∧ (driverStep s).buf 0 0 ≠ s.buf 0 0 ∧
      t.wire = [List.replicate 60 0] ∧ List.replicate 60 0 ∉ t.passed.map pad := by
  have hinit : (ownership fun _ => true).Reachable (rtl8139InitTx coldTx) :=
    .init isInit_rtl8139
  refine ⟨fifthCall.foldl TxOp.exec (rtl8139InitTx coldTx),
    blankFrame.foldl TxOp.exec (rtl8139InitTx coldTx), ?_, ?_, ?_⟩
  · exact reachable_foldl hinit fifthCall (by decide)
  · exact reachable_foldl hinit blankFrame (by decide)
  · refine ⟨by decide, by decide, by decide, by decide, by decide⟩

end BengalTiger.Nic
