import BengalTiger.Net.Receive

set_option autoImplicit false

/-!
# Sender and receiver agree

What `send_ipv4_packet` and `net_send_udp` put on the wire, `net_rx_packet` takes apart again: on
a host with the destination address the frame passes all checks, whatever padding follows, and
the handler of its protocol gets the bytes that were sent.

## Main definitions

* `Net.Delivers` — a frame brings a payload to the handler of its protocol.

## Main results

* `Net.delivers_ethFrame` — the receiver's half.
* `Net.tx_rx_agree` — both halves.
-/

namespace BengalTiger.Net

open Exc
open Nic (Frame)

/-- On every host whose address is `dst`, and on every host when `dst` is the broadcast address,
the frame, followed by any padding, passes the checks of `net_rx_packet` and reaches the handler
of its protocol with the payload, its length, the source address and a TTL of 64. -/
def Delivers (frame : Frame) (src dst : UInt32) (proto : UInt8) (payload : List UInt8) : Prop :=
  ∀ (env : Env) (poll : State → Res State) (fuel : ℕ) (v : State) (padding : List UInt8),
    (frame ++ padding).length < 65536 →
    (v.config.configured = true ∧ v.config.ip = dst ∨ dst = 0xFFFFFFFF) →
    ∃ mac l4, l4.take payload.length = payload ∧
      netRxPacket env poll fuel v (frame ++ padding) =
        if proto = 1 then
          handleIcmp env poll fuel (v.received env src mac) src 64 l4 payload.length
        else if proto = 17 then handleUdp (v.received env src mac) l4 payload.length
        else .ok (v.received env src mac)

/-- As `Delivers`, for a UDP datagram: the length field that `handle_udp` accepts is that of the
datagram, and what follows the UDP header is the payload. -/
def DeliversUdp (frame : Frame) (src dst : UInt32) (dstPort : ℕ) (payload : List UInt8) : Prop :=
  ∀ (env : Env) (poll : State → Res State) (fuel : ℕ) (v : State) (padding : List UInt8),
    (frame ++ padding).length < 65536 →
    (v.config.configured = true ∧ v.config.ip = dst ∨ dst = 0xFFFFFFFF) →
    ∃ mac l4, rd16 l4 4 = .ok (8 + payload.length) ∧
      (l4.drop 8).take payload.length = payload ∧
      netRxPacket env poll fuel v (frame ++ padding) =
        handleUdp (v.received env src mac) l4 (8 + payload.length) ∧
      handleUdp (v.received env src mac) l4 (8 + payload.length) =
        if u16 dstPort = 68 then
          handleDhcp (v.received env src mac).countUdp (l4.drop 8) payload.length
        else .ok (v.received env src mac).countUdp

/-! ## The receiver's half -/

/-- A frame with an IPv4 packet delivers its payload. -/
lemma delivers_ethFrame (dstMac srcMac : Mac) (src dst : UInt32) (id : UInt16) (proto : UInt8)
    (payload : List UInt8) :
    Delivers (ethFrame dstMac srcMac 0x0800 (ipv4Packet src dst id proto payload)) src dst proto
      payload := by
  intro env poll fuel v padding h16 hdst
  have hlen : payload.length < 65516 := by
    simp only [ethFrame, toBe16, List.length_append, Vector.length_toList, List.length_cons,
      List.length_nil, length_ipv4Packet] at h16
    omega
  have hframe : ethFrame dstMac srcMac 0x0800 (ipv4Packet src dst id proto payload) ++ padding =
      ethFrame dstMac srcMac 0x0800 (ipv4Header src dst id proto payload.length
        (netChecksum (ipv4Header src dst id proto payload.length 0)) ++ (payload ++ padding)) := by
    simp only [ethFrame, ipv4Packet, List.append_assoc]
  rw [hframe] at h16 ⊢
  have hd := ipv4Of_ethFrame dstMac srcMac padding (header_ipv4Header src dst id proto hlen)
  have htakes : v.config.Takes dst := hdst.elim (fun h => .inr (.inr h.2.symm)) .inl
  obtain ⟨rest, hx⟩ := netRxPacket_ipv4 env v h16 hd
  refine ⟨srcMac, payload ++ rest, List.take_left' rfl, ?_⟩
  rw [hx poll fuel, if_pos htakes]
  rfl

/-- A datagram that arrives whole passes the checks of `handle_udp`. -/
lemma handleUdp_udpPacket {v : State} {srcPort dstPort : ℕ} {payload l4 : List UInt8}
    (hlen : 8 + payload.length < 65536)
    (hl4 : l4.take (8 + payload.length) = udpPacket srcPort dstPort payload) :
    rd16 l4 4 = .ok (8 + payload.length) ∧ (l4.drop 8).take payload.length = payload ∧
      handleUdp v l4 (8 + payload.length) =
        if u16 dstPort = 68 then handleDhcp v.countUdp (l4.drop 8) payload.length
        else .ok v.countUdp := by
  obtain ⟨rest, rfl⟩ : ∃ rest, l4 = udpPacket srcPort dstPort payload ++ rest :=
    ⟨l4.drop (8 + payload.length), by rw [← hl4, List.take_append_drop]⟩
  have hudp : (udpPacket srcPort dstPort payload ++ rest).length =
      8 + payload.length + rest.length := by
    simp [udpPacket, toBe16]
    omega
  have hulen : field16 (udpPacket srcPort dstPort payload ++ rest) 4 = 8 + payload.length :=
    (be16_toBe16 (8 + payload.length)).trans (Nat.mod_eq_of_lt hlen)
  have hport : field16 (udpPacket srcPort dstPort payload ++ rest) 2 = u16 dstPort :=
    be16_toBe16 dstPort
  have hdrop : (udpPacket srcPort dstPort payload ++ rest).drop 8 = payload ++ rest := rfl
  refine ⟨by rw [rd16_eq (by omega), hulen], by rw [hdrop, List.take_left' rfl], ?_⟩
  rw [handleUdp_eq (by omega) hlen, hulen, hport, if_pos (by omega), Nat.add_sub_cancel_left]

/-! ## The sender's half -/

section Sender

variable {env : Env} {fuel : ℕ} {s : State}

/-- The call from `s` ends by handing the frame to `nic_send_packet`: it is the last event. -/
def HandsOver (s : State) (r : ℤ × State) (frame : Frame) : Prop :=
  ∃ between, r.2.log = s.log ++ between ++ [.tx frame]

/-- What can come of `send_ipv4_packet`: the frame is handed to `nic_send_packet`, or there is no
NIC, or the next hop could not be resolved. -/
lemma sendIpv4Packet_cases (src dst : UInt32) (override : Option Mac) (proto : UInt8)
    {payload : List UInt8} (hlen : payload.length ≤ 1480) {r : ℤ × State}
    (hr : sendIpv4Packet env (nicPoll env fuel) fuel s src dst override proto payload = .ok r) :
    (∃ mac srcMac id, HandsOver s r
        (ethFrame mac srcMac 0x0800 (ipv4Packet src dst id proto payload))) ∨
      r.1 = -1 ∧ (s.nicInitialized = false ∨ override = none ∧
        netArpResolve env (nicPoll env fuel) fuel s (routeNextHop s.config dst) 800 =
          .ok (none, r.2)) := by
  -- once a hardware address is known, whichever way, the frame is handed over
  have hto : ∀ {u : State} {new : List Event} (mac : Mac), Grows env s u new →
      s.nicInitialized = true → sendIpv4To env u mac src dst proto payload = .ok r →
      ∃ mac srcMac id, HandsOver s r
        (ethFrame mac srcMac 0x0800 (ipv4Packet src dst id proto payload)) := by
    intro u new mac hgrows hnic hsend
    rw [sendIpv4To_eq mac src dst proto hlen (hgrows.nic.1.trans hnic)] at hsend
    cases hsend
    exact ⟨mac, u.nicMac, u.ipIdCounter, new, by rw [hgrows.log]⟩
  unfold sendIpv4Packet at hr
  rw [if_neg (by omega)] at hr
  cases hnic : s.nicInitialized with
  | false =>
    refine .inr ⟨?_, .inl rfl⟩
    cases override with
    | some mac =>
      rw [Option.elim_some, sendIpv4To_without_nic mac src dst proto hlen hnic] at hr
      cases hr
      rfl
    | none =>
      rw [Option.elim_none, netArpResolve, if_pos hnic] at hr
      cases hr
      rfl
  | true =>
    cases override with
    | some mac =>
      obtain ⟨new, hgrows⟩ := Follows.refl env s
      exact .inl (hto mac hgrows hnic hr)
    | none =>
      rw [Option.elim_none] at hr
      obtain ⟨q, hres, hr⟩ := bind_eq_ok.1 hr
      obtain ⟨new, hgrows⟩ := (safe_netArpResolve (nicPoll_spec env fuel) fuel
        (routeNextHop s.config dst) 800).of_ok hres
      cases hq : q.1 with
      | none =>
        rw [hq] at hr
        cases hr
        exact .inr ⟨rfl, .inr ⟨rfl, by rw [hres, ← hq]⟩⟩
      | some mac =>
        rw [hq] at hr
        exact .inl (hto mac hgrows hnic hr)

end Sender

/-- **Transmit/receive agreement.** A frame that `send_ipv4_packet` hands to `nic_send_packet`
for a payload of at most 1480 bytes, which is the last event of the call, delivers that payload, and
one that `net_send_udp` hands over for a payload of at most 1464 bytes delivers it as a UDP
datagram. No frame is handed over only when there is no NIC or the next hop cannot be resolved. -/
theorem tx_rx_agree (env : Env) (fuel : ℕ) (s : State) (src dst : UInt32) :
    (∀ (override : Option Mac) (proto : UInt8) (payload : List UInt8) (r : ℤ × State),
      payload.length ≤ 1480 →
      sendIpv4Packet env (nicPoll env fuel) fuel s src dst override proto payload = .ok r →
      (∃ frame, HandsOver s r frame ∧ Delivers frame src dst proto payload) ∨
        r.1 = -1 ∧ (s.nicInitialized = false ∨ override = none ∧
          netArpResolve env (nicPoll env fuel) fuel s (routeNextHop s.config dst) 800 =
            .ok (none, r.2))) ∧
      ∀ (srcPort dstPort : ℕ) (payload : List UInt8) (r : ℤ × State),
        payload.length ≤ 1464 →
        netSendUdp env (nicPoll env fuel) fuel s dst srcPort dstPort payload = .ok r →
        (∃ frame, HandsOver s r frame ∧
            DeliversUdp frame s.config.ip dst dstPort payload) ∨
          r.1 = -1 ∧ (s.nicInitialized = false ∨ dst ≠ 0xFFFFFFFF ∧
            netArpResolve env (nicPoll env fuel) fuel s (routeNextHop s.config dst) 800 =
              .ok (none, r.2)) := by
  constructor
  · intro override proto payload r hlen hr
    obtain ⟨mac, srcMac, id, hho⟩ | hno := sendIpv4Packet_cases src dst override proto hlen hr
    · exact .inl ⟨_, hho, delivers_ethFrame mac srcMac src dst id proto payload⟩
    · exact .inr hno
  · intro srcPort dstPort payload r hlen hr
    have hudp : (udpPacket srcPort dstPort payload).length = 8 + payload.length := by
      simp [udpPacket, toBe16]
      omega
    unfold netSendUdp fits at hr
    rw [if_neg (by omega), if_pos (by omega), bind_ok] at hr
    -- a UDP packet is a payload of `send_ipv4_packet` that `handle_udp` reads back
    obtain ⟨mac, srcMac, id, hho⟩ | ⟨hrc, hno⟩ :=
      sendIpv4Packet_cases s.config.ip dst _ 17 (by omega) hr
    · refine .inl ⟨_, hho, ?_⟩
      intro env' poll fuel' v padding h16 hdst
      obtain ⟨m, l4, hl4, hrx⟩ :=
        delivers_ethFrame mac srcMac s.config.ip dst id 17 (udpPacket srcPort dstPort payload)
          env' poll fuel' v padding h16 hdst
      rw [hudp] at hl4 hrx
      obtain ⟨hulen, hpay, hhandle⟩ := handleUdp_udpPacket
        (v := v.received env' s.config.ip m) (by omega : 8 + payload.length < 65536) hl4
      exact ⟨m, l4, hulen, hpay, hrx, hhandle⟩
    · refine .inr ⟨hrc, hno.imp_right fun h => ⟨?_, h.2⟩⟩
      intro e
      rw [if_pos e] at h
      exact absurd h.1 (by simp)

/-- A broadcast datagram of three bytes is handed over and delivered. -/
theorem tx_rx_agree_broadcast :
    ∃ r frame, netSendUdp quietNet (nicPoll quietNet 1) 1 idleHost 0xFFFFFFFF 68 67 [1, 2, 3] =
        .ok r ∧ r.1 = 0 ∧ HandsOver idleHost r frame ∧
      DeliversUdp frame 0 0xFFFFFFFF 67 [1, 2, 3] := by
  obtain ⟨r, hr, h0⟩ : ∃ r, netSendUdp quietNet (nicPoll quietNet 1) 1 idleHost 0xFFFFFFFF 68 67
      [1, 2, 3] = .ok r ∧ r.1 = 0 := ⟨_, rfl, rfl⟩
  obtain ⟨frame, hho, hdel⟩ | ⟨hneg, -⟩ :=
    (tx_rx_agree quietNet 1 idleHost 0 0xFFFFFFFF).2 68 67 [1, 2, 3] r (by decide) hr
  · exact ⟨r, frame, hr, h0, hho, hdel⟩
  · rw [h0] at hneg
    cases hneg

end BengalTiger.Net
