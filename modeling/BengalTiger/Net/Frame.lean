import Mathlib.Data.List.GetD
import Mathlib.Tactic.IntervalCases
import BengalTiger.Net.Model

set_option autoImplicit false

/-!
# Frames, field by field

What a frame says, independently of the state of the host that receives it: its ARP or IPv4 packet,
by the places of the fields. The receive functions of `kernel/net.c` read the same fields one after
the other, with checks in between; here each of them gets an equation that puts all its checks into
one condition and all it reads into fields. No read is outside the frame, so the equations also say
that nothing is read out of bounds.

## Main definitions

* `Net.byte`, `Net.field16`, `Net.field32`, `Net.fieldMac` — fields by their place.
* `Net.arpOf`, `Net.ipv4Of` — the packet of a frame.
* `Net.Ipv4Header` — a header that the checks of `handle_ipv4` accept, with options.

## Main results

* `Net.netRxPacket_arp`, `Net.netRxPacket_ipv4`, `Net.netRxPacket_other` — what `net_rx_packet` does
  with a frame.
* `Net.ipv4Of_ethFrame` — the packet of a frame that is built from its parts.
-/

namespace BengalTiger.Net

open List

open Nic (Frame)

/-! ## Fields -/

/-- The byte at `i`, 0 behind the end. -/
def byte (p : List UInt8) (i : ℕ) : UInt8 := p.getD i 0

/-- The two-byte field at `i`. -/
def field16 (p : List UInt8) (i : ℕ) : ℕ := be16 (byte p i) (byte p (i + 1))

/-- The four-byte field at `i`. -/
def field32 (p : List UInt8) (i : ℕ) : UInt32 :=
  be32 (byte p i) (byte p (i + 1)) (byte p (i + 2)) (byte p (i + 3))

/-- The hardware address at `i`. -/
def fieldMac (p : List UInt8) (i : ℕ) : Mac :=
  #v[byte p i, byte p (i + 1), byte p (i + 2), byte p (i + 3), byte p (i + 4), byte p (i + 5)]

section Fields

variable {p q : List UInt8} {i n size : ℕ}

/-- A program after a result. -/
lemma bind_ok {α β : Type} (a : α) (f : α → Res β) : (Except.ok a >>= f) = f a := rfl

lemma rd_eq (h : i < p.length) : rd p i = .ok (byte p i) := by
  rw [rd, byte, getD_eq_getElem?_getD, getElem?_eq_getElem h]
  rfl

lemma rd16_eq (h : i + 2 ≤ p.length) : rd16 p i = .ok (field16 p i) := by
  rw [rd16, rd_eq (by omega), bind_ok, rd_eq (by omega)]
  rfl

lemma rd32_eq (h : i + 4 ≤ p.length) : rd32 p i = .ok (field32 p i) := by
  rw [rd32, rd_eq (by omega), bind_ok, rd_eq (by omega), bind_ok, rd_eq (by omega), bind_ok,
    rd_eq (by omega)]
  rfl

lemma rdMac_eq (h : i + 6 ≤ p.length) : rdMac p i = .ok (fieldMac p i) := by
  rw [rdMac, rd_eq (by omega), bind_ok, rd_eq (by omega), bind_ok, rd_eq (by omega), bind_ok,
    rd_eq (by omega), bind_ok, rd_eq (by omega), bind_ok, rd_eq (by omega)]
  rfl

lemma rdBytes_eq (h : n ≤ p.length) : rdBytes p n = .ok (p.take n) := if_pos h

lemma slice_eq (h : i + n ≤ p.length) : slice p i n = .ok (p.drop i) := if_pos h

lemma fits_eq (h : n ≤ size) : fits n size = .ok () := if_pos h

@[simp] lemma byte_drop (p : List UInt8) (n i : ℕ) : byte (p.drop n) i = byte p (n + i) := by
  rw [byte, byte, getD_eq_getElem?_getD, getD_eq_getElem?_getD, getElem?_drop]

@[simp] lemma field16_drop (p : List UInt8) (n i : ℕ) :
    field16 (p.drop n) i = field16 p (n + i) := by
  simp only [field16, byte_drop, Nat.add_assoc]

@[simp] lemma field32_drop (p : List UInt8) (n i : ℕ) :
    field32 (p.drop n) i = field32 p (n + i) := by
  simp only [field32, byte_drop, Nat.add_assoc]

@[simp] lemma fieldMac_drop (p : List UInt8) (n i : ℕ) :
    fieldMac (p.drop n) i = fieldMac p (n + i) := by
  simp only [fieldMac, byte_drop, Nat.add_assoc]

lemma byte_append (h : i < p.length) : byte (p ++ q) i = byte p i := getD_append _ _ _ _ h

lemma field16_append (h : i + 2 ≤ p.length) : field16 (p ++ q) i = field16 p i := by
  rw [field16, field16, byte_append (by omega), byte_append (by omega)]

lemma field32_append (h : i + 4 ≤ p.length) : field32 (p ++ q) i = field32 p i := by
  rw [field32, field32, byte_append (by omega), byte_append (by omega), byte_append (by omega),
    byte_append (by omega)]

lemma fieldMac_append (h : i + 6 ≤ p.length) : fieldMac (p ++ q) i = fieldMac p i := by
  rw [fieldMac, fieldMac, byte_append (by omega), byte_append (by omega), byte_append (by omega),
    byte_append (by omega), byte_append (by omega), byte_append (by omega)]

end Fields

/-! ## Packets -/

/-- The fields of an ARP packet that `handle_arp` uses. -/
structure Arp where
  oper : ℕ
  sha : Mac
  spa : UInt32
  tpa : UInt32

/-- **The ARP packet of a frame**: 28 bytes or more, for Ethernet and IPv4 addresses. -/
def arpOf (f : Frame) : Option Arp :=
  if 42 ≤ f.length ∧ field16 f 12 = 0x0806 ∧ field16 f 14 = 1 ∧ field16 f 16 = 0x0800 then
    some ⟨field16 f 20, fieldMac f 22, field32 f 28, field32 f 38⟩
  else none

/-- An IPv4 packet, with the hardware address of its sender; `data` is what follows the header, up
to the total length. -/
structure Ipv4 where
  mac : Mac
  src : UInt32
  dst : UInt32
  ttl : UInt8
  proto : UInt8
  data : List UInt8

/-- **The IPv4 packet of a frame**: version 4, a header of 20 bytes or more that lies inside the
packet and whose checksum verifies, and a packet that lies inside the frame. -/
def ipv4Of (f : Frame) : Option Ipv4 :=
  let ihl := (byte f 14).toNat % 16 * 4
  let total := field16 f 16
  if field16 f 12 = 0x0800 ∧ (byte f 14).toNat / 16 = 4 ∧ 20 ≤ ihl ∧ ihl ≤ total ∧
      14 + total ≤ f.length ∧ netChecksum ((f.drop 14).take ihl) = 0 then
    some ⟨fieldMac f 6, field32 f 26, field32 f 30, byte f 22, byte f 23,
      (f.drop (14 + ihl)).take (total - ihl)⟩
  else none

/-- The host takes packets for this destination: broadcast, its own address, or any while it has
none. -/
def Config.Takes (c : Config) (dst : UInt32) : Prop :=
  dst = 0xFFFFFFFF ∨ c.configured = false ∨ dst = c.ip

instance (c : Config) (dst : UInt32) : Decidable (c.Takes dst) :=
  inferInstanceAs (Decidable (_ ∨ _ ∨ _))

/-- The state in which the handler of an IPv4 packet is called: the frame is counted, and the
sender's hardware address is cached when it is on the local subnet. -/
def State.received (env : Env) (v : State) (src : UInt32) (mac : Mac) : State :=
  if v.countEth.countIpv4.config.isLocal src then v.countEth.countIpv4.learn env src mac
  else v.countEth.countIpv4

/-- What `handle_arp` does with a packet. -/
def State.answerArp (env : Env) (s : State) (a : Arp) : Res State :=
  if a.oper = 1 ∧ s.config.configured = true ∧ a.tpa = s.config.ip then
    sendArpPacket env (s.countEth.countArp.learn env a.spa a.sha) 2 a.sha a.spa
  else .ok (s.countEth.countArp.learn env a.spa a.sha)

/-- The handler of the protocol gets the data, followed by the padding of the frame. -/
def State.deliver (env : Env) (poll : State → Res State) (fuel : ℕ) (s : State) (d : Ipv4)
    (padding : List UInt8) : Res State :=
  if d.proto = 1 then
    handleIcmp env poll fuel (s.received env d.src d.mac) d.src d.ttl (d.data ++ padding)
      d.data.length
  else if d.proto = 17 then
    handleUdp (s.received env d.src d.mac) (d.data ++ padding) d.data.length
  else .ok (s.received env d.src d.mac)

section Receive

variable {env : Env} {poll : State → Res State} {fuel : ℕ} {s : State} {f : Frame}

/-- Learning an address leaves the configuration alone. -/
lemma learn_config (s : State) (ip : UInt32) (mac : Mac) :
    (s.learn env ip mac).config = s.config := by
  unfold State.learn
  split_ifs <;> rfl

/-- The settings are those from before. -/
lemma received_config (s : State) (src : UInt32) (mac : Mac) :
    (s.received env src mac).config = s.countEth.countIpv4.config := by
  unfold State.received
  split_ifs
  · exact learn_config _ _ _
  · rfl

/-- `net_rx_packet` on a frame with an Ethernet header. -/
lemma netRxPacket_eq (h14 : 14 ≤ f.length) (h16 : f.length < 65536) :
    netRxPacket env poll fuel s f =
      if field16 f 12 = 0x0806 then handleArp env s.countEth (f.drop 14) (f.drop 14).length
      else if field16 f 12 = 0x0800 then
        handleIpv4 env poll fuel s.countEth (f.drop 6) (f.drop 14) (f.drop 14).length
      else .ok s.countEth := by
  have hlen : u16 (f.length - 14) = (f.drop 14).length := by
    rw [length_drop]
    exact Nat.mod_eq_of_lt (by omega)
  rw [netRxPacket, if_neg (by omega)]
  dsimp only
  rw [rd16_eq (by omega), bind_ok, hlen, slice_eq (by rw [length_drop]; omega), bind_ok]
  rfl

/-- **A frame with an ARP packet.** -/
lemma netRxPacket_arp {a : Arp} (h16 : f.length < 65536) (ha : arpOf f = some a) :
    netRxPacket env poll fuel s f = s.answerArp env a := by
  unfold arpOf at ha
  split_ifs at ha with h
  obtain ⟨hlen, htype, hht, hpt⟩ := h
  cases ha
  have hdrop := length_drop (i := 14) (l := f)
  rw [netRxPacket_eq (by omega) h16, if_pos htype, handleArp, if_neg (by omega), rd16_eq (by omega),
    bind_ok, rd16_eq (by omega), bind_ok, field16_drop, field16_drop, hht, hpt, if_neg (by decide)]
  dsimp only
  rw [rd32_eq (by omega), bind_ok, rd32_eq (by omega), bind_ok, rd16_eq (by omega), bind_ok,
    rdMac_eq (by omega), bind_ok, field32_drop, field32_drop, field16_drop, fieldMac_drop,
    learn_config]
  rfl

/-- The checks of `handle_ipv4` in one condition. -/
lemma handleIpv4_eq {ethSrc p : List UInt8} :
    handleIpv4 env poll fuel s ethSrc p p.length =
      if (byte p 0).toNat / 16 = 4 ∧ 20 ≤ (byte p 0).toNat % 16 * 4 ∧
          (byte p 0).toNat % 16 * 4 ≤ field16 p 2 ∧ field16 p 2 ≤ p.length ∧
          netChecksum (p.take ((byte p 0).toNat % 16 * 4)) = 0 then
        deliverIpv4 env poll fuel s ethSrc p ((byte p 0).toNat % 16 * 4) (field16 p 2)
      else .ok s := by
  rw [handleIpv4]
  by_cases hlen : p.length < 20
  · rw [if_pos hlen, if_neg (by omega)]
    rfl
  rw [if_neg hlen, rd_eq (by omega), bind_ok]
  dsimp only
  by_cases hver : (byte p 0).toNat / 16 = 4
  swap
  · rw [if_pos hver, if_neg fun h => hver h.1]
    rfl
  rw [if_neg (not_not.2 hver)]
  by_cases hihl : (byte p 0).toNat % 16 * 4 < 20 ∨ p.length < (byte p 0).toNat % 16 * 4
  · rw [if_pos hihl, if_neg (by omega)]
    rfl
  rw [if_neg hihl, rd16_eq (by omega), bind_ok]
  by_cases htotal : field16 p 2 < (byte p 0).toNat % 16 * 4 ∨ p.length < field16 p 2
  · rw [if_pos htotal, if_neg (by omega)]
    rfl
  rw [if_neg htotal, rdBytes_eq (by omega), bind_ok]
  by_cases hsum : netChecksum (p.take ((byte p 0).toNat % 16 * 4)) = 0
  · rw [if_neg (not_not.2 hsum), if_pos ⟨hver, by omega, by omega, by omega, hsum⟩]
  · rw [if_pos hsum, if_neg fun h => hsum h.2.2.2.2]
    rfl

/-- The hardware address of the sender is cached. -/
lemma learnSender_eq (s : State) {ethSrc : List UInt8} (h : 6 ≤ ethSrc.length) (src : UInt32) :
    learnSender env s.countEth.countIpv4 ethSrc src =
      .ok (s.received env src (fieldMac ethSrc 0)) := by
  unfold learnSender State.received
  split_ifs
  · rw [rdMac_eq (by omega)]
    rfl
  · rfl

/-- **A frame with an IPv4 packet** reaches the handler of its protocol, if the host takes it. -/
lemma netRxPacket_ipv4 (env : Env) (s : State) {d : Ipv4} (h16 : f.length < 65536)
    (hd : ipv4Of f = some d) :
    ∃ padding, ∀ poll fuel, netRxPacket env poll fuel s f =
      if s.config.Takes d.dst then s.deliver env poll fuel d padding
      else .ok (s.received env d.src d.mac) := by
  unfold ipv4Of at hd
  dsimp only at hd
  generalize hihl : (byte f 14).toNat % 16 * 4 = ihl at hd
  generalize htotal : field16 f 16 = total at hd
  split_ifs at hd with h
  obtain ⟨htype, hver, h20, hle, hlen, hsum⟩ := h
  have hdrop := length_drop (i := 14) (l := f)
  refine ⟨f.drop (14 + total), fun poll fuel => ?_⟩
  -- behind the header come the data of the packet and the padding
  have hdata : f.drop (14 + ihl) = d.data ++ f.drop (14 + total) := by
    cases hd
    have htail : f.drop (14 + total) = (f.drop (14 + ihl)).drop (total - ihl) := by
      rw [drop_drop]
      congr 1
      omega
    rw [htail, take_append_drop]
  have hdlen : d.data.length = total - ihl := by
    cases hd
    rw [length_take, length_drop]
    omega
  have hu : u16 (total - ihl) = d.data.length := by
    rw [hdlen]
    exact Nat.mod_eq_of_lt (by omega)
  rw [netRxPacket_eq (by omega) h16, htype, if_neg (by decide), if_pos rfl, handleIpv4_eq]
  simp only [byte_drop, field16_drop, Nat.add_zero, hihl, htotal]
  rw [if_pos ⟨hver, h20, hle, by omega, hsum⟩, deliverIpv4]
  dsimp only
  rw [rd32_eq (by omega), bind_ok, rd32_eq (by omega), bind_ok,
    learnSender_eq s (by rw [length_drop]; omega), bind_ok, received_config]
  simp only [field32_drop, fieldMac_drop, Nat.add_zero, Nat.reduceAdd]
  by_cases htakes : s.config.Takes d.dst
  · have hnot : ¬ (field32 f 30 ≠ 0xFFFFFFFF ∧ s.config.configured = true ∧
        field32 f 30 ≠ s.config.ip) := by
      rintro ⟨hb, hconf, hip⟩
      cases hd
      obtain h | h | h := htakes
      · exact hb h
      · rw [hconf] at h
        cases h
      · exact hip h
    rw [if_pos htakes]
    refine (if_neg hnot).trans ?_
    rw [rd_eq (by omega), bind_ok, rd_eq (by omega), bind_ok, hu, slice_eq (by omega), bind_ok,
      drop_drop, hdata, byte_drop, byte_drop]
    cases hd
    rfl
  · have hyes : field32 f 30 ≠ 0xFFFFFFFF ∧ s.config.configured = true ∧
        field32 f 30 ≠ s.config.ip := by
      cases hd
      refine ⟨fun h => htakes (.inl h), ?_, fun h => htakes (.inr (.inr h))⟩
      by_contra hconf
      exact htakes (.inr (.inl (Bool.not_eq_true _ ▸ hconf)))
    rw [if_neg htakes]
    refine (if_pos hyes).trans ?_
    cases hd
    rfl

/-- **Any other frame** is counted, if it has an Ethernet header. -/
lemma netRxPacket_other (h16 : f.length < 65536) (ha : arpOf f = none) (hd : ipv4Of f = none) :
    netRxPacket env poll fuel s f = .ok (if f.length < 14 then s else s.countEth) := by
  by_cases h14 : f.length < 14
  · rw [netRxPacket, if_pos h14, if_pos h14]
    rfl
  have hdrop := length_drop (i := 14) (l := f)
  rw [netRxPacket_eq (by omega) h16, if_neg h14]
  by_cases h0806 : field16 f 12 = 0x0806
  · rw [if_pos h0806, handleArp]
    by_cases hlen : (f.drop 14).length < 28
    · rw [if_pos hlen]
      rfl
    · have hno : field16 f 14 ≠ 1 ∨ field16 f 16 ≠ 0x0800 := by
        by_contra hyes
        rw [not_or, not_not, not_not] at hyes
        rw [arpOf, if_pos ⟨by omega, h0806, hyes.1, hyes.2⟩] at ha
        cases ha
      rw [if_neg hlen, rd16_eq (by omega), bind_ok, rd16_eq (by omega), bind_ok, field16_drop,
        field16_drop]
      exact if_pos hno
  · rw [if_neg h0806]
    by_cases h0800 : field16 f 12 = 0x0800
    · rw [if_pos h0800, handleIpv4_eq, if_neg]
      simp only [byte_drop, field16_drop, Nat.add_zero, Nat.reduceAdd]
      rintro ⟨hver, h20, hle, htotal, hsum⟩
      rw [ipv4Of, if_pos ⟨h0800, hver, h20, hle, by omega, hsum⟩] at hd
      cases hd
    · rw [if_neg h0800]

/-- `handle_icmp` on a message inside the frame. -/
lemma handleIcmp_eq {srcIp : UInt32} {ttl : UInt8} {p : List UInt8} {len : ℕ}
    (hlen : len ≤ p.length) : handleIcmp env poll fuel s srcIp ttl p len =
      if len < 8 then .ok s
      else if byte p 0 = 8 ∧ s.config.configured = true then
        if 1480 < len then .ok s.countIcmp
        else do
          let r ← sendIpv4Packet env poll fuel s.countIcmp s.config.ip srcIp none 1
            (echoReply (p.take len))
          return r.2
      else if byte p 0 = 0 ∧ field16 p 4 = s.ping.expectedId ∧ field16 p 6 = s.ping.expectedSeq then
        .ok (s.countIcmp.gotEchoReply env ttl)
      else .ok s.countIcmp := by
  rw [handleIcmp]
  by_cases h8 : len < 8
  · rw [if_pos h8, if_pos h8]
    rfl
  rw [if_neg h8, if_neg h8]
  dsimp only
  rw [rd_eq (by omega), bind_ok]
  by_cases hreq : byte p 0 = 8 ∧ s.config.configured = true
  · rw [if_pos hreq]
    refine (if_pos hreq).trans ?_
    by_cases hbuf : 1480 < len
    · rw [if_pos hbuf, if_pos hbuf]
      rfl
    · rw [if_neg hbuf, if_neg hbuf, rdBytes_eq hlen, bind_ok, fits_eq (by omega), bind_ok]
      rfl
  rw [if_neg hreq]
  refine (if_neg hreq).trans ?_
  by_cases h0 : byte p 0 = 0
  · rw [if_pos h0, rd16_eq (by omega), bind_ok, rd16_eq (by omega), bind_ok]
    by_cases hexp : field16 p 4 = s.ping.expectedId ∧ field16 p 6 = s.ping.expectedSeq
    · exact (if_pos hexp).trans (if_pos ⟨h0, hexp⟩).symm
    · exact (if_neg hexp).trans (if_neg fun h => hexp h.2).symm
  · rw [if_neg h0, if_neg fun h => h0 h.1]
    rfl

/-- `handle_udp` on a datagram inside the frame. -/
lemma handleUdp_eq {p : List UInt8} {len : ℕ} (hlen : len ≤ p.length) (h16 : len < 65536) :
    handleUdp s p len =
      if 8 ≤ len ∧ 8 ≤ field16 p 4 ∧ field16 p 4 ≤ len then
        if field16 p 2 = 68 then handleDhcp s.countUdp (p.drop 8) (field16 p 4 - 8)
        else .ok s.countUdp
      else .ok s := by
  rw [handleUdp]
  by_cases h8 : len < 8
  · rw [if_pos h8, if_neg (by omega)]
    rfl
  rw [if_neg h8, rd16_eq (by omega), bind_ok]
  by_cases hulen : field16 p 4 < 8 ∨ len < field16 p 4
  · rw [if_pos hulen, if_neg (by omega)]
    rfl
  have hu : u16 (field16 p 4 - 8) = field16 p 4 - 8 := Nat.mod_eq_of_lt (by omega)
  rw [if_neg hulen, if_pos (by omega)]
  dsimp only
  rw [rd16_eq (by omega), bind_ok, hu, slice_eq (by omega), bind_ok]
  rfl

/-- A frame does not have both. -/
lemma arpOf_eq_none {d : Ipv4} (hd : ipv4Of f = some d) : arpOf f = none := by
  unfold ipv4Of at hd
  dsimp only at hd
  split_ifs at hd with h
  rw [arpOf, if_neg]
  rw [h.1]
  exact fun h' => absurd h'.2.1 (by decide)

end Receive

/-! ## Frames from their parts -/

/-- **A header that `handle_ipv4` accepts**, of `words` words: with the total length of the packet,
the protocol, the addresses, and a checksum that verifies. -/
structure Ipv4Header (header : List UInt8) (words total : ℕ) (proto : UInt8) (src dst : UInt32) :
    Prop where
  words_ge : 5 ≤ words
  words_le : words ≤ 15
  length_eq : header.length = 4 * words
  verIhl : rd header 0 = .ok (UInt8.ofNat (64 + words))
  total_eq : rd16 header 2 = .ok total
  proto_eq : rd header 9 = .ok proto
  src_eq : rd32 header 12 = .ok src
  dst_eq : rd32 header 16 = .ok dst
  verifies : netChecksum header = 0

/-- The header of a packet that this host sends is one that the receiver accepts. -/
lemma header_ipv4Header (src dst : UInt32) (id : UInt16) (proto : UInt8) {n : ℕ} (hn : n < 65516) :
    Ipv4Header (ipv4Header src dst id proto n (netChecksum (ipv4Header src dst id proto n 0))) 5
      (20 + n) proto src dst := by
  refine ⟨le_rfl, by decide, rfl, rfl, ?_, rfl, ?_, ?_, netChecksum_ipv4Header src dst id proto n⟩
  · have hu : u16 (20 + n) = 20 + n := Nat.mod_eq_of_lt (by omega)
    conv_rhs => rw [← hu, ← be16_toBe16]
    rfl
  · conv_rhs => rw [← be32_toBe32 src]
    rfl
  · conv_rhs => rw [← be32_toBe32 dst]
    rfl

/-- A hardware address is six bytes. -/
lemma mac_cases (mac : Mac) : ∃ a b c d e f, mac = #v[a, b, c, d, e, f] := by
  refine ⟨mac[0], mac[1], mac[2], mac[3], mac[4], mac[5], ?_⟩
  ext i hi
  interval_cases i <;> rfl

/-- An Ethernet header is 14 bytes. -/
lemma ethFrame_eq (dstMac mac : Mac) (p : List UInt8) :
    ∃ eth, ethFrame dstMac mac 0x0800 p = eth ++ p ∧ eth.length = 14 ∧
      field16 (eth ++ p) 12 = 0x0800 ∧ fieldMac (eth ++ p) 6 = mac ∧
      ∀ i, byte (eth ++ p) (14 + i) = byte p i := by
  obtain ⟨a, b, c, d, e, f, rfl⟩ := mac_cases dstMac
  obtain ⟨a', b', c', d', e', f', rfl⟩ := mac_cases mac
  refine ⟨[a, b, c, d, e, f, a', b', c', d', e', f', 8, 0], rfl, rfl,
    show be16 8 0 = 0x0800 by decide, rfl, fun i => ?_⟩
  rw [← byte_drop]
  rfl

/-- **The packet of a frame** with a valid header, data and padding. -/
lemma ipv4Of_ethFrame (dstMac mac : Mac) {header data : List UInt8} (padding : List UInt8)
    {words : ℕ} {proto : UInt8} {src dst : UInt32}
    (h : Ipv4Header header words (header.length + data.length) proto src dst) :
    ipv4Of (ethFrame dstMac mac 0x0800 (header ++ (data ++ padding))) =
      some ⟨mac, src, dst, byte header 8, proto, data⟩ := by
  obtain ⟨hge, hle, hlen, hver, htotal, hproto, hsrc, hdst, hsum⟩ := h
  rw [rd_eq (by omega)] at hver hproto
  rw [rd16_eq (by omega)] at htotal
  rw [rd32_eq (by omega)] at hsrc hdst
  obtain ⟨eth, hframe, heth, htype, hmac, hat⟩ :=
    ethFrame_eq dstMac mac (header ++ (data ++ padding))
  -- the fields of the frame are the fields of the header
  have hbyte : ∀ i < header.length,
      byte (eth ++ (header ++ (data ++ padding))) (14 + i) = byte header i := fun i hi => by
    rw [hat, byte_append hi]
  have h16 : ∀ i, i + 2 ≤ header.length →
      field16 (eth ++ (header ++ (data ++ padding))) (14 + i) = field16 header i := fun i hi => by
    rw [field16, field16, Nat.add_assoc, hbyte _ (by omega), hbyte _ (by omega)]
  have h32 : ∀ i, i + 4 ≤ header.length →
      field32 (eth ++ (header ++ (data ++ padding))) (14 + i) = field32 header i := fun i hi => by
    rw [field32, field32, Nat.add_assoc, Nat.add_assoc, Nat.add_assoc, hbyte _ (by omega),
      hbyte _ (by omega), hbyte _ (by omega), hbyte _ (by omega)]
  have h45 : (UInt8.ofNat (64 + words)).toNat = 64 + words :=
    UInt8.toNat_ofNat_of_lt' (by show _ < 256; omega)
  have hihl : (byte (eth ++ (header ++ (data ++ padding))) 14).toNat % 16 * 4 = header.length := by
    rw [hbyte 0 (by omega), Except.ok.inj hver, h45]
    omega
  have hv4 : (byte (eth ++ (header ++ (data ++ padding))) 14).toNat / 16 = 4 := by
    rw [hbyte 0 (by omega), Except.ok.inj hver, h45]
    omega
  have htot : field16 (eth ++ (header ++ (data ++ padding))) 16 = header.length + data.length :=
    (h16 2 (by omega)).trans (Except.ok.inj htotal)
  have hdrop : (eth ++ (header ++ (data ++ padding))).drop 14 = header ++ (data ++ padding) :=
    drop_left' heth
  rw [hframe, ipv4Of, hihl, htot, if_pos]
  · rw [hmac, h32 12 (by omega), h32 16 (by omega), hbyte 8 (by omega), hbyte 9 (by omega),
      Except.ok.inj hsrc, Except.ok.inj hdst, Except.ok.inj hproto, ← drop_drop, hdrop,
      drop_left' rfl, Nat.add_sub_cancel_left, take_left' rfl]
  · refine ⟨htype, hv4, by omega, by omega, ?_, ?_⟩
    · simp only [length_append]
      omega
    · rw [hdrop, take_left' rfl]
      exact hsum

end BengalTiger.Net
