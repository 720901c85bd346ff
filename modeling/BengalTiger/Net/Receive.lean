import Mathlib.Data.List.Infix
import BengalTiger.Net.Options

set_option autoImplicit false

/-!
# What receiving does

`Handled` says once what `net_rx_packet` does with a frame: which events it adds to the log, when it
takes the frame for the awaited echo reply or for a DHCP message, and what is in the ARP cache
afterwards. It polls the NIC only to answer an echo request. From this one lemma follow `Grows`,
what a whole run of the receive path may change, and that no access is out of bounds, for every
frame, however its length fields lie, and in every state.

## Main definitions

* `Net.Brings` — what a frame brings to a host; `Net.asks` — who asks for an echo reply.
* `Net.SameSetup` — the settings and the NIC stay.
* `Net.Handled` — what one frame does; `Net.Grows` — what the receive path may change.
* `Net.replies`, `Net.delivered` — the DHCP messages and the received frames of a log.
* `Net.Safe` — no access is out of bounds, and the result follows the state before.
* `Net.pollRx` — the receive loops of the two drivers as one.

## Main results

* `Net.netRxPacket_cases` — what `net_rx_packet` does; `Net.nicPoll_spec`.
* `Net.rx_in_bounds` — no access of the receive path is out of bounds.
-/

namespace BengalTiger.Net

open Exc List
open Nic (DriverType Frame)

/-! ## What a frame brings -/

/-- The frame has a packet with the property, and the host takes it. -/
def Brings (c : Config) (f : Frame) (P : Ipv4 → Prop) : Prop :=
  ∃ d, ipv4Of f = some d ∧ c.Takes d.dst ∧ P d

/-- The packet is an echo request that fits the buffer for the reply. -/
def Ipv4.IsRequest (d : Ipv4) : Prop :=
  d.proto = 1 ∧ 8 ≤ d.data.length ∧ d.data.length ≤ 1480 ∧ byte d.data 0 = 8

instance (d : Ipv4) : Decidable d.IsRequest := inferInstanceAs (Decidable (_ ∧ _ ∧ _ ∧ _))

/-- The packet is an echo reply with this identifier and sequence number. -/
def Ipv4.IsReply (d : Ipv4) (id seq : ℕ) : Prop :=
  d.proto = 1 ∧ 8 ≤ d.data.length ∧ byte d.data 0 = 0 ∧ field16 d.data 4 = id ∧
    field16 d.data 6 = seq

/-- The packet is a UDP datagram to this port. -/
def Ipv4.IsUdp (d : Ipv4) (port : ℕ) : Prop :=
  d.proto = 17 ∧ 8 ≤ d.data.length ∧ 8 ≤ field16 d.data 4 ∧ field16 d.data 4 ≤ d.data.length ∧
    field16 d.data 2 = port

/-- The payload of a UDP datagram. -/
def Ipv4.message (d : Ipv4) : List UInt8 := (d.data.drop 8).take (field16 d.data 4 - 8)

/-- The packet is a DHCP message of this type for a transaction and a hardware address. -/
def Ipv4.IsDhcp (d : Ipv4) (xid : UInt32) (mac : Mac) (msgType : UInt8) : Prop :=
  d.IsUdp 68 ∧ IsReplyFor d.message xid mac ∧
    ∃ opts, Encodes (d.message.drop 240) opts ∧ messageType opts = msgType

/-- The sender of an echo request that a host with this configuration answers. -/
def asks (c : Config) (f : Frame) : Option UInt32 :=
  (ipv4Of f).bind fun d =>
    if c.configured = true ∧ c.Takes d.dst ∧ d.IsRequest then some d.src else none

/-- The ARP cache after a frame at a tick: an ARP packet tells the address of its sender, and an
IPv4 packet does so on the local subnet. -/
def heard (c : Config) (cache : ArpCache) (tick : UInt32) (f : Frame) : ArpCache :=
  (arpOf f).elim
    ((ipv4Of f).elim cache fun d =>
      if c.isLocal d.src then arpCacheUpdate cache d.src d.mac tick else cache)
    fun a => arpCacheUpdate cache a.spa a.sha tick

section Brings

variable {c c' : Config} {f : Frame} {P : Ipv4 → Prop}

/-- What a frame with a packet brings. -/
lemma brings_iff {d : Ipv4} (hd : ipv4Of f = some d) : Brings c f P ↔ c.Takes d.dst ∧ P d := by
  constructor
  · rintro ⟨d', hd', h⟩
    rw [hd] at hd'
    cases hd'
    exact h
  · intro h
    exact ⟨d, hd, h⟩

lemma not_brings (hd : ipv4Of f = none) : ¬ Brings c f P := by
  rintro ⟨d, hd', -⟩
  rw [hd] at hd'
  cases hd'

lemma asks_eq {d : Ipv4} (hd : ipv4Of f = some d) : asks c f =
    if c.configured = true ∧ c.Takes d.dst ∧ d.IsRequest then some d.src else none := by
  rw [asks, hd]
  rfl

/-- The parts of the configuration that only the administration and the DHCP client set. -/
def Config.settings (c : Config) : Bool × Bool × UInt32 × UInt32 × UInt32 × UInt32 × UInt32 :=
  (c.configured, c.dhcpLeased, c.ip, c.netmask, c.gateway, c.dns, c.dhcpServer)

/-- What a frame brings depends on the settings. -/
lemma brings_congr (h : c.settings = c'.settings) : Brings c f P ↔ Brings c' f P := by
  have hconf : c.configured = c'.configured := congrArg Prod.fst h
  have hip : c.ip = c'.ip := congrArg (·.2.2.1) h
  unfold Brings Config.Takes
  rw [hconf, hip]

end Brings

/-! ## What receiving a frame does -/

/-- The DHCP messages of a log, in order. -/
def replies (log : List Event) : List DhcpReply :=
  log.filterMap fun e => match e with
    | .dhcp r => some r
    | _ => none

/-- The frames of a log that were handed to `net_rx_packet`, in order. -/
def delivered (log : List Event) : List Frame :=
  log.filterMap fun e => match e with
    | .rx f => some f
    | _ => none

/-- The message has the transaction id, the cookie and the hardware address that `handle_dhcp`
checks. -/
def DhcpReply.IsFor (r : DhcpReply) (s : State) : Prop :=
  r.xid = s.dhcp.expectedXid ∧ r.magic = dhcpMagicCookie ∧ r.chaddr = s.nicMac

/-- The settings and the NIC stay. -/
structure SameSetup (s t : State) : Prop where
  settings : t.config.settings = s.config.settings
  nic : t.nicInitialized = s.nicInitialized ∧ t.driverType = s.driverType ∧ t.mac = s.mac

/-- **What `net_rx_packet` does with a frame**, but for the reply to an echo request. -/
structure Handled (env : Env) (s : State) (f : Frame) (t : State) : Prop
    extends SameSetup s t where
  log : ∃ new, t.log = s.log ++ new ∧ delivered new = [] ∧
    t.dhcp = (replies new).foldl Dhcp.accept s.dhcp ∧ (∀ r ∈ replies new, r.IsFor s) ∧
    ∀ msgType, (∃ r ∈ replies new, r.opts.msgType = msgType) ↔
      Brings s.config f (·.IsDhcp s.dhcp.expectedXid s.nicMac msgType)
  expected : t.ping.expectedId = s.ping.expectedId ∧ t.ping.expectedSeq = s.ping.expectedSeq
  reply : t.ping.replyReceived = true ↔ s.ping.replyReceived = true ∨
    Brings s.config f (·.IsReply s.ping.expectedId s.ping.expectedSeq)
  cache : t.arpCache = heard s.config s.arpCache (s.now env) f
  queue : t.queue = s.queue

section Handled

variable {env : Env} {s t : State} {f : Frame}

/-- A frame that is neither a DHCP message nor an echo reply that is waited for. -/
lemma Handled.of_eq (frames : List Frame) (hlog : t.log = s.log ++ frames.map .tx)
    (hdhcp : t.dhcp = s.dhcp) (hping : t.ping = s.ping)
    (hcache : t.arpCache = heard s.config s.arpCache (s.now env) f) (hsetup : SameSetup s t)
    (hqueue : t.queue = s.queue)
    (hno : ∀ msgType, ¬ Brings s.config f (·.IsDhcp s.dhcp.expectedXid s.nicMac msgType))
    (hno' : ¬ Brings s.config f (·.IsReply s.ping.expectedId s.ping.expectedSeq)) :
    Handled env s f t where
  toSameSetup := hsetup
  log := by
    have hreplies : replies (frames.map .tx) = [] := by simp [replies]
    refine ⟨_, hlog, by simp [delivered], ?_⟩
    rw [hreplies]
    exact ⟨hdhcp, by simp, fun msgType => by simpa using hno msgType⟩
  expected := by rw [hping]; exact ⟨rfl, rfl⟩
  reply := by rw [hping, or_iff_left hno']
  cache := hcache
  queue := hqueue

/-- Learning changes the cache and reads the clock. -/
lemma learn_eq (env : Env) (s : State) (ip : UInt32) (mac : Mac) : ∃ n, s.learn env ip mac =
    { s with clockReads := n, arpCache := arpCacheUpdate s.arpCache ip mac (s.now env) } := by
  unfold State.learn
  split_ifs with h
  · rw [arpCacheUpdate, if_pos h]
    exact ⟨s.clockReads, rfl⟩
  · exact ⟨s.clockReads + 1, rfl⟩

/-- An ARP packet is sent, or there is no NIC. -/
lemma sendArpPacket_eq (env : Env) (s : State) (oper : ℕ) (mac : Mac) (ip : UInt32) :
    ∃ (n : ℕ) (frames : List Frame), sendArpPacket env s oper mac ip =
      .ok { s with sends := n, log := s.log ++ frames.map .tx } := by
  have hsend : ∀ dst payload, ∃ (rc : ℤ) (n : ℕ) (frames : List Frame),
      sendEthFrame env s dst 0x0806 payload =
        .ok (rc, { s with sends := n, log := s.log ++ frames.map .tx }) := by
    intro dst payload
    unfold sendEthFrame
    split_ifs with hbad
    · exact ⟨-1, s.sends, [], by rw [map_nil, append_nil]; rfl⟩
    · rw [not_or] at hbad
      rw [fits_eq (by omega), bind_ok]
      unfold nicSendPacket
      split_ifs
      · exact ⟨-1, s.sends, [], by rw [map_nil, append_nil]; rfl⟩
      all_goals exact ⟨_, s.sends + 1, [_], rfl⟩
  obtain ⟨rc, n, frames, h⟩ := hsend (if oper = 1 then bcastMac else mac)
    (arpPacket oper s.nicMac s.config.ip (if oper = 1 then Vector.replicate 6 0 else mac) ip)
  refine ⟨n, frames, ?_⟩
  unfold sendArpPacket
  dsimp only
  rw [h]
  rfl

/-- An ARP packet is handled. -/
lemma handled_arp (env : Env) (s : State) {a : Arp} (ha : arpOf f = some a) :
    ∃ t, s.answerArp env a = .ok t ∧ Handled env s f t := by
  have hd : ipv4Of f = none := by
    cases hd : ipv4Of f with
    | none => rfl
    | some d =>
      rw [arpOf_eq_none hd] at ha
      cases ha
  have hcache : heard s.config s.arpCache (s.now env) f =
      arpCacheUpdate s.arpCache a.spa a.sha (s.now env) := by
    rw [heard, ha]
    rfl
  obtain ⟨n, hlearn⟩ := learn_eq env s.countEth.countArp a.spa a.sha
  unfold State.answerArp
  rw [hlearn]
  split_ifs
  · obtain ⟨m, frames, hsend⟩ := sendArpPacket_eq env { s.countEth.countArp with
      clockReads := n
      arpCache := arpCacheUpdate s.arpCache a.spa a.sha (s.now env) } 2 a.sha a.spa
    exact ⟨_, hsend, .of_eq frames rfl rfl rfl hcache.symm ⟨rfl, rfl, rfl, rfl⟩ rfl
      (fun _ => not_brings hd) (not_brings hd)⟩
  · exact ⟨_, rfl, .of_eq [] (by simp; rfl) rfl rfl hcache.symm ⟨rfl, rfl, rfl, rfl⟩ rfl
      (fun _ => not_brings hd) (not_brings hd)⟩

/-- A part of the receive path that ends without polling, or by answering an echo request. -/
def Ends (env : Env) (s : State) (f : Frame) (x : (State → Res State) → ℕ → Res State) : Prop :=
  asks s.config f = none ∧ (∃ t, Handled env s f t ∧ ∀ poll fuel, x poll fuel = .ok t) ∨
    ∃ src reply u, asks s.config f = some src ∧ reply.length ≤ 1480 ∧ Handled env s f u ∧
      ∀ poll fuel, x poll fuel = do
        let r ← sendIpv4Packet env poll fuel u u.config.ip src none 1 reply
        return r.2

lemma length_echoReply {request : List UInt8} (h : 4 ≤ request.length) :
    (echoReply request).length = request.length := by
  simp only [echoReply, length_append, length_cons, length_nil, toBe16, length_drop]
  omega

variable {d : Ipv4} (hd : ipv4Of f = some d)

include hd

/-- The state in which the handler of a packet is called. -/
lemma received_eq (env : Env) (s : State) :
    ∃ n, s.received env d.src d.mac = { s.countEth.countIpv4 with
      clockReads := n, arpCache := heard s.config s.arpCache (s.now env) f } := by
  have hheard : heard s.config s.arpCache (s.now env) f =
      if s.config.isLocal d.src then arpCacheUpdate s.arpCache d.src d.mac (s.now env)
      else s.arpCache := by
    rw [heard, arpOf_eq_none hd, hd]
    rfl
  rw [hheard]
  by_cases hlocal : s.config.isLocal d.src
  · obtain ⟨n, hn⟩ := learn_eq env s.countEth.countIpv4 d.src d.mac
    rw [if_pos hlocal]
    exact ⟨n, (if_pos hlocal).trans hn⟩
  · rw [if_neg hlocal]
    exact ⟨s.clockReads, if_neg hlocal⟩

/-- The settings and counters of a received packet; `t` differs from `s` in them only. -/
lemma handled_counted (n : ℕ) (config : Config) (hconfig : config.settings = s.config.settings)
    (hno : ∀ msgType, ¬ (s.config.Takes d.dst ∧ d.IsDhcp s.dhcp.expectedXid s.nicMac msgType))
    (hno' : ¬ (s.config.Takes d.dst ∧ d.IsReply s.ping.expectedId s.ping.expectedSeq)) :
    Handled env s f { s with
      config := config, clockReads := n, arpCache := heard s.config s.arpCache (s.now env) f } :=
  .of_eq [] (by simp) rfl rfl rfl ⟨hconfig, rfl, rfl, rfl⟩ rfl
    (fun msgType h => hno msgType ((brings_iff hd).1 h)) fun h => hno' ((brings_iff hd).1 h)

/-- A DHCP message is recorded. -/
lemma handled_dhcp (htakes : s.config.Takes d.dst) (hudp : d.IsUdp 68) 
    (hfor : IsReplyFor d.message s.dhcp.expectedXid s.nicMac)
    (h16 : d.message.length < 65536) {opts : List Opt} (hopts : Encodes (d.message.drop 240) opts)
    (n : ℕ) (config : Config) (hconfig : config.settings = s.config.settings) :
    Handled env s f (State.gotReply { s with
      config := config, clockReads := n, arpCache := heard s.config s.arpCache (s.now env) f }
      (replyTo s (field32 d.message 16) opts)) where
  toSameSetup := ⟨hconfig, rfl, rfl, rfl⟩
  log := by
    refine ⟨[.dhcp _], rfl, rfl, rfl, ?_, fun msgType => ?_⟩
    · intro r hr
      rw [mem_singleton.1 hr]
      exact ⟨rfl, rfl, rfl⟩
    · rw [brings_iff hd]
      constructor
      · rintro ⟨r, hr, rfl⟩
        rw [mem_singleton.1 hr]
        exact ⟨htakes, hudp, hfor, opts, hopts, rfl⟩
      · rintro ⟨-, -, -, opts', hopts', rfl⟩
        refine ⟨_, mem_singleton_self _, ?_⟩
        exact messageType_eq_of_encodes hopts hopts' (by rw [length_drop]; omega)
  expected := ⟨rfl, rfl⟩
  reply := by
    rw [brings_iff hd]
    refine (or_iff_left ?_).symm
    rintro ⟨-, hproto, -⟩
    rw [hudp.1] at hproto
    exact absurd hproto (by decide)
  cache := rfl
  queue := rfl

/-- The awaited echo reply has come. -/
lemma handled_echoReply (htakes : s.config.Takes d.dst)
    (hreply : d.IsReply s.ping.expectedId s.ping.expectedSeq) (n : ℕ) (ping : Ping)
    (hping : ping.replyReceived = true ∧ ping.expectedId = s.ping.expectedId ∧
      ping.expectedSeq = s.ping.expectedSeq)
    (config : Config) (hconfig : config.settings = s.config.settings) :
    Handled env s f { s with
      ping := ping
      config := config
      clockReads := n
      arpCache := heard s.config s.arpCache (s.now env) f } where
  toSameSetup := ⟨hconfig, rfl, rfl, rfl⟩
  log := by
    refine ⟨[], by simp, rfl, rfl, by simp [replies], fun msgType => ?_⟩
    rw [brings_iff hd]
    simp only [replies, filterMap_nil, not_mem_nil, false_and, exists_false, false_iff]
    rintro ⟨-, hudp, -⟩
    have hproto := hudp.1
    rw [hreply.1] at hproto
    exact absurd hproto (by decide)
  expected := hping.2
  reply := by
    rw [brings_iff hd]
    exact iff_of_true hping.1 (.inr ⟨htakes, hreply⟩)
  cache := rfl
  queue := rfl

/-- A packet that is not an echo request is not answered. -/
lemma asks_eq_none
    (h : ¬ (s.config.configured = true ∧ s.config.Takes d.dst ∧ d.IsRequest)) :
    asks s.config f = none := by
  rw [asks_eq hd, if_neg h]

/-- `handle_icmp` on the packet of a frame. -/
lemma ends_icmp (htakes : s.config.Takes d.dst) (hproto : d.proto = 1) (padding : List UInt8) :
    Ends env s f fun poll fuel => handleIcmp env poll fuel (s.received env d.src d.mac) d.src d.ttl
      (d.data ++ padding) d.data.length := by
  obtain ⟨n, hrec⟩ := received_eq hd env s
  have hnoDhcp : ∀ msgType, ¬ (s.config.Takes d.dst ∧
      d.IsDhcp s.dhcp.expectedXid s.nicMac msgType) := by
    rintro msgType ⟨-, hudp, -⟩
    have h17 := hudp.1
    rw [hproto] at h17
    exact absurd h17 (by decide)
  have hbyte : ∀ i, i < d.data.length → byte (d.data ++ padding) i = byte d.data i :=
    fun i hi => byte_append hi
  simp only [handleIcmp_eq (show d.data.length ≤ (d.data ++ padding).length by simp),
    take_left' (rfl : d.data.length = _), hrec]
  by_cases h8 : d.data.length < 8
  · refine .inl ⟨asks_eq_none hd fun h => absurd h.2.2.2.1 (by omega), _,
      handled_counted hd n s.countEth.countIpv4.config rfl hnoDhcp
        fun h => absurd h.2.2.1 (by omega),
      fun poll fuel => if_pos h8⟩
  simp only [if_neg h8]
  rw [hbyte 0 (by omega), field16_append (by omega), field16_append (by omega)]
  -- only an echo request is answered, and only if it fits into the buffer
  by_cases hreq : byte d.data 0 = 8 ∧ s.config.configured = true
  · have hnoReply : ¬ (s.config.Takes d.dst ∧
        d.IsReply s.ping.expectedId s.ping.expectedSeq) := by
      rintro ⟨-, -, -, h0, -⟩
      rw [hreq.1] at h0
      exact absurd h0 (by decide)
    have hstate : Handled env s f _ :=
      handled_counted hd n s.countEth.countIpv4.countIcmp.config rfl hnoDhcp hnoReply
    by_cases hbuf : 1480 < d.data.length
    · exact .inl ⟨asks_eq_none hd fun h => absurd h.2.2.2.2.1 (by omega), _, hstate,
        fun poll fuel => (if_pos hreq).trans (if_pos hbuf)⟩
    · refine .inr ⟨d.src, echoReply d.data, _, ?_, ?_, hstate,
        fun poll fuel => (if_pos hreq).trans (if_neg hbuf)⟩
      · rw [asks_eq hd, if_pos ⟨hreq.2, htakes, hproto, by omega, by omega, hreq.1⟩]
      · rw [length_echoReply (by omega)]
        omega
  have hasks : asks s.config f = none :=
    asks_eq_none hd fun h => hreq ⟨h.2.2.2.2.2, h.1⟩
  by_cases hexp : byte d.data 0 = 0 ∧ field16 d.data 4 = s.ping.expectedId ∧
      field16 d.data 6 = s.ping.expectedSeq
  · exact .inl ⟨hasks, _, handled_echoReply hd htakes ⟨hproto, by omega, hexp⟩ (n + 1)
      ⟨true, s.ping.expectedId, s.ping.expectedSeq, d.ttl, env.clock n⟩ ⟨rfl, rfl, rfl⟩
      s.countEth.countIpv4.countIcmp.config rfl,
      fun poll fuel => (if_neg hreq).trans (if_pos hexp)⟩
  · exact .inl ⟨hasks, _, handled_counted hd n s.countEth.countIpv4.countIcmp.config rfl hnoDhcp
      fun h => hexp ⟨h.2.2.2.1, h.2.2.2.2⟩, fun poll fuel => (if_neg hreq).trans (if_neg hexp)⟩

/-- `handle_udp` on the packet of a frame. -/
lemma handled_udp (env : Env) (htakes : s.config.Takes d.dst) (hproto : d.proto = 17)
    (h16 : d.data.length < 65536) (padding : List UInt8) :
    ∃ t, Handled env s f t ∧
      handleUdp (s.received env d.src d.mac) (d.data ++ padding) d.data.length = .ok t := by
  obtain ⟨n, hrec⟩ := received_eq hd env s
  have hnoReply : ¬ (s.config.Takes d.dst ∧ d.IsReply s.ping.expectedId s.ping.expectedSeq) := by
    rintro ⟨-, h1, -⟩
    rw [hproto] at h1
    exact absurd h1 (by decide)
  rw [handleUdp_eq (by simp) h16]
  generalize s.received env d.src d.mac = r at hrec
  -- the packet is only counted unless it is a DHCP reply for this host
  by_cases hlen : 8 ≤ d.data.length
  swap
  · rw [if_neg fun h => hlen h.1]
    exact ⟨r, hrec ▸ handled_counted hd _ s.countEth.countIpv4.config rfl
      (fun msgType h => hlen h.2.1.2.1) hnoReply, rfl⟩
  rw [field16_append (by omega), field16_append (by omega)]
  by_cases hbad : 8 ≤ d.data.length ∧ 8 ≤ field16 d.data 4 ∧ field16 d.data 4 ≤ d.data.length
  swap
  · rw [if_neg hbad]
    exact ⟨r, hrec ▸ handled_counted hd _ s.countEth.countIpv4.config rfl
      (fun msgType h => hbad ⟨h.2.1.2.1, h.2.1.2.2.1, h.2.1.2.2.2.1⟩) hnoReply, rfl⟩
  rw [if_pos hbad]
  by_cases hport : field16 d.data 2 = 68
  swap
  · rw [if_neg hport]
    exact ⟨r.countUdp, hrec ▸ handled_counted hd _ s.countEth.countIpv4.countUdp.config rfl
      (fun msgType h => hport h.2.1.2.2.2.2) hnoReply, rfl⟩
  have hmlen : d.message.length = field16 d.data 4 - 8 := by
    rw [Ipv4.message, length_take, length_drop]
    omega
  have hmessage : (d.data ++ padding).drop 8 =
      d.message ++ ((d.data.drop 8).drop (field16 d.data 4 - 8) ++ padding) := by
    rw [drop_append_of_le_length hlen, ← append_assoc, Ipv4.message, take_append_drop]
  rw [if_pos hport, hmessage, ← hmlen]
  by_cases hfor : IsReplyFor d.message s.dhcp.expectedXid s.nicMac
  · obtain ⟨opts, hopts⟩ := exists_encodes (d.message.drop 240)
    have hacc : Accepted r.countUdp _ _ _ := IsReplyFor.accepted (s := r.countUdp)
      (by subst hrec; exact hfor) ((d.data.drop 8).drop d.message.length ++ padding) (by omega)
    refine ⟨_, ?_, hacc.handleDhcp (by rw [take_left' rfl]; exact hopts)⟩
    subst hrec
    exact handled_dhcp hd htakes ⟨hproto, hbad.1, hbad.2.1, hbad.2.2, hport⟩ hfor (by omega) hopts _
      s.countEth.countIpv4.countUdp.config rfl
  · refine ⟨r.countUdp, ?_, handleDhcp_of_not (s := r.countUdp) (by subst hrec; exact hfor) _⟩
    subst hrec
    exact handled_counted hd _ s.countEth.countIpv4.countUdp.config rfl
      (fun msgType h => hfor h.2.2.1) hnoReply

omit hd in
/-- **`net_rx_packet`** reads inside the frame, and polls the NIC only to answer an echo
request.

**Proof sketch.** The frame has an ARP packet, an IPv4 packet or neither, and the equations of the
handlers say for each what happens to the state. -/
lemma netRxPacket_cases (env : Env) (s : State) (h16 : f.length < 65536) :
    Ends env s f fun poll fuel => netRxPacket env poll fuel s f := by
  cases ha : arpOf f with
  | some a =>
    obtain ⟨t, ht, hhandled⟩ := handled_arp env s ha
    refine .inl ⟨?_, t, hhandled, fun poll fuel => (netRxPacket_arp h16 ha).trans ht⟩
    cases hd : ipv4Of f with
    | none => rw [asks, hd]; rfl
    | some d =>
      rw [arpOf_eq_none hd] at ha
      cases ha
  | none =>
    cases hd : ipv4Of f with
    | none =>
      refine .inl ⟨by rw [asks, hd]; rfl, _, ?_, fun poll fuel => netRxPacket_other h16 ha hd⟩
      have hcache : s.arpCache = heard s.config s.arpCache (s.now env) f := by
        rw [heard, ha, hd]
        rfl
      split_ifs
      · exact .of_eq [] (by simp) rfl rfl hcache ⟨rfl, rfl, rfl, rfl⟩ rfl
          (fun _ => not_brings hd) (not_brings hd)
      · exact .of_eq [] (by simp; rfl) rfl rfl hcache ⟨rfl, rfl, rfl, rfl⟩ rfl
          (fun _ => not_brings hd) (not_brings hd)
    | some d =>
      obtain ⟨n, hrec⟩ := received_eq hd env s
      have hdlen : d.data.length < 65536 := by
        unfold ipv4Of at hd
        dsimp only at hd
        split_ifs at hd
        cases hd
        rw [length_take, length_drop]
        omega
      obtain ⟨padding, hx⟩ := netRxPacket_ipv4 env s h16 hd
      simp only [hx]
      by_cases htakes : s.config.Takes d.dst
      swap
      · exact .inl ⟨asks_eq_none hd fun h => htakes h.2.1, _, handled_counted hd n
          s.countEth.countIpv4.config rfl (fun _ h => htakes h.1) fun h => htakes h.1,
        fun poll fuel => (if_neg htakes).trans (congrArg Except.ok hrec)⟩
      simp only [if_pos htakes, State.deliver]
      by_cases h1 : d.proto = 1
      · simp only [if_pos h1]
        exact ends_icmp hd htakes h1 padding
      simp only [if_neg h1]
      have hasks : asks s.config f = none := asks_eq_none hd fun h => h1 h.2.2.1
      by_cases h17 : d.proto = 17
      · obtain ⟨t, ht, hudp⟩ := handled_udp hd env htakes h17 hdlen padding
        exact .inl ⟨hasks, t, ht, fun poll fuel => (if_pos h17).trans hudp⟩
      · exact .inl ⟨hasks, _, handled_counted hd n s.countEth.countIpv4.config
          rfl (fun _ h => h17 h.2.1.1) fun h => h1 h.2.1,
          fun poll fuel => (if_neg h17).trans (congrArg Except.ok hrec)⟩

end Handled

/-! ## Runs -/

/-- **From `s` to `t` the log grows by `new`**: the DHCP variables take the values of the messages
in it, which are those that the received frames bring, an echo reply is reported if and only if a
received frame brings it, the settings stay, and no frame is added to those waiting except by
arrival. -/
structure Grows (env : Env) (s t : State) (new : List Event) : Prop
    extends SameSetup s t where
  log : t.log = s.log ++ new
  dhcp : t.dhcp = (replies new).foldl Dhcp.accept s.dhcp
  isFor : ∀ r ∈ replies new, r.IsFor s
  brought : ∀ msgType, (∃ r ∈ replies new, r.opts.msgType = msgType) ↔
    ∃ f ∈ delivered new, Brings s.config f (·.IsDhcp s.dhcp.expectedXid s.nicMac msgType)
  expected : t.ping.expectedId = s.ping.expectedId ∧ t.ping.expectedSeq = s.ping.expectedSeq
  reply : t.ping.replyReceived = true ↔ s.ping.replyReceived = true ∨
    ∃ f ∈ delivered new, Brings s.config f (·.IsReply s.ping.expectedId s.ping.expectedSeq)
  queue : (∀ n, env.arrivals n = []) → t.queue <:+ s.queue

/-- The receive path from `s`. -/
def Follows (env : Env) (s t : State) : Prop := ∃ new, Grows env s t new

section Grows

variable {env : Env} {s t u : State} {xs ys : List Event}

lemma replies_append (xs ys : List Event) : replies (xs ++ ys) = replies xs ++ replies ys :=
  filterMap_append

lemma delivered_append (xs ys : List Event) :
    delivered (xs ++ ys) = delivered xs ++ delivered ys := filterMap_append

/-- The transaction id stays. -/
lemma accept_expectedXid (d : Dhcp) (r : DhcpReply) : (d.accept r).expectedXid = d.expectedXid := by
  unfold Dhcp.accept
  split_ifs <;> rfl

lemma foldl_accept_expectedXid (d : Dhcp) (rs : List DhcpReply) :
    (rs.foldl Dhcp.accept d).expectedXid = d.expectedXid := by
  induction rs generalizing d with
  | nil => rfl
  | cons r rs ih => rw [foldl_cons, ih, accept_expectedXid]

/-- The NIC's address stays. -/
lemma Grows.nicMac (h : Grows env s t xs) : t.nicMac = s.nicMac := by
  unfold State.nicMac
  rw [h.nic.1, h.nic.2.2]

/-- The transaction id stays. -/
lemma Grows.expectedXid (h : Grows env s t xs) : t.dhcp.expectedXid = s.dhcp.expectedXid := by
  rw [h.dhcp, foldl_accept_expectedXid]

/-- Only frames are sent. -/
lemma Grows.of_sent (frames : List Frame) (hlog : t.log = s.log ++ frames.map .tx)
    (hdhcp : t.dhcp = s.dhcp) (hping : t.ping = s.ping) (hsetup : SameSetup s t)
    (hqueue : (∀ n, env.arrivals n = []) → t.queue <:+ s.queue) :
    Grows env s t (frames.map .tx) where
  toSameSetup := hsetup
  log := hlog
  dhcp := by simpa [replies] using hdhcp
  isFor := by simp [replies]
  brought := by simp [replies, delivered]
  expected := by rw [hping]; exact ⟨rfl, rfl⟩
  reply := by simp [hping, delivered]
  queue := hqueue

/-- Two runs of the receive path, one after the other. -/
lemma Grows.trans (h : Grows env s t xs) (h' : Grows env t u ys) : Grows env s u (xs ++ ys) where
  log := by rw [h'.log, h.log, append_assoc]
  dhcp := by rw [h'.dhcp, h.dhcp, replies_append, foldl_append]
  isFor := by
    intro r hr
    rw [replies_append] at hr
    obtain hr | hr := mem_append.1 hr
    · exact h.isFor r hr
    · obtain ⟨hxid, hmagic, hmac⟩ := h'.isFor r hr
      exact ⟨hxid.trans h.expectedXid, hmagic, hmac.trans h.nicMac⟩
  brought := by
    intro msgType
    have h₂ := h'.brought msgType
    simp only [h.expectedXid, h.nicMac, brings_congr h.settings] at h₂
    simp only [replies_append, delivered_append, mem_append, or_and_right, exists_or,
      h.brought msgType, h₂]
  expected := ⟨h'.expected.1.trans h.expected.1, h'.expected.2.trans h.expected.2⟩
  reply := by
    have h₂ := h'.reply
    simp only [h.expected.1, h.expected.2, brings_congr h.settings] at h₂
    simp only [h₂, h.reply, delivered_append, mem_append, or_and_right, exists_or, or_assoc]
  settings := h'.settings.trans h.settings
  nic := ⟨h'.nic.1.trans h.nic.1, h'.nic.2.1.trans h.nic.2.1, h'.nic.2.2.trans h.nic.2.2⟩
  queue ha := (h'.queue ha).trans (h.queue ha)

/-- A frame is taken and handled. -/
lemma Handled.follows {item : RxItem} {rest : List RxItem} (hq : s.queue = item :: rest)
    (h : Handled env (s.take item rest) item.frame t) : Follows env s t := by
  obtain ⟨new, hlog, hnone, hdhcp, hfor, hbrought⟩ := h.log
  have hdel : delivered (.rx item.frame :: new) = [item.frame] := congrArg (item.frame :: ·) hnone
  refine ⟨.rx item.frame :: new, ⟨h.settings, h.nic⟩, ?_, hdhcp, hfor, fun msgType => ?_,
    h.expected, ?_, fun _ => ?_⟩
  · rw [hlog]
    show s.log ++ [.rx item.frame] ++ new = _
    rw [append_assoc]
    rfl
  · simp only [hdel, mem_singleton, exists_eq_left]
    exact hbrought msgType
  · simp only [hdel, mem_singleton, exists_eq_left]
    exact h.reply
  · rw [h.queue, hq]
    exact suffix_cons item rest

lemma Follows.trans (h : Follows env s t) (h' : Follows env t u) : Follows env s u := by
  obtain ⟨xs, h⟩ := h
  obtain ⟨ys, h'⟩ := h'
  exact ⟨xs ++ ys, h.trans h'⟩

/-- A change of what the specification does not speak of. -/
lemma Follows.of_eq (hlog : t.log = s.log) (hdhcp : t.dhcp = s.dhcp) (hping : t.ping = s.ping)
    (hsetup : SameSetup s t) (hqueue : (∀ n, env.arrivals n = []) → t.queue <:+ s.queue) :
    Follows env s t :=
  ⟨_, .of_sent [] (by simpa using hlog) hdhcp hping hsetup hqueue⟩

lemma Follows.refl (env : Env) (s : State) : Follows env s s :=
  .of_eq rfl rfl rfl ⟨rfl, rfl, rfl, rfl⟩ fun _ => suffix_refl _

lemma follows_tick (env : Env) (s : State) : Follows env s s.tick :=
  .of_eq rfl rfl rfl ⟨rfl, rfl, rfl, rfl⟩ fun _ => suffix_refl _

end Grows

/-- No access is out of bounds, and the result follows `s`. -/
def Safe (env : Env) {α : Type} (s : State) (x : Res α) (st : α → State) : Prop :=
  Sat x (· ≠ .oob) fun a => Follows env s (st a)

/-! ## Sending -/

section Send

variable {env : Env} {s : State}

lemma length_toBe32 (v : UInt32) : (toBe32 v).length = 4 := rfl

lemma length_toBe16 (v : ℕ) : (toBe16 v).length = 2 := rfl

@[simp] lemma length_ipv4Packet (src dst : UInt32) (id : UInt16) (proto : UInt8)
    (payload : List UInt8) :
    (ipv4Packet src dst id proto payload).length = 20 + payload.length := by
  simp [ipv4Packet, ipv4Header, toBe16, toBe32]
  omega

/-- With a NIC, a packet with a known hardware address is handed to the hardware. -/
lemma sendIpv4To_eq (mac : Mac) (src dst : UInt32) (proto : UInt8) {payload : List UInt8}
    (hlen : payload.length ≤ 1480) (hnic : s.nicInitialized = true) :
    sendIpv4To env s mac src dst proto payload = .ok (if env.sendOk s.sends then 0 else -1,
      { s with
        ipIdCounter := s.ipIdCounter + 1
        sends := s.sends + 1
        log := s.log ++ [.tx (ethFrame mac s.nicMac 0x0800
          (ipv4Packet src dst s.ipIdCounter proto payload))] }) := by
  have hpacket := length_ipv4Packet src dst s.ipIdCounter proto payload
  have hframe : (ethFrame mac s.nicMac 0x0800
      (ipv4Packet src dst s.ipIdCounter proto payload)).length = 34 + payload.length := by
    simp only [ethFrame, toBe16, length_append, Vector.length_toList, length_cons,
      length_nil, hpacket]
    omega
  have hguard : ¬ (s.nicInitialized = false ∨
      1500 < (ipv4Packet src dst s.ipIdCounter proto payload).length) := by
    rw [hnic, hpacket]
    simp only [Bool.true_eq_false, false_or]
    omega
  rw [sendIpv4To, fits_eq (by omega), bind_ok, sendEthFrame, if_neg hguard, fits_eq (by omega),
    bind_ok]
  exact congrArg Except.ok (nicSendPacket_eq env (s := { s with ipIdCounter := s.ipIdCounter + 1 })
    hnic (hframe ▸ by omega) (hframe ▸ by omega))

/-- Without a NIC nothing is sent. -/
lemma sendIpv4To_without_nic (mac : Mac) (src dst : UInt32) (proto : UInt8)
    {payload : List UInt8} (hlen : payload.length ≤ 1480) (hnic : s.nicInitialized = false) :
    sendIpv4To env s mac src dst proto payload =
      .ok (-1, { s with ipIdCounter := s.ipIdCounter + 1 }) := by
  rw [sendIpv4To, fits_eq (by omega), bind_ok, sendEthFrame, if_pos (.inl hnic)]
  rfl

/-- With a hardware address, sending ends. -/
lemma follows_sendIpv4To (env : Env) (s : State) (mac : Mac) (src dst : UInt32) (proto : UInt8)
    {payload : List UInt8}
    (hlen : payload.length ≤ 1480) :
    ∃ r, sendIpv4To env s mac src dst proto payload = .ok r ∧ Follows env s r.2 ∧
      r.2.arpCache = s.arpCache ∧ r.2.queue = s.queue := by
  cases hnic : s.nicInitialized with
  | true =>
    exact ⟨_, sendIpv4To_eq mac src dst proto hlen hnic,
      ⟨_, .of_sent [_] rfl rfl rfl ⟨rfl, rfl, rfl, rfl⟩ fun _ => suffix_refl _⟩, rfl, rfl⟩
  | false =>
    exact ⟨_, sendIpv4To_without_nic mac src dst proto hlen hnic,
      .of_eq rfl rfl rfl ⟨rfl, rfl, rfl, rfl⟩ fun _ => suffix_refl _, rfl, rfl⟩

/-- An ARP request is sent. -/
lemma follows_sendArpPacket (env : Env) (s : State) (oper : ℕ) (mac : Mac) (ip : UInt32) :
    ∃ t, sendArpPacket env s oper mac ip = .ok t ∧ Follows env s t ∧ t.arpCache = s.arpCache ∧
      t.queue = s.queue := by
  obtain ⟨n, frames, hsend⟩ := sendArpPacket_eq env s oper mac ip
  exact ⟨_, hsend,
    ⟨_, .of_sent frames rfl rfl rfl ⟨rfl, rfl, rfl, rfl⟩ fun _ => suffix_refl _⟩, rfl, rfl⟩

variable {poll : State → Res State} (hpoll : ∀ s, Safe env s (poll s) id)

include hpoll

/-- The waiting loops. -/
lemma safe_pollWait (w : Wait) (start limit : UInt32) (n : ℕ) :
    Safe env s (pollWait env poll w start limit n s) Prod.snd := by
  induction n generalizing s with
  | zero => exact nofun
  | succ n ih =>
    unfold pollWait
    apply sat_ite
    · intro _
      refine (hpoll s.tick).bind fun t ht => ?_
      have hst : Follows env s t := (follows_tick env s).trans ht
      apply sat_ite
      · intro _
        exact hst
      · intro _
        exact ih.mono fun r hr => hst.trans hr
    · intro _
      exact follows_tick env s

/-- The attempts of `net_arp_resolve`. -/
lemma safe_arpAttempts (fuel : ℕ) (target perTry : UInt32) (k : ℕ) :
    Safe env s (arpAttempts env poll fuel target perTry k s) Prod.snd := by
  induction k generalizing s with
  | zero => exact Follows.refl env s
  | succ k ih =>
    unfold arpAttempts
    obtain ⟨t, hsend, ht, -⟩ := follows_sendArpPacket env s 1 bcastMac target
    rw [hsend, bind_ok]
    refine (safe_pollWait hpoll _ _ _ _).bind fun r hr => ?_
    have hsr : Follows env s r.2 := (ht.trans (follows_tick env t)).trans hr
    apply sat_ite
    · intro _
      exact hsr
    · intro _
      exact ih.mono fun a ha => hsr.trans ha

/-- Resolving an address makes no access out of bounds if polling makes none. -/
lemma safe_netArpResolve (fuel : ℕ) (target timeoutMs : UInt32) :
    Safe env s (netArpResolve env poll fuel s target timeoutMs) Prod.snd := by
  unfold netArpResolve
  split_ifs
  · exact Follows.refl env s
  · exact Follows.refl env s
  · cases arpCacheLookup s.arpCache target with
    | none => exact safe_arpAttempts hpoll _ _ _ _
    | some mac => exact Follows.refl env s

/-- Sending a packet makes no access out of bounds if polling makes none. -/
lemma safe_sendIpv4Packet (fuel : ℕ) (src dst : UInt32) (override : Option Mac) (proto : UInt8)
    (payload : List UInt8) :
    Safe env s (sendIpv4Packet env poll fuel s src dst override proto payload) Prod.snd := by
  unfold sendIpv4Packet
  split_ifs with hlen
  · exact Follows.refl env s
  · cases override with
    | some mac =>
      obtain ⟨r, hr, hfollow, -⟩ := follows_sendIpv4To env s mac src dst proto
        (show payload.length ≤ 1480 by omega)
      rw [Option.elim_some, hr]
      exact hfollow
    | none =>
      refine (safe_netArpResolve hpoll _ _ _).bind fun q hq => ?_
      cases q.1 with
      | none => exact hq
      | some mac =>
        obtain ⟨r, hr, hfollow, -⟩ := follows_sendIpv4To env q.2 mac src dst proto
          (show payload.length ≤ 1480 by omega)
        rw [Option.elim_some, hr]
        exact hq.trans hfollow

/-- `net_rx_packet` on a frame that is taken. -/
lemma safe_netRxPacket (fuel : ℕ) {item : RxItem} {rest : List RxItem}
    (hq : s.queue = item :: rest) (hlen : item.frame.length < 65536) :
    Safe env s (netRxPacket env poll fuel (s.take item rest) item.frame) id := by
  obtain ⟨-, t, ht, hx⟩ | ⟨src, reply, u, -, -, hu, hx⟩ :=
    netRxPacket_cases env (s.take item rest) hlen
  · have hok : netRxPacket env poll fuel (s.take item rest) item.frame = .ok t := hx poll fuel
    rw [hok]
    exact ht.follows hq
  · have hok := hx poll fuel
    dsimp only at hok
    rw [hok]
    exact (safe_sendIpv4Packet hpoll _ _ _ _ _ _).bind fun r hr => (hu.follows hq).trans hr

end Send

/-! ## Polling -/

/-- The driver hands the frame on: it has no error and a possible length. -/
def accepts (d : DriverType) (item : RxItem) : Bool :=
  match d with
  | .none => false
  | .e1000 => !item.error && 14 ≤ item.frame.length && item.frame.length ≤ 1600
  | .rtl8139 => !item.error && 18 ≤ item.frame.length + 4 && item.frame.length + 4 ≤ 1536

/-- What is still waiting after a frame is dropped: the driver of the RTL8139 drops all of it. -/
def leftAfter (d : DriverType) (rest : List RxItem) : List RxItem :=
  if d = .e1000 then rest else []

/-- How many frames one call of `nic_poll` takes. -/
def budgetOf (d : DriverType) : ℕ := if d = .none then 0 else 32

/-- The receive loops of the two drivers as one. -/
def pollRx (d : DriverType) (rx : State → Frame → Res State) : ℕ → State → Res State
  | 0, s => .ok s
  | budget + 1, s =>
    match s.queue with
    | [] => .ok s
    | item :: rest =>
      if accepts d item then rx (s.take item rest) item.frame >>= pollRx d rx budget
      else pollRx d rx budget { s with queue := leftAfter d rest }

section Poll

variable {env : Env} {s : State} {rx : State → Frame → Res State}

/-- A frame that a driver accepts is short. -/
lemma length_of_accepts {d : DriverType} {item : RxItem} (h : accepts d item = true) :
    item.frame.length < 65536 := by
  unfold accepts at h
  cases d with
  | none => cases h
  | e1000 =>
    simp only [Bool.and_eq_true, decide_eq_true_eq] at h
    omega
  | rtl8139 =>
    simp only [Bool.and_eq_true, decide_eq_true_eq] at h
    omega

/-- The loop of the E1000 as an instance of the common loop. -/
lemma e1000PollRx_eq (budget : ℕ) (s : State) :
    e1000PollRx rx budget s = pollRx .e1000 rx budget s := by
  induction budget generalizing s with
  | zero => rfl
  | succ budget ih =>
    unfold e1000PollRx pollRx
    cases s.queue with
    | nil => rfl
    | cons item rest =>
      have hiff : accepts .e1000 item = true ↔ item.error = false ∧ 14 ≤ item.frame.length ∧
          item.frame.length ≤ 1600 := by simp [accepts, and_assoc]
      simp only [ih, hiff]
      rfl

/-- The loop of the RTL8139 as an instance of the common loop. -/
lemma rtl8139PollRx_eq (budget : ℕ) (s : State) :
    rtl8139PollRx rx budget s = pollRx .rtl8139 rx budget s := by
  induction budget generalizing s with
  | zero => rfl
  | succ budget ih =>
    unfold rtl8139PollRx pollRx
    cases s.queue with
    | nil => rfl
    | cons item rest =>
      have hiff : accepts .rtl8139 item = true ↔ ¬ (item.error = true ∨
          item.frame.length + 4 < 18 ∨ 1536 < item.frame.length + 4) := by
        simp [accepts, and_assoc]
      have hclear : pollRx .rtl8139 rx budget { s with queue := [] } =
          .ok { s with queue := [] } := by cases budget <;> rfl
      dsimp only
      by_cases h : item.error = true ∨ item.frame.length + 4 < 18 ∨ 1536 < item.frame.length + 4
      · rw [if_pos h, if_neg fun h' => hiff.1 h' h]
        exact hclear.symm
      · simp only [if_neg h, if_pos (hiff.2 h), ih]

/-- `nic_poll` with either driver. -/
lemma nicPoll_succ (env : Env) (fuel : ℕ) (s : State) : nicPoll env (fuel + 1) s =
    if s.nicInitialized = false then .ok s
    else pollRx s.driverType (netRxPacket env (nicPoll env fuel) fuel) (budgetOf s.driverType)
      { s with queue := s.queue ++ env.arrivals s.polls, polls := s.polls + 1 } := by
  rw [nicPoll]
  dsimp only
  cases s.driverType with
  | none => rfl
  | e1000 => simp only [e1000PollRx_eq]; rfl
  | rtl8139 => simp only [rtl8139PollRx_eq]; rfl

/-- A frame is dropped. -/
lemma follows_drop (d : DriverType) {item : RxItem} {rest : List RxItem}
    (hq : s.queue = item :: rest) : Follows env s { s with queue := leftAfter d rest } := by
  refine .of_eq rfl rfl rfl ⟨rfl, rfl, rfl, rfl⟩ fun _ => ?_
  unfold leftAfter
  rw [hq]
  split_ifs
  · exact suffix_cons item rest
  · exact nil_suffix

/-- The loop of a driver. -/
lemma safe_pollRx (hrx : ∀ (s : State) item rest, s.queue = item :: rest →
      item.frame.length < 65536 → Safe env s (rx (s.take item rest) item.frame) id)
    (d : DriverType) (budget : ℕ) : Safe env s (pollRx d rx budget s) id := by
  induction budget generalizing s with
  | zero => exact Follows.refl env s
  | succ budget ih =>
    unfold pollRx
    split
    · exact Follows.refl env s
    · rename_i item rest hq
      apply sat_ite
      · intro h
        refine (hrx s item rest hq (length_of_accepts h)).bind fun t ht => ?_
        exact ih.mono fun u hu => ht.trans hu
      · intro _
        exact ih.mono fun u hu => (follows_drop d hq).trans hu

end Poll

/-- **`nic_poll`** hands on whole frames only. -/
lemma nicPoll_spec (env : Env) (fuel : ℕ) (s : State) : Safe env s (nicPoll env fuel s) id := by
  induction fuel generalizing s with
  | zero => exact nofun
  | succ fuel ih =>
    have harrive : Follows env s
        { s with queue := s.queue ++ env.arrivals s.polls, polls := s.polls + 1 } :=
      .of_eq rfl rfl rfl ⟨rfl, rfl, rfl, rfl⟩ fun ha => by rw [ha, append_nil]
    rw [nicPoll_succ]
    apply sat_ite
    · intro _
      exact Follows.refl env s
    · intro _
      exact (safe_pollRx (fun s item rest hq hlen => safe_netRxPacket ih fuel hq hlen) _ _).mono
        fun t ht => harrive.trans ht

/-- **Receive-path bounds safety.** For every frame of at most 65535 bytes, in every state and
whatever frames `nic_poll` delivers while a reply waits, no access of `net_rx_packet` and the
functions it calls is outside the frame, every part of it that is handed on lies inside, and no
copy goes beyond the end of its buffer. -/
theorem rx_in_bounds (env : Env) (fuel : ℕ) (s : State) (data : Frame)
    (h16 : data.length < 65536) :
    netRxPacket env (nicPoll env fuel) fuel s data ≠ .error .oob := by
  intro herr
  obtain ⟨-, t, -, hx⟩ | ⟨src, reply, u, -, -, -, hx⟩ := netRxPacket_cases env s h16
  · have hok := hx (nicPoll env fuel) fuel
    dsimp only at hok
    rw [herr] at hok
    cases hok
  · have hok := hx (nicPoll env fuel) fuel
    dsimp only at hok
    have hsend := (safe_sendIpv4Packet (s := u) (nicPoll_spec env fuel) fuel u.config.ip src none 1
      reply).bind (f := fun r => (pure r.2 : Res State)) (S := fun _ => True) fun _ _ => trivial
    rw [← hok, herr] at hsend
    exact hsend rfl

/-- A broadcast DHCPOFFER that ends inside its last option. -/
def cutOffer : Frame :=
  ethFrame bcastMac (Vector.replicate 6 2) 0x0800 (ipv4Packet 0x0A000202 0xFFFFFFFF 1 17
    (udpPacket 67 68 ((serverMessage idleHost.mac 2 0 0x0A00020F 0x0A000202).take 247)))

/-- The headers of the frame are read, and of its options the complete one. -/
theorem rx_in_bounds_cutOffer :
    cutOffer.length < 65536 ∧
      netRxPacket quietNet (nicPoll quietNet 1) 1 idleHost cutOffer ≠ .error .oob ∧
      (netRxPacket quietNet (nicPoll quietNet 1) 1 idleHost cutOffer).toOption.map
        (fun t => (t.dhcp.rxMsgType, t.dhcp.offeredIp, t.dhcp.offeredSrv)) =
          some (2, 0x0A00020F, 0) := by
  have hlen : cutOffer.length < 65536 := by decide +kernel
  exact ⟨hlen, rx_in_bounds quietNet 1 idleHost cutOffer hlen, by decide +kernel⟩

end BengalTiger.Net
