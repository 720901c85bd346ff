import BengalTiger.Net.Checksum
import BengalTiger.Net.Term

set_option autoImplicit false

/-!
# Echo requests

An echo request from the local subnet is answered on the spot: `handle_ipv4` puts the sender's
hardware address into the ARP cache, whatever is in it, so that the reply finds it there and nothing
has to be waited for.

## Main results

* `Net.arpCacheLookup_update` — an address that was just cached is found.
* `Net.netChecksum_echoReply` — the reply verifies.
* `Net.echo_request_answered` — the frame that is sent.
-/

namespace BengalTiger.Net

open Function List

open Nic (Frame)

/-! ## The ARP cache -/

/-- The slot that the loop finds is the one that a lookup finds. -/
lemma find?_of_arpScan {cache : ArpCache} {ip : UInt32} {is : List ℕ} {sc : ArpScan} {i : ℕ}
    (h : arpScan cache ip is sc = .inl i) :
    is.find? (fun i => (cache i).matches ip) = some i := by
  induction is generalizing sc with
  | nil => cases h
  | cons j is ih =>
    rw [arpScan] at h
    split_ifs at h with hj
    · cases h
      exact find?_cons_of_pos (p := fun i => (cache i).matches ip) hj
    · rw [find?_cons_of_neg (p := fun i => (cache i).matches ip) hj]
      exact ih h

/-- The slot that is taken for a new address is one of the cache. -/
lemma slot_lt (cache : ArpCache) (is : List ℕ) (his : ∀ i ∈ is, i < arpCacheSize) {sc : ArpScan}
    (hfree : ∀ i ∈ sc.freeSlot, i < arpCacheSize) (hold : sc.oldestSlot < arpCacheSize) :
    (is.foldl (fun sc i => sc.visit i (cache i)) sc).freeSlot.getD
      (is.foldl (fun sc i => sc.visit i (cache i)) sc).oldestSlot < arpCacheSize := by
  induction is generalizing sc with
  | nil =>
    cases hslot : sc.freeSlot with
    | none => simpa [hslot] using hold
    | some i => simpa [hslot] using hfree i hslot
  | cons i is ih =>
    have hi := his i mem_cons_self
    refine ih (fun j hj => his j (mem_cons_of_mem _ hj)) (fun j hj => ?_) ?_
    · dsimp only [ArpScan.visit] at hj
      split_ifs at hj
      · cases hj
        exact hi
      · exact hfree j hj
    · dsimp only [ArpScan.visit]
      split_ifs
      · exact hi
      · exact hold

/-- **An address that was just cached is found**, whatever the cache held. -/
lemma arpCacheLookup_update (cache : ArpCache) {ip : UInt32} (h0 : ip ≠ 0) (mac : Mac)
    (tick : UInt32) : arpCacheLookup (arpCacheUpdate cache ip mac tick) ip = some mac := by
  rw [arpCacheUpdate, if_neg h0]
  obtain ⟨i, -, hm, hscan⟩ | ⟨hno, hscan⟩ := arpScan_cases cache ip (List.range arpCacheSize)
    ⟨none, 0, 0xFFFFFFFF⟩
  · -- the address keeps its slot
    rw [hscan, Sum.elim_inl, arpCacheLookup]
    have hsame : ∀ j, (update cache i { cache i with mac := mac, updatedTick := tick }
        j).matches ip = (cache j).matches ip := fun j => by
      by_cases hj : j = i
      · subst hj
        rw [update_self]
        rfl
      · rw [update_of_ne hj]
    simp only [hsame, find?_of_arpScan hscan, Option.map_some, update_self]
  · -- the address gets a slot, and no other slot has it
    rw [hscan, Sum.elim_inr]
    have hk := slot_lt cache (List.range arpCacheSize) (fun i hi => mem_range.1 hi)
      (show ∀ i ∈ (⟨none, 0, 0xFFFFFFFF⟩ : ArpScan).freeSlot, i < arpCacheSize from
        fun i hi => by cases hi) (by decide)
    generalize ((List.range arpCacheSize).foldl (fun sc i => ArpScan.visit sc i (cache i))
      (⟨none, 0, 0xFFFFFFFF⟩ : ArpScan)).freeSlot.getD _ = k at hk ⊢
    have hmatch : ∀ j < arpCacheSize, (update cache k ⟨ip, mac, tick, true⟩ j).matches ip =
        decide (j = k) := fun j hj => by
      by_cases hjk : j = k
      · subst hjk
        rw [update_self]
        simp [ArpEntry.matches]
      · rw [update_of_ne hjk, hno j (mem_range.2 hj)]
        simp [hjk]
    have hfind : (List.range arpCacheSize).find?
        (fun j => (update cache k ⟨ip, mac, tick, true⟩ j).matches ip) = some k := by
      cases hf : (List.range arpCacheSize).find?
          (fun j => (update cache k ⟨ip, mac, tick, true⟩ j).matches ip) with
      | none =>
        have hk' := find?_eq_none.1 hf k (mem_range.2 hk)
        rw [hmatch k hk] at hk'
        simp at hk'
      | some j =>
        have hj := find?_some hf
        rw [hmatch j (mem_range.1 (mem_of_find?_eq_some hf)), decide_eq_true_eq] at hj
        rw [hj]
    rw [arpCacheLookup, hfind, Option.map_some, update_self]

/-! ## The reply -/

variable (env : Env) (poll : State → Res State) (fuel : ℕ) {s : State} {src : UInt32}
  {icmp : List UInt8} (padding : List UInt8)

/-- The state in which the handler is called, for a sender on the local subnet. -/
lemma received_of_isLocal (mac : Mac) (h : s.config.isLocal src) :
    s.received env src mac = { s.countEth.countIpv4.tick with
      arpCache := arpCacheUpdate s.arpCache src mac (s.now env) } := by
  have h' : s.countEth.countIpv4.config.isLocal src := h
  rw [State.received, if_pos h', State.learn, if_neg h.1]
  rfl

/-- **The reply verifies.** -/
lemma netChecksum_echoReply {request : List UInt8} (hge : 8 ≤ request.length)
    (hle : request.length ≤ 1480) : netChecksum (echoReply request) = 0 := by
  have hlen : ([0, 0] ++ 0 :: 0 :: request.drop 4).length ≤ 65535 := by
    simp only [length_append, length_cons, length_nil, length_drop]
    omega
  exact netChecksum_fill hlen (by decide)

/-- An echo request is answered, when the sender is in the ARP cache. -/
lemma handleIcmp_request {ttl : UInt8} {mac : Mac} (htype : icmp[0]? = some 8)
    (hge : 8 ≤ icmp.length) (hle : icmp.length ≤ 1480) (hconf : s.config.configured = true)
    (hnic : s.nicInitialized = true) (hbcast : src ≠ 0xFFFFFFFF) (hlocal : s.config.isLocal src)
    (hmac : arpCacheLookup s.arpCache src = some mac) :
    handleIcmp env poll fuel s src ttl (icmp ++ padding) icmp.length =
      .ok { s.countIcmp with
        ipIdCounter := s.ipIdCounter + 1
        sends := s.sends + 1
        log := s.log ++ [.tx (ethFrame mac s.mac 0x0800
          (ipv4Packet s.config.ip src s.ipIdCounter 1 (echoReply icmp)))] } := by
  have hbyte : byte (icmp ++ padding) 0 = 8 := by
    rw [byte_append (by omega), byte, getD_eq_getElem?_getD, htype]
    rfl
  have hreply : (echoReply icmp).length = icmp.length := length_echoReply (by omega)
  have hnic' : s.countIcmp.nicInitialized = true := hnic
  have hnicMac : s.countIcmp.nicMac = s.mac := by
    rw [State.nicMac, if_pos hnic']
    rfl
  -- the next hop is the sender itself, which is found in the cache
  have hroute : routeNextHop s.countIcmp.config src = src := by
    rw [routeNextHop, if_neg hbcast, if_neg]
    exact fun h => h.2.2 hlocal.2.2
  have hresolve : netArpResolve env poll fuel s.countIcmp src 800 =
      .ok (some mac, s.countIcmp) := by
    have hmac' : arpCacheLookup s.countIcmp.arpCache src = some mac := hmac
    rw [netArpResolve, if_neg (by rw [hnic']; decide), if_neg hbcast, hmac']
    rfl
  rw [handleIcmp_eq (by simp), if_neg (by omega), if_pos ⟨hbyte, hconf⟩, if_neg (by omega),
    take_left' rfl, sendIpv4Packet, if_neg (by omega), Option.elim_none, hroute, hresolve,
    bind_ok, Option.elim_some, sendIpv4To_eq mac _ src 1 (by omega) hnic', hnicMac]
  rfl

/-- **Echo requests are answered.** A configured host with a NIC and a netmask receives a frame with
a valid IPv4 packet for its address, with options and padding or without, from an address of its
subnet that is neither zero nor the broadcast address, and the packet holds an echo request of 8 to
1480 bytes. Whatever is in the ARP cache, the host sends exactly one frame and does not wait for
anything (the NIC is not polled): to the hardware address that the request came from, with a valid
header from its own address to the sender's, and with a message that differs from the request in
type, code and checksum only, of type and code 0 and with a checksum that verifies.

**Proof sketch.** `handle_ipv4` puts the sender into the ARP cache before the message is handled
(`received_of_isLocal`), so that the next hop, which is the sender itself, is found there. -/
theorem echo_request_answered (env : Env) (poll : State → Res State) (fuel : ℕ) (s : State)
    (dstMac mac : Mac) (src : UInt32) (words : ℕ) (header icmp padding : List UInt8)
    (hconf : s.config.configured = true) (hmask : s.config.netmask ≠ 0)
    (hnic : s.nicInitialized = true)
    (hlen : (ethFrame dstMac mac 0x0800 (header ++ icmp ++ padding)).length < 65536)
    (hheader : Ipv4Header header words (header.length + icmp.length) 1 src s.config.ip)
    (hsrc : src ≠ 0) (hbcast : src ≠ 0xFFFFFFFF)
    (hsubnet : src &&& s.config.netmask = s.config.ip &&& s.config.netmask)
    (htype : icmp[0]? = some 8) (hge : 8 ≤ icmp.length) (hle : icmp.length ≤ 1480) :
    ∃ t frame header' reply,
      netRxPacket env poll fuel s (ethFrame dstMac mac 0x0800 (header ++ icmp ++ padding)) =
        .ok t ∧
      t.log = s.log ++ [.tx frame] ∧ t.sends = s.sends + 1 ∧ t.polls = s.polls ∧
      frame = ethFrame mac s.mac 0x0800 (header' ++ reply) ∧
      Ipv4Header header' 5 (20 + icmp.length) 1 s.config.ip src ∧
      reply.length = icmp.length ∧ reply.take 2 = [0, 0] ∧ reply.drop 4 = icmp.drop 4 ∧
      netChecksum reply = 0 := by
  have hlocal : s.config.isLocal src := ⟨hsrc, hmask, hsubnet⟩
  have hreceived := received_of_isLocal env mac hlocal
  have hcache : arpCacheLookup (s.received env src mac).arpCache src = some mac := by
    rw [hreceived]
    exact arpCacheLookup_update s.arpCache hsrc mac (s.now env)
  rw [append_assoc] at hlen ⊢
  obtain ⟨rest, hx⟩ := netRxPacket_ipv4 env s hlen
    (ipv4Of_ethFrame dstMac mac padding hheader)
  have hrx := hx poll fuel
  rw [if_pos (show s.config.Takes s.config.ip from .inr (.inr rfl)), State.deliver, if_pos rfl,
    handleIcmp_request env poll fuel rest htype hge hle (by rw [hreceived]; exact hconf)
    (by rw [hreceived]; exact hnic) hbcast (by rw [hreceived]; exact hlocal) hcache,
    hreceived] at hrx
  refine ⟨_, _, _, echoReply icmp, hrx, rfl, rfl, rfl, rfl, ?_,
    length_echoReply (by omega), rfl, ?_, netChecksum_echoReply hge hle⟩
  · rw [← length_echoReply (by omega : 4 ≤ icmp.length)]
    exact header_ipv4Header _ _ _ _ (by rw [length_echoReply (by omega)]; omega)
  · rfl

/-- 10.0.2.7 sends a request of eight bytes in a frame with two bytes of padding. -/
theorem echo_request_answered_ping :
    ∃ t frame header reply,
      netRxPacket quietNet (nicPoll quietNet 0) 0 (pingedHost 0x0A000207)
        (pingFrom 0x0A000207 ++ [0, 0]) = .ok t ∧ t.log = [.tx frame] ∧ t.sends = 1 ∧ t.polls = 0 ∧
      frame = ethFrame (Vector.replicate 6 2) idleHost.mac 0x0800 (header ++ reply) ∧
      Ipv4Header header 5 28 1 0x0A00020F 0x0A000207 ∧
      reply.length = 8 ∧ reply.take 2 = [0, 0] ∧ reply.drop 4 = [0, 1, 0, 1] ∧
      netChecksum reply = 0 := by
  have hheader := header_ipv4Header 0x0A000207 0x0A00020F 1 1 (by decide : 8 < 65516)
  have hframe : pingFrom 0x0A000207 ++ [0, 0] = ethFrame idleHost.mac (Vector.replicate 6 2) 0x0800
      (ipv4Header 0x0A000207 0x0A00020F 1 1 8 (netChecksum (ipv4Header 0x0A000207 0x0A00020F 1 1 8
        0)) ++ [8, 0, 0xF7, 0xFD, 0, 1, 0, 1] ++ [0, 0]) := by
    simp only [pingFrom, ethFrame, ipv4Packet, append_assoc, length_cons, length_nil]
  generalize ipv4Header 0x0A000207 0x0A00020F 1 1 8 _ = header at hheader hframe
  have hlength : header.length = 20 := hheader.length_eq
  rw [hframe]
  exact echo_request_answered quietNet (nicPoll quietNet 0) 0 (pingedHost 0x0A000207) idleHost.mac
    (Vector.replicate 6 2) 0x0A000207 5 header [8, 0, 0xF7, 0xFD, 0, 1, 0, 1] [0, 0] rfl (by decide)
    rfl (by simp [ethFrame, toBe16, hlength]) (by rw [hlength]; exact hheader) (by decide)
    (by decide) (by decide) rfl (by decide) (by decide)

end BengalTiger.Net
