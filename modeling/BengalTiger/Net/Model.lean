import BengalTiger.Lib.Exc
import BengalTiger.Net.Packet
import BengalTiger.Nic.Tx

set_option autoImplicit false

/-!
# The network stack

The sending, receiving and waiting functions of `kernel/net.c`, and the polling functions of
`kernel/nic.c` that call them back: `nic_poll` hands the waiting frames to `net_rx_packet`, whose
reply to an echo request may wait for an ARP entry and so call `nic_poll` again.

A pointer into a received frame is the list of the bytes from there to the end of the frame, and
every access is checked: an access outside the frame, a part of it that is handed on and does not
lie inside, or a copy beyond the end of a local buffer stops the program with `Stop.oob`. The
waiting loops and the recursion are bounded by fuel; a program that needs more stops with
`Stop.fuel`. The environment is a stream of values that the tick counter shows, of frames that
arrive before each call of `nic_poll`, and of results of the transmit hardware; `hlt` between two
rounds of a loop is not visible. The log of the state is a history variable.

## Main definitions

* `Net.State`, `Net.Env`, `Net.Res`.
* `Net.netRxPacket`, `Net.nicPoll` — the receive path.
* `Net.sendIpv4Packet`, `Net.netArpResolve`, `Net.netSendUdp`
  — the send path.
* `Net.netDhcpDiscover` — the DHCP client.
-/

namespace BengalTiger.Net

open Nic (DriverType Frame)

/-! ## State -/

/-- `net_config_t`. -/
structure Config where
  configured : Bool
  dhcpLeased : Bool
  ip : UInt32
  netmask : UInt32
  gateway : UInt32
  dns : UInt32
  dhcpServer : UInt32
  rxEth : UInt32
  rxArp : UInt32
  rxIpv4 : UInt32
  rxIcmp : UInt32
  rxUdp : UInt32

/-- The static variables that track a ping. -/
structure Ping where
  replyReceived : Bool
  expectedId : ℕ
  expectedSeq : ℕ
  replyTtl : UInt8
  replyTick : UInt32

/-- The static variables that track the DHCP exchange. -/
structure Dhcp where
  rxMsgType : UInt8
  expectedXid : UInt32
  offeredIp : UInt32
  offeredMask : UInt32
  offeredGw : UInt32
  offeredDns : UInt32
  offeredSrv : UInt32

/-- The values that `handle_dhcp` finds in the options of a message, zero when absent. -/
structure DhcpOpts where
  msgType : UInt8
  mask : UInt32
  gw : UInt32
  dns : UInt32
  srv : UInt32

/-- A message that has passed the header checks of `handle_dhcp`. -/
structure DhcpReply where
  xid : UInt32
  magic : UInt32
  chaddr : Mac
  yiaddr : UInt32
  opts : DhcpOpts

/-- What happened, in order: a frame was handed to `nic_send_packet`, the driver handed a frame to
`net_rx_packet`, or a message passed the header checks of `handle_dhcp`. -/
inductive Event where
  | tx (frame : Frame)
  | rx (frame : Frame)
  | dhcp (reply : DhcpReply)

/-- A frame in the receive memory of the NIC; `error` stands for the error bits of its
descriptor. -/
structure RxItem where
  error : Bool
  frame : Frame

/-- The state of the network stack and of the NIC's receive side. -/
structure State where
  config : Config
  arpCache : ArpCache
  ipIdCounter : UInt16
  ping : Ping
  dhcp : Dhcp
  /-- `nic_state.initialized`, `driver_type` and `mac`, and the frames waiting. -/
  nicInitialized : Bool
  driverType : DriverType
  mac : Mac
  queue : List RxItem
  /-- How often the clock was read, `nic_poll` called, and a frame sent. -/
  clockReads : ℕ
  polls : ℕ
  sends : ℕ
  log : List Event

/-- The environment: `timer_state.frequency`, the successive values of the tick counter, the
frames that arrive before each `nic_poll`, and whether the hardware takes each frame. -/
structure Env where
  frequency : UInt32
  clock : ℕ → UInt32
  arrivals : ℕ → List RxItem
  sendOk : ℕ → Bool

/-- The waiting loops of `net.c`, by what they wait for. -/
inductive Wait where
  | arp (target : UInt32)
  | dhcpOffer
  | dhcpAck
  | echoReply

/-- Why a program stops: an access outside its bounds, or no fuel, in a waiting loop or in the
recursion of `nic_poll`. -/
inductive Stop where
  | oob
  | fuel (wait : Option Wait) (s : State)

/-- Programs. -/
abbrev Res (α : Type) := Except Stop α

/-! ## Checked access -/

/-- The byte at `p[i]`. -/
def rd (p : List UInt8) (i : ℕ) : Res UInt8 := p[i]?.elim (.error .oob) .ok

/-- The two-byte field at `p + i`. -/
def rd16 (p : List UInt8) (i : ℕ) : Res ℕ := do
  let a ← rd p i
  let b ← rd p (i + 1)
  return be16 a b

/-- The four-byte field at `p + i`. -/
def rd32 (p : List UInt8) (i : ℕ) : Res UInt32 := do
  let a ← rd p i
  let b ← rd p (i + 1)
  let c ← rd p (i + 2)
  let d ← rd p (i + 3)
  return be32 a b c d

/-- The hardware address at `p + i`. -/
def rdMac (p : List UInt8) (i : ℕ) : Res Mac := do
  let a ← rd p i
  let b ← rd p (i + 1)
  let c ← rd p (i + 2)
  let d ← rd p (i + 3)
  let e ← rd p (i + 4)
  let f ← rd p (i + 5)
  return #v[a, b, c, d, e, f]

/-- The `n` bytes at `p`. -/
def rdBytes (p : List UInt8) (n : ℕ) : Res (List UInt8) :=
  if n ≤ p.length then .ok (p.take n) else .error .oob

/-- The part of `n` bytes from `p + i` that is handed to another function: it must lie inside the
frame. -/
def slice (p : List UInt8) (i n : ℕ) : Res (List UInt8) :=
  if i + n ≤ p.length then .ok (p.drop i) else .error .oob

/-- A copy of `n` bytes into a local buffer of `size` bytes. -/
def fits (n size : ℕ) : Res Unit := if n ≤ size then .ok () else .error .oob

/-! ## The clock and the transmit hardware -/

/-- The value that the next call of `timer_get_ticks` returns. -/
def State.now (env : Env) (s : State) : UInt32 := env.clock s.clockReads

/-- The state after a call of `timer_get_ticks`. -/
def State.tick (s : State) : State := { s with clockReads := s.clockReads + 1 }

/-- `nic_send_packet`: zero when the hardware takes the frame. -/
def nicSendPacket (env : Env) (s : State) (frame : Frame) : ℤ × State :=
  if s.nicInitialized = false ∨ frame.length = 0 ∨ 1518 < frame.length then (-1, s)
  else (if env.sendOk s.sends then 0 else -1,
    { s with sends := s.sends + 1, log := s.log ++ [.tx frame] })

/-- With a NIC, a frame of a possible length is handed to the hardware. -/
lemma nicSendPacket_eq (env : Env) {s : State} {frame : Frame} (hnic : s.nicInitialized = true)
    (hpos : 0 < frame.length) (hle : frame.length ≤ 1518) :
    nicSendPacket env s frame = (if env.sendOk s.sends then 0 else -1,
      { s with sends := s.sends + 1, log := s.log ++ [.tx frame] }) := by
  rw [nicSendPacket, if_neg]
  rw [hnic]
  simp only [Bool.true_eq_false, false_or]
  omega

/-! ## Sending -/

/-- `nic_get_mac`. -/
def State.nicMac (s : State) : Mac := if s.nicInitialized then s.mac else Vector.replicate 6 0

/-- `bcast_mac`. -/
def bcastMac : Mac := Vector.replicate 6 0xFF

/-- `send_eth_frame`. -/
def sendEthFrame (env : Env) (s : State) (dst : Mac) (ethertype : ℕ) (payload : List UInt8) :
    Res (ℤ × State) := do
  if s.nicInitialized = false ∨ 1500 < payload.length then return (-1, s)
  fits (14 + payload.length) 1518
  return nicSendPacket env s (ethFrame dst s.nicMac ethertype payload)

/-- `send_arp_packet`. -/
def sendArpPacket (env : Env) (s : State) (oper : ℕ) (targetMac : Mac) (targetIp : UInt32) :
    Res State := do
  let tha := if oper = 1 then Vector.replicate 6 0 else targetMac
  let dst := if oper = 1 then bcastMac else targetMac
  let r ← sendEthFrame env s dst 0x0806 (arpPacket oper s.nicMac s.config.ip tha targetIp)
  return r.2

/-- The condition under which a waiting loop is left early. -/
def Wait.over : Wait → State → Bool
  | .arp target, s => (arpCacheLookup s.arpCache target).isSome
  | .dhcpOffer, s => s.dhcp.rxMsgType == 2 && s.dhcp.offeredIp != 0
  | .dhcpAck, s => s.dhcp.rxMsgType == 5
  | .echoReply, s => s.ping.replyReceived

/-- The bound on the ticks passed: `net_ping` compares with `<=`, the others with `<`. -/
def Wait.inTime : Wait → UInt32 → UInt32 → Bool
  | .echoReply, elapsed, limit => elapsed ≤ limit
  | _, elapsed, limit => elapsed < limit

/-- The waiting loops: poll the NIC until the condition holds or the time is over; the result
says which. -/
def pollWait (env : Env) (poll : State → Res State) (w : Wait) (start limit : UInt32) :
    ℕ → State → Res (Bool × State)
  | 0, s => .error (.fuel (some w) s)
  | n + 1, s =>
    if w.inTime (s.now env - start) limit then do
      let t ← poll s.tick
      if w.over t then return (true, t)
      pollWait env poll w start limit n t
    else return (false, s.tick)

/-- The three attempts of `net_arp_resolve`. -/
def arpAttempts (env : Env) (poll : State → Res State) (fuel : ℕ) (target perTry : UInt32) :
    ℕ → State → Res (Option Mac × State)
  | 0, s => return (none, s)
  | k + 1, s => do
    let s ← sendArpPacket env s 1 bcastMac target
    let r ← pollWait env poll (.arp target) (s.now env) perTry fuel s.tick
    if r.1 then return (arpCacheLookup r.2.arpCache target, r.2)
    arpAttempts env poll fuel target perTry k r.2

/-- `timer_state.frequency ? timer_state.frequency : 100`. -/
def ticksPerSec (env : Env) : UInt32 := if env.frequency ≠ 0 then env.frequency else 100

/-- `wait_ticks` and `per_try` of `net_arp_resolve`. -/
def arpPerTry (env : Env) (timeoutMs : UInt32) : UInt32 :=
  let waitTicks := timeoutMs * ticksPerSec env / 1000
  let waitTicks := if waitTicks < 5 then 5 else waitTicks
  if waitTicks / 3 ≠ 0 then waitTicks / 3 else 2

/-- `net_arp_resolve`; `none` is the result -1. -/
def netArpResolve (env : Env) (poll : State → Res State) (fuel : ℕ) (s : State)
    (target timeoutMs : UInt32) : Res (Option Mac × State) :=
  if s.nicInitialized = false then return (none, s)
  else if target = 0xFFFFFFFF then return (some bcastMac, s)
  else (arpCacheLookup s.arpCache target).elim
    (arpAttempts env poll fuel target (arpPerTry env timeoutMs) 3 s)
    (fun mac => return (some mac, s))

/-- `route_next_hop`. -/
def routeNextHop (config : Config) (dst : UInt32) : UInt32 :=
  if dst = 0xFFFFFFFF then 0xFFFFFFFF
  else if config.netmask ≠ 0 ∧ config.gateway ≠ 0 ∧
      dst &&& config.netmask ≠ config.ip &&& config.netmask then config.gateway
  else dst

/-- The end of `send_ipv4_packet`, when the hardware address is known. -/
def sendIpv4To (env : Env) (s : State) (mac : Mac) (src dst : UInt32) (proto : UInt8)
    (payload : List UInt8) : Res (ℤ × State) := do
  fits (20 + payload.length) 1500
  sendEthFrame env { s with ipIdCounter := s.ipIdCounter + 1 } mac 0x0800
    (ipv4Packet src dst s.ipIdCounter proto payload)

/-- `send_ipv4_packet`; `override` is `dst_mac_override`. -/
def sendIpv4Packet (env : Env) (poll : State → Res State) (fuel : ℕ) (s : State)
    (src dst : UInt32) (override : Option Mac) (proto : UInt8) (payload : List UInt8) :
    Res (ℤ × State) :=
  if 1500 < 20 + payload.length then return (-1, s)
  else override.elim
    (do
      let r ← netArpResolve env poll fuel s (routeNextHop s.config dst) 800
      r.1.elim (return (-1, r.2)) fun mac => sendIpv4To env r.2 mac src dst proto payload)
    (fun mac => sendIpv4To env s mac src dst proto payload)

/-- `net_send_udp`. -/
def netSendUdp (env : Env) (poll : State → Res State) (fuel : ℕ) (s : State) (dst : UInt32)
    (srcPort dstPort : ℕ) (payload : List UInt8) : Res (ℤ × State) := do
  if 1472 < 8 + payload.length then return (-1, s)
  fits (8 + payload.length) 1480
  sendIpv4Packet env poll fuel s s.config.ip dst
    (if dst = 0xFFFFFFFF then some bcastMac else none) 17 (udpPacket srcPort dstPort payload)

/-! ## Receiving -/

/-- `net_config.rx_eth++`, and likewise for the other protocols. -/
def State.countEth (s : State) : State := { s with config.rxEth := s.config.rxEth + 1 }

@[inherit_doc State.countEth]
def State.countArp (s : State) : State := { s with config.rxArp := s.config.rxArp + 1 }

@[inherit_doc State.countEth]
def State.countIpv4 (s : State) : State := { s with config.rxIpv4 := s.config.rxIpv4 + 1 }

@[inherit_doc State.countEth]
def State.countIcmp (s : State) : State := { s with config.rxIcmp := s.config.rxIcmp + 1 }

@[inherit_doc State.countEth]
def State.countUdp (s : State) : State := { s with config.rxUdp := s.config.rxUdp + 1 }

/-- `arp_cache_update` on the state: it reads the clock unless the address is 0. -/
def State.learn (env : Env) (s : State) (ip : UInt32) (mac : Mac) : State :=
  if ip = 0 then s
  else { s.tick with arpCache := arpCacheUpdate s.arpCache ip mac (s.now env) }

/-- `handle_arp`. -/
def handleArp (env : Env) (s : State) (p : List UInt8) (len : ℕ) : Res State := do
  if len < 28 then return s
  let htype ← rd16 p 0
  let ptype ← rd16 p 2
  if htype ≠ 1 ∨ ptype ≠ 0x0800 then return s
  let s := s.countArp
  let senderIp ← rd32 p 14
  let targetIp ← rd32 p 24
  let oper ← rd16 p 6
  let sha ← rdMac p 8
  let s := s.learn env senderIp sha
  if oper = 1 ∧ s.config.configured = true ∧ targetIp = s.config.ip then
    sendArpPacket env s 2 sha senderIp
  else return s

/-- The echo reply that `handle_icmp` builds from a request: type, code and checksum are
replaced. -/
def echoReply (request : List UInt8) : List UInt8 :=
  [0, 0] ++ toBe16 (netChecksum ([0, 0, 0, 0] ++ request.drop 4)) ++ request.drop 4

/-- The awaited echo reply has come. -/
def State.gotEchoReply (env : Env) (s : State) (ttl : UInt8) : State :=
  { s.tick with
    ping := { s.ping with replyTtl := ttl, replyTick := s.now env, replyReceived := true } }

/-- `handle_icmp`. -/
def handleIcmp (env : Env) (poll : State → Res State) (fuel : ℕ) (s : State) (srcIp : UInt32)
    (ttl : UInt8) (p : List UInt8) (len : ℕ) : Res State := do
  if len < 8 then return s
  let s := s.countIcmp
  let type ← rd p 0
  if type = 8 ∧ s.config.configured = true then
    if 1480 < len then return s
    let request ← rdBytes p len
    fits len 1480
    let r ← sendIpv4Packet env poll fuel s s.config.ip srcIp none 1 (echoReply request)
    return r.2
  else if type = 0 then
    let id ← rd16 p 4
    let seq ← rd16 p 6
    if id = s.ping.expectedId ∧ seq = s.ping.expectedSeq then
      return s.gotEchoReply env ttl
    else return s
  else return s

/-- One complete option of `handle_dhcp`'s loop, with its data at `p + i`. -/
def DhcpOpts.apply (o : DhcpOpts) (code : UInt8) (olen : ℕ) (p : List UInt8) (i : ℕ) :
    Res DhcpOpts := do
  if code = 53 ∧ 1 ≤ olen then
    let v ← rd p i
    return { o with msgType := v }
  else if code = 1 ∧ 4 ≤ olen then
    let v ← rd32 p i
    return { o with mask := v }
  else if code = 3 ∧ 4 ≤ olen then
    let v ← rd32 p i
    return { o with gw := v }
  else if code = 6 ∧ 4 ≤ olen then
    let v ← rd32 p i
    return { o with dns := v }
  else if code = 54 ∧ 4 ≤ olen then
    let v ← rd32 p i
    return { o with srv := v }
  else return o

/-- The option loop of `handle_dhcp` from index `i`, with `uint16_t` indices. Each round moves
the index forward, so `optLen` rounds suffice. -/
def parseOptions (p : List UInt8) (optLen : ℕ) : ℕ → ℕ → DhcpOpts → Res DhcpOpts
  | 0, _, o => return o
  | n + 1, i, o =>
    if i < optLen then do
      let code ← rd p i
      if code = 0 then parseOptions p optLen n (u16 (i + 1)) o
      else if code = 255 then return o
      else if optLen ≤ u16 (i + 1) then return o
      else do
        let olen ← rd p (u16 (i + 1))
        if optLen < u16 (i + 2) + olen.toNat then return o
        else do
          let o ← o.apply code olen.toNat p (u16 (i + 2))
          parseOptions p optLen n (u16 (u16 (i + 2) + olen.toNat)) o
    else return o

/-- The end of `handle_dhcp`: an OFFER or ACK overwrites the values it carries. -/
def Dhcp.accept (d : Dhcp) (r : DhcpReply) : Dhcp :=
  if r.opts.msgType = 2 ∨ r.opts.msgType = 5 then
    { d with
      offeredIp := if r.yiaddr ≠ 0 then r.yiaddr else d.offeredIp
      offeredMask := if r.opts.mask ≠ 0 then r.opts.mask else d.offeredMask
      offeredGw := if r.opts.gw ≠ 0 then r.opts.gw else d.offeredGw
      offeredDns := if r.opts.dns ≠ 0 then r.opts.dns else d.offeredDns
      offeredSrv := if r.opts.srv ≠ 0 then r.opts.srv else d.offeredSrv
      rxMsgType := r.opts.msgType }
  else d

/-- A message has passed the header checks. -/
def State.gotReply (s : State) (r : DhcpReply) : State :=
  { s with dhcp := s.dhcp.accept r, log := s.log ++ [.dhcp r] }

/-- `handle_dhcp`. -/
def handleDhcp (s : State) (p : List UInt8) (len : ℕ) : Res State := do
  if len < 240 then return s
  let op ← rd p 0
  if op ≠ 2 then return s
  let xid ← rd32 p 4
  if xid ≠ s.dhcp.expectedXid then return s
  let magic ← rd32 p 236
  if magic ≠ dhcpMagicCookie then return s
  let chaddr ← rdMac p 28
  if chaddr ≠ s.nicMac then return s
  let yiaddr ← rd32 p 16
  let optLen := u16 (len - 240)
  let opts ← parseOptions (p.drop 240) optLen optLen 0 ⟨0, 0, 0, 0, 0⟩
  return s.gotReply ⟨xid, magic, chaddr, yiaddr, opts⟩

/-- `handle_udp`. -/
def handleUdp (s : State) (p : List UInt8) (len : ℕ) : Res State := do
  if len < 8 then return s
  let ulen ← rd16 p 4
  if ulen < 8 ∨ len < ulen then return s
  let s := s.countUdp
  let dstPort ← rd16 p 2
  if dstPort = 68 then
    let message ← slice p 8 (u16 (ulen - 8))
    handleDhcp s message (u16 (ulen - 8))
  else return s

/-- The sender is on the local subnet, so that `handle_ipv4` caches its hardware address. -/
def Config.isLocal (config : Config) (src : UInt32) : Prop :=
  src ≠ 0 ∧ config.netmask ≠ 0 ∧ src &&& config.netmask = config.ip &&& config.netmask

instance (config : Config) (src : UInt32) : Decidable (config.isLocal src) :=
  inferInstanceAs (Decidable (_ ∧ _ ∧ _))

/-- Cache the hardware address of a sender on the local subnet. -/
def learnSender (env : Env) (s : State) (ethSrc : List UInt8) (srcIp : UInt32) : Res State := do
  if s.config.isLocal srcIp then
    let mac ← rdMac ethSrc 0
    return s.learn env srcIp mac
  else return s

/-- The part of `handle_ipv4` after the checks of the header. -/
def deliverIpv4 (env : Env) (poll : State → Res State) (fuel : ℕ) (s : State)
    (ethSrc p : List UInt8) (ihl totalLen : ℕ) : Res State := do
  let s := s.countIpv4
  let srcIp ← rd32 p 12
  let dstIp ← rd32 p 16
  let s ← learnSender env s ethSrc srcIp
  if dstIp ≠ 0xFFFFFFFF ∧ s.config.configured = true ∧ dstIp ≠ s.config.ip then return s
  let proto ← rd p 9
  let ttl ← rd p 8
  let l4Len := u16 (totalLen - ihl)
  let l4 ← slice p ihl l4Len
  if proto = 1 then handleIcmp env poll fuel s srcIp ttl l4 l4Len
  else if proto = 17 then handleUdp s l4 l4Len
  else return s

/-- `handle_ipv4`. -/
def handleIpv4 (env : Env) (poll : State → Res State) (fuel : ℕ) (s : State)
    (ethSrc p : List UInt8) (len : ℕ) : Res State := do
  if len < 20 then return s
  let verIhl ← rd p 0
  if verIhl.toNat / 16 ≠ 4 then return s
  let ihl := verIhl.toNat % 16 * 4
  if ihl < 20 ∨ len < ihl then return s
  let totalLen ← rd16 p 2
  if totalLen < ihl ∨ len < totalLen then return s
  let header ← rdBytes p ihl
  if netChecksum header ≠ 0 then return s
  deliverIpv4 env poll fuel s ethSrc p ihl totalLen

/-- `net_rx_packet`. -/
def netRxPacket (env : Env) (poll : State → Res State) (fuel : ℕ) (s : State) (data : Frame) :
    Res State := do
  if data.length < 14 then return s
  let s := s.countEth
  let ethertype ← rd16 data 12
  let len := u16 (data.length - 14)
  let payload ← slice data 14 len
  if ethertype = 0x0806 then handleArp env s payload len
  else if ethertype = 0x0800 then handleIpv4 env poll fuel s (data.drop 6) payload len
  else return s

/-! ## Polling -/

/-- A frame is taken out of the receive memory, to be handed to `net_rx_packet`. -/
def State.take (s : State) (item : RxItem) (rest : List RxItem) : State :=
  { s with queue := rest, log := s.log ++ [.rx item.frame] }

/-- The loop of `e1000_poll_rx`: frames with errors or of a wrong length are dropped. -/
def e1000PollRx (rx : State → Frame → Res State) : ℕ → State → Res State
  | 0, s => return s
  | budget + 1, s =>
    match s.queue with
    | [] => return s
    | item :: rest =>
      if item.error = false ∧ 14 ≤ item.frame.length ∧ item.frame.length ≤ 1600 then do
        let t ← rx (s.take item rest) item.frame
        e1000PollRx rx budget t
      else e1000PollRx rx budget { s with queue := rest }

/-- The loop of `rtl8139_poll_rx`: a frame with errors or of a wrong length, counted with its
four bytes of CRC, makes the driver skip all that is waiting. -/
def rtl8139PollRx (rx : State → Frame → Res State) : ℕ → State → Res State
  | 0, s => return s
  | budget + 1, s =>
    match s.queue with
    | [] => return s
    | item :: rest =>
      if item.error = true ∨ item.frame.length + 4 < 18 ∨ 1536 < item.frame.length + 4 then
        return { s with queue := [] }
      else do
        let t ← rx (s.take item rest) item.frame
        rtl8139PollRx rx budget t

/-- `nic_poll`, with the frames that have arrived since the last call. -/
def nicPoll (env : Env) : ℕ → State → Res State
  | 0, s => .error (.fuel none s)
  | fuel + 1, s =>
    if s.nicInitialized = false then return s
    else
      let t := { s with queue := s.queue ++ env.arrivals s.polls, polls := s.polls + 1 }
      match s.driverType with
      | .none => return t
      | .e1000 => e1000PollRx (netRxPacket env (nicPoll env fuel) fuel) 32 t
      | .rtl8139 => rtl8139PollRx (netRxPacket env (nicPoll env fuel) fuel) 32 t

/-! ## The DHCP client -/

/-- `send_dhcp_message`. -/
def sendDhcpMessage (env : Env) (poll : State → Res State) (fuel : ℕ) (s : State)
    (msgType : UInt8) (xid reqIp srvIp : UInt32) : Res (ℤ × State) :=
  sendIpv4Packet env poll fuel s 0 0xFFFFFFFF (some bcastMac) 17
    (udpPacket 68 67 (dhcpPacket s.nicMac msgType xid reqIp srvIp))

/-- The mask 255.255.255.0. -/
def classCMask : UInt32 := 0xFFFFFF00

/-- The assignments at the beginning of `net_dhcp_discover`. -/
def Dhcp.start (xid : UInt32) : Dhcp where
  rxMsgType := 0
  expectedXid := xid
  offeredIp := 0
  offeredMask := classCMask
  offeredGw := 0
  offeredDns := 0
  offeredSrv := 0

/-- `half_ticks` of `net_dhcp_discover`. -/
def halfTicks (env : Env) (timeoutMs : UInt32) : UInt32 :=
  let half := timeoutMs / 2 * ticksPerSec env / 1000
  if half < 5 then 5 else half

/-- The assignments at the end of `net_dhcp_discover`. -/
def State.lease (s : State) (reqIp : UInt32) : State :=
  { s with config := { s.config with
      ip := if s.dhcp.offeredIp ≠ 0 then s.dhcp.offeredIp else reqIp
      netmask := if s.dhcp.offeredMask ≠ 0 then s.dhcp.offeredMask else classCMask
      gateway := s.dhcp.offeredGw
      dns := s.dhcp.offeredDns
      dhcpServer := s.dhcp.offeredSrv
      dhcpLeased := true
      configured := true } }

/-- The second half of `net_dhcp_discover`, from the DHCPREQUEST on. -/
def dhcpRequest (env : Env) (fuel : ℕ) (s : State) (xid reqIp srvIp half : UInt32) :
    Res (ℤ × State) := do
  let r ← sendDhcpMessage env (nicPoll env fuel) fuel s 3 xid reqIp srvIp
  if r.1 ≠ 0 then return (-1, r.2)
  let w ← pollWait env (nicPoll env fuel) .dhcpAck (r.2.now env) half fuel r.2.tick
  let s := w.2
  if s.dhcp.rxMsgType ≠ 5 ∧ reqIp = 0 then return (-1, s)
  return (0, s.lease reqIp)

/-- `net_dhcp_discover`. -/
def netDhcpDiscover (env : Env) (fuel : ℕ) (s : State) (timeoutMs : UInt32) :
    Res (ℤ × State) := do
  if s.nicInitialized = false then return (-1, s)
  let xid := 0xBE6A1000 ^^^ (s.now env + 1)
  let s := { s.tick with dhcp := Dhcp.start xid }
  let r ← sendDhcpMessage env (nicPoll env fuel) fuel s 1 xid 0 0
  if r.1 ≠ 0 then return (-1, r.2)
  let half := halfTicks env timeoutMs
  let w ← pollWait env (nicPoll env fuel) .dhcpOffer (r.2.now env) half fuel r.2.tick
  let s := w.2
  if s.dhcp.rxMsgType ≠ 2 ∨ s.dhcp.offeredIp = 0 then return (-1, s)
  dhcpRequest env fuel { s with dhcp.rxMsgType := 0 } xid s.dhcp.offeredIp s.dhcp.offeredSrv half

/-! ## A host -/

/-- An unconfigured host with an E1000 and nothing waiting. -/
def idleHost : State where
  config := ⟨false, false, 0, 0, 0, 0, 0, 0, 0, 0, 0, 0⟩
  arpCache := emptyCache
  ipIdCounter := 1
  ping := ⟨false, 0, 0, 0, 0⟩
  dhcp := ⟨0, 0, 0, 0, 0, 0, 0⟩
  nicInitialized := true
  driverType := .e1000
  mac := #v[0x52, 0x54, 0, 0x12, 0x34, 0x56]
  queue := []
  clockReads := 0
  polls := 0
  sends := 0
  log := []

/-- A network on which nothing happens and the tick counter stands still. -/
def quietNet : Env where
  frequency := 100
  clock _ := 0
  arrivals _ := []
  sendOk _ := true

end BengalTiger.Net
