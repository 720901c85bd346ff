import BengalTiger.Net.Echo

set_option autoImplicit false

/-!
# Ping

`net_ping` of `kernel/net.c` sends an echo request and polls the NIC until `handle_icmp` has seen a
reply. What the two functions share are three static variables: the identifier and the sequence
number that are waited for, and whether such a reply has come. The address that the reply comes from
is not among them.

## Main definitions

* `Net.netPing` — the code, in two parts: `Net.sendPing` ends when the request is sent.

## Main results

* `Net.ping_success_answered` — `net_ping` is successful exactly when a reply comes, from whichever
  host.
* `Net.ping_success_unanswered` — a reply of another host counts.
-/

namespace BengalTiger.Net

open Exc
open Nic (Frame)

/-! ## The code -/

/-- The message that `net_ping` builds: identifier 0xB705 and 32 letters. -/
def echoRequest (seq : UInt16) : List UInt8 :=
  let tail := toBe16 0xB705 ++ toBe16 seq.toNat ++
    (List.range 32).map fun i => UInt8.ofNat (0x41 + i % 26)
  [8, 0] ++ toBe16 (netChecksum ([8, 0, 0, 0] ++ tail)) ++ tail

/-- The assignments to the static variables before the request is sent, and the read of the clock
that gives `start_tick`. -/
def State.startPing (s : State) (seq : UInt16) : State :=
  { s.tick with
    ping := { s.ping with expectedId := 0xB705, expectedSeq := seq.toNat, replyReceived := false } }

/-- `net_ping` until the request is sent: the result so far, `start_tick` and the state. -/
def sendPing (env : Env) (poll : State → Res State) (fuel : ℕ) (s : State) (dst : UInt32)
    (seq : UInt16) (timeoutMs : UInt32) : Res (ℤ × UInt32 × State) := do
  if s.nicInitialized = false ∨ s.config.configured = false then return (-1, 0, s)
  let r ← netArpResolve env poll fuel s (routeNextHop s.config dst) timeoutMs
  r.1.elim (return (-2, 0, r.2)) fun mac => do
    let start := r.2.now env
    let s := r.2.startPing seq
    let q ← sendIpv4Packet env poll fuel s s.config.ip dst (some mac) 1 (echoRequest seq)
    return (if q.1 ≠ 0 then -1 else 0, start, q.2)

/-- What `net_ping` stores through its last two arguments. -/
structure PingOut where
  rttMs : UInt32
  ttl : UInt8

/-- `max_ticks` of `net_ping`. -/
def pingMaxTicks (env : Env) (timeoutMs : UInt32) : UInt32 :=
  let maxTicks := timeoutMs * ticksPerSec env / 1000
  if maxTicks < 2 then 2 else maxTicks

/-- `net_ping`. -/
def netPing (env : Env) (fuel : ℕ) (s : State) (dst : UInt32) (seq : UInt16) (timeoutMs : UInt32) :
    Res (ℤ × Option PingOut × State) := do
  let r ← sendPing env (nicPoll env fuel) fuel s dst seq timeoutMs
  if r.1 ≠ 0 then return (r.1, none, r.2.2)
  let w ← pollWait env (nicPoll env fuel) .echoReply r.2.1 (pingMaxTicks env timeoutMs) fuel r.2.2
  if w.1 then
    let elapsed := w.2.ping.replyTick - r.2.1
    return (0, some ⟨elapsed * 1000 / ticksPerSec env, w.2.ping.replyTtl⟩, w.2)
  else return (-1, none, w.2)

/-! ## The result -/

section Ping

variable {env : Env} {fuel : ℕ} {s t u : State} {dst : UInt32} {seq : UInt16} {timeoutMs : UInt32}

lemma length_echoRequest (seq : UInt16) : (echoRequest seq).length = 40 := by
  simp [echoRequest, toBe16]

/-- **The request is sent**: it is the last event, and the variables are set for its reply. -/
lemma sendPing_spec {start : UInt32}
    (h : sendPing env (nicPoll env fuel) fuel s dst seq timeoutMs = .ok (0, start, u)) :
    (∃ before mac srcMac id, s.log <+: before ∧ u.log = before ++ [.tx (ethFrame mac srcMac 0x0800
      (ipv4Packet s.config.ip dst id 1 (echoRequest seq)))]) ∧
    u.ping.expectedId = 0xB705 ∧ u.ping.expectedSeq = seq.toNat ∧ u.ping.replyReceived = false ∧
    u.config.settings = s.config.settings := by
  unfold sendPing at h
  split_ifs at h with hnic
  · cases h
  rw [not_or, Bool.not_eq_false] at hnic
  obtain ⟨r, hr, h⟩ := bind_eq_ok.1 h
  obtain ⟨new, hgrows⟩ := (safe_netArpResolve (nicPoll_spec env fuel) fuel
    (routeNextHop s.config dst) timeoutMs).of_ok hr
  cases hmac : r.1 with
  | none =>
    rw [hmac] at h
    cases h
  | some mac =>
    rw [hmac] at h
    dsimp only [Option.elim_some] at h
    have hnic' : (r.2.startPing seq).nicInitialized = true := hgrows.nic.1.trans hnic.1
    have hip : r.2.config.ip = s.config.ip := congrArg (·.2.2.1) hgrows.settings
    rw [sendIpv4Packet, if_neg (by rw [length_echoRequest]; decide), Option.elim_some,
      sendIpv4To_eq _ _ _ _ (by rw [length_echoRequest]; decide) hnic', bind_ok] at h
    obtain rfl := (Prod.mk.inj (Prod.mk.inj (Except.ok.inj h)).2).2
    refine ⟨⟨r.2.log, mac, (r.2.startPing seq).nicMac, r.2.ipIdCounter, ⟨new, hgrows.log.symm⟩, ?_⟩,
      rfl, rfl, rfl, hgrows.settings⟩
    rw [← hip]
    rfl

/-- A wait that begins without its condition ends early exactly when it ends with it. -/
lemma pollWait_over {poll : State → Res State} {w : Wait} {start limit : UInt32} {n : ℕ} {b : Bool}
    (hs : w.over s = false) (h : pollWait env poll w start limit n s = .ok (b, t)) :
    w.over t = b := by
  induction n generalizing s with
  | zero => cases h
  | succ n ih =>
    unfold pollWait at h
    split_ifs at h
    · obtain ⟨v, -, h⟩ := bind_eq_ok.1 h
      split_ifs at h with hover
      · cases h
        exact hover
      · exact ih (Bool.not_eq_true _ ▸ hover) h
    · cases h
      rw [← hs]
      cases w <;> rfl

end Ping

/-- **Ping success.** A call that returns 0 has sent its request, which is then the last event.
After it, `net_ping` returns 0 if and only if an echo reply to this host with the identifier 0xB705
and the sequence number is received, from whichever host. So the result 0 means that `dst` has
answered if and only if, when any such reply is received during the wait, one from `dst` is. This
holds in every state, whatever calls came before.

**Proof sketch.** The request is sent with the flag reset, and without polling after that
(`sendPing_spec`); in the wait the flag is set exactly by the frames that bring a reply
(`Grows.reply`). -/
theorem ping_success_answered (env : Env) (fuel : ℕ) (s t : State) (dst : UInt32) (seq : UInt16)
    (timeoutMs : UInt32) (rc : ℤ) (out : Option PingOut)
    (h : netPing env fuel s dst seq timeoutMs = .ok (rc, out, t)) :
    (rc = 0 → ∃ start u,
      sendPing env (nicPoll env fuel) fuel s dst seq timeoutMs = .ok (0, start, u)) ∧
    ∀ start u, sendPing env (nicPoll env fuel) fuel s dst seq timeoutMs = .ok (0, start, u) →
      (∃ before mac srcMac id, s.log <+: before ∧ u.log = before ++ [.tx (ethFrame mac srcMac 0x0800
        (ipv4Packet s.config.ip dst id 1 (echoRequest seq)))]) ∧
      ∃ post, t.log = u.log ++ post ∧
        (rc = 0 ↔ ∃ f ∈ delivered post, Brings s.config f (·.IsReply 0xB705 seq.toNat)) ∧
        ((rc = 0 → ∃ f ∈ delivered post,
            Brings s.config f fun d => d.src = dst ∧ d.IsReply 0xB705 seq.toNat) ↔
          ((∃ f ∈ delivered post, Brings s.config f (·.IsReply 0xB705 seq.toNat)) →
            ∃ f ∈ delivered post,
              Brings s.config f fun d => d.src = dst ∧ d.IsReply 0xB705 seq.toNat)) := by
  unfold netPing at h
  obtain ⟨⟨sent, start, u⟩, hsend, h⟩ := bind_eq_ok.1 h
  dsimp only at h
  refine ⟨fun h0 => ?_, fun start' u' hsend' => ?_⟩
  · split_ifs at h with hrc
    · cases h
      exact absurd h0 hrc
    · rw [not_not] at hrc
      exact ⟨start, u, hrc ▸ hsend⟩
  · rw [hsend] at hsend'
    cases hsend'
    obtain ⟨hlog, hid, hseq, hnone, hsettings⟩ := sendPing_spec hsend
    refine ⟨hlog, ?_⟩
    rw [if_neg (not_not.2 rfl)] at h
    obtain ⟨⟨ended, w⟩, hwait, h⟩ := bind_eq_ok.1 h
    obtain ⟨post, hgrows⟩ := (safe_pollWait (nicPoll_spec env fuel) _ _ _ _).of_ok hwait
    have hover : w.ping.replyReceived = ended := pollWait_over (w := .echoReply) hnone hwait
    have hreply := hgrows.reply
    simp only [hover, hnone, hid, hseq, brings_congr hsettings, Bool.false_eq_true,
      false_or] at hreply
    have hrc : t = w ∧ (rc = 0 ↔ ended = true) := by
      cases ended with
      | true =>
        cases h
        exact ⟨rfl, iff_of_true rfl rfl⟩
      | false =>
        cases h
        exact ⟨rfl, iff_of_false (by decide) Bool.false_ne_true⟩
    obtain ⟨rfl, hrc⟩ := hrc
    exact ⟨post, hgrows.log, hrc.trans hreply, by rw [hrc, hreply]⟩

/-- A reply to 10.0.2.15 with sequence number 1. -/
def replyFrom (src : UInt32) : Frame :=
  ethFrame idleHost.mac (Vector.replicate 6 2) 0x0800
    (ipv4Packet src 0x0A00020F 1 1 [0, 0, 0x48, 0xF9, 0xB7, 5, 0, 1])

/-- A network on which one reply arrives. -/
def replyNet (src : UInt32) : Env :=
  { quietNet with arrivals := fun n => if n = 0 then [⟨false, replyFrom src⟩] else [] }

/-- The host 10.0.2.15, which knows the hardware address of 10.0.2.2. -/
def pingingHost : State :=
  { pingedHost 0 with
    queue := []
    arpCache := arpCacheUpdate emptyCache 0x0A000202 (Vector.replicate 6 3) 0 }

/-- The ping is successful, and every frame received has a packet from `src`. -/
def isAnsweredBy (src : UInt32) : Res (ℤ × Option PingOut × State) → Bool
  | .ok r => r.1 == 0 &&
    (delivered r.2.2.log).all fun f => (ipv4Of f).all fun d => d.src == src
  | .error _ => false

/-- What the check on a concrete run says. -/
lemma exists_of_isAnsweredBy (src : UInt32) {x : Res (ℤ × Option PingOut × State)}
    (h : isAnsweredBy src x = true) : ∃ out t, x = .ok (0, out, t) ∧
      ∀ f ∈ delivered t.log, ∀ d, ipv4Of f = some d → d.src = src := by
  obtain e | ⟨rc, out, t⟩ := x
  · cases h
  · rw [isAnsweredBy, Bool.and_eq_true, beq_iff_eq, List.all_eq_true] at h
    obtain ⟨rfl, h⟩ := h
    refine ⟨out, t, rfl, fun f hf d hd => ?_⟩
    have hall := h f hf
    rw [hd] at hall
    exact beq_iff_eq.1 hall

/-- 10.0.2.2 answers. -/
theorem ping_success_answered_gateway :
    ∃ out t, netPing (replyNet 0x0A000202) 2 pingingHost 0x0A000202 1 1000 = .ok (0, out, t) ∧
      ∃ f ∈ delivered t.log,
        Brings pingingHost.config f fun d => d.src = 0x0A000202 ∧ d.IsReply 0xB705 1 := by
  obtain ⟨out, t, h, hsrc⟩ := exists_of_isAnsweredBy 0x0A000202
    (x := netPing (replyNet 0x0A000202) 2 pingingHost 0x0A000202 1 1000) (by decide +kernel)
  obtain ⟨hsent, hwait⟩ := ping_success_answered _ 2 pingingHost t 0x0A000202 1 1000 0 out h
  obtain ⟨start, u, hsend⟩ := hsent rfl
  obtain ⟨-, post, hlog, hrc, -⟩ := hwait start u hsend
  obtain ⟨f, hf, d, hd, htakes, hreply⟩ := hrc.1 rfl
  have hmem : f ∈ delivered t.log := by
    rw [hlog, delivered_append]
    exact List.mem_append_right _ hf
  exact ⟨out, t, h, f, hmem, d, hd, htakes, hsrc f hmem d hd, hreply⟩

/-- **10.0.2.9 answers a ping of 10.0.2.2**: `net_ping` returns 0, and no frame received in the call
is a reply of 10.0.2.2. -/
theorem ping_success_unanswered :
    ∃ out t, netPing (replyNet 0x0A000209) 2 pingingHost 0x0A000202 1 1000 = .ok (0, out, t) ∧
      ∀ f ∈ delivered t.log,
        ¬ Brings pingingHost.config f fun d => d.src = 0x0A000202 ∧ d.IsReply 0xB705 1 := by
  obtain ⟨out, t, h, hsrc⟩ := exists_of_isAnsweredBy 0x0A000209
    (x := netPing (replyNet 0x0A000209) 2 pingingHost 0x0A000202 1 1000) (by decide +kernel)
  refine ⟨out, t, h, ?_⟩
  rintro f hf ⟨d, hd, -, hsrc', -⟩
  rw [hsrc f hf d hd] at hsrc'
  exact absurd hsrc' (by decide)

end BengalTiger.Net
