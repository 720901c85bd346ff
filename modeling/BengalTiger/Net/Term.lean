import BengalTiger.Net.Agree

set_option autoImplicit false

/-!
# Termination of the receive path

`nic_poll` runs with interrupts disabled, so the tick counter stands still, and the loop of
`net_arp_resolve` is bounded by ticks only. When `handle_icmp` answers an echo request whose next
hop is not in the ARP cache, this loop polls until the address turns up; once no frame is left it
polls forever.

What happens then depends on the settings, the ARP cache and the frames alone. An abstract machine
says so: it takes the frames in order, keeps the cache, and is `none` where the code polls forever.
The code follows the machine step by step, with one unit of fuel more than there are frames. That
`nic_poll` does not return is the statement that no fuel suffices; a run that is `Stuck` stays so
with more fuel.

While at most 32 frames wait, which is all that the ring of the E1000 holds, a single poll takes
them all, and the machine has a closed form: each echo request finds its next hop in the cache when
it is handled, or after all the frames.

## Main definitions

* `Net.serve`, `Net.drain`, `Net.await`, `Net.settle` — the abstract machine.
* `Net.Answerable` — its closed form.
* `Net.Stuck` — a wait for an ARP entry that no frame can bring.

## Main results

* `Net.extends_nicPoll` — more fuel keeps results and stuck runs.
* `Net.follower_nicPoll` — the code follows the machine.
* `Net.drain_eq` — the closed form.
* `Net.rx_returns_iff` — when the receive path returns;
  `Net.rx_never_returns` — an echo request that is never answered.
-/

namespace BengalTiger.Net

open Exc List Option
open Nic (DriverType Frame)

/-! ## The abstract machine -/

section Machine

variable (c : Config) (d : DriverType) (tick : UInt32)

/-- The cache has the next hop, or it is the broadcast address. -/
def Known (cache : ArpCache) (hop : UInt32) : Prop :=
  hop = 0xFFFFFFFF ∨ (arpCacheLookup cache hop).isSome = true

instance (cache : ArpCache) (hop : UInt32) : Decidable (Known cache hop) :=
  inferInstanceAs (Decidable (_ ∨ _))

/-- A frame is handled: its addresses are learned, and when it asks for an echo reply whose next hop
is not known, then this is waited for. -/
def serve (wait : UInt32 → ArpCache → List RxItem → Option (ArpCache × List RxItem)) (f : Frame)
    (cache : ArpCache) (rest : List RxItem) : Option (ArpCache × List RxItem) :=
  (asks c f).elim (some (heard c cache tick f, rest)) fun src =>
    if Known (heard c cache tick f) (routeNextHop c src) then some (heard c cache tick f, rest)
    else wait (routeNextHop c src) (heard c cache tick f) rest

/-- A poll takes up to `budget` of the waiting frames. -/
def drain (wait : UInt32 → ArpCache → List RxItem → Option (ArpCache × List RxItem)) :
    ℕ → ArpCache → List RxItem → Option (ArpCache × List RxItem)
  | 0, cache, queue => some (cache, queue)
  | _ + 1, cache, [] => some (cache, [])
  | budget + 1, cache, item :: rest =>
    if accepts d item then
      (serve c tick wait item.frame cache rest).bind fun r => drain wait budget r.1 r.2
    else drain wait budget cache (leftAfter d rest)

/-- A wait for a next hop: polls, until it is known. With no frame waiting this has no end. -/
def await (poll : ArpCache → List RxItem → Option (ArpCache × List RxItem)) (hop : UInt32) :
    ℕ → ArpCache → List RxItem → Option (ArpCache × List RxItem)
  | 0, _, _ => none
  | n + 1, cache, queue =>
    if queue.isEmpty then none
    else (poll cache queue).bind fun r =>
      if (arpCacheLookup r.1 hop).isSome then some r else await poll hop n r.1 r.2

/-- **The machine**: the cache and the frames left after a call of `nic_poll` with at most `n`
frames waiting, or `none` when it does not return. -/
def settle : ℕ → ArpCache → List RxItem → Option (ArpCache × List RxItem)
  | 0, cache, queue => some (cache, queue)
  | n + 1, cache, queue =>
    drain c d tick (fun hop => await (settle n) hop (n + 1)) (budgetOf d) cache queue

/-- The frames that the driver hands on, when it takes all that wait. -/
def handedOn : List RxItem → List Frame
  | [] => []
  | item :: rest =>
    if accepts d item then item.frame :: handedOn rest
    else if d = .e1000 then handedOn rest else []

/-- **Every echo request can be answered**: its next hop is known when the request is handled, or
it is in the cache `last` after all the frames. -/
def Answerable (last : ArpCache) : ArpCache → List Frame → Prop
  | _, [] => True
  | cache, f :: fs =>
    (∀ src, asks c f = some src → Known (heard c cache tick f) (routeNextHop c src) ∨
      (arpCacheLookup last (routeNextHop c src)).isSome = true) ∧
    Answerable last (heard c cache tick f) fs

/-- The next hop depends on the settings only. -/
lemma routeNextHop_congr {c c' : Config} (h : c.settings = c'.settings) :
    routeNextHop c = routeNextHop c' := by
  have hip : c.ip = c'.ip := congrArg (·.2.2.1) h
  have hmask : c.netmask = c'.netmask := congrArg (·.2.2.2.1) h
  have hgw : c.gateway = c'.gateway := congrArg (·.2.2.2.2.1) h
  funext dst
  rw [routeNextHop, routeNextHop, hip, hmask, hgw]

/-- The machine depends on the settings only. -/
lemma serve_congr {c c' : Config} (h : c.settings = c'.settings) : serve c = serve c' := by
  have hconf : c.configured = c'.configured := congrArg Prod.fst h
  have hip : c.ip = c'.ip := congrArg (·.2.2.1) h
  have hmask : c.netmask = c'.netmask := congrArg (·.2.2.2.1) h
  have htakes : ∀ dst, c.Takes dst ↔ c'.Takes dst := fun dst => by
    rw [Config.Takes, Config.Takes, hconf, hip]
  have hlocal : ∀ src, c.isLocal src ↔ c'.isLocal src := fun src => by
    rw [Config.isLocal, Config.isLocal, hip, hmask]
  have hasks : asks c = asks c' := by
    funext f
    simp only [asks, hconf, htakes]
  have hheard : heard c = heard c' := by
    funext cache tick f
    simp only [heard, hlocal]
  funext tick wait f cache rest
  rw [serve, serve, hasks, hheard, routeNextHop_congr h]

variable {c d tick}

/-- **The closed form**: a poll that takes all the frames handles them in order, and all the waits
end after the last one.

**Proof sketch.** Induction on the frames. An echo request whose next hop is not known polls; that
poll takes all the other frames, so that the hop is looked up in the last cache, and nothing is left
for another round. -/
lemma drain_eq (hd : d ≠ .none) (queue : List RxItem) (budget n : ℕ) (cache : ArpCache)
    (hbudget : queue.length ≤ budget) (h32 : queue.length ≤ 32) (hn : queue.length ≤ n + 1)
    (last : ArpCache) (hlast : last = (handedOn d queue).foldl (heard c · tick) cache) :
    (Answerable c tick last cache (handedOn d queue) →
      drain c d tick (fun hop => await (settle c d tick n) hop (n + 1)) budget cache queue =
        some (last, [])) ∧
    (¬ Answerable c tick last cache (handedOn d queue) →
      drain c d tick (fun hop => await (settle c d tick n) hop (n + 1)) budget cache queue =
        none) := by
  have hnil : ∀ wait budget cache, drain c d tick wait budget cache [] = some (cache, []) := by
    rintro wait (_ | budget) cache <;> rfl
  induction queue generalizing budget n cache with
  | nil => exact ⟨fun _ => by rw [hnil, hlast]; rfl, fun h => absurd trivial h⟩
  | cons item rest ih =>
    rw [length_cons] at hbudget h32 hn
    obtain ⟨budget, rfl⟩ : ∃ k, budget = k + 1 := ⟨budget - 1, by omega⟩
    rw [drain]
    by_cases hacc : accepts d item = true
    swap
    · rw [if_neg hacc]
      rw [handedOn, if_neg hacc] at hlast ⊢
      unfold leftAfter
      split_ifs at hlast ⊢
      · exact ih _ _ cache (by omega) (by omega) (by omega) hlast
      · exact ⟨fun _ => by rw [hnil, hlast]; rfl, fun h => absurd trivial h⟩
    rw [if_pos hacc]
    rw [handedOn, if_pos hacc] at hlast ⊢
    rw [Answerable]
    -- the frames after this one, by a poll of either level
    have hrest := fun b m (hb : rest.length ≤ b) (hm : rest.length ≤ m + 1) =>
      ih b m (heard c cache tick item.frame) hb (by omega) hm hlast
    cases hask : asks c item.frame with
    | none =>
      simp only [serve, hask, elim_none, bind_some, reduceCtorEq, false_imp_iff,
        implies_true, true_and]
      exact hrest budget n (by omega) (by omega)
    | some src =>
      by_cases hknown : Known (heard c cache tick item.frame) (routeNextHop c src)
      · simp only [serve, hask, elim_some, Option.some.injEq, forall_eq', hknown, true_or, true_and]
        exact hrest budget n (by omega) (by omega)
      simp only [serve, hask, elim_some, Option.some.injEq, forall_eq', hknown, false_or]
      rw [await]
      cases hr : rest with
      | nil =>
        rw [hr] at hlast
        have hunknown : ¬ (arpCacheLookup last (routeNextHop c src)).isSome = true :=
          fun h => hknown (.inr (by rw [hlast] at h; exact h))
        exact ⟨fun h => absurd h.1 hunknown, fun _ => rfl⟩
      | cons item' rest' =>
        have hempty : rest.isEmpty = false := by rw [hr]; rfl
        rw [← hr, hempty, if_neg Bool.false_ne_true]
        obtain ⟨m, rfl⟩ : ∃ k, n = k + 1 := ⟨n - 1, by rw [hr, length_cons] at hn; omega⟩
        have hb : budgetOf d = 32 := if_neg hd
        obtain ⟨hyes, hno⟩ := hrest (budgetOf d) m (by omega) (by omega)
        by_cases hans : Answerable c tick last (heard c cache tick item.frame) (handedOn d rest)
        · rw [settle, hyes hans, bind_some]
          by_cases hhop : (arpCacheLookup last (routeNextHop c src)).isSome = true
          · rw [if_pos hhop]
            exact ⟨fun _ => hnil _ _ _, fun h => absurd ⟨hhop, hans⟩ h⟩
          · rw [if_neg hhop]
            exact ⟨fun h => absurd h.1 hhop, fun _ => rfl⟩
        · rw [settle, hno hans]
          exact ⟨fun h => absurd h.2 hans, fun _ => rfl⟩

end Machine

/-! ## Stuck runs -/

/-- No frame will be taken. -/
def State.Idle (s : State) : Prop := s.queue = [] ∨ s.driverType = .none

/-- The program waits for the hardware address of `target`, which is not in the cache, and no
frame is taken that could bring it. -/
def Stuck : Stop → Prop
  | .fuel (some (.arp target)) w => w.Idle ∧ arpCacheLookup w.arpCache target = none
  | _ => False

/-- `net_arp_resolve` waits for at least one tick. -/
lemma arpPerTry_pos (env : Env) (timeoutMs : UInt32) : 0 < arpPerTry env timeoutMs := by
  have hthird : ∀ w : UInt32, 0 < if w / 3 ≠ 0 then w / 3 else 2 := by
    intro w
    split_ifs with h
    · exact UInt32.pos_iff_ne_zero.2 h
    · decide
  exact hthird _

/-- Polling when no frame is taken changes neither that nor the cache. -/
def Idles (poll : State → Res State) : Prop :=
  ∀ s : State, s.Idle → ∃ t, poll s = .ok t ∧ t.Idle ∧ t.arpCache = s.arpCache

section Wait

variable {env : Env} {tick : UInt32} (hclock : ∀ n, env.clock n = tick)
  {poll poll' : State → Res State}

include hclock

/-- The time is never over. -/
lemma pollWait_succ {target limit : UInt32} (hlimit : 0 < limit) (n : ℕ) (s : State) :
    pollWait env poll (.arp target) tick limit (n + 1) s = (do
      let t ← poll s.tick
      if (Wait.arp target).over t then return (true, t)
      pollWait env poll (.arp target) tick limit n t) := by
  have htime : (Wait.arp target).inTime (s.now env - tick) limit = true := by
    unfold State.now Wait.inTime
    rw [hclock, UInt32.sub_self]
    exact decide_eq_true hlimit
  conv_lhs => unfold pollWait
  rw [if_pos htime]

/-- Without frames the wait for an unknown address does not end. -/
lemma pollWait_stuck (target : UInt32) {limit : UInt32} (hlimit : 0 < limit) {n : ℕ}
    (hidle : Idles poll) {s : State} (hs : s.Idle)
    (hmiss : arpCacheLookup s.arpCache target = none) :
    ∃ e, pollWait env poll (.arp target) tick limit n s = .error e ∧ Stuck e := by
  induction n generalizing s with
  | zero => exact ⟨_, rfl, hs, hmiss⟩
  | succ n ih =>
    obtain ⟨t, ht, hti, hta⟩ := hidle s.tick hs
    have hmiss' : arpCacheLookup t.arpCache target = none := by
      rw [hta]
      exact hmiss
    have hover : ¬ (Wait.arp target).over t = true := by simp [Wait.over, hmiss']
    rw [pollWait_succ hclock hlimit, ht, bind_ok, if_neg hover]
    exact ih hti hmiss'

/-- More fuel for the wait. -/
lemma extends_pollWait {target limit : UInt32} (hlimit : 0 < limit) (hidle : Idles poll')
    (hpoll : ∀ s, Extends Stuck (poll s) (poll' s)) {n m : ℕ} (hnm : n ≤ m) (s : State) :
    Extends Stuck (pollWait env poll (.arp target) tick limit n s)
      (pollWait env poll' (.arp target) tick limit m s) := by
  induction n generalizing m s with
  | zero =>
    constructor
    · intro a ha
      cases ha
    · intro e he hstuck
      cases he
      exact pollWait_stuck hclock target hlimit hidle hstuck.1 hstuck.2
  | succ n ih =>
    obtain ⟨m, rfl⟩ : ∃ k, m = k + 1 := ⟨m - 1, by omega⟩
    rw [pollWait_succ hclock hlimit, pollWait_succ hclock hlimit]
    apply (hpoll s.tick).bind
    intro t
    apply extends_ite
    · exact .refl _
    · exact ih (by omega) t

/-- More fuel extends the attempts to resolve an address. -/
lemma extends_arpAttempts (hidle : Idles poll') (hpoll : ∀ s, Extends Stuck (poll s) (poll' s))
    {n m : ℕ} (hnm : n ≤ m) {target perTry : UInt32} (hper : 0 < perTry) (k : ℕ) (s : State) :
    Extends Stuck (arpAttempts env poll n target perTry k s)
      (arpAttempts env poll' m target perTry k s) := by
  induction k generalizing s with
  | zero => exact .refl _
  | succ k ih =>
    unfold arpAttempts
    apply (Extends.refl _).bind
    intro t
    have hnow : t.now env = tick := hclock _
    rw [hnow]
    apply (extends_pollWait hclock hper hidle hpoll hnm _).bind
    intro r
    apply extends_ite
    · exact .refl _
    · exact ih r.2

/-- More fuel for sending. -/
lemma extends_sendIpv4Packet (hidle : Idles poll')
    (hpoll : ∀ s, Extends Stuck (poll s) (poll' s)) {n m : ℕ} (hnm : n ≤ m) (s : State)
    (src dst : UInt32) (override : Option Mac) (proto : UInt8) (payload : List UInt8) :
    Extends Stuck (sendIpv4Packet env poll n s src dst override proto payload)
      (sendIpv4Packet env poll' m s src dst override proto payload) := by
  have hresolve : ∀ target, Extends Stuck (netArpResolve env poll n s target 800)
      (netArpResolve env poll' m s target 800) := by
    intro target
    unfold netArpResolve
    apply extends_ite
    · exact .refl _
    apply extends_ite
    · exact .refl _
    cases arpCacheLookup s.arpCache target with
    | some mac => exact .refl _
    | none => exact extends_arpAttempts hclock hidle hpoll hnm (arpPerTry_pos env 800) 3 s
  unfold sendIpv4Packet
  apply extends_ite
  · exact .refl _
  · cases override with
    | some mac => exact .refl _
    | none => exact (hresolve _).bind fun r => .refl _

end Wait

/-- More fuel for the frames of a poll. -/
lemma extends_pollRx {rx rx' : State → Frame → Res State} (d : DriverType)
    (hrx : ∀ s (f : Frame), f.length < 65536 → Extends Stuck (rx s f) (rx' s f)) (budget : ℕ)
    (s : State) : Extends Stuck (pollRx d rx budget s) (pollRx d rx' budget s) := by
  induction budget generalizing s with
  | zero => exact .refl _
  | succ budget ih =>
    unfold pollRx
    cases s.queue with
    | nil => exact .refl _
    | cons item rest =>
      dsimp only
      split_ifs with h
      · exact (hrx _ _ (length_of_accepts h)).bind fun t => ih t
      · exact ih _

section Fuel

variable {env : Env} {tick : UInt32} (hclock : ∀ n, env.clock n = tick)
  (hquiet : ∀ n, env.arrivals n = [])

include hquiet

/-- Polling when no frame is taken. -/
lemma idles_nicPoll (fuel : ℕ) : Idles (nicPoll env (fuel + 1)) := by
  intro s hs
  rw [nicPoll_succ]
  split_ifs with hnic
  · exact ⟨s, rfl, hs, rfl⟩
  · rw [hquiet, append_nil]
    obtain hqueue | hdriver := hs
    · rw [hqueue]
      refine ⟨{ s with queue := [], polls := s.polls + 1 }, ?_, .inl rfl, rfl⟩
      cases budgetOf s.driverType <;> rfl
    · rw [hdriver]
      exact ⟨_, rfl, .inr rfl, rfl⟩

include hclock

/-- More fuel for a frame. -/
lemma extends_netRxPacket {n m : ℕ} (hnm : n ≤ m) (hm : 0 < m)
    (hpoll : ∀ s, Extends Stuck (nicPoll env n s) (nicPoll env m s)) (s : State) {f : Frame}
    (hf : f.length < 65536) :
    Extends Stuck (netRxPacket env (nicPoll env n) n s f)
      (netRxPacket env (nicPoll env m) m s f) := by
  obtain ⟨m, rfl⟩ : ∃ k, m = k + 1 := ⟨m - 1, by omega⟩
  obtain ⟨-, t, -, hx⟩ | ⟨src, reply, u, -, -, -, hx⟩ := netRxPacket_cases env s hf
  · have h₁ := hx (nicPoll env n) n
    have h₂ := hx (nicPoll env (m + 1)) (m + 1)
    dsimp only at h₁ h₂
    rw [h₁, h₂]
    exact .refl _
  · have h₁ := hx (nicPoll env n) n
    have h₂ := hx (nicPoll env (m + 1)) (m + 1)
    dsimp only at h₁ h₂
    rw [h₁, h₂]
    exact (extends_sendIpv4Packet hclock (idles_nicPoll hquiet m) hpoll hnm u _ _ _ _ _).bind
      fun r => .refl _

/-- **More fuel keeps the results and the stuck runs of `nic_poll`.**

**Proof sketch.** By induction on the fuel: the frames received and the rounds of a wait are the
same with more fuel, until a wait runs out of it, and a stuck wait goes on being stuck. -/
lemma extends_nicPoll_succ (fuel : ℕ) (s : State) :
    Extends Stuck (nicPoll env fuel s) (nicPoll env (fuel + 1) s) := by
  induction fuel generalizing s with
  | zero =>
    constructor
    · intro t ht
      cases ht
    · intro e he hstuck
      cases he
      exact hstuck.elim
  | succ fuel ih =>
    rw [nicPoll_succ, nicPoll_succ]
    apply extends_ite
    · exact .refl _
    · exact extends_pollRx _ (fun s f hf => extends_netRxPacket hclock hquiet (Nat.le_succ fuel)
        (Nat.succ_pos fuel) ih s hf) _ _

/-- Any amount of fuel more. -/
lemma extends_nicPoll {n m : ℕ} (hnm : n ≤ m) (s : State) :
    Extends Stuck (nicPoll env n s) (nicPoll env m s) := by
  induction m, hnm using Nat.le_induction with
  | base => exact .refl _
  | succ m _ ih => exact ih.trans (extends_nicPoll_succ hclock hquiet m s)

omit hclock hquiet in
/-- A stuck run never returns. -/
lemma ne_ok_of_stuck {x : ℕ → Res State} (hx : ∀ n m, n ≤ m → Extends Stuck (x n) (x m)) {fuel : ℕ}
    {e : Stop} (he : x fuel = .error e) (hstuck : Stuck e) : ¬ ∃ n t, x n = .ok t := by
  rintro ⟨n, t, ht⟩
  have hok := (hx n _ (Nat.le_max_right fuel n)).ok t ht
  obtain ⟨e', he', -⟩ := (hx fuel _ (Nat.le_max_left fuel n)).error e he hstuck
  rw [hok] at he'
  cases he'

end Fuel

/-! ## The code follows the machine -/

/-- A host with a NIC, these settings and this driver. -/
structure Runs (c : Config) (d : DriverType) (s : State) : Prop where
  nic : s.nicInitialized = true
  settings : s.config.settings = c.settings
  driver : s.driverType = d

lemma Runs.follows {env : Env} {c : Config} {d : DriverType} {s t : State} (h : Runs c d s)
    (hst : Follows env s t) : Runs c d t := by
  obtain ⟨new, hgrows⟩ := hst
  exact ⟨hgrows.nic.1.trans h.nic, hgrows.settings.trans h.settings, hgrows.nic.2.1.trans h.driver⟩

/-- **The program does what the machine does**: it returns with the cache and the frames that the
machine says, or it is stuck and the machine says `none`. -/
def Mirrors (Q : State → Prop) (x : Res State) (y : Option (ArpCache × List RxItem)) : Prop :=
  Sat x (fun e => Stuck e ∧ y = none) fun t => Q t ∧ y = some (t.arpCache, t.queue)

lemma Mirrors.mono {Q R : State → Prop} {x : Res State} {y : Option (ArpCache × List RxItem)}
    (h : Mirrors Q x y) (hQ : ∀ t, Q t → R t) : Mirrors R x y :=
  Sat.mono h fun t ht => ⟨hQ t ht.1, ht.2⟩

/-- Polling follows the machine while at most `n` frames wait, and takes a frame if it can. -/
structure Follower (env : Env) (c : Config) (d : DriverType) (tick : UInt32) (n : ℕ)
    (poll : State → Res State) : Prop where
  idles : Idles poll
  mirrors : ∀ s, Runs c d s → s.queue.length ≤ n →
    Mirrors (fun t => Follows env s t ∧ (¬ s.Idle → t.queue.length < s.queue.length)) (poll s)
      (settle c d tick n s.arpCache s.queue)

section Mirror

variable {env : Env} {tick : UInt32} (hclock : ∀ n, env.clock n = tick) {c : Config}
  {d : DriverType} {n : ℕ} {poll : State → Res State}

/-- The machine waits forever when no frame is taken. -/
lemma await_idle {s : State} (hs : Runs c d s) (hidle : s.Idle) (hop : UInt32)
    (hmiss : arpCacheLookup s.arpCache hop = none) (k : ℕ) :
    await (settle c d tick n) hop k s.arpCache s.queue = none := by
  obtain hqueue | hdriver := hidle
  · rw [hqueue]
    cases k <;> rfl
  · have hsettle : settle c d tick n s.arpCache s.queue = some (s.arpCache, s.queue) := by
      rw [← hs.driver, hdriver]
      cases n <;> rfl
    induction k with
    | zero => rfl
    | succ k ih =>
      simp only [await, hsettle, bind_some, hmiss, isSome_none, Bool.false_eq_true,
        if_false, ih, ite_self]

include hclock

/-- The wait. -/
lemma mirrors_pollWait (hpoll : Follower env c d tick n poll) (hop : UInt32) {limit : UInt32}
    (hlimit : 0 < limit) {m k : ℕ} {s : State} (hs : Runs c d s) (hn : s.queue.length ≤ n)
    (hm : s.queue.length ≤ m) (hk : s.queue.length < k)
    (hmiss : arpCacheLookup s.arpCache hop = none) :
    Sat (pollWait env poll (.arp hop) tick limit m s)
      (fun e => Stuck e ∧ await (settle c d tick n) hop k s.arpCache s.queue = none)
      fun r => r.1 = true ∧ (Wait.arp hop).over r.2 = true ∧ Follows env s r.2 ∧
        await (settle c d tick n) hop k s.arpCache s.queue = some (r.2.arpCache, r.2.queue) := by
  -- every poll that does not end the wait takes a frame, so the fuel lasts
  induction m generalizing s k with
  | zero =>
    have hidle : s.Idle := .inl (length_eq_zero_iff.1 (by omega))
    exact ⟨⟨hidle, hmiss⟩, await_idle hs hidle hop hmiss k⟩
  | succ m ih =>
    by_cases hidle : s.Idle
    · obtain ⟨e, he, hstuck⟩ :=
        pollWait_stuck hclock hop hlimit (n := m + 1) hpoll.idles hidle hmiss
      rw [he]
      exact ⟨hstuck, await_idle hs hidle hop hmiss k⟩
    obtain ⟨k, rfl⟩ : ∃ j, k = j + 1 := ⟨k - 1, by omega⟩
    have hempty : s.queue.isEmpty = false := by
      rw [isEmpty_eq_false_iff]
      exact fun h => hidle (.inl h)
    rw [pollWait_succ hclock hlimit, await, hempty, if_neg Bool.false_ne_true]
    have hround := hpoll.mirrors s.tick ⟨hs.nic, hs.settings, hs.driver⟩ hn
    change Sat _ (fun e => _ ∧ settle c d tick n s.arpCache s.queue = none)
      fun t => _ ∧ settle c d tick n s.arpCache s.queue = _ at hround
    cases hp : poll s.tick with
    | error e =>
      rw [hp] at hround
      exact ⟨hround.1, by rw [hround.2]; rfl⟩
    | ok t =>
      rw [hp] at hround
      obtain ⟨⟨hfollow, hless⟩, hsettle⟩ := hround
      have hst : Follows env s t := (follows_tick env s).trans hfollow
      have hlt : t.queue.length < s.queue.length := hless hidle
      rw [bind_ok, hsettle, bind_some]
      by_cases hover : (arpCacheLookup t.arpCache hop).isSome = true
      · simp only [if_pos hover]
        rw [if_pos (show (Wait.arp hop).over t = true from hover)]
        exact ⟨rfl, hover, hst, rfl⟩
      · simp only [if_neg hover]
        rw [if_neg (show ¬ (Wait.arp hop).over t = true from hover)]
        refine (ih (hs.follows hst) (by omega) (by omega) (by omega)
          (by simpa using hover)).mono fun r hr => ?_
        exact ⟨hr.1, hr.2.1, hst.trans hr.2.2.1, hr.2.2.2⟩

/-- The reply to an echo request. -/
lemma mirrors_sendIpv4Packet (hpoll : Follower env c d tick n poll) (fuel : ℕ) {u : State}
    (hu : Runs c d u) (hn : u.queue.length ≤ n) (hfuel : u.queue.length ≤ fuel) (src : UInt32)
    {reply : List UInt8} (hlen : reply.length ≤ 1480) :
    Mirrors (Follows env u)
      (do
        let r ← sendIpv4Packet env poll fuel u u.config.ip src none 1 reply
        return r.2)
      (if Known u.arpCache (routeNextHop u.config src) then some (u.arpCache, u.queue)
      else await (settle c d tick n) (routeNextHop u.config src) (n + 1) u.arpCache u.queue) := by
  have hnic : ¬ u.nicInitialized = false := by simp [hu.nic]
  -- once the next hop is resolved, the reply is sent
  have hreply : ∀ (v : State) (mac : Mac), netArpResolve env poll fuel u
      (routeNextHop u.config src) 800 = .ok (some mac, v) → Follows env u v →
      ∃ t, (do
        let r ← sendIpv4Packet env poll fuel u u.config.ip src none 1 reply
        return r.2) = .ok t ∧ Follows env u t ∧ t.arpCache = v.arpCache ∧ t.queue = v.queue := by
    intro v mac hres huv
    obtain ⟨r, hr, hfollow, hcache, hqueue⟩ :=
      follows_sendIpv4To env v mac u.config.ip src 1 hlen
    refine ⟨r.2, ?_, huv.trans hfollow, hcache, hqueue⟩
    rw [sendIpv4Packet, if_neg (by omega), elim_none, hres, bind_ok, elim_some, hr]
    rfl
  by_cases hknown : Known u.arpCache (routeNextHop u.config src)
  · obtain ⟨mac, hres⟩ : ∃ mac, netArpResolve env poll fuel u (routeNextHop u.config src) 800 =
        .ok (some mac, u) := by
      rw [netArpResolve, if_neg hnic]
      split_ifs with hbcast
      · exact ⟨bcastMac, rfl⟩
      · obtain ⟨mac, hmac⟩ := isSome_iff_exists.1 (hknown.resolve_left hbcast)
        rw [hmac]
        exact ⟨mac, rfl⟩
    obtain ⟨t, ht, hut, hcache, hqueue⟩ := hreply u mac hres (.refl env u)
    rw [ht, if_pos hknown]
    exact ⟨hut, by rw [hcache, hqueue]⟩
  rw [if_neg hknown]
  rw [Known, not_or, Bool.not_eq_true, isSome_eq_false_iff, isNone_iff_eq_none]
    at hknown
  obtain ⟨v, hv, huv, hcache, hqueue⟩ :=
    follows_sendArpPacket env u 1 bcastMac (routeNextHop u.config src)
  have hnow : v.now env = tick := hclock _
  have hvlen : v.queue.length = u.queue.length := congrArg List.length hqueue
  have hwait := mirrors_pollWait (s := v.tick) (m := fuel) (k := n + 1) hclock hpoll
    (routeNextHop u.config src) (arpPerTry_pos env 800)
    ((hu.follows huv).follows (follows_tick env v))
    (show v.queue.length ≤ n by omega) (show v.queue.length ≤ fuel by omega)
    (show v.queue.length < n + 1 by omega) (show arpCacheLookup v.arpCache _ = none by
      rw [hcache]; exact hknown.2)
  change Sat _ (fun e => _ ∧ await _ _ _ v.arpCache v.queue = none)
    fun r => _ ∧ _ ∧ _ ∧ await _ _ _ v.arpCache v.queue = _ at hwait
  rw [hcache, hqueue] at hwait
  -- the first attempt decides, since the wait does not time out
  have hres : netArpResolve env poll fuel u (routeNextHop u.config src) 800 =
      pollWait env poll (.arp (routeNextHop u.config src)) tick (arpPerTry env 800) fuel v.tick >>=
        fun r => if r.1 then return (arpCacheLookup r.2.arpCache (routeNextHop u.config src), r.2)
          else arpAttempts env poll fuel (routeNextHop u.config src) (arpPerTry env 800) 2 r.2 := by
    rw [netArpResolve, if_neg hnic, if_neg hknown.1, hknown.2, elim_none, arpAttempts, hv,
      bind_ok, hnow]
  cases hw : pollWait env poll (.arp (routeNextHop u.config src)) tick (arpPerTry env 800) fuel
      v.tick with
  | error e =>
    rw [hw] at hwait hres
    rw [sendIpv4Packet, if_neg (by omega), elim_none, hres]
    exact hwait
  | ok r =>
    rw [hw] at hwait hres
    obtain ⟨hr, hover, hvr, hawait⟩ := hwait
    obtain ⟨mac, hmac⟩ := isSome_iff_exists.1 hover
    rw [bind_ok, if_pos hr, hmac] at hres
    obtain ⟨t, ht, hut, htc, htq⟩ := hreply r.2 mac hres
      ((huv.trans (follows_tick env v)).trans hvr)
    rw [ht]
    exact ⟨hut, by rw [hawait, htc, htq]⟩

/-- A frame. -/
lemma mirrors_netRxPacket (hpoll : Follower env c d tick n poll) {fuel : ℕ} {s : State}
    (hs : Runs c d s) (hn : s.queue.length ≤ n) (hfuel : s.queue.length ≤ fuel) {f : Frame}
    (hf : f.length < 65536) :
    Mirrors (fun t => ∃ u, Handled env s f u ∧ Follows env u t) (netRxPacket env poll fuel s f)
      (serve c tick (fun hop => await (settle c d tick n) hop (n + 1)) f s.arpCache s.queue) := by
  have hnow : s.now env = tick := hclock _
  rw [← serve_congr hs.settings]
  obtain ⟨hasks, t, ht, hx⟩ | ⟨src, reply, u, hasks, hlen, hu, hx⟩ := netRxPacket_cases env s hf
  · have hok : netRxPacket env poll fuel s f = .ok t := hx poll fuel
    rw [hok, serve, hasks]
    refine ⟨⟨t, ht, .refl env t⟩, ?_⟩
    rw [ht.cache, ht.queue, hnow]
    rfl
  · have hok := hx poll fuel
    dsimp only at hok
    have hrun : Runs c d u := ⟨hu.nic.1.trans hs.nic, hu.settings.trans hs.settings,
      hu.nic.2.1.trans hs.driver⟩
    have hsend := mirrors_sendIpv4Packet hclock hpoll fuel hrun
      (by rw [hu.queue]; exact hn) (by rw [hu.queue]; exact hfuel) src hlen
    rw [hu.cache, hu.queue, hnow, routeNextHop_congr hu.settings] at hsend
    rw [hok, serve, hasks, elim_some]
    exact hsend.mono fun t ht => ⟨u, hu, ht⟩

/-- The loop of a driver. -/
lemma mirrors_pollRx (hquiet : ∀ n, env.arrivals n = []) (hpoll : Follower env c d tick n poll)
    {fuel : ℕ} (hfuel : n ≤ fuel) (budget : ℕ) {s : State} (hs : Runs c d s)
    (hn : s.queue.length ≤ n + 1) :
    Mirrors (fun t => Follows env s t ∧
        (0 < budget → s.queue ≠ [] → t.queue.length < s.queue.length))
      (pollRx d (netRxPacket env poll fuel) budget s)
      (drain c d tick (fun hop => await (settle c d tick n) hop (n + 1)) budget s.arpCache
        s.queue) := by
  induction budget generalizing s with
  | zero => exact ⟨⟨.refl env s, fun h => absurd h (lt_irrefl 0)⟩, rfl⟩
  | succ budget ih =>
    unfold pollRx
    cases hqueue : s.queue with
    | nil => exact ⟨⟨.refl env s, fun _ h => absurd rfl h⟩, by rw [hqueue]; rfl⟩
    | cons item rest =>
      rw [hqueue, length_cons] at hn
      dsimp only
      rw [drain]
      -- what is done after a state whose frames are among `rest`
      have hlater : ∀ {t u : State}, t.queue.length ≤ rest.length → Follows env t u →
          u.queue.length < (item :: rest).length := by
        intro t u ht htu
        obtain ⟨new, hgrows⟩ := htu
        have hle := (hgrows.queue hquiet).length_le
        rw [length_cons]
        omega
      by_cases hacc : accepts d item = true
      swap
      · rw [if_neg hacc, if_neg hacc]
        have hdrop : Follows env s { s with queue := leftAfter d rest } := follows_drop d hqueue
        have hle : (leftAfter d rest).length ≤ rest.length := by
          unfold leftAfter
          split_ifs
          · exact le_rfl
          · exact Nat.zero_le _
        have hrest := ih (hs.follows hdrop) (show (leftAfter d rest).length ≤ n + 1 by omega)
        exact hrest.mono fun u hu => ⟨hdrop.trans hu.1, fun _ _ => hlater hle hu.1⟩
      rw [if_pos hacc, if_pos hacc]
      have hframe := mirrors_netRxPacket (s := s.take item rest) hclock hpoll
        ⟨hs.nic, hs.settings, hs.driver⟩ (show rest.length ≤ n by omega)
        (show rest.length ≤ fuel by omega) (length_of_accepts hacc)
      change Sat _ (fun e => _ ∧ serve c tick _ _ s.arpCache rest = none)
        fun t => _ ∧ serve c tick _ _ s.arpCache rest = _ at hframe
      cases hrx : netRxPacket env poll fuel (s.take item rest) item.frame with
      | error e =>
        rw [hrx] at hframe
        exact ⟨hframe.1, by rw [hframe.2]; rfl⟩
      | ok t =>
        rw [hrx] at hframe
        obtain ⟨⟨u, hu, hut⟩, hserve⟩ := hframe
        have hst : Follows env s t := (hu.follows hqueue).trans hut
        have hle : t.queue.length ≤ rest.length := by
          obtain ⟨new, hgrows⟩ := hut
          have hsuffix := hgrows.queue hquiet
          rw [hu.queue] at hsuffix
          exact hsuffix.length_le
        rw [bind_ok, hserve, bind_some]
        have hrest := ih (hs.follows hst) (by omega)
        exact hrest.mono fun v hv => ⟨hst.trans hv.1, fun _ _ => hlater hle hv.1⟩

/-- **`nic_poll` follows the machine**, with one unit of fuel more than there are frames.

**Proof sketch.** By induction on the number of frames: each of them is handled with one frame less
waiting, so that the polls made while an answer waits are covered by the hypothesis, and the wait
has as many rounds as there are frames. -/
lemma follower_nicPoll (hquiet : ∀ n, env.arrivals n = []) (n : ℕ) {fuel : ℕ} (hfuel : n < fuel) :
    Follower env c d tick n (nicPoll env fuel) := by
  induction n generalizing fuel with
  | zero =>
    obtain ⟨fuel, rfl⟩ : ∃ k, fuel = k + 1 := ⟨fuel - 1, by omega⟩
    refine ⟨idles_nicPoll hquiet fuel, fun s hs hn => ?_⟩
    have hqueue : s.queue = [] := length_eq_zero_iff.1 (by omega)
    have hpoll : nicPoll env (fuel + 1) s = .ok { s with polls := s.polls + 1 } := by
      rw [nicPoll_succ, if_neg (by simp [hs.nic]), hquiet, append_nil]
      unfold pollRx
      rw [hqueue]
      cases budgetOf s.driverType <;> rfl
    rw [hpoll]
    exact ⟨⟨.of_eq rfl rfl rfl ⟨rfl, rfl, rfl, rfl⟩ fun _ => suffix_refl _,
      fun h => absurd (.inl hqueue) h⟩, rfl⟩
  | succ n ih =>
    obtain ⟨fuel, rfl⟩ : ∃ k, fuel = k + 1 := ⟨fuel - 1, by omega⟩
    refine ⟨idles_nicPoll hquiet fuel, fun s hs hn => ?_⟩
    have hpolls : Follows env s { s with polls := s.polls + 1 } :=
      .of_eq rfl rfl rfl ⟨rfl, rfl, rfl, rfl⟩ fun _ => suffix_refl _
    have hloop := mirrors_pollRx (s := { s with polls := s.polls + 1 }) hclock hquiet
      (ih (show n < fuel by omega)) (show n ≤ fuel by omega) (budgetOf d) (hs.follows hpolls) hn
    obtain rfl := hs.driver
    rw [nicPoll_succ, if_neg (by simp [hs.nic]), hquiet, append_nil]
    refine hloop.mono fun t ht => ⟨hpolls.trans ht.1, fun hidle => ht.2 ?_ ?_⟩
    · rw [budgetOf, if_neg fun h => hidle (.inr h)]
      decide
    · exact fun h => hidle (.inl h)

end Mirror

/-- Both outcomes of a program that follows the machine. -/
lemma returns_iff {x : ℕ → Res State} {y : Option (ArpCache × List RxItem)} {Q : State → Prop}
    (hx : ∀ n m, n ≤ m → Extends Stuck (x n) (x m)) {fuel : ℕ} (h : Mirrors Q (x fuel) y) :
    (∃ n t, x n = .ok t) ↔ y.isSome = true := by
  cases hfuel : x fuel with
  | ok t =>
    rw [hfuel] at h
    exact ⟨fun _ => by rw [h.2]; rfl, fun _ => ⟨fuel, t, hfuel⟩⟩
  | error e =>
    rw [hfuel] at h
    refine ⟨fun hn => absurd hn (ne_ok_of_stuck hx hfuel h.1), fun hy => ?_⟩
    rw [h.2] at hy
    cases hy

/-- Without a NIC nothing is waited for. -/
lemma netRxPacket_without_nic (env : Env) {s : State} (hnic : s.nicInitialized = false) {f : Frame}
    (hf : f.length < 65536) : ∃ t, netRxPacket env (nicPoll env 0) 0 s f = .ok t := by
  obtain ⟨-, t, -, hx⟩ | ⟨src, reply, u, -, -, hu, hx⟩ := netRxPacket_cases env s hf
  · exact ⟨t, hx _ _⟩
  · have hok := hx (nicPoll env 0) 0
    have hnic' : u.nicInitialized = false := hu.nic.1.trans hnic
    dsimp only at hok
    rw [hok, sendIpv4Packet, elim_none, netArpResolve, if_pos hnic']
    split_ifs <;> exact ⟨_, rfl⟩

/-- **When the receive path returns.** With a tick counter that stands still and no frames that
arrive, whether `nic_poll` returns is decided by the settings, the ARP cache and the frames that
wait, in the way of the machine, and so for `net_rx_packet` on a frame. While at most 32 frames
wait, `nic_poll` returns if and only if every echo request among the frames that the driver hands on
has a next hop that is in the cache when the request is handled, or after all of these frames. -/
theorem rx_returns_iff {env : Env} {tick : UInt32} (hclock : ∀ n, env.clock n = tick)
    (hquiet : ∀ n, env.arrivals n = []) (s : State) :
    ((∃ fuel t, nicPoll env fuel s = .ok t) ↔ (s.nicInitialized = true →
      (settle s.config s.driverType tick s.queue.length s.arpCache s.queue).isSome = true)) ∧
    (∀ data : Frame, data.length < 65536 →
      ((∃ fuel t, netRxPacket env (nicPoll env fuel) fuel s data = .ok t) ↔
        (s.nicInitialized = true → (serve s.config tick
          (fun hop => await (settle s.config s.driverType tick s.queue.length) hop
            (s.queue.length + 1)) data s.arpCache s.queue).isSome = true))) ∧
    (s.queue.length ≤ 32 → s.driverType ≠ .none →
      ((settle s.config s.driverType tick s.queue.length s.arpCache s.queue).isSome = true ↔
        Answerable s.config tick
          ((handedOn s.driverType s.queue).foldl (heard s.config · tick) s.arpCache) s.arpCache
          (handedOn s.driverType s.queue))) := by
  have hpoll : Follower env s.config s.driverType tick s.queue.length
      (nicPoll env (s.queue.length + 1)) :=
    follower_nicPoll hclock hquiet s.queue.length (Nat.lt_succ_self _)
  -- the calls mirror the machine, and one poll takes up to 32 frames
  refine ⟨?_, fun data hlen => ?_, fun h32 hd => ?_⟩
  · cases hnic : s.nicInitialized with
    | false => exact ⟨fun _ h => (Bool.false_ne_true h).elim, fun _ => ⟨1, s, by
        rw [nicPoll_succ, if_pos hnic]⟩⟩
    | true =>
      rw [imp_iff_right rfl]
      exact returns_iff (x := fun fuel => nicPoll env fuel s)
        (fun n m hnm => extends_nicPoll hclock hquiet hnm s)
        (hpoll.mirrors s ⟨hnic, rfl, rfl⟩ le_rfl)
  · cases hnic : s.nicInitialized with
    | false => exact ⟨fun _ h => (Bool.false_ne_true h).elim, fun _ =>
        ⟨0, netRxPacket_without_nic env hnic hlen⟩⟩
    | true =>
      rw [imp_iff_right rfl]
      refine returns_iff (x := fun fuel => netRxPacket env (nicPoll env fuel) fuel s data)
        (fun n m hnm => ?_) (mirrors_netRxPacket hclock hpoll ⟨hnic, rfl, rfl⟩ le_rfl
          (Nat.le_succ _) hlen)
      obtain rfl | hm := Nat.eq_zero_or_pos m
      · obtain rfl := Nat.le_zero.1 hnm
        exact .refl _
      · exact extends_netRxPacket hclock hquiet hnm hm (extends_nicPoll hclock hquiet hnm) s hlen
  · cases hlen : s.queue.length with
    | zero =>
      rw [length_eq_zero_iff.1 hlen]
      exact iff_of_true rfl trivial
    | succ n =>
      have hb : budgetOf s.driverType = 32 := if_neg hd
      obtain ⟨hyes, hno⟩ := drain_eq hd s.queue (budgetOf s.driverType) n s.arpCache (by omega) h32
        (by omega) ((handedOn s.driverType s.queue).foldl (heard s.config · tick) s.arpCache) rfl
      rw [settle]
      constructor
      · intro hsome
        by_contra hans
        rw [hno hans] at hsome
        cases hsome
      · intro hans
        rw [hyes hans]
        rfl

/-! ## Runs -/

/-- An echo request to 10.0.2.15. -/
def pingFrom (src : UInt32) : Frame :=
  ethFrame idleHost.mac (Vector.replicate 6 2) 0x0800
    (ipv4Packet src 0x0A00020F 1 1 [8, 0, 0xF7, 0xFD, 0, 1, 0, 1])

/-- The host 10.0.2.15, with the gateway 10.0.2.2 and nothing in the ARP cache. -/
def pingedHost (src : UInt32) : State :=
  { idleHost with
    config := { idleHost.config with
      configured := true
      ip := 0x0A00020F
      netmask := 0xFFFFFF00
      gateway := 0x0A000202 }
    queue := [⟨false, pingFrom src⟩] }

/-- The run is stuck. -/
def isStuck : Res State → Bool
  | .error (.fuel (some (.arp target)) w) =>
    w.queue.isEmpty && (arpCacheLookup w.arpCache target).isNone
  | _ => false

lemma exists_of_isStuck {x : Res State} (h : isStuck x = true) :
    ∃ e, x = .error e ∧ Stuck e := by
  unfold isStuck at h
  split at h
  · rw [Bool.and_eq_true, List.isEmpty_iff, isNone_iff_eq_none] at h
    exact ⟨_, rfl, .inl h.1, h.2⟩
  · cases h

/-- The host gets an echo request from 8.8.8.8, and behind it the ARP packet of the gateway. -/
def gatewayHost : State :=
  { pingedHost 0 with
    queue := [⟨false, pingFrom 0x08080808⟩, ⟨false, ethFrame idleHost.mac (Vector.replicate 6 3)
      0x0806 (arpPacket 2 (Vector.replicate 6 3) 0x0A000202 idleHost.mac 0x0A00020F)⟩] }

/-- The reply waits for the address of the gateway and finds it in the next frame. -/
theorem rx_returns_iff_gateway :
    (∀ n, quietNet.clock n = 0) ∧ (∀ n, quietNet.arrivals n = []) ∧
      (settle gatewayHost.config .e1000 0 2 gatewayHost.arpCache gatewayHost.queue).isSome = true ∧
      ∃ fuel t, nicPoll quietNet fuel gatewayHost = .ok t := by
  have hsettle : (settle gatewayHost.config .e1000 0 2 gatewayHost.arpCache
      gatewayHost.queue).isSome = true := by decide +kernel
  have hclock : ∀ n, quietNet.clock n = 0 := fun _ => rfl
  exact ⟨hclock, fun _ => rfl, hsettle,
    (rx_returns_iff hclock (fun _ => rfl) gatewayHost).1.2 fun _ => hsettle⟩

/-- **An echo request from 8.8.8.8 is never answered**: its next hop is the gateway, whose hardware
address is not known, and `nic_poll` waits for it with the clock standing still. -/
theorem rx_never_returns : ¬ ∃ fuel t, nicPoll quietNet fuel (pingedHost 0x08080808) = .ok t := by
  obtain ⟨e, he, hstuck⟩ := exists_of_isStuck
    (x := nicPoll quietNet 2 (pingedHost 0x08080808)) (by decide +kernel)
  have hclock : ∀ n, quietNet.clock n = 0 := fun _ => rfl
  exact ne_ok_of_stuck (fun n m hnm => extends_nicPoll hclock (fun _ => rfl) hnm _) he hstuck

end BengalTiger.Net
