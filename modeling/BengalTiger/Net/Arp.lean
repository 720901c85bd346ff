import Mathlib.Data.List.Perm.Subperm
import Mathlib.Data.List.Range
import BengalTiger.Lib.Recency

set_option autoImplicit false

/-!
# The ARP cache

`arp_cache_update` and `arp_cache_lookup` of `kernel/net.c`: sixteen entries, searched by one
loop that looks for the address, for the first free slot and for the oldest entry at once. Over
any history of updates at increasing ticks the cache holds exactly the sixteen most recently
updated addresses.

## Main definitions

* `Net.ArpEntry`, `Net.ArpCache` — the static array `arp_cache`.
* `Net.arpCacheUpdate`, `Net.arpCacheLookup` — the code.
* `Net.recentIps`, `Net.latest` — what the cache is for.

## Main results

* `Net.arp_cache_lru` — the cache is a least-recently-updated cache.
-/

namespace BengalTiger.Net

/-! ## The code -/

/-- A hardware address. -/
abbrev Mac := Vector UInt8 6

/-- `NET_ARP_CACHE_SIZE`. -/
def arpCacheSize : ℕ := 16

/-- `arp_entry_t`. -/
structure ArpEntry where
  ip : UInt32
  mac : Mac
  updatedTick : UInt32
  valid : Bool

/-- The array `arp_cache`. -/
abbrev ArpCache := ℕ → ArpEntry

/-- The array after `net_init`. -/
def emptyCache : ArpCache := fun _ => ⟨0, Vector.replicate 6 0, 0, false⟩

open Function List

/-- The local variables of the loop of `arp_cache_update`. -/
structure ArpScan where
  freeSlot : Option ℕ
  oldestSlot : ℕ
  oldestTick : UInt32

/-- The body of the loop for an entry that does not match. -/
def ArpScan.visit (sc : ArpScan) (i : ℕ) (e : ArpEntry) : ArpScan where
  freeSlot := if e.valid = false ∧ sc.freeSlot = none then some i else sc.freeSlot
  oldestSlot := if e.valid = true ∧ e.updatedTick < sc.oldestTick then i else sc.oldestSlot
  oldestTick :=
    if e.valid = true ∧ e.updatedTick < sc.oldestTick then e.updatedTick else sc.oldestTick

/-- An entry holds the address. -/
def ArpEntry.matches (e : ArpEntry) (ip : UInt32) : Bool := e.valid && e.ip == ip

/-- The loop of `arp_cache_update` over the remaining slots: the slot that holds the address, or
the variables at the end. -/
def arpScan (cache : ArpCache) (ip : UInt32) : List ℕ → ArpScan → ℕ ⊕ ArpScan
  | [], sc => .inr sc
  | i :: is, sc =>
    if (cache i).matches ip then .inl i else arpScan cache ip is (sc.visit i (cache i))

/-- `arp_cache_update` at tick `tick`. -/
def arpCacheUpdate (cache : ArpCache) (ip : UInt32) (mac : Mac) (tick : UInt32) : ArpCache :=
  if ip = 0 then cache
  else (arpScan cache ip (List.range arpCacheSize) ⟨none, 0, 0xFFFFFFFF⟩).elim
    (fun i => update cache i { cache i with mac := mac, updatedTick := tick })
    (fun sc => update cache (sc.freeSlot.getD sc.oldestSlot) ⟨ip, mac, tick, true⟩)

/-- `arp_cache_lookup`. -/
def arpCacheLookup (cache : ArpCache) (ip : UInt32) : Option Mac :=
  ((List.range arpCacheSize).find? fun i => (cache i).matches ip).map fun i => (cache i).mac

/-! ## The abstract cache -/

/-- A call of `arp_cache_update`. -/
structure ArpUpdate where
  ip : UInt32
  mac : Mac
  tick : UInt32

/-- A sequence of calls. -/
def runUpdates (us : List ArpUpdate) : ArpCache :=
  us.foldl (fun c u => arpCacheUpdate c u.ip u.mac u.tick) emptyCache

/-- The distinct non-zero addresses, the most recently updated one first. -/
def recentIps (us : List ArpUpdate) : List UInt32 :=
  us.foldl (fun l u => if u.ip = 0 then l else Recency.touch l u.ip) []

/-- The latest update of an address. -/
def latest (us : List ArpUpdate) (ip : UInt32) : Option ArpUpdate :=
  us.reverse.find? fun u => u.ip == ip

/-- One more update. -/
lemma recentIps_concat (us : List ArpUpdate) (u : ArpUpdate) :
    recentIps (us ++ [u]) =
      if u.ip = 0 then recentIps us else Recency.touch (recentIps us) u.ip := by
  simp [recentIps]

/-- The latest update after one more. -/
lemma latest_concat (us : List ArpUpdate) (u : ArpUpdate) (ip : UInt32) :
    latest (us ++ [u]) ip = if u.ip = ip then some u else latest us ip := by
  unfold latest
  rw [reverse_append, reverse_singleton, singleton_append, find?_cons]
  by_cases e : u.ip = ip
  · simp [e]
  · have hne : (u.ip == ip) = false := by simpa using e
    rw [if_neg e, hne]

/-- The latest update is one of the updates. -/
lemma mem_of_latest {us : List ArpUpdate} {ip : UInt32} {u : ArpUpdate}
    (h : latest us ip = some u) : u ∈ us ∧ u.ip = ip := by
  have hmem := mem_of_find?_eq_some h
  have hip := find?_some h
  exact ⟨mem_reverse.1 hmem, by simpa using hip⟩

/-- The recent addresses are distinct. -/
lemma nodup_recentIps (us : List ArpUpdate) : (recentIps us).Nodup := by
  induction us using List.reverseRecOn with
  | nil => exact nodup_nil
  | append_singleton us u ih =>
    rw [recentIps_concat]
    split_ifs
    · exact ih
    · exact Recency.nodup_touch ih _

/-- Address 0 is never recent. -/
lemma zero_notMem_recentIps (us : List ArpUpdate) : 0 ∉ recentIps us := by
  induction us using List.reverseRecOn with
  | nil => exact not_mem_nil
  | append_singleton us u ih =>
    rw [recentIps_concat]
    split_ifs with h0
    · exact ih
    · rw [Recency.mem_touch, not_or]
      exact ⟨fun e => h0 e.symm, ih⟩

/-! ## The loop of `arp_cache_update` -/

section Scan

variable {cache : ArpCache} {ip : UInt32}

/-- An entry holds the address when it is valid and has it. -/
lemma matches_iff {e : ArpEntry} : e.matches ip = true ↔ e.valid = true ∧ e.ip = ip := by
  simp [ArpEntry.matches]

/-- The loop finds a slot with the address, or there is none and it visits every slot. -/
lemma arpScan_cases (cache : ArpCache) (ip : UInt32) (is : List ℕ) (sc : ArpScan) :
    (∃ i ∈ is, (cache i).matches ip = true ∧ arpScan cache ip is sc = .inl i) ∨
      (∀ i ∈ is, (cache i).matches ip = false) ∧
        arpScan cache ip is sc = .inr (is.foldl (fun sc i => sc.visit i (cache i)) sc) := by
  induction is generalizing sc with
  | nil => exact .inr ⟨by simp, rfl⟩
  | cons i is ih =>
    unfold arpScan
    split_ifs with hi
    · exact .inl ⟨i, by simp, hi, rfl⟩
    · obtain ⟨j, hj, hm, hs⟩ | ⟨hno, hs⟩ := ih (sc.visit i (cache i))
      · exact .inl ⟨j, mem_cons_of_mem _ hj, hm, hs⟩
      · refine .inr ⟨?_, hs⟩
        intro j hj
        obtain rfl | hj := mem_cons.1 hj
        · simpa using hi
        · exact hno j hj

/-- The free slot is the first one. -/
lemma freeSlot_foldl (cache : ArpCache) (is : List ℕ) (sc : ArpScan) :
    (is.foldl (fun sc i => sc.visit i (cache i)) sc).freeSlot =
      sc.freeSlot.or (is.find? fun i => !(cache i).valid) := by
  induction is generalizing sc with
  | nil => simp
  | cons i is ih =>
    rw [foldl_cons, ih, find?_cons]
    cases hv : (cache i).valid <;> cases hf : sc.freeSlot <;> simp [ArpScan.visit, hv, hf]

/-- Among valid entries the oldest slot has the smallest tick, if one is below the start value. -/
lemma oldest_foldl {is : List ℕ} (hv : ∀ i ∈ is, (cache i).valid = true) (sc : ArpScan) :
    let r := is.foldl (fun sc i => sc.visit i (cache i)) sc
    (∀ i ∈ is, r.oldestTick ≤ (cache i).updatedTick) ∧ r.oldestTick ≤ sc.oldestTick ∧
      (r.oldestTick = sc.oldestTick ∧ r.oldestSlot = sc.oldestSlot ∨
        r.oldestSlot ∈ is ∧ (cache r.oldestSlot).updatedTick = r.oldestTick) := by
  -- the tick kept is the start value or belongs to the slot kept
  induction is generalizing sc with
  | nil => simp
  | cons i is ih =>
    have hvi : (cache i).valid = true := hv i (by simp)
    obtain ⟨hle, hsc, hmem⟩ := ih (fun j hj => hv j (mem_cons_of_mem _ hj))
      (sc.visit i (cache i))
    rw [foldl_cons]
    dsimp only
    set r := is.foldl (fun sc i => sc.visit i (cache i)) (sc.visit i (cache i)) with hr
    by_cases hlt : (cache i).updatedTick < sc.oldestTick
    · have ht : (sc.visit i (cache i)).oldestTick = (cache i).updatedTick := by
        simp [ArpScan.visit, hvi, hlt]
      rw [ht] at hsc hmem
      refine ⟨?_, UInt32.le_trans hsc (UInt32.le_of_lt hlt), ?_⟩
      · intro j hj
        obtain rfl | hj := mem_cons.1 hj
        · exact hsc
        · exact hle j hj
      · obtain ⟨htick, hslot⟩ | ⟨hin, htick⟩ := hmem
        · have hi : r.oldestSlot = i := by
            rw [hslot]
            simp [ArpScan.visit, hvi, hlt]
          exact .inr ⟨by simp [hi], by rw [hi, htick]⟩
        · exact .inr ⟨mem_cons_of_mem _ hin, htick⟩
    · have ht : (sc.visit i (cache i)).oldestTick = sc.oldestTick := by
        simp [ArpScan.visit, hlt]
      have hs : (sc.visit i (cache i)).oldestSlot = sc.oldestSlot := by
        simp [ArpScan.visit, hlt]
      rw [ht] at hsc hmem
      rw [hs] at hmem
      refine ⟨?_, hsc, ?_⟩
      · intro j hj
        obtain rfl | hj := mem_cons.1 hj
        · exact UInt32.le_trans hsc (UInt32.not_lt.1 hlt)
        · exact hle j hj
      · exact hmem.imp_right fun h => ⟨mem_cons_of_mem _ h.1, h.2⟩

end Scan

/-! ## The cache holds the recent addresses -/

/-- The cache after the updates `us`: `slots` are the valid slots, the most recently updated one
first. -/
structure ArpInv (cache : ArpCache) (us : List ArpUpdate) (slots : List ℕ) : Prop where
  nodup : slots.Nodup
  mem : ∀ i, i ∈ slots ↔ i < 16 ∧ (cache i).valid = true
  ips : slots.map (fun i => (cache i).ip) = (recentIps us).take 16
  latest : ∀ i ∈ slots,
    latest us (cache i).ip = some ⟨(cache i).ip, (cache i).mac, (cache i).updatedTick⟩
  order : slots.Pairwise fun i j => (cache j).updatedTick < (cache i).updatedTick

section Inv

variable {cache : ArpCache} {us : List ArpUpdate} {slots : List ℕ} {u : ArpUpdate}

variable (h : ArpInv cache us slots)

include h

/-- Different slots hold different addresses. -/
lemma ArpInv.inj {i j : ℕ} (hi : i ∈ slots) (hj : j ∈ slots) (e : (cache i).ip = (cache j).ip) :
    i = j := by
  have hnd : (slots.map fun i => (cache i).ip).Nodup := by
    rw [h.ips]
    exact (nodup_recentIps us).sublist (take_sublist _ _)
  exact inj_on_of_nodup_map hnd hi hj e

/-- All ticks in the cache are those of earlier updates. -/
lemma ArpInv.tick_lt (hu : ∀ v ∈ us, v.tick < u.tick) {i : ℕ} (hi : i ∈ slots) :
    (cache i).updatedTick < u.tick :=
  hu _ (mem_of_latest (h.latest i hi)).1

/-- A slot that matches holds the address. -/
lemma ArpInv.matches {ip : UInt32} {i : ℕ} (hi : i < 16) :
    (cache i).matches ip = true ↔ i ∈ slots ∧ (cache i).ip = ip := by
  rw [matches_iff, h.mem]
  simp [hi]

/-- The slot written by an update comes first, before the others that stay in the cache. -/
lemma ArpInv.put (h0 : u.ip ≠ 0) (hu : ∀ v ∈ us, v.tick < u.tick) {k : ℕ} (hk : k < 16)
    {rest : List ℕ} (hsub : rest.Sublist slots) (hkr : k ∉ rest)
    (hslots : ∀ i, i ∈ slots → i = k ∨ i ∈ rest) (hrest : ∀ i ∈ rest, (cache i).ip ≠ u.ip)
    (hips : u.ip :: rest.map (fun i => (cache i).ip) =
      (Recency.touch (recentIps us) u.ip).take 16) :
    ArpInv (update cache k ⟨u.ip, u.mac, u.tick, true⟩) (us ++ [u]) (k :: rest) := by
  have hne : ∀ i ∈ rest, i ≠ k := fun i hi e => hkr (e ▸ hi)
  -- the slots that stay are not the one written
  have hother : ∀ i ∈ rest,
      update cache k ⟨u.ip, u.mac, u.tick, true⟩ i = cache i :=
    fun i hi => update_of_ne (hne i hi) _ _
  refine ⟨?_, ?_, ?_, ?_, ?_⟩
  · exact nodup_cons.2 ⟨hkr, h.nodup.sublist hsub⟩
  · intro i
    by_cases e : i = k
    · simp [e, hk]
    · rw [mem_cons, update_of_ne e, ← h.mem]
      constructor
      · rintro (e' | hi)
        · exact absurd e' e
        · exact hsub.subset hi
      · intro hi
        exact hslots i hi
  · rw [recentIps_concat, if_neg h0, ← hips, map_cons, update_self]
    congr 1
    apply map_congr_left
    intro i hi
    rw [hother i hi]
  · intro i hi
    rw [latest_concat]
    obtain rfl | hi := mem_cons.1 hi
    · simp
    · rw [hother i hi, if_neg (hrest i hi).symm]
      exact h.latest i (hsub.subset hi)
  · rw [pairwise_cons]
    constructor
    · intro i hi
      rw [hother i hi, update_self]
      exact h.tick_lt hu (hsub.subset hi)
    · apply (h.order.sublist hsub).imp_of_mem
      intro i j hi hj hlt
      rwa [hother i hi, hother j hj]

/-- An update of an address that is in the cache. -/
lemma ArpInv.refresh (h0 : u.ip ≠ 0) (hu : ∀ v ∈ us, v.tick < u.tick) {i : ℕ} (hi : i ∈ slots)
    (hip : (cache i).ip = u.ip) :
    ∃ slots', ArpInv (update cache i { cache i with mac := u.mac, updatedTick := u.tick })
      (us ++ [u]) slots' := by
  obtain ⟨A, B, rfl⟩ := append_of_mem hi
  have hnd := h.nodup
  have hmem := (h.mem i).1 hi
  have hentry : ({ cache i with mac := u.mac, updatedTick := u.tick } : ArpEntry) =
      ⟨u.ip, u.mac, u.tick, true⟩ := by
    rw [← hip, ← hmem.2]
  rw [nodup_append, nodup_cons] at hnd
  have hnot : i ∉ A ++ B := by
    rw [mem_append, not_or]
    exact ⟨fun hA => hnd.2.2 i hA i (by simp) rfl, hnd.2.1.1⟩
  have hsub : (A ++ B).Sublist (A ++ i :: B) :=
    List.Sublist.append_left (sublist_cons_self i B) A
  rw [hentry]
  refine ⟨i :: (A ++ B), h.put h0 hu hmem.1 hsub hnot ?_ ?_ ?_⟩
  · intro j hj
    simp only [mem_append, mem_cons] at hj ⊢
    tauto
  · intro j hj e
    have : j = i := h.inj (hsub.subset hj) hi (e.trans hip.symm)
    exact hnot (this ▸ hj)
  · have hips := h.ips
    rw [map_append, map_cons, hip] at hips
    rw [Recency.take_touch_of_mem (nodup_recentIps us) hips.symm, map_append]

/-- An update of an address that is not in the cache, with a free slot. -/
lemma ArpInv.insert (h0 : u.ip ≠ 0) (hu : ∀ v ∈ us, v.tick < u.tick)
    (hno : ∀ i ∈ slots, (cache i).ip ≠ u.ip) {k : ℕ} (hk : k < 16)
    (hfree : (cache k).valid = false) :
    ArpInv (update cache k ⟨u.ip, u.mac, u.tick, true⟩) (us ++ [u]) (k :: slots) := by
  have hks : k ∉ slots := by
    rw [h.mem]
    simp [hfree]
  have hlen : slots.length < 16 := by
    have hsub : (k :: slots) ⊆ List.range 16 := by
      intro i hi
      obtain rfl | hi := mem_cons.1 hi
      · exact mem_range.2 hk
      · exact mem_range.2 ((h.mem i).1 hi).1
    have hle := (subperm_of_subset (nodup_cons.2 ⟨hks, h.nodup⟩) hsub).length_le
    rw [length_cons, length_range] at hle
    omega
  have htake : (recentIps us).take 15 = (recentIps us).take 16 := by
    have hl : (slots.map fun i => (cache i).ip).length = ((recentIps us).take 16).length :=
      congrArg List.length h.ips
    rw [length_map, length_take] at hl
    rw [take_of_length_le (by omega), take_of_length_le (by omega)]
  apply h.put h0 hu hk (List.Sublist.refl _) hks (fun i hi => .inr hi) hno
  rw [Recency.take_touch_of_notMem, htake, h.ips]
  rw [← h.ips]
  intro hmem
  obtain ⟨i, hi, e⟩ := mem_map.1 hmem
  exact hno i hi e

/-- An update of an address that is not in the full cache takes the place of the oldest entry. -/
lemma ArpInv.evict (h0 : u.ip ≠ 0) (hu : ∀ v ∈ us, v.tick < u.tick)
    (hno : ∀ i ∈ slots, (cache i).ip ≠ u.ip) (hfull : ∀ i < 16, (cache i).valid = true) {k : ℕ}
    (hk : k ∈ slots) (hold : ∀ i ∈ slots, (cache k).updatedTick ≤ (cache i).updatedTick) :
    ∃ slots', ArpInv (update cache k ⟨u.ip, u.mac, u.tick, true⟩) (us ++ [u]) slots' := by
  have hall : ∀ i, i ∈ slots ↔ i ∈ List.range 16 := by
    intro i
    rw [h.mem, mem_range]
    exact ⟨fun hi => hi.1, fun hi => ⟨hi, hfull i hi⟩⟩
  have hlen : slots.length = 16 := by
    have hperm : slots.Perm (List.range 16) :=
      (perm_ext_iff_of_nodup h.nodup nodup_range).2 hall
    simpa using hperm.length_eq
  have hne : slots ≠ [] := by
    rintro rfl
    simp at hlen
  obtain ⟨A, z, rfl⟩ : ∃ A z, slots = A ++ [z] :=
    ⟨slots.dropLast, slots.getLast hne, (dropLast_append_getLast hne).symm⟩
  have hnd := nodup_append.1 h.nodup
  -- the last slot has the smallest tick of all
  have hz : k = z := by
    obtain hA | hz := mem_append.1 hk
    · have hlt := (pairwise_append.1 h.order).2.2 k hA z (by simp)
      exact absurd hlt (UInt32.not_lt.2 (hold z (by simp)))
    · exact mem_singleton.1 hz
  subst hz
  have hkA : k ∉ A := fun hA => hnd.2.2 k hA k (by simp) rfl
  have hsub : A.Sublist (A ++ [k]) := sublist_append_left A [k]
  refine ⟨k :: A, h.put h0 hu ((h.mem k).1 hk).1 hsub hkA ?_ ?_ ?_⟩
  · intro i hi
    simp only [mem_append, mem_singleton] at hi
    exact hi.symm
  · intro i hi
    exact hno i (hsub.subset hi)
  · have hnot : u.ip ∉ (recentIps us).take 16 := by
      rw [← h.ips]
      intro hmem
      obtain ⟨i, hi, e⟩ := mem_map.1 hmem
      exact hno i hi e
    have htake : (recentIps us).take 15 = A.map fun i => (cache i).ip := by
      have hA : A.length = 15 := by simpa using hlen
      have h15 : (recentIps us).take 15 = ((recentIps us).take 16).take 15 := by
        rw [take_take]
        rfl
      rw [h15, ← h.ips, map_append, take_append_of_le_length (by simp [hA]),
        take_of_length_le (by simp [hA])]
    rw [Recency.take_touch_of_notMem hnot, htake]

/-- **One update** keeps the invariant. -/
lemma ArpInv.update (hu : ∀ v ∈ us, v.tick < u.tick) :
    ∃ slots', ArpInv (arpCacheUpdate cache u.ip u.mac u.tick) (us ++ [u]) slots' := by
  by_cases h0 : u.ip = 0
  · refine ⟨slots, ?_⟩
    unfold arpCacheUpdate
    rw [if_pos h0]
    have hlat : ∀ i ∈ slots, Net.latest (us ++ [u]) (cache i).ip = Net.latest us (cache i).ip := by
      intro i hi
      rw [latest_concat, if_neg]
      intro e
      have hmem : (cache i).ip ∈ (recentIps us).take 16 := by
        rw [← h.ips]
        exact mem_map_of_mem hi
      rw [← e, h0] at hmem
      exact zero_notMem_recentIps us (mem_of_mem_take hmem)
    refine ⟨h.nodup, h.mem, ?_, fun i hi => ?_, h.order⟩
    · rw [recentIps_concat, if_pos h0, h.ips]
    · rw [hlat i hi]
      exact h.latest i hi
  unfold arpCacheUpdate
  rw [if_neg h0]
  obtain ⟨i, hi, hm, hs⟩ | ⟨hno, hs⟩ :=
    arpScan_cases cache u.ip (List.range arpCacheSize) ⟨none, 0, 0xFFFFFFFF⟩
  · rw [hs]
    have hi' := (h.matches (mem_range.1 hi)).1 hm
    exact h.refresh h0 hu hi'.1 hi'.2
  · rw [hs]
    have hother : ∀ i ∈ slots, (cache i).ip ≠ u.ip := by
      intro i hi e
      have hi16 := ((h.mem i).1 hi).1
      have := hno i (mem_range.2 hi16)
      rw [(h.matches hi16).2 ⟨hi, e⟩] at this
      cases this
    show ∃ slots', ArpInv (Function.update cache _ _) _ slots'
    rw [freeSlot_foldl]
    cases hf : (List.range arpCacheSize).find? fun i => !(cache i).valid with
    | some k =>
      have hk := mem_range.1 (mem_of_find?_eq_some hf)
      have hfree := find?_some hf
      exact ⟨k :: slots, h.insert h0 hu hother hk (by simpa using hfree)⟩
    | none =>
      have hfull : ∀ i < 16, (cache i).valid = true := by
        intro i hi
        simpa using find?_eq_none.1 hf i (mem_range.2 hi)
      have hslots : ∀ i < 16, i ∈ slots := fun i hi => (h.mem i).2 ⟨hi, hfull i hi⟩
      have hvalid : ∀ i ∈ List.range arpCacheSize, (cache i).valid = true :=
        fun i hi => hfull i (mem_range.1 hi)
      obtain ⟨hle, -, hmem⟩ := oldest_foldl hvalid ⟨none, 0, 0xFFFFFFFF⟩
      obtain ⟨hstart, -⟩ | ⟨hin, htick⟩ := hmem
      · -- the loop finds a tick below its start value, for every tick is below the new one
        have h0le := hle 0 (mem_range.2 (by decide))
        have h0lt := h.tick_lt hu (hslots 0 (by decide))
        have hmax := u.tick.toNat_lt
        rw [hstart, UInt32.le_iff_toNat_le] at h0le
        rw [UInt32.lt_iff_toNat_lt] at h0lt
        have hconst : (0xFFFFFFFF : UInt32).toNat = 4294967295 := rfl
        dsimp only at h0le
        omega
      · refine h.evict h0 hu hother hfull (hslots _ (mem_range.1 hin)) ?_
        intro i hi
        refine UInt32.le_trans (UInt32.le_of_eq htick) ?_
        exact hle i (mem_range.2 ((h.mem i).1 hi).1)

omit h in
/-- The cache after `net_init` is empty. -/
lemma arpInv_nil : ArpInv emptyCache [] [] where
  nodup := nodup_nil
  mem i := by simp [emptyCache]
  ips := rfl
  latest i hi := absurd hi not_mem_nil
  order := .nil

omit h in
/-- The invariant after any updates at increasing ticks. -/
lemma exists_arpInv (us : List ArpUpdate) (hus : us.Pairwise fun u v => u.tick < v.tick) :
    ∃ slots, ArpInv (runUpdates us) us slots := by
  induction us using List.reverseRecOn with
  | nil => exact ⟨[], arpInv_nil⟩
  | append_singleton us u ih =>
    obtain ⟨hus, -, hu⟩ := pairwise_append.1 hus
    obtain ⟨slots, h⟩ := ih hus
    have hrun : runUpdates (us ++ [u]) = arpCacheUpdate (runUpdates us) u.ip u.mac u.tick := by
      simp [runUpdates]
    rw [hrun]
    exact h.update fun v hv => hu v hv u (by simp)

/-- The lookup finds the addresses of the valid slots. -/
lemma ArpInv.lookup (ip : UInt32) :
    arpCacheLookup cache ip =
      if ip ∈ (recentIps us).take 16 then (Net.latest us ip).map ArpUpdate.mac else none := by
  unfold arpCacheLookup
  cases hf : (List.range arpCacheSize).find? fun i => (cache i).matches ip with
  | some i =>
    have hi := mem_range.1 (mem_of_find?_eq_some hf)
    have hm := find?_some hf
    obtain ⟨his, hip⟩ := (h.matches hi).1 hm
    have hmem : ip ∈ (recentIps us).take 16 := by
      rw [← h.ips, ← hip]
      exact mem_map_of_mem his
    rw [if_pos hmem, ← hip, h.latest i his]
    rfl
  | none =>
    rw [if_neg]
    · rfl
    · rw [← h.ips]
      intro hmem
      obtain ⟨i, hi, e⟩ := mem_map.1 hmem
      have hi16 := ((h.mem i).1 hi).1
      have := find?_eq_none.1 hf i (mem_range.2 hi16)
      exact this ((h.matches hi16).2 ⟨hi, e⟩)

end Inv

/-- **The ARP cache is a least-recently-updated cache.** After any updates at increasing ticks no
two valid entries have the same address, none has address 0, and a lookup succeeds exactly for
the sixteen most recently updated distinct non-zero addresses, with the hardware address of the
latest update. -/
theorem arp_cache_lru (us : List ArpUpdate) (hus : us.Pairwise fun u v => u.tick < v.tick) :
    (∀ i < arpCacheSize, ∀ j < arpCacheSize, (runUpdates us i).valid = true →
        (runUpdates us j).valid = true → (runUpdates us i).ip = (runUpdates us j).ip → i = j) ∧
      (∀ i < arpCacheSize, (runUpdates us i).valid = true → (runUpdates us i).ip ≠ 0) ∧
      ∀ ip, arpCacheLookup (runUpdates us) ip =
        if ip ∈ (recentIps us).take arpCacheSize then (latest us ip).map ArpUpdate.mac
        else none := by
  obtain ⟨slots, h⟩ := exists_arpInv us hus
  refine ⟨?_, ?_, h.lookup⟩
  · intro i hi j hj hvi hvj e
    exact h.inj ((h.mem i).2 ⟨hi, hvi⟩) ((h.mem j).2 ⟨hj, hvj⟩) e
  · intro i hi hvi e
    have hmem : (runUpdates us i).ip ∈ (recentIps us).take 16 := by
      rw [← h.ips]
      exact mem_map_of_mem ((h.mem i).2 ⟨hi, hvi⟩)
    rw [e] at hmem
    exact zero_notMem_recentIps us (mem_of_mem_take hmem)

/-- Two addresses, the first updated twice. -/
def threeUpdates : List ArpUpdate :=
  [⟨0x0A000202, #v[2, 0, 0, 0, 0, 1], 5⟩, ⟨0x0A000203, #v[2, 0, 0, 0, 0, 2], 6⟩,
    ⟨0x0A000202, #v[2, 0, 0, 0, 0, 3], 9⟩]

/-- The lookup after three updates returns the latest hardware address. -/
theorem arp_cache_lru_threeUpdates :
    threeUpdates.Pairwise (fun u v => u.tick < v.tick) ∧
      arpCacheLookup (runUpdates threeUpdates) 0x0A000202 = some #v[2, 0, 0, 0, 0, 3] := by
  have hus : threeUpdates.Pairwise fun u v => u.tick < v.tick := by decide
  refine ⟨hus, ?_⟩
  rw [(arp_cache_lru threeUpdates hus).2.2]
  decide

end BengalTiger.Net
