import BengalTiger.Heap.Aligned
import BengalTiger.Lib.System
import Mathlib.Data.List.Nodup

set_option autoImplicit false

/-!
# Runs with aligned allocations

Runs of all calls of the heap, with `kmalloc_aligned`. A run carries the pointers that the clients
hold, with the size they asked for and the payload that the pointer is in. An aligned pointer may be
freed and passed to `krealloc` like the others; a client may write the bytes it asked for, and the
whole payload if the pointer is not aligned.

A call of `kmalloc_aligned` is a step of a run only if no magic number is left below the pointer
(`Heap.State.Tidy`): with one, a later `kfree` takes bytes of the payload for a header.

## Main definitions

* `Heap.Lease`, `Heap.Session`, `Heap.Call`,
  `Heap.sessions` — the runs.
* `Heap.Session.Inv` — the invariant of the runs.

## Main results

* `Heap.Session.Inv.step` — every step keeps the invariant.
* `Heap.aligned_round_trip_iff` — when an aligned allocation can be freed.
* `Heap.krealloc_preserves` — `krealloc` keeps the data.
-/

namespace BengalTiger.Heap

open ByteMem List

/-! ## Runs -/

/-- A pointer that a client holds, the size it asked for, and the payload that the pointer is in:
the pointer itself unless it is aligned. -/
structure Lease where
  ptr : ℕ
  size : ℕ
  raw : ℕ

/-- A heap together with the pointers that the clients hold. -/
structure Session where
  heap : State
  live : List Lease

/-- The steps of a run: the calls, and the store of a byte by the client that holds `ptr`. -/
inductive Call
  | kmalloc (n : ℕ)
  | kzalloc (n : ℕ)
  | kmallocAligned (n a : ℕ)
  | krealloc (ptr n : ℕ)
  | kfree (ptr : ℕ)
  | store (ptr addr : ℕ) (v : UInt8)

/-- The pointers held without `ptr`. -/
def giveBack (ptr : ℕ) (live : List Lease) : List Lease := live.eraseP fun l => l.ptr == ptr

/-- The pointers held after a call returned `l.ptr`. -/
def receive (l : Lease) (live : List Lease) : List Lease := if l.ptr = 0 then live else l :: live

/-- `block->size` of the block with the payload `ptr`. -/
def payloadSize (m : Mem) (ptr : ℕ) : ℕ := size m (sub32 ptr headerSize)

lemma Rep.payloadSize_eq {A : Arena} {h : State} {bs : List Block} {b : Block} (hR : Rep A h bs)
    (hb : b ∈ bs) : payloadSize h.mem b.payload = b.size := by
  obtain ⟨e1, -, e3, -⟩ := hR.header_of_mem hb
  rw [payloadSize, e1, e3]

namespace Session

/-- The pointer is `NULL` or held by a client. -/
def Holds (s : Session) (ptr : ℕ) : Prop := ptr = 0 ∨ ∃ l ∈ s.live, l.ptr = ptr

/-- The bytes that the holder of a pointer may write: the payload, or what was asked for if the
pointer is aligned. -/
def writable (s : Session) (l : Lease) : ℕ :=
  if l.ptr = l.raw then payloadSize s.heap.mem l.ptr else l.size

/-- The steps that the clients may take: requests that do not make a 32-bit sum wrap around, aligned
ones that leave no magic number behind, only pointers they hold, and stores to what they may
write. -/
def Allows (s : Session) : Call → Prop
  | .kmalloc n => n ≤ requestMax
  | .kzalloc n => n ≤ requestMax
  | .kmallocAligned n a =>
    IsPowerOf2 (alignmentOf a) → n + alignmentOf a + 8 ≤ requestMax ∧ s.heap.Tidy n a
  | .krealloc ptr n => n ≤ requestMax ∧ s.Holds ptr
  | .kfree ptr => s.Holds ptr
  | .store ptr addr _ => ∃ l ∈ s.live, l.ptr = ptr ∧ ptr ≤ addr ∧ addr < ptr + s.writable l

/-- The effect of a step. -/
def exec (s : Session) : Call → Session
  | .kmalloc n =>
    let r := Heap.kmalloc s.heap n
    { heap := r.1, live := receive ⟨r.2, n, r.2⟩ s.live }
  | .kzalloc n =>
    let r := Heap.kzalloc s.heap n
    { heap := r.1, live := receive ⟨r.2, n, r.2⟩ s.live }
  | .kmallocAligned n a =>
    let r := Heap.kmallocAligned s.heap n a
    { heap := r.1
      live := receive ⟨r.2, n, (Heap.kmalloc s.heap (n + alignmentOf a + 8)).2⟩ s.live }
  | .krealloc ptr n =>
    let r := Heap.krealloc s.heap ptr n
    { heap := r.1
      live := if n ≠ 0 ∧ r.2 = 0 then s.live else receive ⟨r.2, n, r.2⟩ (giveBack ptr s.live) }
  | .kfree ptr => { heap := Heap.kfree s.heap ptr, live := giveBack ptr s.live }
  | .store _ addr v => { s with heap := { s.heap with mem := Function.update s.heap.mem addr v } }

end Session

/-- The runs from `heap_init_at` on the memory `mem` with an initial size. -/
def sessions (A : Arena) (mem : Mem) (initialSize : ℕ) : System Session Call where
  init s := s = { heap := heapInitAt mem A.base initialSize A.maxSize, live := [] }
  step s call s' := s.Allows call ∧ s' = s.exec call

/-! ## The pointers held -/

/-- The pointer is in the payload of the block: at its beginning, or aligned with the words below it
as `kfree` expects them. -/
def Lease.In (m : Mem) (l : Lease) (b : Block) : Prop :=
  l.raw = b.payload ∧ (l.ptr = b.payload ∧ l.size ≤ b.size ∨
    Slotted m b l.ptr ∧ l.ptr + l.size ≤ b.stop)

/-- The pointers held are in the used blocks, one in each. -/
def Leased (m : Mem) (live : List Lease) (bs : List Block) : Prop :=
  ∃ L : List (Block × Lease), (L.map Prod.fst).Perm (usedBlocks bs) ∧ live = L.map Prod.snd ∧
    ∀ x ∈ L, x.2.In m x.1

section Leased

variable {A : Arena} {h : State} {m m' : Mem} {live : List Lease} {bs bs' : List Block}
  {b : Block} {l : Lease}

lemma Lease.In.congr (hl : l.In m b) (hm : ∀ x, b.payload ≤ x → x < b.stop → m' x = m x) :
    l.In m' b := by
  refine ⟨hl.1, hl.2.imp_right fun hs => ⟨hs.1.congr fun x hx hx' => hm x hx ?_, hs.2⟩⟩
  have := hs.1.lt
  omega

/-- The pointer is inside the payload. -/
lemma Lease.In.bounds (hl : l.In m b) (hpos : 0 < b.size) : b.payload ≤ l.ptr ∧ l.ptr < b.stop := by
  obtain ⟨-, ⟨hptr, -⟩ | ⟨hs, -⟩⟩ := hl
  · simp only [Block.stop, Block.payload] at hptr ⊢
    omega
  · have := hs.low
    exact ⟨by omega, hs.lt⟩

/-- Only the used payloads matter. -/
lemma Leased.kept (hL : Leased m live bs) (hk : Kept bs m m')
    (hu : usedBlocks bs' = usedBlocks bs) : Leased m' live bs' := by
  obtain ⟨L, h1, h2, h3⟩ := hL
  refine ⟨L, by rwa [hu], h2, fun x hx => (h3 x hx).congr ?_⟩
  exact hk x.1 (h1.mem_iff.1 (mem_map_of_mem hx))

/-- One more pointer, in a new used block. -/
lemma Leased.cons (hL : Leased m live bs) (hk : Kept bs m m')
    (hperm : (usedBlocks bs').Perm (b :: usedBlocks bs)) (hl : l.In m' b) :
    Leased m' (l :: live) bs' := by
  obtain ⟨L, h1, h2, h3⟩ := hL
  refine ⟨(b, l) :: L, (h1.cons b).trans hperm.symm, by rw [h2]; rfl, fun x hx => ?_⟩
  obtain rfl | hx := mem_cons.1 hx
  · exact hl
  · exact (h3 x hx).congr (hk x.1 (h1.mem_iff.1 (mem_map_of_mem hx)))

/-- A pointer held is in a used block. -/
lemma Leased.mem (hL : Leased m live bs) (hl : l ∈ live) : ∃ b ∈ usedBlocks bs, l.In m b := by
  obtain ⟨L, h1, rfl, h3⟩ := hL
  obtain ⟨x, hx, rfl⟩ := mem_map.1 hl
  exact ⟨x.1, h1.mem_iff.1 (mem_map_of_mem hx), h3 x hx⟩

/-- A heap at address 0 serves no request. -/
lemma Rep.kmalloc_of_null (hR : Rep A h bs) (h0 : A.base = 0) (n : ℕ) :
    Heap.kmalloc h n = (h, 0) := by
  rw [Heap.kmalloc, if_pos (.inr (hR.head.trans h0))]

/-- Blocks with the same pointer in them are the same. -/
lemma Rep.eq_of_ptr (hR : Rep A h bs) {c : Block} {l' : Lease} (hb : b ∈ usedBlocks bs)
    (hc : c ∈ usedBlocks bs) (hl : l.In m b) (hl' : l'.In m c) (hptr : l'.ptr = l.ptr) : c = b := by
  obtain ⟨hb, -⟩ := mem_usedBlocks.1 hb
  obtain ⟨hc, -⟩ := mem_usedBlocks.1 hc
  have h1 := hl.bounds (hR.tiles.mem hb).2.2.2
  have h2 := hl'.bounds (hR.tiles.mem hc).2.2.2
  rw [hptr] at h2
  simp only [Block.payload] at h1 h2
  obtain heq | hapart | hapart := hR.eq_or_apart hc hb
  · exact heq
  · omega
  · omega

/-- The holders without the one of a block `b`. -/
lemma Leased.giveBack (hL : Leased m live bs) (hR : Rep A h bs) (hb : b ∈ usedBlocks bs)
    (hl : l ∈ live) (hin : l.In m b) :
    ∃ L : List (Block × Lease), Heap.giveBack l.ptr live = L.map Prod.snd ∧
      (b :: L.map Prod.fst).Perm (usedBlocks bs) ∧ ∀ x ∈ L, x.2.In m x.1 := by
  obtain ⟨L, h1, rfl, h3⟩ := hL
  obtain ⟨k, l₁, l₂, -, hk, hsplit, herase⟩ :=
    exists_of_eraseP (p := fun k : Lease => k.ptr == l.ptr) hl (by simp)
  obtain ⟨L₁, L₂', rfl, rfl, hL⟩ := map_eq_append_iff.mp hsplit
  obtain ⟨y, L₂, rfl, rfl, rfl⟩ := map_eq_cons_iff.mp hL
  have hy : y.1 = b :=
    hR.eq_of_ptr hb (h1.mem_iff.mp (mem_map_of_mem (by simp))) hin (h3 y (by simp))
      (by simpa using hk)
  refine ⟨L₁ ++ L₂, ?_, ?_, fun z hz => h3 z ?_⟩
  · rw [Heap.giveBack, herase, map_append]
  · rw [← hy, map_append]
    refine perm_middle.symm.trans ?_
    simpa using h1
  · simp only [mem_append, mem_cons] at hz ⊢
    tauto

end Leased

/-! ## The invariant -/

/-- The state after `heap_init_at`. -/
lemma rep_heapInitAt (A : Arena) (mem : Mem) {n : ℕ} (hn : 64 ≤ n) (h8 : 8 ∣ n)
    (hmax : n ≤ A.maxSize) :
    Rep A (heapInitAt mem A.base n A.maxSize)
      [{ addr := A.base, size := n - headerSize, free := true }] := by
  have htop := A.top_lt
  have hm : heapBlockMagic < 4294967296 := by decide
  have e : sub32 n headerSize = n - headerSize := sub32_of_le (by simp only [headerSize]; omega)
    (by omega)
  have hhdr : hdr (heapInitAt mem A.base n A.maxSize).mem A.base =
      Block.header { addr := A.base, size := n - headerSize, free := true } 0 0 := by
    simp only [heapInitAt, e]
    simp (disch := omega) only [hdr_setPrev, hdr_setNext, hdr_setIsFree, hdr_setSize,
      hdr_setMagic]
    rfl
  have hsize : size (heapInitAt mem A.base n A.maxSize).mem A.base = n - headerSize := by
    rw [size_eq_hdr, hhdr]
    rfl
  refine ⟨⟨hhdr, trivial⟩, ⟨rfl, ?_, ?_, ?_⟩, rfl, rfl, rfl, ?_, h8, hmax, ?_⟩
  · simp only [headerSize]
    omega
  · simp only [headerSize]
    omega
  · change A.base + headerSize + (n - headerSize) = A.base + n
    simp only [headerSize]
    omega
  · change 0 < n
    omega
  · exact ⟨rfl, rfl, hsize, rfl, rfl⟩

/-- The invariant of the runs. A heap at address 0 counts as not initialised in `heap.c`, and no
client holds a pointer then. -/
structure Session.Inv (A : Arena) (s : Session) (bs : List Block) : Prop where
  rep : Rep A s.heap bs
  settled : Settled bs
  leased : Leased s.heap.mem s.live bs
  null : A.base = 0 → s.live = []

namespace Session

variable {A : Arena} {s : Session} {bs : List Block} {l : Lease} {n a : ℕ}

variable (hI : s.Inv A bs)

include hI

/-- A pointer held comes from a heap that is not at address 0 and is in a used block. -/
lemma Inv.held (hl : l ∈ s.live) : 0 < A.base ∧ ∃ b ∈ usedBlocks bs, l.In s.heap.mem b := by
  refine ⟨Nat.pos_of_ne_zero fun h0 => ?_, hI.leased.mem hl⟩
  rw [hI.null h0] at hl
  cases hl

/-- Different pointers held are in different payloads. -/
lemma Inv.raw_ne {k : Lease} (hl : l ∈ s.live) (hk : k ∈ s.live) (hne : k.ptr ≠ l.ptr) :
    k.raw ≠ l.raw := by
  intro hraw
  obtain ⟨L, h1, h2, h3⟩ := hI.leased
  rw [h2] at hl hk
  obtain ⟨x, hx, rfl⟩ := mem_map.1 hl
  obtain ⟨y, hy, rfl⟩ := mem_map.1 hk
  have hxb := (mem_usedBlocks.1 (h1.mem_iff.1 (mem_map_of_mem hx))).1
  have hyb := (mem_usedBlocks.1 (h1.mem_iff.1 (mem_map_of_mem hy))).1
  have hpay : y.1.payload = x.1.payload := by rw [← (h3 y hy).1, ← (h3 x hx).1, hraw]
  have hnodup : (L.map Prod.fst).Nodup :=
    h1.nodup_iff.2 (hI.rep.nodup.sublist filter_sublist)
  have hxy : y = x := inj_on_of_nodup_map hnodup hy hx (hI.rep.payload_inj hxb hyb hpay)
  exact hne (by rw [hxy])

/-- `NULL` is not held. -/
lemma Inv.giveBack_null : giveBack 0 s.live = s.live := by
  refine eraseP_of_forall_not fun l hl h0 => ?_
  obtain ⟨-, b, hb, hin⟩ := hI.held hl
  have := (hin.bounds (hI.rep.tiles.mem (mem_usedBlocks.1 hb).1).2.2.2).1
  simp only [Block.payload, headerSize, beq_iff_eq] at this h0
  omega

/-- The step of a call that returns the payload of a new block or `NULL`. -/
lemma Inv.alloc {r : State × ℕ} (hr : Serves A s.heap bs n r) (h0 : A.base = 0 → r.2 = 0) :
    ∃ bs', Inv A { heap := r.1, live := receive ⟨r.2, n, r.2⟩ s.live } bs' := by
  obtain ⟨bs', hR, hs, ha, hk⟩ := hr
  refine ⟨bs', hR, hs, ?_, fun hz => ?_⟩
  · obtain ⟨hp, hu⟩ | ⟨b, hp, hsize, hperm⟩ := ha
    · rw [receive, if_pos hp]
      exact hI.leased.kept hk hu
    · rw [receive, if_neg (hp ▸ b.payload_ne_zero)]
      exact hI.leased.cons hk hperm ⟨hp, .inl ⟨hp, hsize⟩⟩
  · show receive ⟨r.2, n, r.2⟩ s.live = []
    rw [receive, if_pos (h0 hz), hI.null hz]

lemma Inv.kmalloc (hn : n ≤ requestMax) : ∃ bs', Inv A (s.exec (.kmalloc n)) bs' := by
  by_cases hle : n ≤ heapMaxSize
  · exact hI.alloc (hI.rep.kmalloc hI.settled hle) fun h0 => by rw [hI.rep.kmalloc_of_null h0]
  · refine ⟨bs, ?_⟩
    simp only [exec, hI.rep.kmalloc_of_large (by omega) hn, receive, if_true]
    exact hI

/-- `kzalloc` keeps the invariant. -/
lemma Inv.kzalloc (hn : n ≤ requestMax) : ∃ bs', Inv A (s.exec (.kzalloc n)) bs' := by
  have hnull : Heap.kmalloc s.heap n = (s.heap, 0) → Heap.kzalloc s.heap n = (s.heap, 0) := by
    intro e
    rw [Heap.kzalloc, e]
    rfl
  by_cases hle : n ≤ heapMaxSize
  · exact hI.alloc (hI.rep.kzalloc hI.settled hle) fun h0 => by
      rw [hnull (hI.rep.kmalloc_of_null h0 n)]
  · refine ⟨bs, ?_⟩
    simp only [exec, hnull (hI.rep.kmalloc_of_large (by omega) hn), receive, if_true]
    exact hI

/-- `kmalloc_aligned` keeps the invariant: no magic number is left below the pointer, so that `kfree`
finds the payload it is in. -/
lemma Inv.kmallocAligned (ha : s.Allows (.kmallocAligned n a)) :
    ∃ bs', Inv A (s.exec (.kmallocAligned n a)) bs' := by
  by_cases hpow : IsPowerOf2 (alignmentOf a)
  · obtain ⟨hreq, htidy⟩ := ha hpow
    by_cases hn : n + alignmentOf a + 8 ≤ heapMaxSize
    swap
    · have heq := hI.rep.kmalloc_of_large (by omega) hreq
      have hu : u32 (n + alignmentOf a + 8) = n + alignmentOf a + 8 :=
        u32_of_lt (by simp only [requestMax] at hreq; omega)
      refine ⟨bs, ?_⟩
      simp only [exec, kmallocAligned_of_null (by rw [hu, heq]) hpow, hu, heq, receive, if_true]
      exact hI
    obtain ⟨h0, heq⟩ | ⟨bs', b, hptr, hR', hs', hk, hperm, hp, hplaced⟩ :=
      hI.rep.kmallocAligned hI.settled hpow hn
    · refine ⟨bs, ?_⟩
      simp only [exec, heq, receive, if_true]
      exact hI
    · have hstop := (hR'.tiles.mem (mem_usedBlocks.1 (hperm.mem_iff.2 mem_cons_self)).1).2.1
      have htop := hR'.top_lt
      have hlow := hplaced.low
      have hfits := hplaced.fits
      have hroom := hplaced.room
      have hend : b.payload + (n + alignmentOf a + 8) ≤ 4294967296 := by
        simp only [Block.stop, Block.payload] at hstop ⊢
        omega
      obtain ⟨hhead, hgrants, hstale⟩ := hI.rep.stale_iff hI.settled hpow hn hptr hend
      rw [← hp] at hstale
      have hslot := hplaced.slotted fun hfar hmagic =>
        htidy hhead hgrants (hstale.2 ⟨hfar, hmagic⟩)
      refine ⟨bs', hR', hs', ?_, fun h0 => absurd (hI.rep.head.trans h0) hhead⟩
      simp only [exec, receive]
      rw [if_neg (by omega)]
      exact hI.leased.cons hk hperm ⟨hptr, .inr ⟨hslot, hfits.le⟩⟩
  · refine ⟨bs, ?_⟩
    simp only [exec, kmallocAligned_of_not hpow, receive, if_true]
    exact hI

/-- `kfree` of a pointer held releases its block. -/
lemma Inv.kfree_eq {b : Block} (hb : b ∈ usedBlocks bs) (hbase : 0 < A.base)
    (hin : l.In s.heap.mem b) : Heap.kfree s.heap l.ptr = releaseBlock s.heap b.addr := by
  obtain ⟨hb, hused⟩ := mem_usedBlocks.1 hb
  obtain ⟨-, ⟨hptr, -⟩ | ⟨hs, -⟩⟩ := hin
  · rw [hptr]
    exact hI.rep.kfree_eq hbase hb hused
  · exact hI.rep.kfree_slotted hbase hb hused hs

/-- `kfree` keeps the invariant. -/
lemma Inv.kfree {ptr : ℕ} (hp : s.Holds ptr) : ∃ bs', Inv A (s.exec (.kfree ptr)) bs' := by
  obtain rfl | ⟨l, hl, rfl⟩ := hp
  · have e : s.exec (.kfree 0) = s := by
      simp only [exec, hI.giveBack_null, Heap.kfree, true_or, if_true]
    exact ⟨bs, by rwa [e]⟩
  · obtain ⟨hbase, b, hb, hin⟩ := hI.held hl
    obtain ⟨hb', hused⟩ := mem_usedBlocks.1 hb
    obtain ⟨L, l1, l2, l3⟩ := hI.leased.giveBack hI.rep hb hl hin
    obtain ⟨bs', h1, h2, h3, hkept⟩ := hI.rep.release hI.settled hbase hb' hused
    have hnodup : (b :: L.map Prod.fst).Nodup :=
      l2.nodup_iff.2 (hI.rep.nodup.sublist filter_sublist)
    refine ⟨bs', ?_, h2, ⟨L, (l2.trans h3).cons_inv, l1, fun x hx => ?_⟩, fun h0 => by omega⟩
    · simp only [exec, hI.kfree_eq hb hbase hin]
      exact h1
    · have hmem : x.1 ∈ L.map Prod.fst := mem_map_of_mem hx
      have hne : x.1 ≠ b := fun heq => (nodup_cons.1 hnodup).1 (heq ▸ hmem)
      simp only [exec, hI.kfree_eq hb hbase hin]
      exact (l3 x hx).congr (hkept x.1 (l2.mem_iff.1 (mem_cons_of_mem _ hmem)) hne)

/-- `krealloc` of an aligned pointer fails. -/
lemma Inv.krealloc_slotted {b : Block} (hb : b ∈ usedBlocks bs) (hs : Slotted s.heap.mem b l.ptr)
    (hn0 : n ≠ 0) : Heap.krealloc s.heap l.ptr n = (s.heap, 0) := by
  obtain ⟨hb, hused⟩ := mem_usedBlocks.1 hb
  obtain ⟨-, hmagic⟩ := hI.rep.blockOfPtr_slotted hb hused hs
  have hlow := hs.low
  have hlt := hs.lt
  have hstop := (hI.rep.tiles.mem hb).2.1
  have htop := hI.rep.top_lt
  simp only [Block.payload, headerSize] at hlow
  rw [Heap.krealloc, if_neg (by omega), if_neg hn0, headerSize,
    sub32_of_le (by omega) (by omega), if_pos hmagic]

/-- `krealloc` of a pointer that is not aligned to `n > 0` bytes. -/
lemma Inv.krealloc_plain {b : Block} (hbase : 0 < A.base) (hb : b ∈ usedBlocks bs) (hl : l ∈ s.live)
    (hin : l.In s.heap.mem b) (hptr : l.ptr = b.payload) (hn0 : n ≠ 0) (hn : n ≤ heapMaxSize) :
    ∃ bs', Inv A (s.exec (.krealloc l.ptr n)) bs' := by
  obtain ⟨hb', hused⟩ := mem_usedBlocks.1 hb
  obtain ⟨L, l1, l2, l3⟩ := hI.leased.giveBack hI.rep hb hl hin
  have hnodup : (b :: L.map Prod.fst).Nodup :=
    l2.nodup_iff.2 (hI.rep.nodup.sublist filter_sublist)
  simp only [exec, l1]
  rw [hptr]
  obtain heq | ⟨hle, heq⟩ | ⟨bs', c, hc, hle, -, hnew, hR', hs', hperm, hkept, -⟩ :=
    hI.rep.krealloc_cases hI.settled hbase hb' hused hn0 hn
  · rw [heq, if_pos ⟨hn0, rfl⟩]
    exact ⟨bs, hI⟩
  · rw [heq, if_neg (fun hz => b.payload_ne_zero hz.2), receive, if_neg b.payload_ne_zero]
    refine ⟨bs, hI.rep, hI.settled, ⟨(b, _) :: L, l2, rfl, fun x hx => ?_⟩, fun h0 => by omega⟩
    obtain rfl | hx := mem_cons.1 hx
    · exact ⟨rfl, .inl ⟨rfl, hle⟩⟩
    · exact l3 x hx
  · rw [hc, if_neg (fun hz => c.payload_ne_zero hz.2), receive, if_neg c.payload_ne_zero]
    refine ⟨bs', hR', hs', ⟨(c, _) :: L, ?_, rfl, fun x hx => ?_⟩, fun h0 => by omega⟩
    · have hswap : (b :: c :: L.map Prod.fst).Perm (b :: usedBlocks bs') :=
        (List.Perm.swap c b _).trans ((l2.cons c).trans hperm)
      exact hswap.cons_inv
    · obtain rfl | hx := mem_cons.1 hx
      · exact ⟨rfl, .inl ⟨rfl, hle⟩⟩
      · have hmem : x.1 ∈ L.map Prod.fst := mem_map_of_mem hx
        have hxb : x.1 ≠ b := fun heq => (nodup_cons.1 hnodup).1 (heq ▸ hmem)
        exact (l3 x hx).congr (hkept x.1 (l2.mem_iff.1 (mem_cons_of_mem _ hmem)) hxb)

/-- `krealloc` keeps the invariant: with a null pointer or size 0 it is another call, and it refuses
an aligned pointer. -/
lemma Inv.krealloc {ptr : ℕ} (hn : n ≤ requestMax) (hp : s.Holds ptr) :
    ∃ bs', Inv A (s.exec (.krealloc ptr n)) bs' := by
  obtain rfl | ⟨l, hl, rfl⟩ := hp
  · have e : Heap.krealloc s.heap 0 n = Heap.kmalloc s.heap n := if_pos rfl
    obtain ⟨bs', hI'⟩ := hI.kmalloc hn
    refine ⟨bs', ?_⟩
    have e' : s.exec (.krealloc 0 n) = s.exec (.kmalloc n) := by
      simp only [exec, e, hI.giveBack_null]
      split_ifs with hz
      · rw [receive, if_pos hz.2]
      · rfl
    rwa [e']
  · obtain ⟨hbase, b, hb, hin⟩ := hI.held hl
    obtain ⟨hb', hused⟩ := mem_usedBlocks.1 hb
    have hpos := (hI.rep.tiles.mem hb').2.2.2
    have hbounds := hin.bounds hpos
    have hne : l.ptr ≠ 0 := by
      simp only [Block.payload, headerSize] at hbounds
      omega
    by_cases hn0 : n = 0
    · have e : Heap.krealloc s.heap l.ptr n = (Heap.kfree s.heap l.ptr, 0) := by
        rw [Heap.krealloc, if_neg hne, if_pos hn0]
      have e' : s.exec (.krealloc l.ptr n) = s.exec (.kfree l.ptr) := by
        simp only [exec, e]
        rw [if_neg (fun hz => hz.1 hn0), receive, if_pos rfl]
      rw [e']
      exact hI.kfree (.inr ⟨l, hl, rfl⟩)
    · obtain ⟨-, ⟨hptr, -⟩ | ⟨hs, -⟩⟩ := id hin
      · by_cases hle : n ≤ heapMaxSize
        · exact hI.krealloc_plain hbase hb hl hin hptr hn0 hle
        · refine ⟨bs, ?_⟩
          simp only [exec, hptr, hI.rep.krealloc_of_large hb' (by omega) hn]
          rw [if_pos ⟨hn0, trivial⟩]
          exact hI
      · refine ⟨bs, ?_⟩
        simp only [exec, hI.krealloc_slotted hb hs hn0]
        rw [if_pos ⟨hn0, trivial⟩]
        exact hI

/-- A client store changes no header, as a lease is inside a payload. -/
lemma Inv.store {ptr addr : ℕ} {v : UInt8} (ha : s.Allows (.store ptr addr v)) :
    Inv A (s.exec (.store ptr addr v)) bs := by
  obtain ⟨l, hl, rfl, hlow, hhigh⟩ := ha
  obtain ⟨L, h1, h2, h3⟩ := id hI.leased
  rw [h2] at hl
  obtain ⟨y, hy, rfl⟩ := mem_map.1 hl
  have hyb : y.1 ∈ usedBlocks bs := h1.mem_iff.1 (mem_map_of_mem hy)
  obtain ⟨hb, -⟩ := mem_usedBlocks.1 hyb
  have hin := h3 y hy
  have hbounds := hin.bounds (hI.rep.tiles.mem hb).2.2.2
  have hstop : addr < y.1.stop := by
    unfold writable at hhigh
    obtain ⟨hraw, ⟨hptr, -⟩ | ⟨hs, hsize⟩⟩ := hin
    · rw [if_pos (hptr.trans hraw.symm), hptr, hI.rep.payloadSize_eq hb] at hhigh
      exact hhigh
    · have := hs.low
      rw [if_neg (by omega)] at hhigh
      omega
  have hout : ∀ x, x < y.1.payload ∨ y.1.stop ≤ x →
      Function.update s.heap.mem addr v x = s.heap.mem x := fun x hx =>
    Function.update_of_ne (by omega) _ _
  refine ⟨hI.rep.set_payload hb hout, hI.settled, ⟨L, h1, h2, fun x hx => ?_⟩, hI.null⟩
  have hxb : x.1 ∈ usedBlocks bs := h1.mem_iff.1 (mem_map_of_mem hx)
  obtain heq | hapart | hapart := hI.rep.eq_or_apart (mem_usedBlocks.1 hxb).1 hb
  · have hnodup : (L.map Prod.fst).Nodup :=
      h1.nodup_iff.2 (hI.rep.nodup.sublist filter_sublist)
    have hxy : x = y := inj_on_of_nodup_map hnodup hx hy heq
    subst hxy
    refine ⟨hin.1, hin.2.imp_right fun hs => ⟨hs.1.congr fun z _ hz => ?_, hs.2⟩⟩
    exact Function.update_of_ne (by omega) _ _
  · refine (h3 x hx).congr fun z hz hz' => hout z (.inl ?_)
    simp only [Block.payload]
    omega
  · refine (h3 x hx).congr fun z hz hz' => hout z (.inr ?_)
    simp only [Block.payload] at hz
    omega

/-- **Every step keeps the invariant.** -/
lemma Inv.step {call : Call} (ha : s.Allows call) : ∃ bs', Inv A (s.exec call) bs' := by
  cases call with
  | kmalloc n => exact hI.kmalloc ha
  | kzalloc n => exact hI.kzalloc ha
  | kmallocAligned n a => exact hI.kmallocAligned ha
  | krealloc ptr n => exact hI.krealloc ha.1 ha.2
  | kfree ptr => exact hI.kfree ha
  | store ptr addr v => exact ⟨bs, hI.store ha⟩

end Session

/-- Every state of a run meets the invariant. -/
lemma inv_of_sessions (A : Arena) (mem : Mem) {initialSize : ℕ} (hmin : 64 ≤ initialSize)
    (h8 : 8 ∣ initialSize) (hmax : initialSize ≤ A.maxSize) {s : Session}
    (hs : (sessions A mem initialSize).Reachable s) : ∃ bs, s.Inv A bs := by
  refine hs.invariant (fun s => ∃ bs, s.Inv A bs) ?_ ?_
  · rintro s rfl
    exact ⟨_, rep_heapInitAt A mem hmin h8 hmax, .singleton _, ⟨[], .refl _, rfl, by simp⟩,
      fun _ => rfl⟩
  · rintro s op t ⟨bs, hI⟩ ⟨ha, rfl⟩
    exact hI.step ha

/-- A step that the clients may take leads to a state of a run. -/
lemma reachable_exec {A : Arena} {mem : Mem} {initialSize : ℕ} {s : Session} (call : Call)
    (ha : s.Allows call) (hs : (sessions A mem initialSize).Reachable s) :
    (sessions A mem initialSize).Reachable (s.exec call) := .step hs ⟨ha, rfl⟩

/-! ## Freeing aligned allocations -/

/-- **When an aligned allocation can be freed.** In every state of a run, for every size and every
power of two up to 1 MB: a pointer that `kmalloc_aligned` returns is aligned, points to so many
bytes of a used block, and is freed by `kfree` with the counters as before, if and only if no magic
number of a header is left 24 bytes below it. -/
theorem aligned_round_trip_iff (A : Arena) (mem : Mem) {initialSize : ℕ} (hmin : 64 ≤ initialSize)
    (h8 : 8 ∣ initialSize) (hmax : initialSize ≤ A.maxSize) {s : Session}
    (hs : (sessions A mem initialSize).Reachable s) {n a : ℕ} (hn : n ≤ 1048576)
    (ha : a ≤ 1048576) (hpow : IsPowerOf2 a) : RoundTrip A s.heap n a ↔ s.heap.Tidy n a := by
  obtain ⟨bs, hI⟩ := inv_of_sessions A mem hmin h8 hmax hs
  refine hI.rep.roundTrip_iff hI.settled hpow ?_
  unfold alignmentOf heapMaxSize
  split_ifs <;> omega

lemma heapStart_dvd : 8 ∣ heapStart := by decide

lemma heapMaxSize_dvd : 8 ∣ heapMaxSize := by decide

/-- The heap of `heap_init` ends below the end of the addresses. -/
lemma heap_top_lt : heapStart + heapMaxSize < 4294967296 := by decide

/-- The arena of `heap_init`. -/
def kernelArena : Arena where
  base := heapStart
  maxSize := heapMaxSize
  base_dvd := heapStart_dvd
  maxSize_dvd := heapMaxSize_dvd
  maxSize_le := Nat.le_refl _
  top_lt := heap_top_lt

/-- The heap after `heap_init`. -/
def freshSession : Session where
  heap := heapInitAt (fun _ => 0) kernelArena.base heapInitialSize kernelArena.maxSize
  live := []

lemma reachable_freshSession :
    (sessions kernelArena (fun _ => 0) heapInitialSize).Reachable freshSession := .init rfl

/-- An aligned allocation in the fresh heap. -/
theorem aligned_round_trip_iff_fresh :
    (sessions kernelArena (fun _ => 0) heapInitialSize).Reachable freshSession ∧ IsPowerOf2 32 ∧
      (RoundTrip kernelArena freshSession.heap 8 32 ↔ freshSession.heap.Tidy 8 32) :=
  ⟨reachable_freshSession, ⟨by decide, by decide⟩,
    aligned_round_trip_iff kernelArena _ (by decide) (by decide) (by decide) reachable_freshSession
      (by decide) (by decide) ⟨by decide, by decide⟩⟩

/-- A client asks for 24 bytes and another one for 64. -/
def twoAllocs : Session := (freshSession.exec (.kmalloc 24)).exec (.kmalloc 64)

/-- The second one writes `0xDEADBEEF` to its payload and frees it. -/
def staleSession : Session :=
  ((((twoAllocs.exec (.store 4194376 4194376 0xEF)).exec (.store 4194376 4194377 0xBE)).exec
    (.store 4194376 4194378 0xAD)).exec (.store 4194376 4194379 0xDE)).exec (.kfree 4194376)

lemma reachable_twoAllocs :
    (sessions kernelArena (fun _ => 0) heapInitialSize).Reachable twoAllocs := by
  refine reachable_exec (.kmalloc 64) ?_ (reachable_exec (.kmalloc 24) ?_ reachable_freshSession)
  · show 64 ≤ requestMax
    decide
  · show 24 ≤ requestMax
    decide

/-- The stores and the free are steps of a client that holds the pointer. -/
lemma reachable_staleSession :
    (sessions kernelArena (fun _ => 0) heapInitialSize).Reachable staleSession := by
  refine reachable_exec (.kfree 4194376) (.inr ?_) (reachable_exec (.store _ _ _) ?_
    (reachable_exec (.store _ _ _) ?_ (reachable_exec (.store _ _ _) ?_
      (reachable_exec (.store _ _ _) ?_ reachable_twoAllocs))))
  · decide +kernel
  all_goals
    simp only [Session.Allows]
    decide +kernel

/-- The aligned pointer is 24 bytes above the payload, so the magic number in the old payload is
where the header of a plain pointer would be; `kfree` frees a block that does not exist. -/
theorem stale_magic_misfreed :
    (sessions kernelArena (fun _ => 0) heapInitialSize).Reachable staleSession ∧ IsPowerOf2 32 ∧
      ¬ RoundTrip kernelArena staleSession.heap 8 32 := by
  refine ⟨reachable_staleSession, ⟨by decide, by decide⟩, fun hround => ?_⟩
  obtain ⟨-, bs, b, -, -, -, -, -, hused, -⟩ := hround (by decide +kernel)
  revert hused
  decide +kernel

/-! ## Keeping the data -/

/-- **`krealloc` keeps the data.** In every state of a run, for a pointer held that is not aligned
and every size of 1 byte to 16 MB: if a pointer is returned, its block is large enough and begins
with the bytes of the old one, the other pointers held keep the bytes of their payloads and their
blocks, and the old pointer stays a used payload only if it is returned; otherwise nothing
changes. -/
theorem krealloc_preserves (A : Arena) (mem : Mem) {initialSize : ℕ} (hmin : 64 ≤ initialSize)
    (h8 : 8 ∣ initialSize) (hmax : initialSize ≤ A.maxSize) {s : Session}
    (hs : (sessions A mem initialSize).Reachable s) {l : Lease} (hl : l ∈ s.live)
    (hplain : l.ptr = l.raw) {n : ℕ} (hn0 : 0 < n) (hn : n ≤ heapMaxSize) {h' : State} {q : ℕ}
    (heq : krealloc s.heap l.ptr n = (h', q)) :
    (q = 0 → h' = s.heap) ∧ (q ≠ 0 →
      n ≤ payloadSize h'.mem q ∧
      (∀ i < min (payloadSize s.heap.mem l.ptr) n, h'.mem (q + i) = s.heap.mem (l.ptr + i)) ∧
      (∀ k ∈ s.live, k.ptr ≠ l.ptr → ∀ i < payloadSize s.heap.mem k.raw,
        h'.mem (k.raw + i) = s.heap.mem (k.raw + i)) ∧
      ∃ bs, Rep A h' bs ∧ (∃ c ∈ usedBlocks bs, c.payload = q) ∧
        (∀ k ∈ s.live, k.ptr ≠ l.ptr → ∃ d ∈ usedBlocks bs, d.payload = k.raw) ∧
        ∀ d ∈ usedBlocks bs, d.payload = l.ptr → q = l.ptr) := by
  obtain ⟨bs, hI⟩ := inv_of_sessions A mem hmin h8 hmax hs
  obtain ⟨hbase, b, hb, hin⟩ := hI.held hl
  obtain ⟨hb', hused⟩ := mem_usedBlocks.1 hb
  have hptr : l.ptr = b.payload := hplain.trans hin.1
  have hother : ∀ k ∈ s.live, k.ptr ≠ l.ptr → ∃ d ∈ usedBlocks bs, d ≠ b ∧ k.raw = d.payload := by
    intro k hk hne
    obtain ⟨-, d, hd, hkd⟩ := hI.held hk
    refine ⟨d, hd, ?_, hkd.1⟩
    rintro rfl
    exact hI.raw_ne hl hk hne (hkd.1.trans hin.1.symm)
  have hsize : ∀ d ∈ usedBlocks bs, payloadSize s.heap.mem d.payload = d.size := fun d hd =>
    hI.rep.payloadSize_eq (mem_usedBlocks.1 hd).1
  rw [hptr] at heq hother ⊢
  -- the call fails, keeps the block, or moves the bytes to a new one
  obtain hc | ⟨hle, hc⟩ | ⟨bs', c, hc, hle, hlt, hnew, hR', -, hperm, hkept, hcopy⟩ :=
    hI.rep.krealloc_cases hI.settled hbase hb' hused hn0.ne' hn
  · obtain ⟨rfl, rfl⟩ := Prod.ext_iff.1 (heq.symm.trans hc)
    exact ⟨fun _ => rfl, fun h0 => absurd rfl h0⟩
  · obtain ⟨rfl, rfl⟩ := Prod.ext_iff.1 (heq.symm.trans hc)
    refine ⟨fun _ => rfl, fun _ => ⟨?_, fun _ _ => rfl, fun _ _ _ _ _ => rfl, bs, hI.rep,
      ⟨b, hb, rfl⟩, fun k hk hne => ?_, fun _ _ _ => rfl⟩⟩
    · rw [hsize b hb]
      exact hle
    · obtain ⟨d, hd, -, hraw⟩ := hother k hk hne
      exact ⟨d, hd, hraw.symm⟩
  · rw [heq] at hc hR' hkept hcopy
    simp only at hc hR' hkept hcopy
    subst hc
    have hcu : c ∈ usedBlocks bs' := by
      refine (mem_cons.1 (hperm.mem_iff.1 mem_cons_self)).resolve_left ?_
      rintro rfl
      exact hnew hb
    have hbu : b ∉ usedBlocks bs' := by
      have hnodup : (c :: usedBlocks bs).Nodup :=
        nodup_cons.2 ⟨hnew, hI.rep.nodup.sublist filter_sublist⟩
      exact (nodup_cons.1 (hperm.nodup_iff.1 hnodup)).1
    refine ⟨fun h0 => ?_, fun _ => ⟨?_, fun i hi => hcopy i ?_, fun k hk hne i hi => ?_, bs', hR',
      ⟨c, hcu, rfl⟩, fun k hk hne => ?_, fun d hd hd' => ?_⟩⟩
    · simp only [Block.payload, headerSize] at h0
      omega
    · rw [hR'.payloadSize_eq (mem_usedBlocks.1 hcu).1]
      exact hle
    · rw [hsize b hb] at hi
      omega
    · obtain ⟨d, hd, hdb, hraw⟩ := hother k hk hne
      rw [hraw, hsize d hd] at hi
      rw [hraw]
      refine hkept d hd hdb _ (Nat.le_add_right _ _) ?_
      simp only [Block.stop, Block.payload] at hi ⊢
      omega
    · obtain ⟨d, hd, hdb, hraw⟩ := hother k hk hne
      have hmem := hperm.mem_iff.1 (mem_cons_of_mem _ hd)
      exact ⟨d, (mem_cons.1 hmem).resolve_left hdb, hraw.symm⟩
    · obtain rfl | hd'' := mem_cons.1 (hperm.mem_iff.2 (mem_cons_of_mem _ hd))
      · exact hd'
      · have hdb := hI.rep.payload_inj hb' (mem_usedBlocks.1 hd'').1 hd'
        exact absurd (hdb ▸ hd) hbu

/-- The second pointer of two is moved to a block of 100 bytes. -/
theorem krealloc_preserves_two :
    twoAllocs.live.length = 2 ∧ (krealloc twoAllocs.heap 4194328 100).2 = 4194464 ∧
      100 ≤ payloadSize (krealloc twoAllocs.heap 4194328 100).1.mem 4194464 := by
  refine ⟨by decide +kernel, by decide +kernel, ?_⟩
  have hl : (⟨4194328, 24, 4194328⟩ : Lease) ∈ twoAllocs.live :=
    mem_of_getElem? (i := 1) rfl
  have hq : (krealloc twoAllocs.heap 4194328 100).2 = 4194464 := by decide +kernel
  exact ((krealloc_preserves kernelArena _ (by decide) (by decide) (by decide) reachable_twoAllocs
    hl rfl (by decide) (by decide) (Prod.ext rfl hq)).2 (by decide)).1

end BengalTiger.Heap
