import BengalTiger.Heap.Session

set_option autoImplicit false

/-!
# The limits of the heap

What becomes of requests near the two limits of the heap: the end of the 32-bit range, where the
sums of `kmalloc`, `heap_expand` and `kmalloc_aligned` wrap around, and `heap_max_limit`, where
`heap_expand` compares the whole request with the rest of the arena although a free block at its end
would be merged with the rest.

## Main definitions

* `Heap.Contained` — the pointer that a call returned has its bytes in a used block.
* `Heap.stretched` — the blocks if the arena were extended to the limit.
* `Heap.Exhausted` — no free block has so many bytes, not even then.

## Main results

* `Heap.alloc_contained_iff` — which requests are overflow safe.
* `Heap.kmalloc_exhausted_iff` — when a refusal means that the memory is exhausted.
-/

namespace BengalTiger.Heap

open ByteMem List

/-! ## Requests near 4 GB -/

/-- If the call returned a pointer, the `n` bytes at it are in the payload of a used block of the
arena, which has not grown beyond its limit. -/
def Contained (A : Arena) (r : State × ℕ) (n : ℕ) : Prop :=
  r.2 ≠ 0 → r.1.heapCurSize ≤ A.maxSize ∧ ∃ bs b, Rep A r.1 bs ∧ b ∈ usedBlocks bs ∧
    b.payload ≤ r.2 ∧ r.2 + n ≤ b.stop ∧ b.stop ≤ A.base + r.1.heapCurSize

section Contained

variable {A : Arena} {h : State} {bs : List Block} {n a : ℕ}

/-- No block holds more than 16 MB. -/
lemma Contained.eq_zero {r : State × ℕ} (hc : Contained A r n) (hn : heapMaxSize < n) :
    r.2 = 0 := by
  by_contra hne
  obtain ⟨hcur, bs, b, hR, hb, hlow, hhigh, hstop⟩ := hc hne
  have hbase := (hR.tiles.mem (mem_usedBlocks.1 hb).1).1
  have hmax := A.maxSize_le
  simp only [Block.payload] at hlow
  omega

/-- The pointer to the payload of a used block. -/
lemma Rep.contained {r : State × ℕ} {b : Block} (hR : Rep A r.1 bs) (hb : b ∈ usedBlocks bs)
    (hlow : b.payload ≤ r.2) (hhigh : r.2 + n ≤ b.stop) : Contained A r n := fun _ =>
  ⟨hR.cur_le, bs, b, hR, hb, hlow, hhigh, (hR.tiles.mem (mem_usedBlocks.1 hb).1).2.1⟩

/-- The size of a request of `kmalloc` is safe up to 16 MB, and beyond if it is refused. -/
lemma Rep.contained_kmalloc_iff (hR : Rep A h bs) (hs : Settled bs) :
    Contained A (Heap.kmalloc h n) n ↔ n ≤ heapMaxSize ∨ h.Refuses n := by
  rw [← hR.kmalloc_eq_zero_iff]
  constructor
  · intro hc
    by_cases hn : n ≤ heapMaxSize
    · exact .inl hn
    · exact .inr (hc.eq_zero (by omega))
  · rintro (hn | h0)
    · obtain ⟨bs', hR', -, ⟨h0, -⟩ | ⟨b, hptr, hsize, hperm⟩, -⟩ := hR.kmalloc hs hn
      · exact fun hne => absurd h0 hne
      · refine hR'.contained (hperm.mem_iff.2 mem_cons_self) hptr.ge ?_
        rw [hptr]
        simp only [Block.payload, Block.stop]
        omega
    · exact fun hne => absurd h0 hne

/-- The address that `kmalloc` returns when it does not refuse. -/
lemma Rep.kmalloc_snd (hR : Rep A h bs) (hne : ¬ h.Refuses n) :
    (Heap.kmalloc h n).2 = u32 (h.landing (State.rounded n) + headerSize) := by
  classical
  simp only [State.Refuses, not_or, not_not] at hne
  obtain ⟨hn0, hhead, hgrants, -⟩ := hne
  have hbase : 0 < A.base := by
    rw [hR.head] at hhead
    omega
  rw [Heap.kmalloc, if_neg (by simp [hn0, hhead])]
  exact (hR.allocBlock_snd hbase _).trans (if_pos hgrants)

/-- The aligned address is 0 modulo 2^32. -/
def State.Wraps (h : State) (n a : ℕ) : Prop :=
  alignedAddr (u32 (h.landing (State.rounded n) + headerSize)) a = 0

/-- An alignment is far from 4 GB: only a size above 16 MB makes the sum of both wrap around or
reach a block. -/
lemma Rep.refuses_of_small (hR : Rep A h bs) (hpow : IsPowerOf2 (alignmentOf a))
    (ha : a < 4294967296) (hn : n ≤ heapMaxSize) (hsum : heapMaxSize < n + alignmentOf a + 8) :
    h.Refuses (u32 (n + alignmentOf a + 8)) := by
  have hlt : alignmentOf a < 4294967296 := by
    unfold alignmentOf
    split_ifs <;> omega
  have hle := hpow.le hlt
  have hreq : n + alignmentOf a + 8 ≤ requestMax := by
    simp only [heapMaxSize, requestMax] at hn ⊢
    omega
  rw [u32_of_lt (by simp only [requestMax] at hreq; omega), ← hR.kmalloc_eq_zero_iff,
    hR.kmalloc_of_large hsum hreq]

/-- The size of a request of `kmalloc_aligned` is safe if the whole request is at most 16 MB, and
beyond if it is refused or the aligned address is 0. -/
lemma Rep.contained_kmallocAligned_iff (hR : Rep A h bs) (hs : Settled bs)
    (ha : a < 4294967296) : Contained A (Heap.kmallocAligned h n a) n ↔
      (IsPowerOf2 (alignmentOf a) → n + alignmentOf a + 8 ≤ heapMaxSize ∨
        h.Refuses (u32 (n + alignmentOf a + 8)) ∨
          h.Wraps (u32 (n + alignmentOf a + 8)) (alignmentOf a)) := by
  by_cases hpow : IsPowerOf2 (alignmentOf a)
  swap
  · rw [kmallocAligned_of_not hpow]
    exact iff_of_true (fun hne => absurd rfl hne) fun hp => absurd hp hpow
  by_cases hsum : n + alignmentOf a + 8 ≤ heapMaxSize
  · refine iff_of_true ?_ fun _ => .inl hsum
    obtain ⟨-, heq⟩ | ⟨bs', b, -, hR', -, -, hperm, -, hplaced⟩ := hR.kmallocAligned hs hpow hsum
    · rw [heq]
      exact fun hne => absurd rfl hne
    · have hlow := hplaced.low
      exact hR'.contained (hperm.mem_iff.2 mem_cons_self) (by omega) hplaced.fits.le
  by_cases href : h.Refuses (u32 (n + alignmentOf a + 8))
  · rw [kmallocAligned_of_null ((hR.kmalloc_eq_zero_iff _).2 href) hpow]
    exact iff_of_true (fun hne => absurd rfl hne) fun _ => .inr (.inl href)
  -- the request was granted, so it was the size that wrapped around
  have hlarge : heapMaxSize < n := by
    by_contra hn
    exact href (hR.refuses_of_small hpow ha (by omega) (by omega))
  have hne : (Heap.kmalloc h (u32 (n + alignmentOf a + 8))).2 ≠ 0 := fun h0 =>
    href ((hR.kmalloc_eq_zero_iff _).1 h0)
  have hsnd : (Heap.kmallocAligned h n a).2 = alignedAddr
      (u32 (h.landing (State.rounded (u32 (n + alignmentOf a + 8))) + headerSize))
      (alignmentOf a) := by
    rw [kmallocAligned_of_ne hne hpow, hR.kmalloc_snd href]
  constructor
  · intro hc _
    exact .inr (.inr (hsnd.symm.trans (hc.eq_zero hlarge)))
  · intro hcond hnz
    obtain h1 | h1 | h1 := hcond hpow
    · exact absurd h1 hsum
    · exact absurd h1 href
    · exact absurd (hsnd.trans h1) hnz

end Contained

/-- **Which requests are overflow safe.** In every state of a run, for every 32-bit size and
alignment: the bytes that `kmalloc` returns are in one used block if and only if the size is at most
16 MB or the request is refused; those that `kmalloc_aligned` returns, if and only if the size with
the alignment and the two words is at most 16 MB, or what is left of the sum is refused, or the
aligned address is 0. -/
theorem alloc_contained_iff (A : Arena) (mem : Mem) {initialSize : ℕ} (hmin : 64 ≤ initialSize)
    (h8 : 8 ∣ initialSize) (hmax : initialSize ≤ A.maxSize) {s : Session}
    (hs : (sessions A mem initialSize).Reachable s) (n : ℕ) {a : ℕ} (ha : a < 4294967296) :
    (Contained A (kmalloc s.heap n) n ↔ n ≤ heapMaxSize ∨ s.heap.Refuses n) ∧
      (Contained A (kmallocAligned s.heap n a) n ↔
        (IsPowerOf2 (alignmentOf a) → n + alignmentOf a + 8 ≤ heapMaxSize ∨
          s.heap.Refuses (u32 (n + alignmentOf a + 8)) ∨
            s.heap.Wraps (u32 (n + alignmentOf a + 8)) (alignmentOf a))) := by
  obtain ⟨bs, hI⟩ := inv_of_sessions A mem hmin h8 hmax hs
  exact ⟨hI.rep.contained_kmalloc_iff hI.settled,
    hI.rep.contained_kmallocAligned_iff hI.settled ha⟩

/-- Requests of 100 bytes in the fresh heap. -/
theorem alloc_contained_iff_fresh :
    (sessions kernelArena (fun _ => 0) heapInitialSize).Reachable freshSession ∧
      (Contained kernelArena (kmalloc freshSession.heap 100) 100 ↔
        100 ≤ heapMaxSize ∨ freshSession.heap.Refuses 100) :=
  ⟨reachable_freshSession, (alloc_contained_iff kernelArena _ (by decide) (by decide) (by decide)
    reachable_freshSession 100 (by decide : 16 < 4294967296)).1⟩

/-- A request of 4 GB less one byte is rounded to 0 bytes: `kmalloc` returns the first payload. -/
theorem kmalloc_wraps :
    (sessions kernelArena (fun _ => 0) heapInitialSize).Reachable freshSession ∧
      (kmalloc freshSession.heap 4294967295).2 = 4194328 ∧
      ¬ Contained kernelArena (kmalloc freshSession.heap 4294967295) 4294967295 := by
  have hptr : (kmalloc freshSession.heap 4294967295).2 = 4194328 := by decide +kernel
  refine ⟨reachable_freshSession, hptr, fun hc => ?_⟩
  have h0 := hc.eq_zero (by decide)
  rw [hptr] at h0
  cases h0

/-! ## Requests near the limit of the arena -/

/-- The blocks if the arena were extended to its limit by `room` bytes: the new space is merged with
a free last block, or is a block of its own. -/
def stretched (room : ℕ) (xs : List Block) (t : Block) (stop : ℕ) : List Block :=
  if t.free then xs ++ [{ t with size := t.size + room }]
  else xs ++ [t, ⟨stop, room - headerSize, true⟩]

/-- No free block has `n` bytes. -/
def Lacks (n : ℕ) (bs : List Block) : Prop := ∀ b ∈ bs, b.free = true → b.size < n

/-- The memory is exhausted for `n` bytes: no free block has them, also if the arena were extended
to its limit. -/
def Exhausted (A : Arena) (h : State) (n : ℕ) : Prop :=
  ∃ xs t, Rep A h (xs ++ [t]) ∧ Lacks n (xs ++ [t]) ∧
    Lacks n (stretched (A.maxSize - h.heapCurSize) xs t (A.base + h.heapCurSize))

/-- What `heap_expand` weighs is what counts: a block is found, the new chunk alone is large enough,
the last block is used, or even merged with the last block the new space is too small. -/
def State.Weighs (h : State) (n : ℕ) : Prop :=
  size h.mem h.last + (h.heapMaxLimit - h.heapCurSize) < n ∨
    h.heapHead ≠ 0 ∧ (h.findFree n ≠ 0 ∨ h.heapCurSize + n + headerSize ≤ h.heapMaxLimit ∨
      isFree h.mem h.last = 0)

section Exhausted

variable {A : Arena} {h : State} {bs xs : List Block} {t : Block} {n k : ℕ}

/-- The search fails when no free block has the bytes. -/
lemma Rep.findFree_eq_zero_iff (hR : Rep A h bs) (hbase : 0 < A.base) :
    h.findFree n = 0 ↔ Lacks n bs := by
  obtain ⟨h0, hnone⟩ | ⟨xs, b, ys, rfl, hfree, hsize, haddr, hne⟩ := hR.findFree_cases hbase n
  · refine iff_of_true h0 fun b hb hfree => ?_
    have hfit := find?_eq_none.1 hnone b hb
    simp only [Block.fits, hfree, Bool.true_and, decide_eq_true_eq] at hfit
    omega
  · refine iff_of_false (by rwa [haddr]) fun hl => ?_
    exact absurd (hl b (by simp) hfree) (by omega)

/-- The last of the stretched blocks is the one that matters. -/
lemma lacks_stretched_iff {room stop : ℕ} (hl : Lacks n (xs ++ [t])) :
    Lacks n (stretched room xs t stop) ↔
      if t.free = true then t.size + room < n else room - headerSize < n := by
  have hxs : ∀ b ∈ xs, b.free = true → b.size < n := fun b hb =>
    hl b (mem_append_left _ hb)
  unfold stretched
  split_ifs with hfree
  · constructor
    · intro hs
      exact hs _ (mem_append_right _ mem_cons_self) hfree
    · intro hlt b hb
      obtain hb | hb := mem_append.1 hb
      · exact hxs b hb
      · rw [mem_singleton.1 hb]
        exact fun _ => hlt
  · constructor
    · intro hs
      exact hs ⟨stop, room - headerSize, true⟩ (by simp) rfl
    · intro hlt b hb
      simp only [mem_append, mem_cons, not_mem_nil, or_false] at hb
      obtain hb | rfl | rfl := hb
      · exact hxs b hb
      · exact fun hf => absurd hf hfree
      · exact fun _ => hlt

/-- The blocks of a state are determined, so exhaustion is about them. -/
lemma Rep.exhausted_iff (hR : Rep A h (xs ++ [t])) :
    Exhausted A h n ↔ Lacks n (xs ++ [t]) ∧
      if t.free = true then t.size + (A.maxSize - h.heapCurSize) < n
      else A.maxSize - h.heapCurSize - headerSize < n := by
  constructor
  · rintro ⟨xs', t', hR', hl, hs⟩
    have heq := hR'.unique hR
    obtain ⟨rfl, ht⟩ := append_inj' heq rfl
    cases ht
    exact ⟨hl, (lacks_stretched_iff hl).1 hs⟩
  · rintro ⟨hl, hlast⟩
    exact ⟨xs, t, hR, hl, (lacks_stretched_iff hl).2 hlast⟩

/-- When `kmalloc` refuses a small request. -/
lemma Rep.kmalloc_eq_zero_iff_of_le (hR : Rep A h bs) (hbase : 0 < A.base) (hn0 : n ≠ 0)
    (hn : n ≤ heapMaxSize) : (Heap.kmalloc h n).2 = 0 ↔ h.findFree (State.rounded n) = 0 ∧
      A.maxSize < h.heapCurSize + State.rounded n + headerSize := by
  have hgrants := hR.grants_iff (dvd_rounded n) (rounded_le hn)
  have hhead : h.heapHead ≠ 0 := by
    rw [hR.head]
    omega
  constructor
  · intro h0
    have hno := hR.not_grants hn h0 hn0 hhead
    rw [hgrants] at hno
    push Not at hno
    exact hno
  · rintro ⟨hfound, hroom⟩
    refine (hR.kmalloc_eq_zero_iff n).2 (.inr (.inr (.inl ?_)))
    rw [hgrants]
    rintro (hf | hle)
    · exact hf hfound
    · omega

lemma rounded_pos (hn0 : n ≠ 0) (hn : n ≤ heapMaxSize) : 0 < State.rounded n := by
  simp only [heapMaxSize] at hn
  rw [State.rounded, u32_of_lt (by omega)]
  omega

/-- A refusal in a heap means that the memory is exhausted if and only if `heap_expand` weighs what
counts. -/
lemma Rep.exhausted_of_zero_iff (hR : Rep A h bs) (hbase : 0 < A.base) (hn0 : n ≠ 0)
    (hn : n ≤ heapMaxSize) : ((Heap.kmalloc h n).2 = 0 → Exhausted A h (State.rounded n)) ↔
      h.Weighs (State.rounded n) := by
  obtain ⟨xs, t, rfl⟩ := hR.exists_last
  have hhead : h.heapHead ≠ 0 := by
    rw [hR.head]
    omega
  have hpos := rounded_pos hn0 hn
  have hcur := hR.cur_le
  have hfree : isFree h.mem t.addr ≠ 0 ↔ t.free = true := hR.at.isFree_ne_zero
  rw [hR.kmalloc_eq_zero_iff_of_le hbase hn0 hn, hR.exhausted_iff, State.Weighs, hR.last_eq,
    hR.at.size_eq, hR.limit]
  constructor
  · intro hP
    by_cases hcond : h.findFree (State.rounded n) ≠ 0 ∨
        h.heapCurSize + State.rounded n + headerSize ≤ A.maxSize ∨ isFree h.mem t.addr = 0
    · exact .inr ⟨hhead, hcond⟩
    · simp only [not_or, not_not, not_le] at hcond
      have hlast := (hP ⟨hcond.1, hcond.2.1⟩).2
      rw [if_pos (hfree.1 hcond.2.2)] at hlast
      exact .inl hlast
  · rintro hW ⟨hfound, hroom⟩
    refine ⟨(hR.findFree_eq_zero_iff hbase).1 hfound, ?_⟩
    split_ifs with ht
    · obtain hlt | ⟨-, hf | hle | hused⟩ := hW
      · exact hlt
      · exact absurd hfound hf
      · omega
      · exact absurd hused (hfree.2 ht)
    · simp only [headerSize] at hroom ⊢
      omega

end Exhausted

/-- In a heap at address 0 nothing is ever allocated. -/
lemma Session.Inv.null_blocks {A : Arena} {s : Session} {xs : List Block} {t : Block}
    (hI : s.Inv A (xs ++ [t])) (h0 : A.base = 0) : xs = [] ∧ t.free = true := by
  have hnone : usedBlocks (xs ++ [t]) = [] := by
    obtain ⟨L, h1, h2, -⟩ := hI.leased
    rw [hI.null h0] at h2
    rw [map_eq_nil_iff.1 h2.symm] at h1
    exact nil_perm.1 h1
  have hfree : ∀ b ∈ xs ++ [t], b.free = true := by
    intro b hb
    by_contra hused
    have hmem : b ∈ usedBlocks (xs ++ [t]) := mem_usedBlocks.2 ⟨hb, by simpa using hused⟩
    rw [hnone] at hmem
    cases hmem
  refine ⟨?_, hfree t (by simp)⟩
  have hsettled := hI.settled
  cases xs with
  | nil => rfl
  | cons b xs =>
    -- the first two blocks would both be free
    exfalso
    cases xs with
    | nil =>
      have := hfree b (by simp)
      have := hfree t (by simp)
      simp_all [Settled]
    | cons c xs =>
      have := hfree b (by simp)
      have := hfree c (by simp)
      simp_all [Settled]

/-- **When a refusal means that the memory is exhausted.** In every state of a run, for every size
from 1 byte to the limit: if `kmalloc` returns `NULL`, the heap is unchanged and neither a free
block nor one after an extension to the limit has the bytes, if and only if a block is found, the
new chunk alone is large enough, the last block is used, or the new space merged with the last block
is too small. -/
theorem kmalloc_exhausted_iff (A : Arena) (mem : Mem) {initialSize : ℕ} (hmin : 64 ≤ initialSize)
    (h8 : 8 ∣ initialSize) (hmax : initialSize ≤ A.maxSize) {s : Session}
    (hs : (sessions A mem initialSize).Reachable s) {n : ℕ} (hn0 : 0 < n) (hn : n ≤ A.maxSize) :
    ((kmalloc s.heap n).2 = 0 →
        Exhausted A s.heap (State.rounded n) ∧ (kmalloc s.heap n).1 = s.heap) ↔
      s.heap.Weighs (State.rounded n) := by
  obtain ⟨bs, hI⟩ := inv_of_sessions A mem hmin h8 hmax hs
  have hle : n ≤ heapMaxSize := hn.trans A.maxSize_le
  have hsame : ((kmalloc s.heap n).2 = 0 →
      Exhausted A s.heap (State.rounded n) ∧ (kmalloc s.heap n).1 = s.heap) ↔
      ((kmalloc s.heap n).2 = 0 → Exhausted A s.heap (State.rounded n)) :=
    ⟨fun hP h0 => (hP h0).1, fun hP h0 => ⟨hP h0, hI.rep.kmalloc_fst_of_zero hle h0⟩⟩
  rw [hsame]
  obtain h0 | hbase := Nat.eq_zero_or_pos A.base
  · obtain ⟨xs, t, rfl⟩ := hI.rep.exists_last
    obtain ⟨rfl, hfree⟩ := hI.null_blocks h0
    have hnull : (kmalloc s.heap n).2 = 0 := by rw [hI.rep.kmalloc_of_null h0]
    have hhead : s.heap.heapHead = 0 := hI.rep.head.trans h0
    simp only [hnull, forall_true_left, hI.rep.exhausted_iff, State.Weighs, hI.rep.last_eq,
      hI.rep.at.size_eq, hI.rep.limit, hhead, hfree, if_true]
    simp only [ne_eq, not_true_eq_false, false_and, or_false, and_iff_right_iff_imp]
    intro hlt b hb _
    rw [nil_append, mem_singleton] at hb
    rw [hb]
    omega
  · exact hI.rep.exhausted_of_zero_iff hbase hn0.ne' hle

/-- In the fresh heap a request of 16 MB is refused, and the limit of 16 MB has no room for it and a
header. -/
theorem kmalloc_exhausted_iff_wholeArena :
    (sessions kernelArena (fun _ => 0) heapInitialSize).Reachable freshSession ∧
      (kmalloc freshSession.heap 16777216).2 = 0 ∧
      Exhausted kernelArena freshSession.heap (State.rounded 16777216) ∧
      (kmalloc freshSession.heap 16777216).1 = freshSession.heap := by
  have hweighs : freshSession.heap.Weighs (State.rounded 16777216) := .inl (by decide +kernel)
  have hnull : (kmalloc freshSession.heap 16777216).2 = 0 := by decide +kernel
  exact ⟨reachable_freshSession, hnull, (kmalloc_exhausted_iff kernelArena _ (by decide) (by decide)
    (by decide) reachable_freshSession (by decide) (by decide)).2 hweighs hnull⟩

/-- In the fresh heap of 2 MB a request of 15 MB is refused, although the limit is 16 MB and the
only block is free. -/
theorem kmalloc_refuses_early :
    (sessions kernelArena (fun _ => 0) heapInitialSize).Reachable freshSession ∧
      (kmalloc freshSession.heap 15728640).2 = 0 ∧
      ¬ Exhausted kernelArena freshSession.heap (State.rounded 15728640) := by
  refine ⟨reachable_freshSession, by decide +kernel, fun hex => ?_⟩
  have hR : Rep kernelArena freshSession.heap ([] ++ [⟨heapStart, 2097128, true⟩]) :=
    rep_heapInitAt kernelArena (fun _ => 0) (by decide) (by decide) (by decide)
  have hlast := (hR.exhausted_iff.1 hex).2
  revert hlast
  decide +kernel

end BengalTiger.Heap
