import BengalTiger.Heap.Rep

set_option autoImplicit false

/-!
# The heap operations on block lists

Every part of the allocator is described by what it does to the represented list and that it keeps
the payloads in use; callers use these descriptions only.

## Main results

* `Heap.Rep.split` — `split_block` cuts a block in two.
* `Heap.Rep.merge` — both halves of `coalesce` join two neighbours.
* `Heap.Rep.coalesce` — `coalesce` settles the list around a free block.
* `Heap.Rep.takeBlock`, `Heap.Rep.releaseBlock` — a block is handed out and taken back.
* `Heap.Rep.appendChunk` — `heap_expand` keeps the used blocks.
-/

namespace BengalTiger.Heap

open ByteMem List

/-! ## Where the stores go -/

section Stores

variable (m : Mem) {a b q n v x : ℕ}

lemma setSize_apply (hx : x < a ∨ a + 24 ≤ x) : setSize m a v x = m x :=
  store32_outside m (by omega) v hx

lemma setNext_apply (hx : x < a ∨ a + 24 ≤ x) : setNext m a v x = m x :=
  store32_outside m (by omega) v hx

lemma setPrev_apply (hx : x < a ∨ a + 24 ≤ x) : setPrev m a v x = m x :=
  store32_outside m (by omega) v hx

lemma setMagic_apply (hx : x < a ∨ a + 24 ≤ x) : setMagic m a v x = m x :=
  store32_outside m (k := 0) (by omega) v hx

lemma setIsFree_apply (f : UInt8) (hx : x < a ∨ a + 24 ≤ x) : setIsFree m a f x = m x :=
  Function.update_of_ne (by omega) _ _

lemma relinkPrev_apply (hx : q = 0 ∨ x < q ∨ q + 24 ≤ x) : relinkPrev m q v x = m x := by
  unfold relinkPrev
  split_ifs with hq
  · exact setPrev_apply m (by omega)
  · rfl

end Stores

section Ops

variable {A : Arena} {h : State} {xs ys : List Block} {b : Block}

/-! ## Cutting a block -/

/-- The size that `split_block` leaves to the block. -/
def Block.cutSize (b : Block) (n : ℕ) : ℕ :=
  if b.size < n + headerSize + minBlockSize then b.size else n

/-- The block that `split_block` cuts off, if any. -/
def Block.cutRest (b : Block) (n : ℕ) : List Block :=
  if b.size < n + headerSize + minBlockSize then []
  else
    [{ addr := b.addr + headerSize + n, size := b.size - n - headerSize, free := true }]

/-- The memory after the header of a free block of `rest` bytes between the blocks at `p` and `q`
was written at `a`. -/
def freshHeader (m : Mem) (a rest p q : ℕ) : Mem :=
  setNext (setPrev (setIsFree (setSize (setMagic m a heapBlockMagic) a rest) a 1) a p) a q

lemma hdr_freshHeader_of_apart (m : Mem) {a c rest p q : ℕ} (hc : a + 24 ≤ c ∨ c + 24 ≤ a) :
    hdr (freshHeader m a rest p q) c = hdr m c := by
  simp (disch := omega) only [freshHeader, hdr_setMagic_of_apart, hdr_setSize_of_apart,
    hdr_setIsFree_of_apart, hdr_setPrev_of_apart, hdr_setNext_of_apart]

/-- The header of a new free block. -/
lemma hdr_freshHeader (m : Mem) {a rest p q : ℕ} (hr : rest < 4294967296) (hp : p < 4294967296)
    (hq : q < 4294967296) :
    hdr (freshHeader m a rest p q) a =
      Block.header { addr := a, size := rest, free := true } p q := by
  have hm : heapBlockMagic < 4294967296 := by decide
  simp (disch := omega) only [freshHeader, hdr_setSize, hdr_setNext, hdr_setPrev, hdr_setIsFree,
    hdr_setMagic]
  rfl

/-- The memory after `split_block` put a block of `rest` bytes at `nb` between the block at `a`
and the one at `q`, and cut the block at `a` down to `n` bytes. -/
def splitMem (m : Mem) (a nb q n rest : ℕ) : Mem :=
  setSize (setNext (relinkPrev (freshHeader m nb rest a q) q nb) a nb) a n

/-- The stores of `split_block`. -/
lemma splitMem_apply (m : Mem) {a q n x nb rest : ℕ} (ha : x < a ∨ a + 24 ≤ x)
    (hnb : x < nb ∨ nb + 24 ≤ x)
    (hq : q = 0 ∨ x < q ∨ q + 24 ≤ x) : splitMem m a nb q n rest x = m x := by
  rw [splitMem, setSize_apply _ ha, setNext_apply _ ha, relinkPrev_apply _ hq, freshHeader,
    setNext_apply _ hnb, setPrev_apply _ hnb, setIsFree_apply _ _ hnb, setSize_apply _ hnb,
    setMagic_apply _ hnb]

/-- `split_block` leaves a small block alone. -/
lemma Rep.splitBlock_of_small (hR : Rep A h (xs ++ b :: ys)) {n : ℕ} (hn : n ≤ b.size)
    (hsmall : b.size < n + 40) : splitBlock h b.addr n = h := by
  have hcur := hR.cur_le_heapMaxSize
  have hstop := hR.at.stop_le
  have hge := hR.at.addr_ge
  have e : u32 (n + headerSize + minBlockSize) = n + 40 :=
    u32_of_lt (by simp only [headerSize, minBlockSize]; omega)
  rw [splitBlock, hR.at.size_eq, e, if_pos hsmall]

/-- `split_block` on a block that is large enough. -/
lemma At.splitBlock_eq (hA : At A h xs b ys) (htop : A.base + h.heapCurSize < 4294967296) {n : ℕ}
    (hn : n + 40 ≤ b.size) :
    splitBlock h b.addr n =
      { h with
        mem := splitMem h.mem b.addr (b.addr + 24 + n) (headAddr 0 ys) n (b.size - n - 24)
        stats := { h.stats with
          numBlocks := u32 (h.stats.numBlocks + 1)
          freeSize := sub32 h.stats.freeSize headerSize } } := by
  have h1 := hA.stop_le
  have e1 : u32 (n + headerSize + minBlockSize) = n + 40 := u32_of_lt (by
    simp only [headerSize, minBlockSize]; omega)
  have e2 : sub32 (sub32 b.size n) headerSize = b.size - n - 24 := by
    rw [sub32_of_le (by omega : n ≤ b.size) (by omega), headerSize, sub32_of_le] <;> omega
  have e3 : u32 (b.addr + headerSize + n) = b.addr + 24 + n := u32_of_lt (by
    simp only [headerSize]; omega)
  rw [splitBlock, hA.size_eq, e1, if_neg (by omega), e2, e3]
  simp (disch := omega) only [next_eq_hdr, hdr_setMagic_of_apart, hdr_setSize_of_apart,
    hdr_setIsFree_of_apart, hdr_setPrev_of_apart, hdr_setNext_of_apart, hA.header, Block.header]
  rfl

/-- The list after a block was cut in two. -/
lemma At.linked_splitMem (hA : At A h xs b ys) (htop : A.base + h.heapCurSize < 4294967296)
    {n : ℕ} (hn : n + 40 ≤ b.size) :
    Linked (splitMem h.mem b.addr (b.addr + 24 + n) (headAddr 0 ys) n (b.size - n - 24)) 0 0
      (xs ++ { b with size := n } ::
        { addr := b.addr + 24 + n, size := b.size - n - 24, free := true } :: ys) := by
  have hstop := hA.stop_le
  have hq := hA.headAddr_right
  have hq' := hA.headAddr_right_le
  have hnb : b.addr + 24 + n < 4294967296 := by omega
  refine linked_append.mpr ⟨hA.left.frame fun c hc => ?_, ?_, ?_, ?_⟩
  · have := hA.before hc
    simp (disch := omega) only [splitMem, hdr_setSize_of_apart, hdr_setNext_of_apart,
      hdr_relinkPrev_of_apart, hdr_freshHeader_of_apart]
  · simp (disch := omega) only [splitMem, hdr_relinkPrev_of_apart, hdr_freshHeader_of_apart,
      hdr_setSize, hdr_setNext, hA.header]
    rfl
  · simp (disch := omega) only [splitMem, hdr_setSize_of_apart, hdr_setNext_of_apart,
      hdr_relinkPrev_of_apart, hdr_freshHeader]
  · have hfresh : Linked (freshHeader h.mem (b.addr + 24 + n) (b.size - n - 24) b.addr
        (headAddr 0 ys)) 0 b.addr ys := hA.right.frame fun c hc => by
      have := hA.after hc
      exact hdr_freshHeader_of_apart _ (by omega)
    refine (hfresh.relink hA.tilesRight b.stop_pos hnb).frame fun c hc => ?_
    have := hA.after hc
    simp (disch := omega) only [splitMem, hdr_setSize_of_apart, hdr_setNext_of_apart]

/-- **`split_block`** cuts the block at the requested size when the rest can hold a block, and
leaves it alone otherwise. -/
lemma Rep.split (hR : Rep A h (xs ++ b :: ys)) (hb : b.free = true) {n : ℕ}
    (hn8 : 8 ∣ n) (hn0 : 0 < n) (hn : n ≤ b.size) :
    Rep A (splitBlock h b.addr n)
      (xs ++ { b with size := b.cutSize n } :: (b.cutRest n ++ ys)) := by
  have hA := hR.at
  have htop := hR.top_lt
  have hstop := hA.stop_le
  have hge := hA.addr_ge
  have hcur := hR.cur_le_heapMaxSize
  by_cases hsmall : b.size < n + headerSize + minBlockSize
  · rw [Block.cutSize, Block.cutRest, if_pos hsmall, if_pos hsmall,
      hR.splitBlock_of_small hn hsmall]
    exact hR
  · rw [Block.cutSize, Block.cutRest, if_neg hsmall, if_neg hsmall]
    simp only [headerSize, minBlockSize] at hsmall
    rw [hA.splitBlock_eq htop (by omega)]
    obtain ⟨hc, -⟩ := hR.counts_le
    simp only [headerSize] at hc
    refine ⟨?_, ?_, hR.head, hR.baseAddr, hR.limit, hR.cur_pos,
      hR.cur_dvd, hR.cur_le, ?_⟩
    · exact hA.linked_splitMem htop (by omega)
    · have h8 := hA.size_dvd
      have e : b.addr + 24 + n + 24 + (b.size - n - 24) = b.addr + 24 + b.size := by omega
      refine tiles_append.mpr ⟨b.addr, hA.tilesLeft, rfl, hn8, hn0, rfl, ?_, ?_, ?_⟩
      · simp only [headerSize]
        omega
      · simp only [headerSize]
        omega
      · simp only [Block.stop, headerSize, e]
        exact hA.tilesRight
    · exact hR.counts.split hb (by simp only [headerSize]; omega) (by omega) (by omega)

/-- `split_block` on a free block keeps the payloads in use. -/
lemma Rep.kept_splitBlock (hR : Rep A h (xs ++ b :: ys)) (hfree : b.free = true) {n : ℕ}
    (hn : n ≤ b.size) : Kept (xs ++ b :: ys) h.mem (splitBlock h b.addr n).mem := by
  by_cases hsmall : b.size < n + 40
  · rw [hR.splitBlock_of_small hn hsmall]
    exact Kept.refl _ _
  · intro c hc x hx hx'
    have hout := hR.outside_free hc (by simp) hfree hx hx'
    simp only [Block.stop, headerSize] at hout
    have hys : ∀ d ∈ ys, d ∈ xs ++ b :: ys := fun d hd => by simp [hd]
    have hq := hR.outside_headAddr hc hys hx hx'
    rw [hR.at.splitBlock_eq hR.top_lt (by omega)]
    exact splitMem_apply _ (by omega) (by omega) hq

/-! ## Joining two blocks -/

/-- The memory after the block at `a` got `n` bytes and the successor `q`. -/
def mergeMem (m : Mem) (a n q : ℕ) : Mem := relinkPrev (setNext (setSize m a n) a q) q a

/-- The stores that join two blocks. -/
lemma mergeMem_apply (m : Mem) {a q n x : ℕ} (ha : x < a ∨ a + 24 ≤ x)
    (hq : q = 0 ∨ x < q ∨ q + 24 ≤ x) :
    mergeMem m a n q x = m x := by
  rw [mergeMem, relinkPrev_apply _ hq, setNext_apply _ ha, setSize_apply _ ha]

/-- The state after two neighbours were joined into the block at `a` with `n` bytes. -/
def State.merge (h : State) (a n q : ℕ) : State :=
  { h with mem := mergeMem h.mem a n q, stats := h.stats.merged }

variable {c : Block}

/-- The second of two neighbours. -/
lemma Rep.at_second (hR : Rep A h (xs ++ b :: c :: ys)) : At A h (xs ++ [b]) c ys := by
  rw [show xs ++ b :: c :: ys = (xs ++ [b]) ++ c :: ys by simp] at hR
  exact hR.at

/-- `coalesce` absorbs a free successor. -/
lemma Rep.coalesceNext_eq (hR : Rep A h (xs ++ b :: c :: ys)) (hc : c.free = true) :
    coalesceNext h b.addr = h.merge b.addr (b.size + headerSize + c.size) (headAddr 0 ys) := by
  have hB := hR.at
  have hC := hR.at_second
  have htop := hR.top_lt
  have h1 := hC.stop_le
  have h2 : b.addr + 24 + b.size ≤ c.addr := hB.after (by simp)
  have h3 := hC.headAddr_right_le
  have e : u32 (b.size + headerSize + c.size) = b.size + headerSize + c.size :=
    u32_of_lt (by simp only [headerSize]; omega)
  have hnext : next h.mem b.addr = c.addr := hB.next_eq
  have hne : c.addr ≠ 0 := by omega
  have e1 : next (setSize h.mem b.addr (b.size + headerSize + c.size)) b.addr = c.addr := by
    rw [next_eq_hdr, hdr_setSize _ (by simp only [headerSize]; omega), hB.header]
    rfl
  have e2 : next (setSize h.mem b.addr (b.size + headerSize + c.size)) c.addr = headAddr 0 ys := by
    rw [next_eq_hdr, hdr_setSize_of_apart _ (by omega), hC.header]
    rfl
  have e3 : ∀ m, next (setNext m b.addr (headAddr 0 ys)) b.addr = headAddr 0 ys := fun m => by
    rw [next_eq_hdr, hdr_setNext _ (by omega)]
  rw [coalesceNext, hnext, if_pos ⟨hne, hC.isFree_ne_zero.mpr hc⟩, hB.size_eq, hC.size_eq, e]
  simp only [e1, e2, e3]
  rfl

/-- `coalesce` lets a free predecessor absorb the block. -/
lemma Rep.coalescePrev_eq (hR : Rep A h (xs ++ b :: c :: ys)) (hbase : 0 < A.base)
    (hb : b.free = true) :
    coalescePrev h c.addr = h.merge b.addr (b.size + headerSize + c.size) (headAddr 0 ys) := by
  have hB := hR.at
  have hC := hR.at_second
  have htop := hR.top_lt
  have h0 := hB.addr_ge
  have h1 := hC.stop_le
  have h2 : b.addr + 24 + b.size ≤ c.addr := hB.after (by simp)
  have h3 := hC.headAddr_right_le
  have e : u32 (b.size + headerSize + c.size) = b.size + headerSize + c.size :=
    u32_of_lt (by simp only [headerSize]; omega)
  have hprev : prev h.mem c.addr = b.addr := by
    rw [hC.prev_eq, lastAddr_append]
    rfl
  have hne : b.addr ≠ 0 := by omega
  have hhdr : ∀ m, hdr m c.addr = hdr h.mem c.addr →
      next m c.addr = headAddr 0 ys ∧ prev m c.addr = b.addr := fun m hm => by
    rw [next_eq_hdr, prev_eq_hdr, hm, ← next_eq_hdr, ← prev_eq_hdr, hC.next_eq, hprev]
    exact ⟨rfl, rfl⟩
  obtain ⟨e1, e2⟩ := hhdr (setSize h.mem b.addr (b.size + headerSize + c.size))
    (hdr_setSize_of_apart _ (by omega))
  obtain ⟨e3, e4⟩ := hhdr (setNext (setSize h.mem b.addr (b.size + headerSize + c.size)) b.addr
    (headAddr 0 ys)) (by
      rw [hdr_setNext_of_apart _ (by omega), hdr_setSize_of_apart _ (by omega)])
  rw [coalescePrev, hprev, if_pos ⟨hne, hB.isFree_ne_zero.mpr hb⟩, hB.size_eq, hC.size_eq, e]
  simp only [e1, e2, e3, e4]
  rfl

/-- The list after two neighbours were joined. -/
lemma Rep.linked_mergeMem (hR : Rep A h (xs ++ b :: c :: ys)) :
    Linked (mergeMem h.mem b.addr (b.size + headerSize + c.size) (headAddr 0 ys)) 0 0
      (xs ++ b.join c :: ys) := by
  have hB := hR.at
  have hC := hR.at_second
  have htop := hR.top_lt
  have h1 := hC.stop_le
  have h2 : b.addr + 24 + b.size ≤ c.addr := hB.after (by simp)
  have h3 := hC.headAddr_right_le
  have hq := hC.headAddr_right
  have hn : b.size + headerSize + c.size < 4294967296 := by simp only [headerSize]; omega
  refine linked_append.mpr ⟨hB.left.frame fun d hd => ?_, ?_, ?_⟩
  · have := hB.before hd
    simp (disch := omega) only [mergeMem, hdr_setSize_of_apart, hdr_setNext_of_apart,
      hdr_relinkPrev_of_apart]
  · change hdr (mergeMem h.mem b.addr (b.size + headerSize + c.size) (headAddr 0 ys)) b.addr =
      (b.join c).header (lastAddr 0 xs) (headAddr 0 ys)
    simp (disch := omega) only [mergeMem, hdr_relinkPrev_of_apart, hdr_setNext, hdr_setSize,
      hB.header]
    rfl
  · have hset : Linked (setNext (setSize h.mem b.addr (b.size + headerSize + c.size)) b.addr
        (headAddr 0 ys)) 0 c.addr ys := hC.right.frame fun d hd => by
      have := hC.after hd
      simp (disch := omega) only [hdr_setSize_of_apart, hdr_setNext_of_apart]
    exact hset.relink hC.tilesRight c.stop_pos (by omega)

/-- **Joining two free neighbours** keeps the representation. -/
lemma Rep.merge (hR : Rep A h (xs ++ b :: c :: ys)) (hb : b.free = true) (hc : c.free = true) :
    Rep A (h.merge b.addr (b.size + headerSize + c.size) (headAddr 0 ys))
      (xs ++ b.join c :: ys) := by
  have hB := hR.at
  have hC := hR.at_second
  have hcur := hR.cur_le_heapMaxSize
  obtain ⟨hcount, -⟩ := hR.counts_le
  simp only [headerSize] at hcount
  refine ⟨hR.linked_mergeMem, ?_, hR.head, hR.baseAddr, hR.limit, hR.cur_pos,
      hR.cur_dvd, hR.cur_le, ?_⟩
  · have ha : c.addr = b.stop := hB.tilesRight.1
    have h1 := hB.size_dvd
    have h2 := hC.size_dvd
    refine tiles_append.mpr ⟨b.addr, hB.tilesLeft, rfl, ?_, ?_, ?_⟩
    · simp only [Block.join, headerSize]
      omega
    · simp only [Block.join, headerSize]
      omega
    · have e : (b.join c).stop = c.stop := by
        simp only [Block.join, Block.stop] at ha ⊢
        omega
      rw [e]
      exact hC.tilesRight
  · exact hR.counts.merge hb hc (by simp only [headerSize]; omega) (by omega)

/-- Joining two neighbours keeps the payloads in use. -/
lemma Rep.kept_merge (hR : Rep A h (xs ++ b :: c :: ys)) (n : ℕ) :
    Kept (xs ++ b :: c :: ys) h.mem (h.merge b.addr n (headAddr 0 ys)).mem :=
  fun _ hd _ hx hx' => mergeMem_apply _ (hR.outside_header hd (by simp) hx hx')
    (hR.outside_headAddr hd (fun e he => by simp [he]) hx hx')

/-! ## `coalesce` -/

/-- The first half of `coalesce` at a free block joins it with a free successor. -/
lemma Rep.coalesceNext (hR : Rep A h (xs ++ b :: ys)) (hb : b.free = true) (hs : Settled ys) :
    ∃ b' ys', Rep A (coalesceNext h b.addr) (xs ++ b' :: ys') ∧ b'.addr = b.addr ∧
      b'.free = true ∧ Settled (b' :: ys') ∧ usedBlocks ys' = usedBlocks ys ∧
      Kept (xs ++ b :: ys) h.mem (coalesceNext h b.addr).mem := by
  have hB := hR.at
  cases ys with
  | nil =>
    have hskip : Heap.coalesceNext h b.addr = h := if_neg fun hn => hn.1 hB.next_eq
    exact ⟨b, [], by rwa [hskip], rfl, hb, .singleton _, rfl, by rw [hskip]; exact .refl _ _⟩
  | cons c ys =>
    cases hc : c.free with
    | true =>
      rw [hR.coalesceNext_eq hc]
      refine ⟨b.join c, ys, hR.merge hb hc, rfl, hb, ?_, (usedBlocks_cons_of_free hc).symm,
        hR.kept_merge _⟩
      have e : (b.join c).free = c.free := hb.trans hc.symm
      simpa only [Settled, map_cons, e] using hs
    | false =>
      have hskip : Heap.coalesceNext h b.addr = h := if_neg fun hn => by
        rw [hB.next_eq, headAddr_cons, hR.at_second.isFree_ne_zero, hc] at hn
        exact Bool.false_ne_true hn.2
      rw [hskip]
      refine ⟨b, c :: ys, hR, rfl, hb, ?_, rfl, .refl _ _⟩
      simp only [Settled, map_cons] at hs ⊢
      exact .cons_cons (.inr hc) hs

/-- The second half of `coalesce` at a free block joins it with a free predecessor. -/
lemma Rep.coalescePrev (hR : Rep A h (xs ++ b :: ys)) (hbase : 0 < A.base) (hb : b.free = true)
    (hxs : Settled xs) (hs : Settled (b :: ys)) :
    ∃ bs, Rep A (coalescePrev h b.addr) bs ∧ Settled bs ∧
      usedBlocks bs = usedBlocks xs ++ usedBlocks ys ∧
      Kept (xs ++ b :: ys) h.mem (coalescePrev h b.addr).mem := by
  have hB := hR.at
  rcases eq_nil_or_concat xs with rfl | ⟨xs', a, rfl⟩
  · have hskip : Heap.coalescePrev h b.addr = h := if_neg fun hn => hn.1 hB.prev_eq
    rw [hskip]
    exact ⟨b :: ys, hR, hs, usedBlocks_cons_of_free hb, .refl _ _⟩
  · rw [concat_eq_append] at *
    have hR' : Rep A h (xs' ++ a :: b :: ys) := by simpa using hR
    have hprev : prev h.mem b.addr = a.addr := by
      rw [hB.prev_eq, lastAddr_append]
      rfl
    cases ha : a.free with
    | true =>
      rw [hR'.coalescePrev_eq hbase ha]
      refine ⟨xs' ++ a.join b :: ys, hR'.merge ha hb, ?_, ?_, ?_⟩
      · have e : (a.join b).free = a.free := rfl
        simp only [Settled, map_append, map_cons, map_nil, e, ha, hb] at hxs hs ⊢
        exact isChain_split.mpr ⟨hxs, hs⟩
      · simp [usedBlocks, Block.used, ha, Block.join]
      · simpa using hR'.kept_merge _
    | false =>
      -- a used block in front is left alone
      have hskip : Heap.coalescePrev h b.addr = h := if_neg fun hn => by
        rw [hprev, hR'.at.isFree_ne_zero, ha] at hn
        exact Bool.false_ne_true hn.2
      rw [hskip]
      refine ⟨xs' ++ [a] ++ b :: ys, hR, ?_, ?_, .refl _ _⟩
      · simp only [Settled, map_append, map_cons, map_nil] at hxs hs ⊢
        refine isChain_append.mpr ⟨hxs, hs, fun x hx y _ => .inl ?_⟩
        rw [getLast?_append_cons, getLast?_singleton, Option.mem_some_iff] at hx
        rw [← hx, ha]
      · rw [usedBlocks_append, usedBlocks_cons_of_free hb]

/-- **`coalesce`** at a free block between two settled lists settles the list and keeps the used
blocks and their payloads. -/
lemma Rep.coalesce (hR : Rep A h (xs ++ b :: ys)) (hbase : 0 < A.base) (hb : b.free = true)
    (hxs : Settled xs) (hys : Settled ys) :
    ∃ bs, Rep A (coalesce h b.addr) bs ∧ Settled bs ∧
      usedBlocks bs = usedBlocks xs ++ usedBlocks ys ∧
      Kept (xs ++ b :: ys) h.mem (coalesce h b.addr).mem := by
  obtain ⟨b', ys', hR', haddr, hb', hs', hused, hk⟩ := hR.coalesceNext hb hys
  obtain ⟨bs, h1, h2, h3, hk'⟩ := hR'.coalescePrev hbase hb' hxs hs'
  rw [haddr] at h1 hk'
  refine ⟨bs, h1, h2, h3.trans (by rw [hused]), hk.trans (fun c hc => ?_) hk'⟩
  rw [usedBlocks_append, usedBlocks_cons_of_free hb] at hc
  rwa [usedBlocks_append, usedBlocks_cons_of_free hb', hused]

/-! ## Handing out and taking back a block -/

/-- The list after the state of a block changed. -/
lemma At.linked_setIsFree (hA : At A h xs b ys) (f : Bool) :
    Linked (setIsFree h.mem b.addr (if f then 1 else 0)) 0 0
      (xs ++ { b with free := f } :: ys) := by
  refine linked_append.mpr ⟨hA.left.frame fun c hc => ?_, ?_, hA.right.frame fun c hc => ?_⟩
  · have := hA.before hc
    exact hdr_setIsFree_of_apart _ _ (by omega)
  · rw [hdr_setIsFree, hA.header]
    rfl
  · have := hA.after hc
    exact hdr_setIsFree_of_apart _ _ (by omega)

/-- The interval is filled whatever the state of a block is. -/
lemma At.tiles_setFree (hA : At A h xs b ys) (f : Bool) :
    Tiles (A.base + h.heapCurSize) A.base (xs ++ { b with free := f } :: ys) :=
  tiles_append.mpr ⟨b.addr, hA.tilesLeft, rfl, hA.size_dvd, hA.size_pos, hA.tilesRight⟩

/-- **The end of `kmalloc`** cuts the block found and hands out its payload. -/
lemma Rep.takeBlock (hR : Rep A h (xs ++ b :: ys)) (hb : b.free = true) {n : ℕ} (hn8 : 8 ∣ n)
    (hn0 : 0 < n) (hn : n ≤ b.size) :
    Rep A (takeBlock h b.addr n).1
        (xs ++ { b with size := b.cutSize n, free := false } :: (b.cutRest n ++ ys)) ∧
      (takeBlock h b.addr n).2 = b.payload ∧
      Kept (xs ++ b :: ys) h.mem (takeBlock h b.addr n).1.mem := by
  have hR' := hR.split hb hn8 hn0 hn
  have hA := hR'.at
  have hcur := hR'.cur_le_heapMaxSize
  have htop := hR'.top_lt
  have hstop := hA.stop_le
  have hge := hA.addr_ge
  dsimp only at hstop hge
  have hsize : size (setIsFree (splitBlock h b.addr n).mem b.addr 0) b.addr = b.cutSize n := by
    rw [size_eq_hdr, hdr_setIsFree, ← size_eq_hdr]
    exact hA.size_eq
  obtain ⟨hc, hc'⟩ := hR'.counts_le
  simp only [headerSize] at hc
  refine ⟨?_, u32_of_lt (by simp only [headerSize]; omega), fun c hc x hx hx' => ?_⟩
  · simp only [Heap.takeBlock, hsize]
    refine ⟨hA.linked_setIsFree false, hA.tiles_setFree false, hR'.head, hR'.baseAddr, hR'.limit,
      hR'.cur_pos, hR'.cur_dvd, hR'.cur_le, ?_⟩
    have hfit := hR'.counts.size_le_free hb
    dsimp only at hfit
    exact hR'.counts.take hb (by dsimp only; omega) (by omega) (by omega)
  · have hout := hR.outside_header hc (show b ∈ xs ++ b :: ys by simp) hx hx'
    exact (setIsFree_apply _ 0 hout).trans (hR.kept_splitBlock hb hn c hc x hx hx')

/-- The state of `kfree` with the block at `a` of `n` bytes marked free, before it calls
`coalesce`. -/
def State.markFree (h : State) (a n : ℕ) : State :=
  { h with
    mem := setIsFree h.mem a 1
    stats := { h.stats with
      usedSize := sub32 h.stats.usedSize n
      freeSize := u32 (h.stats.freeSize + n)
      numAllocations :=
        if h.stats.numAllocations > 0 then h.stats.numAllocations - 1
        else h.stats.numAllocations } }

lemma At.releaseBlock_eq (hA : At A h xs b ys) :
    releaseBlock h b.addr = Heap.coalesce (h.markFree b.addr b.size) b.addr := by
  have hsize : size (setIsFree h.mem b.addr 1) b.addr = b.size := by
    rw [size_eq_hdr, hdr_setIsFree, ← size_eq_hdr]
    exact hA.size_eq
  simp only [releaseBlock, hsize]
  rfl

/-- A used block is marked free. -/
lemma Rep.markFree (hR : Rep A h (xs ++ b :: ys)) (hb : b.free = false) :
    Rep A (h.markFree b.addr b.size) (xs ++ { b with free := true } :: ys) := by
  have hA := hR.at
  have hcur := hR.cur_le_heapMaxSize
  obtain ⟨hc, -⟩ := hR.counts_le
  simp only [headerSize] at hc
  obtain ⟨hfit, -⟩ := hR.counts.size_le_used hb
  exact ⟨hA.linked_setIsFree true, hA.tiles_setFree true, hR.head, hR.baseAddr, hR.limit,
    hR.cur_pos, hR.cur_dvd, hR.cur_le, hR.counts.release hb (by omega) (by omega)⟩

/-- **The end of `kfree`** takes back a used block and keeps the other payloads. -/
lemma Rep.releaseBlock (hR : Rep A h (xs ++ b :: ys)) (hbase : 0 < A.base) (hb : b.free = false)
    (hs : Settled (xs ++ b :: ys)) :
    ∃ bs, Rep A (releaseBlock h b.addr) bs ∧ Settled bs ∧
      usedBlocks bs = usedBlocks xs ++ usedBlocks ys ∧
      Kept (xs ++ { b with free := true } :: ys) h.mem (releaseBlock h b.addr).mem := by
  simp only [Settled, map_append, map_cons] at hs
  obtain ⟨hxs, hys, -⟩ := isChain_append.mp hs
  have hR' := hR.markFree hb
  have hmark : Kept (xs ++ { b with free := true } :: ys) h.mem (h.markFree b.addr b.size).mem :=
    fun c hc x hx hx' =>
      setIsFree_apply _ 1 (hR'.outside_header (c := { b with free := true }) hc (by simp) hx hx')
  rw [hR.at.releaseBlock_eq]
  obtain ⟨bs, h1, h2, h3, hk⟩ := hR'.coalesce hbase rfl hxs hys.tail
  exact ⟨bs, h1, h2, h3, hmark.trans (fun _ hc => hc) hk⟩

/-! ## Growing the heap -/

/-- The growth that `heap_expand` settles on holds the request and stays below the limit. -/
lemma Rep.growSize_spec {bs : List Block} (hR : Rep A h bs) {n g : ℕ} (hn8 : 8 ∣ n)
    (hn : n ≤ heapMaxSize) (hg : growSize h n = some g) :
    8 ∣ g ∧ n + headerSize ≤ g ∧ h.heapCurSize + g ≤ A.maxSize := by
  have hcur := hR.cur_le_heapMaxSize
  have h8 := hR.cur_dvd
  have h8' := A.maxSize_dvd
  simp only [heapMaxSize] at hn
  have e : u32 (n + headerSize) = n + 24 := u32_of_lt (by simp only [headerSize]; omega)
  have ea : alignUp (n + 24) 0x100000 = (n + 24 + 1048575) / 1048576 * 1048576 := by
    rw [alignUp, u32_of_lt] <;> omega
  simp only [growSize, hR.limit, e, ea] at hg
  rw [u32_of_lt (by omega)] at hg
  simp only [headerSize]
  split_ifs at hg with h1 h2 h3 <;> simp only [Option.some.injEq] at hg <;> omega

/-- The memory after `heap_expand` wrote the header of a free block of `n` bytes at `nb`. -/
def tailHeader (m : Mem) (nb n : ℕ) : Mem :=
  setNext (setIsFree (setSize (setMagic m nb heapBlockMagic) nb n) nb 1) nb 0

lemma hdr_tailHeader_of_apart (m : Mem) {nb n c : ℕ} (hc : nb + 24 ≤ c ∨ c + 24 ≤ nb) :
    hdr (tailHeader m nb n) c = hdr m c := by
  simp (disch := omega) only [tailHeader, hdr_setMagic_of_apart, hdr_setSize_of_apart,
    hdr_setIsFree_of_apart, hdr_setNext_of_apart]

/-- The memory after `heap_expand` put a block of `n` bytes at `nb` behind the block at `t`. -/
def appendMem (m : Mem) (nb n t : ℕ) : Mem := setPrev (setNext (tailHeader m nb n) t nb) nb t

/-- The stores of `heap_expand`. -/
lemma appendMem_apply (m : Mem) {n x nb t : ℕ} (hnb : x < nb ∨ nb + 24 ≤ x)
    (ht : x < t ∨ t + 24 ≤ x) :
    appendMem m nb n t x = m x := by
  rw [appendMem, setPrev_apply _ hnb, setNext_apply _ ht, tailHeader, setNext_apply _ hnb,
    setIsFree_apply _ _ hnb, setSize_apply _ hnb, setMagic_apply _ hnb]

/-- The list after a block was put behind its last block `b`. -/
lemma Rep.linked_appendMem (hR : Rep A h (xs ++ [b])) {n : ℕ} (hn : n < 4294967296) :
    Linked (appendMem h.mem (A.base + h.heapCurSize) n b.addr) 0 0
      (xs ++ [b, { addr := A.base + h.heapCurSize, size := n, free := true }]) := by
  have hA := hR.at
  have htop := hR.top_lt
  have hstop := hA.stop_le
  have hm : heapBlockMagic < 4294967296 := by decide
  refine linked_append.mpr ⟨hA.left.frame fun c hc => ?_, ?_, ?_, trivial⟩
  · have := hA.before hc
    simp (disch := omega) only [appendMem, hdr_setPrev_of_apart, hdr_setNext_of_apart,
      hdr_tailHeader_of_apart]
  · simp (disch := omega) only [appendMem, hdr_setPrev_of_apart, hdr_setNext,
      hdr_tailHeader_of_apart, hA.header]
    rfl
  · simp (disch := omega) only [appendMem, tailHeader, hdr_setPrev, hdr_setNext_of_apart,
      hdr_setNext, hdr_setIsFree, hdr_setSize, hdr_setMagic]
    rfl

/-- The state after `heap_expand` put `g` bytes at `nb` behind the block at `t`, before it calls
`coalesce`. -/
def State.grow (h : State) (nb g t : ℕ) : State :=
  { h with
    mem := appendMem h.mem nb (g - headerSize) t
    heapCurSize := h.heapCurSize + g
    stats := { h.stats with
      totalSize := u32 (h.stats.totalSize + g)
      freeSize := u32 (h.stats.freeSize + (g - headerSize))
      numBlocks := u32 (h.stats.numBlocks + 1) } }

/-- `heap_expand` finds the last block `b` after it wrote the header of the new one. -/
lemma Rep.lastBlock_tailHeader (hR : Rep A h (xs ++ [b])) (n : ℕ) :
    lastBlock (tailHeader h.mem (A.base + h.heapCurSize) n) h.fuel h.heapHead = b.addr := by
  have hl : Linked (tailHeader h.mem (A.base + h.heapCurSize) n) 0 0 (xs ++ [b]) :=
    hR.linked.frame fun c hc => by
      have := (hR.tiles.mem hc).2.1
      simp only [Block.stop, headerSize] at this
      exact hdr_tailHeader_of_apart _ (by omega)
  have hlast := lastBlock_eq hl hR.tiles (by simp) hR.length_le_fuel
  rw [hR.headAddr_eq, lastAddr_append] at hlast
  rw [hR.head, hlast]
  rfl

/-- `heap_expand` puts the new block behind the last block `b`. -/
lemma Rep.appendChunk_eq (hR : Rep A h (xs ++ [b])) {g : ℕ} (hg : headerSize ≤ g)
    (hmax : h.heapCurSize + g ≤ A.maxSize) :
    appendChunk h g =
      Heap.coalesce (h.grow (A.base + h.heapCurSize) g b.addr) (A.base + h.heapCurSize) := by
  have htop := A.top_lt
  have e1 : u32 (h.heapBaseAddr + h.heapCurSize) = A.base + h.heapCurSize := by
    rw [hR.baseAddr]
    exact u32_of_lt (by omega)
  have e2 : sub32 g headerSize = g - headerSize := sub32_of_le hg (by omega)
  have e3 : u32 (h.heapCurSize + g) = h.heapCurSize + g := u32_of_lt (by omega)
  have elast := hR.lastBlock_tailHeader (g - headerSize)
  have esize : size (appendMem h.mem (A.base + h.heapCurSize) (g - headerSize) b.addr)
      (A.base + h.heapCurSize) = g - headerSize := by
    rw [size_eq_hdr, (linked_append.mp (hR.linked_appendMem (by omega))).2.2.1]
    rfl
  rw [tailHeader] at elast
  rw [appendMem, tailHeader] at esize
  simp only [appendChunk, e1, e2, e3, elast, esize]
  rfl

/-- The grown heap has one more block. -/
lemma Rep.grow (hR : Rep A h (xs ++ [b])) {g : ℕ} (hg8 : 8 ∣ g) (hg : headerSize < g)
    (hmax : h.heapCurSize + g ≤ A.maxSize) :
    Rep A (h.grow (A.base + h.heapCurSize) g b.addr)
      (xs ++ [b] ++
        [{ addr := A.base + h.heapCurSize, size := g - headerSize, free := true }]) := by
  have htop := A.top_lt
  have hle := A.maxSize_le
  have h8 := hR.cur_dvd
  obtain ⟨hc, -⟩ := hR.counts_le
  simp only [headerSize, heapMaxSize] at hc hg hle
  refine ⟨?_, ?_, hR.head, hR.baseAddr, hR.limit, Nat.add_pos_left hR.cur_pos g,
    Nat.dvd_add h8 hg8, hmax, ?_⟩
  · rw [append_assoc]
    exact hR.linked_appendMem (by omega)
  · refine tiles_append.mpr ⟨A.base + h.heapCurSize, hR.tiles, rfl, ?_, ?_, ?_⟩
    · simp only [headerSize]
      omega
    · simp only [headerSize]
      omega
    · change A.base + h.heapCurSize + headerSize + (g - headerSize) = A.base + (h.heapCurSize + g)
      simp only [headerSize]
      omega
  · exact hR.counts.grow _ (by omega) (by omega) (by omega)

/-- **`heap_expand`**, after the growth is fixed, keeps the list settled, the used blocks and their
payloads. -/
lemma Rep.appendChunk {bs : List Block} (hR : Rep A h bs) (hbase : 0 < A.base) (hs : Settled bs)
    {g : ℕ} (hg8 : 8 ∣ g) (hg : headerSize < g) (hmax : h.heapCurSize + g ≤ A.maxSize) :
    ∃ bs', Rep A (appendChunk h g) bs' ∧ Settled bs' ∧ usedBlocks bs' = usedBlocks bs ∧
      Kept bs h.mem (appendChunk h g).mem := by
  obtain ⟨xs, t, rfl⟩ := hR.exists_last
  obtain ⟨bs', h1, h2, h3, hk⟩ := (hR.grow hg8 hg hmax).coalesce hbase rfl hs .nil
  have hgrow : Kept (xs ++ [t]) h.mem (h.grow (A.base + h.heapCurSize) g t.addr).mem := by
    intro c hc x hx hx'
    have htop := hR.lt_top hc hx'
    exact appendMem_apply _ (by omega) (hR.outside_header hc (by simp) hx hx')
  rw [hR.appendChunk_eq hg.le hmax]
  refine ⟨bs', h1, h2, h3.trans (append_nil _), hgrow.trans (fun c hc => ?_) hk⟩
  rw [usedBlocks_append]
  exact mem_append_left _ hc

end Ops

end BengalTiger.Heap
