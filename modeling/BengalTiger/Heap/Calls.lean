import BengalTiger.Heap.Ops

set_option autoImplicit false

/-!
# The calls of the kernel heap

What `kmalloc`, `kzalloc` and `kfree` do to a represented block list. An allocation adds one used
block, a release removes the block of the pointer, and the other used blocks stay with the bytes of
their payloads.

## Main definitions

* `Heap.Allocates` — what an allocation does to the used blocks.
* `Heap.Serves` — what it does to the state.

## Main results

* `Heap.Rep.kmalloc`, `Heap.Rep.kzalloc`, `Heap.Rep.kfree_eq`, `Heap.Rep.release`.
-/

namespace BengalTiger.Heap

open ByteMem List

section Ops

variable {A : Arena} {h : State} {bs : List Block}

/-! ## `kmalloc` -/

/-- The list stays settled when a free block is cut and handed out. -/
lemma Settled.take {xs ys : List Block} {b : Block} (hs : Settled (xs ++ b :: ys))
    (hb : b.free = true) (n : ℕ) :
    Settled (xs ++ { b with size := b.cutSize n, free := false } :: (b.cutRest n ++ ys)) := by
  simp only [Settled, map_append, map_cons, hb] at hs ⊢
  obtain ⟨hxs, hys⟩ := isChain_split.mp hs
  obtain ⟨hxs, -, -⟩ := isChain_append.mp hxs
  refine isChain_append.mpr ⟨hxs, ?_, fun x _ y hy => .inr ?_⟩
  · unfold Block.cutRest
    split_ifs
    · exact isChain_cons.mpr ⟨fun _ _ => .inl rfl, hys.tail⟩
    · exact isChain_cons.mpr ⟨fun _ _ => .inl rfl, hys⟩
  · rw [head?_cons, Option.mem_some_iff] at hy
    exact hy.symm

/-- What an allocation of `n` bytes does to the used blocks: nothing when it fails, one more
block otherwise. -/
def Allocates (bs bs' : List Block) (n ptr : ℕ) : Prop :=
  ptr = 0 ∧ usedBlocks bs' = usedBlocks bs ∨
    ∃ b, ptr = b.payload ∧ n ≤ b.size ∧ (usedBlocks bs').Perm (b :: usedBlocks bs)

/-- Only the used blocks matter before an allocation. -/
lemma Allocates.of_usedBlocks_eq {bs bs' bs'' : List Block} {n ptr : ℕ}
    (ha : Allocates bs' bs'' n ptr) (hu : usedBlocks bs' = usedBlocks bs) :
    Allocates bs bs'' n ptr := by
  rwa [Allocates, hu] at ha

/-- The blocks cut off are free. -/
lemma usedBlocks_cutRest (b : Block) (n : ℕ) : usedBlocks (b.cutRest n) = [] := by
  unfold Block.cutRest
  split_ifs <;> simp [usedBlocks]

/-- **What an allocation** of `n` bytes does to a state with the blocks `bs`: the list stays
settled, and so do the payloads in use. -/
def Serves (A : Arena) (h : State) (bs : List Block) (n : ℕ) (r : State × ℕ) : Prop :=
  ∃ bs', Rep A r.1 bs' ∧ Settled bs' ∧ Allocates bs bs' n r.2 ∧ Kept bs h.mem r.1.mem

/-- A call that returns `NULL` at once. -/
lemma Rep.serves_null (hR : Rep A h bs) (hs : Settled bs) (n : ℕ) : Serves A h bs n (h, 0) :=
  ⟨bs, hR, hs, .inl ⟨rfl, rfl⟩, .refl _ _⟩

/-- Handing out a free block that is large enough. -/
lemma Rep.serves_takeBlock {xs ys : List Block} {b : Block} (hR : Rep A h (xs ++ b :: ys))
    (hs : Settled (xs ++ b :: ys)) {n n' : ℕ} (hn8 : 8 ∣ n) (hn0 : 0 < n) (hle : n' ≤ n)
    (hfree : b.free = true) (hsize : n ≤ b.size) :
    Serves A h (xs ++ b :: ys) n' (Heap.takeBlock h b.addr n) := by
  obtain ⟨h1, h2, hk⟩ := hR.takeBlock hfree hn8 hn0 hsize
  refine ⟨_, h1, hs.take hfree n,
    .inr ⟨{ b with size := b.cutSize n, free := false }, h2, ?_, ?_⟩, hk⟩
  · dsimp only [Block.cutSize]
    split_ifs <;> omega
  · rw [usedBlocks_append, usedBlocks_append xs (b :: ys), usedBlocks_cons_of_free hfree,
      usedBlocks_cons_of_used rfl, usedBlocks_append, usedBlocks_cutRest, nil_append]
    exact perm_middle

/-- **The search** of `kmalloc` finds nothing, or the first block that fits. -/
lemma Rep.findFree_cases (hR : Rep A h bs) (hbase : 0 < A.base) (n : ℕ) :
    h.findFree n = 0 ∧ bs.find? (Block.fits n) = none ∨
      ∃ xs b ys, bs = xs ++ b :: ys ∧ b.free = true ∧ n ≤ b.size ∧ h.findFree n = b.addr ∧
        b.addr ≠ 0 := by
  have hne : ∀ b ∈ bs, b.addr ≠ 0 := by
    intro b hb
    have := (hR.tiles.mem hb).1
    omega
  have hfind := findFreeBlock_eq (n := n) hR.linked hne hR.length_le_fuel
  rw [hR.headAddr_eq, ← hR.head] at hfind
  cases hf : bs.find? (Block.fits n) with
  | none =>
    rw [hf] at hfind
    exact .inl ⟨hfind, rfl⟩
  | some b =>
    rw [hf] at hfind
    have hb := hne b (mem_of_find?_eq_some hf)
    obtain ⟨hfit, xs, ys, rfl, -⟩ := find?_eq_some_iff_append.mp hf
    simp only [Block.fits, Bool.and_eq_true, decide_eq_true_eq] at hfit
    exact .inr ⟨xs, b, ys, rfl, hfit.1, hfit.2, hfind, hb⟩

/-- The end of `kmalloc` after a search. -/
lemma Rep.serves_takeFound (hR : Rep A h bs) (hs : Settled bs) (hbase : 0 < A.base) {n n' : ℕ}
    (hn8 : 8 ∣ n) (hn0 : 0 < n) (hle : n' ≤ n) : Serves A h bs n' (takeFound h n) := by
  obtain ⟨h0, -⟩ | ⟨xs, b, ys, rfl, hfree, hsize, haddr, hne⟩ := hR.findFree_cases hbase n
  · rw [takeFound, if_pos h0]
    exact hR.serves_null hs n'
  · rw [takeFound, haddr, if_neg hne]
    exact hR.serves_takeBlock hs hn8 hn0 hle hfree hsize

/-- A free block is found at once. -/
lemma allocBlock_of_found {n : ℕ} (hfound : h.findFree n ≠ 0) :
    Heap.allocBlock h n = Heap.takeFound h n := if_pos hfound

/-- No free block is found and the heap cannot grow. -/
lemma allocBlock_of_full {n : ℕ} (hfound : h.findFree n = 0) (hg : growSize h n = none) :
    Heap.allocBlock h n = (h, 0) := by
  rw [Heap.allocBlock, if_neg (by simpa using hfound), Heap.heapExpand, hg]
  rfl

/-- No free block is found and the heap grows. -/
lemma allocBlock_of_grown {n g : ℕ} (hfound : h.findFree n = 0) (hg : growSize h n = some g) :
    Heap.allocBlock h n = Heap.takeFound (Heap.appendChunk h g) n := by
  rw [Heap.allocBlock, if_neg (by simpa using hfound), Heap.heapExpand, hg, Option.elim_some,
    if_pos rfl]

/-- The part of `kmalloc` after the size was rounded up. -/
lemma Rep.serves_allocBlock (hR : Rep A h bs) (hs : Settled bs) (hbase : 0 < A.base) {n n' : ℕ}
    (hn8 : 8 ∣ n) (hn0 : 0 < n) (hn : n ≤ heapMaxSize) (hle : n' ≤ n) :
    Serves A h bs n' (allocBlock h n) := by
  by_cases hfound : h.findFree n = 0
  · cases hg : growSize h n with
    | none =>
      rw [allocBlock_of_full hfound hg]
      exact hR.serves_null hs n'
    | some g =>
      obtain ⟨hg8, hgn, hgmax⟩ := hR.growSize_spec hn8 hn hg
      obtain ⟨bs₁, hR₁, hs₁, hu, hk₁⟩ := hR.appendChunk hbase hs hg8 (by omega) hgmax
      obtain ⟨bs₂, hR₂, hs₂, ha, hk₂⟩ := hR₁.serves_takeFound hs₁ hbase hn8 hn0 hle
      rw [allocBlock_of_grown hfound hg]
      exact ⟨bs₂, hR₂, hs₂, ha.of_usedBlocks_eq hu, hk₁.trans (fun c hc => by rwa [hu]) hk₂⟩
  · rw [allocBlock_of_found hfound]
    exact hR.serves_takeFound hs hbase hn8 hn0 hle

/-- **`kmalloc`** of at most 16 MB keeps the list settled; it fails without a change of the used
blocks or hands out the payload of a new used block that is large enough.

**Proof sketch.** With a null heap the call fails. Otherwise the request is rounded up to a
multiple of 8; the first block that fits is cut and marked, if necessary after `heap_expand`,
which keeps the used blocks. -/
lemma Rep.kmalloc (hR : Rep A h bs) (hs : Settled bs) {n : ℕ} (hn : n ≤ heapMaxSize) :
    Serves A h bs n (kmalloc h n) := by
  by_cases h0 : n = 0 ∨ h.heapHead = 0
  · rw [Heap.kmalloc, if_pos h0]
    exact hR.serves_null hs n
  · have hbase : 0 < A.base := by
      rw [hR.head] at h0
      omega
    simp only [heapMaxSize] at hn
    have e : u32 (n + 7) = n + 7 := u32_of_lt (by omega)
    rw [Heap.kmalloc, if_neg h0, e]
    exact hR.serves_allocBlock hs hbase (Nat.dvd_mul_left _ _) (by omega)
      (by simp only [heapMaxSize]; omega) (by omega)

/-- **`kzalloc`** does to the block list what `kmalloc` does. -/
lemma Rep.kzalloc (hR : Rep A h bs) (hs : Settled bs) {n : ℕ} (hn : n ≤ heapMaxSize) :
    Serves A h bs n (kzalloc h n) := by
  obtain ⟨bs', hR', hs', ha, hk⟩ := hR.kmalloc hs hn
  rw [Heap.kzalloc]
  generalize Heap.kmalloc h n = r at *
  by_cases hp : r.2 ≠ 0
  · simp only [if_pos hp]
    obtain ⟨hz, -⟩ | ⟨b, hptr, hsize, hperm⟩ := id ha
    · exact absurd hz hp
    · have hout : ∀ x, x < b.payload ∨ b.stop ≤ x → fill r.1.mem r.2 0 n x = r.1.mem x := by
        intro x hx
        refine fill_apply_of_outside _ _ ?_
        simp only [Block.stop, Block.payload] at hx hptr
        omega
      have hb : b ∈ bs' := (mem_usedBlocks.1 (hperm.mem_iff.2 mem_cons_self)).1
      exact ⟨bs', hR'.set_payload hb hout, hs', ha, hk.set_payload hR' hperm hout⟩
  · simp only [if_neg hp]
    exact ⟨bs', hR', hs', ha, hk⟩

/-! ## `kfree` -/

/-- `kfree` of a pointer into a used payload for which it finds the block releases the block. -/
lemma Rep.kfree_of_block (hR : Rep A h bs) (hbase : 0 < A.base) {b : Block} (hb : b ∈ bs)
    (hu : b.free = false) {p : ℕ} (hlow : b.payload ≤ p) (hlt : p < b.stop)
    (hblock : blockOfPtr h p = b.addr) : Heap.kfree h p = Heap.releaseBlock h b.addr := by
  obtain ⟨-, e2, -, e4⟩ := hR.header_of_mem hb
  obtain ⟨h1, h2, -, -⟩ := hR.tiles.mem hb
  have htop := hR.top_lt
  simp only [Block.payload, headerSize] at hlow
  have c1 : ¬ (p = 0 ∨ h.heapHead = 0) := by
    rw [hR.head]
    omega
  have c2 : ¬ (p < u32 (h.heapBaseAddr + headerSize) ∨
      p ≥ u32 (h.heapBaseAddr + h.heapCurSize)) := by
    simp only [headerSize]
    rw [hR.baseAddr, u32_of_lt, u32_of_lt] <;> omega
  have c3 : ¬ (magic h.mem b.addr ≠ heapBlockMagic ∨ isFree h.mem b.addr ≠ 0) := by
    rw [e2, e4, hu]
    simp
  rw [Heap.kfree, if_neg c1, if_neg c2]
  simp only [hblock]
  rw [if_neg c3]

/-- `kfree` of a used payload releases its block. -/
lemma Rep.kfree_eq (hR : Rep A h bs) (hbase : 0 < A.base) {b : Block} (hb : b ∈ bs)
    (hu : b.free = false) : Heap.kfree h b.payload = Heap.releaseBlock h b.addr := by
  obtain ⟨e1, e2, -, -⟩ := hR.header_of_mem hb
  have hpos := (hR.tiles.mem hb).2.2.2
  refine hR.kfree_of_block hbase hb hu le_rfl ?_ ?_
  · simp only [Block.stop, Block.payload]
    omega
  · simp only [blockOfPtr, e1, e2, ne_eq, not_true_eq_false, if_false]

/-- **The release of a used block** takes it from the used blocks and keeps the payloads of the
others. -/
lemma Rep.release (hR : Rep A h bs) (hs : Settled bs) (hbase : 0 < A.base) {b : Block}
    (hb : b ∈ bs) (hu : b.free = false) :
    ∃ bs', Rep A (Heap.releaseBlock h b.addr) bs' ∧ Settled bs' ∧
      (usedBlocks bs).Perm (b :: usedBlocks bs') ∧
      ∀ c ∈ usedBlocks bs, c ≠ b → ∀ x, c.payload ≤ x → x < c.stop →
        (Heap.releaseBlock h b.addr).mem x = h.mem x := by
  obtain ⟨xs, ys, rfl⟩ := append_of_mem hb
  obtain ⟨bs', h1, h2, h3, hk⟩ := hR.releaseBlock hbase hu hs
  rw [usedBlocks_append, usedBlocks_cons_of_used hu]
  refine ⟨bs', h1, h2, by rw [h3]; exact perm_middle, fun c hc hne => hk c ?_⟩
  rw [usedBlocks_append, usedBlocks_cons_of_free rfl, mem_append]
  rw [mem_append, mem_cons] at hc
  tauto

end Ops

end BengalTiger.Heap
