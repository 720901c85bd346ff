import BengalTiger.Heap.Grant

set_option autoImplicit false

/-!
# Aligned allocations

`kmalloc_aligned` asks `kmalloc` for more than it needs, returns an aligned address inside the
payload and leaves two words below it, a magic number and the address of the payload. `kfree` and
`krealloc` tell the two kinds of pointers apart by the word 24 bytes below: a pointer that comes
from `kmalloc` has the magic number of a header there. Below an aligned pointer lies the header of
the block or the beginning of its payload, with whatever it held before.

## Main definitions

* `Heap.Slotted` — the words below an aligned pointer are as `kfree` expects them.
* `Heap.State.target` — the address that `kmalloc_aligned` returns.
* `Heap.State.Stale` — the word 24 bytes below it is the magic number of a header.

## Main results

* `Heap.Rep.kfree_slotted` — `kfree` of an aligned pointer releases its block.
* `Heap.Rep.kmallocAligned` — what `kmalloc_aligned` does to the block list.
* `Heap.Rep.magic_kmalloc` — the word 24 bytes below the aligned address.
-/

namespace BengalTiger.Heap

open ByteMem

/-! ## Alignments -/

/-- The alignment that `kmalloc_aligned` works with. -/
def alignmentOf (a : ℕ) : ℕ := if a < 8 then 8 else a

/-- `IS_POWER_OF_2`. -/
def IsPowerOf2 (a : ℕ) : Prop := a ≠ 0 ∧ a &&& (a - 1) = 0

/-- A number that shares its upper bits with its predecessor is no power of two. -/
lemma IsPowerOf2.not_shared {a : ℕ} (h : IsPowerOf2 a) (k : ℕ) (hne : a / 2 ^ k ≠ 0) :
    (a - 1) / 2 ^ k ≠ a / 2 ^ k := by
  intro heq
  have hshift : (a &&& (a - 1)) >>> k = a >>> k &&& (a - 1) >>> k := Nat.shiftRight_and_distrib
  rw [h.2, Nat.zero_shiftRight, Nat.shiftRight_eq_div_pow, Nat.shiftRight_eq_div_pow, heq,
    Nat.and_self] at hshift
  exact hne hshift.symm

lemma IsPowerOf2.dvd {a : ℕ} (h : IsPowerOf2 a) (h8 : 8 ≤ a) : 8 ∣ a := by
  have := h.not_shared 3 (by omega)
  omega

/-- A power of two that is a 32-bit number. -/
lemma IsPowerOf2.le {a : ℕ} (h : IsPowerOf2 a) (hlt : a < 4294967296) : a ≤ 2147483648 := by
  by_contra hgt
  have := h.not_shared 31 (by omega)
  omega

lemma alignmentOf_ge (a : ℕ) : 8 ≤ alignmentOf a := by
  unfold alignmentOf
  split_ifs <;> omega

/-- The aligned address for a payload at `raw`. -/
def alignedAddr (raw a : ℕ) : ℕ := u32 (u32 (raw + 8) + a - 1) / a * a

/-- The aligned address leaves room for the marks. -/
lemma alignedAddr_spec (raw a : ℕ) (ha : 0 < a) (h : raw + 8 + a ≤ 4294967296) :
    raw + 8 ≤ alignedAddr raw a ∧ alignedAddr raw a < raw + 8 + a ∧ a ∣ alignedAddr raw a := by
  have e : alignedAddr raw a = (raw + 8 + a - 1) / a * a := by
    rw [alignedAddr, u32_of_lt (by omega : raw + 8 < 4294967296), u32_of_lt (by omega)]
  have hdiv := Nat.div_add_mod (raw + 8 + a - 1) a
  have hmod := Nat.mod_lt (raw + 8 + a - 1) ha
  rw [Nat.mul_comm] at hdiv
  rw [e]
  exact ⟨by omega, by omega, Nat.dvd_mul_left _ _⟩

/-- The memory after the two words below an aligned address were written. -/
def slotMem (m : Mem) (p raw : ℕ) : Mem :=
  store32 (store32 m (sub32 p 4) heapAlignedMagic) (sub32 p 8) raw

section Aligned

variable {A : Arena} {h : State} {bs : List Block} {b c : Block} {m : Mem} {n a p x : ℕ}

lemma kmallocAligned_of_not (hpow : ¬ IsPowerOf2 (alignmentOf a)) :
    kmallocAligned h n a = (h, 0) := if_pos hpow

lemma kmallocAligned_of_null (h0 : (kmalloc h (u32 (n + alignmentOf a + 8))).2 = 0)
    (hpow : IsPowerOf2 (alignmentOf a)) :
    kmallocAligned h n a = ((kmalloc h (u32 (n + alignmentOf a + 8))).1, 0) :=
  (if_neg (fun hn => hn hpow)).trans (if_pos h0)

lemma kmallocAligned_of_ne (h0 : (kmalloc h (u32 (n + alignmentOf a + 8))).2 ≠ 0)
    (hpow : IsPowerOf2 (alignmentOf a)) :
    kmallocAligned h n a =
      ({ (kmalloc h (u32 (n + alignmentOf a + 8))).1 with
          mem := slotMem (kmalloc h (u32 (n + alignmentOf a + 8))).1.mem
            (alignedAddr (kmalloc h (u32 (n + alignmentOf a + 8))).2 (alignmentOf a))
            (kmalloc h (u32 (n + alignmentOf a + 8))).2 },
        alignedAddr (kmalloc h (u32 (n + alignmentOf a + 8))).2 (alignmentOf a)) :=
  (if_neg (fun hn => hn hpow)).trans (if_neg h0)

/-! ## The words below an aligned pointer -/

/-- The words below the aligned pointer `p` into the payload of `b` are as `kfree` expects them:
the two that `kmalloc_aligned` leaves, and no magic number 24 bytes below if that is inside the
payload. -/
structure Slotted (m : Mem) (b : Block) (p : ℕ) : Prop where
  low : b.payload + 8 ≤ p
  lt : p < b.stop
  dvd : 8 ∣ p
  tag : load32 m (p - 4) = heapAlignedMagic
  raw : load32 m (p - 8) = b.payload
  clean : b.payload + 24 ≤ p → magic m (p - 24) ≠ heapBlockMagic

/-- Only the payload below the pointer matters. -/
lemma Slotted.congr {m' : Mem} (hs : Slotted m b p)
    (hm : ∀ x, b.payload ≤ x → x < p → m' x = m x) : Slotted m' b p := by
  have hlow := hs.low
  have hlt := hs.lt
  refine ⟨hlow, hlt, hs.dvd, ?_, ?_, fun hp => ?_⟩
  · rw [← hs.tag]
    exact load32_congr fun i hi => hm _ (by omega) (by omega)
  · rw [← hs.raw]
    exact load32_congr fun i hi => hm _ (by omega) (by omega)
  · have heq : magic m' (p - 24) = magic m (p - 24) :=
      load32_congr fun i hi => hm _ (by omega) (by omega)
    rw [heq]
    exact hs.clean hp

/-- A word whose first byte is not that of the magic number. -/
lemma load32_ne_magic (hx : m x ≠ 0xEF) : load32 m x ≠ heapBlockMagic := by
  intro heq
  apply hx
  unfold load32 heapBlockMagic at heq
  apply UInt8.toNat_inj.mp
  rw [show (0xEF : UInt8).toNat = 239 from rfl]
  have := (m x).toNat_lt
  omega

/-- The word 24 bytes below an aligned pointer that lies in the header is no magic number.

**Proof sketch.** It is the word with the mark of a used block, or the link to the previous block,
which is a multiple of 8. -/
lemma Rep.magic_in_header (hR : Rep A h bs) (hb : b ∈ bs) (hused : b.free = false)
    (hp : p = b.payload + 8 ∨ p = b.payload + 16) : magic h.mem (p - 24) ≠ heapBlockMagic := by
  have hdvd : ∀ c ∈ bs, 8 ∣ c.addr := fun c hc => hR.tiles.dvd_addr A.base_dvd hc
  obtain ⟨xs, ys, rfl⟩ := List.append_of_mem hb
  have hA := hR.at
  simp only [Block.payload, headerSize] at hp
  obtain rfl | rfl := hp
  · rw [show b.addr + 24 + 8 - 24 = b.addr + 8 by omega]
    apply load32_ne_magic
    have hfree : isFree h.mem b.addr = 0 := by
      by_contra hne
      rw [← ne_eq, hA.isFree_ne_zero, hused] at hne
      cases hne
    rw [show h.mem (b.addr + 8) = isFree h.mem b.addr from rfl, hfree]
    decide
  · rw [show b.addr + 24 + 16 - 24 = b.addr + 16 by omega]
    show prev h.mem b.addr ≠ heapBlockMagic
    rw [hA.prev_eq]
    have hlast : 8 ∣ lastAddr 0 xs := by
      rcases List.eq_nil_or_concat xs with rfl | ⟨xs', a, rfl⟩
      · exact Nat.dvd_zero 8
      · rw [List.concat_eq_append] at *
        rw [lastAddr_append]
        exact hdvd a (by simp)
    unfold heapBlockMagic
    omega

/-- **`kfree` finds the block of an aligned pointer.** -/
lemma Rep.blockOfPtr_slotted (hR : Rep A h bs) (hb : b ∈ bs) (hused : b.free = false)
    (hs : Slotted h.mem b p) : blockOfPtr h p = b.addr ∧ magic h.mem (p - 24) ≠ heapBlockMagic := by
  obtain ⟨hlow, hlt, hdvd, htag, hraw, hclean⟩ := hs
  obtain ⟨h1, h2, h3, -⟩ := hR.tiles.mem hb
  have h4 := hR.tiles.dvd_addr A.base_dvd hb
  have htop := hR.top_lt
  have hmagic : magic h.mem (p - 24) ≠ heapBlockMagic := by
    by_cases hfar : b.payload + 24 ≤ p
    · exact hclean hfar
    · refine hR.magic_in_header hb hused ?_
      simp only [Block.payload, headerSize] at *
      omega
  have e1 := (hR.header_of_mem hb).1
  simp only [Block.stop, Block.payload, headerSize] at *
  refine ⟨?_, hmagic⟩
  have hbelow : sub32 p 24 = p - 24 := sub32_of_le (by omega) (by omega)
  have hbase : u32 (h.heapBaseAddr + 24 + 8) = A.base + 32 := by
    rw [hR.baseAddr, u32_of_lt (by omega)]
  have hbase' : u32 (h.heapBaseAddr + 24) = A.base + 24 := by
    rw [hR.baseAddr, u32_of_lt (by omega)]
  have htop' : u32 (h.heapBaseAddr + h.heapCurSize) = A.base + h.heapCurSize := by
    rw [hR.baseAddr, u32_of_lt htop]
  simp only [blockOfPtr, headerSize, hbelow, sub32_of_le (by omega : 4 ≤ p) (by omega),
    sub32_of_le (by omega : 8 ≤ p) (by omega), htag, hraw, hbase, hbase', htop']
  rw [if_pos hmagic, if_pos ⟨by omega, trivial⟩, if_pos ⟨by omega, by omega⟩, e1]

/-- **`kfree` of an aligned pointer** releases its block. -/
lemma Rep.kfree_slotted (hR : Rep A h bs) (hbase : 0 < A.base) (hb : b ∈ bs)
    (hused : b.free = false) (hs : Slotted h.mem b p) :
    Heap.kfree h p = Heap.releaseBlock h b.addr :=
  hR.kfree_of_block hbase hb hused ((Nat.le_add_right _ _).trans hs.low) hs.lt
    (hR.blockOfPtr_slotted hb hused hs).1

/-! ## `kmalloc_aligned` -/

/-- Where `kmalloc_aligned` puts an aligned pointer `p` of `n` bytes in the payload of `b`, with the
memory before and after it writes the words below. -/
structure Placed (m m' : Mem) (b : Block) (p n a : ℕ) : Prop where
  room : n + a + 8 ≤ b.size
  low : b.payload + 8 ≤ p
  fits : p + n < b.stop
  dvd : a ∣ p
  dvd8 : 8 ∣ p
  tag : load32 m' (p - 4) = heapAlignedMagic
  raw : load32 m' (p - 8) = b.payload
  below : ∀ x, x + 8 < p → m' x = m x

/-- The pointer is as `kfree` expects it unless there is a magic number 24 bytes below. -/
lemma Placed.slotted {m' : Mem} (hp : Placed m m' b p n a)
    (hclean : b.payload + 24 ≤ p → magic m (p - 24) ≠ heapBlockMagic) : Slotted m' b p := by
  have hfits := hp.fits
  refine ⟨hp.low, by omega, hp.dvd8, hp.tag, hp.raw, fun hlow => ?_⟩
  have heq : magic m' (p - 24) = magic m (p - 24) :=
    load32_congr fun i hi => hp.below _ (by omega)
  rw [heq]
  exact hclean hlow

/-- The aligned address in a block that is large enough. -/
lemma Rep.placed (hR : Rep A h bs) (hb : b ∈ bs) (hpow : IsPowerOf2 (alignmentOf a))
    (hn : n + alignmentOf a + 8 ≤ b.size) :
    Placed h.mem (slotMem h.mem (alignedAddr b.payload (alignmentOf a)) b.payload) b
      (alignedAddr b.payload (alignmentOf a)) n (alignmentOf a) := by
  have htop := hR.top_lt
  have hstop := (hR.tiles.mem hb).2.1
  have h8 := alignmentOf_ge a
  simp only [Block.stop, headerSize] at hstop
  have hpay : b.payload = b.addr + 24 := rfl
  obtain ⟨h1, h2, h3⟩ := alignedAddr_spec b.payload (alignmentOf a) (by omega)
    (by omega)
  obtain ⟨p, hp⟩ : ∃ p, p = alignedAddr b.payload (alignmentOf a) := ⟨_, rfl⟩
  rw [← hp] at h1 h2 h3 ⊢
  have e4 : sub32 p 4 = p - 4 := sub32_of_le (by omega) (by omega)
  have e8 : sub32 p 8 = p - 8 := sub32_of_le (by omega) (by omega)
  have htag : heapAlignedMagic < 4294967296 := by decide
  refine ⟨hn, h1, ?_, h3, (hpow.dvd h8).trans h3, ?_, ?_, fun x hx => ?_⟩
  · simp only [Block.stop, headerSize]
    omega
  · rw [slotMem, e4, e8, load32_store32_of_disjoint _ _ (by omega), load32_store32_of_lt _ _ htag]
  · rw [slotMem, e8, load32_store32_of_lt _ _ (by omega)]
  · rw [slotMem, e4, e8, store32_apply_of_outside _ _ (by omega),
      store32_apply_of_outside _ _ (by omega)]

/-- **`kmalloc_aligned`** of at most 16 MB in all fails without a change, or hands out a new used
block and places the pointer in it. -/
lemma Rep.kmallocAligned (hR : Rep A h bs) (hs : Settled bs) (hpow : IsPowerOf2 (alignmentOf a))
    (hn : n + alignmentOf a + 8 ≤ heapMaxSize) :
    (Heap.kmalloc h (n + alignmentOf a + 8)).2 = 0 ∧ Heap.kmallocAligned h n a = (h, 0) ∨
      ∃ bs' b, (Heap.kmalloc h (n + alignmentOf a + 8)).2 = b.payload ∧
        Rep A (Heap.kmallocAligned h n a).1 bs' ∧ Settled bs' ∧
        Kept bs h.mem (Heap.kmallocAligned h n a).1.mem ∧
        (usedBlocks bs').Perm (b :: usedBlocks bs) ∧
        (Heap.kmallocAligned h n a).2 = alignedAddr b.payload (alignmentOf a) ∧
        Placed (Heap.kmalloc h (n + alignmentOf a + 8)).1.mem (Heap.kmallocAligned h n a).1.mem b
          (Heap.kmallocAligned h n a).2 n (alignmentOf a) := by
  have hsum : u32 (n + alignmentOf a + 8) = n + alignmentOf a + 8 := by
    simp only [heapMaxSize] at hn
    exact u32_of_lt (by omega)
  have hzero := hR.kmalloc_fst_of_zero hn
  obtain ⟨bs', hR', hs', halloc, hkept⟩ := hR.kmalloc hs hn
  by_cases h0 : (Heap.kmalloc h (n + alignmentOf a + 8)).2 = 0
  · left
    refine ⟨h0, ?_⟩
    rw [← hsum] at h0 hzero
    rw [kmallocAligned_of_null h0 hpow, hzero h0]
  · right
    obtain ⟨hz, -⟩ | ⟨b, hptr, hsize, hperm⟩ := halloc
    · exact absurd hz h0
    · have heq := kmallocAligned_of_ne (h := h) (n := n) (a := a) (by rwa [hsum]) hpow
      rw [hsum, hptr] at heq
      have hb : b ∈ bs' := (mem_usedBlocks.1 (hperm.mem_iff.2 List.mem_cons_self)).1
      have hplaced := hR'.placed hb hpow hsize
      have hlow := hplaced.low
      have hfits := hplaced.fits
      have htop := hR'.top_lt
      have hstop := (hR'.tiles.mem hb).2.1
      -- the marks in front of the pointer are written inside the new payload
      have hstores : ∀ x, x < b.payload ∨ b.stop ≤ x →
          slotMem (Heap.kmalloc h (n + alignmentOf a + 8)).1.mem
            (alignedAddr b.payload (alignmentOf a)) b.payload x =
              (Heap.kmalloc h (n + alignmentOf a + 8)).1.mem x := by
        intro x hx
        rw [slotMem, sub32_of_le (by omega) (by omega), sub32_of_le (by omega) (by omega),
          store32_apply_of_outside _ _ (by omega), store32_apply_of_outside _ _ (by omega)]
      rw [heq]
      exact ⟨bs', b, hptr, hR'.set_payload hb hstores, hs',
        hkept.set_payload hR' hperm hstores, hperm, rfl, hplaced⟩

/-! ## What is left below an aligned address -/

/-- `split_block` does not touch the part of the payload that is handed out. -/
lemma Rep.splitBlock_apply {xs ys : List Block} (hR : Rep A h (xs ++ b :: ys)) (hn : n ≤ b.size)
    (hx : b.payload ≤ x) (hx' : x < b.payload + n) :
    (Heap.splitBlock h b.addr n).mem x = h.mem x := by
  have hA := hR.at
  simp only [Block.payload, headerSize] at hx hx'
  by_cases hsmall : b.size < n + 40
  · rw [hR.splitBlock_of_small hn hsmall]
  · have hq := hA.headAddr_right
    rw [hA.splitBlock_eq hR.top_lt (by omega)]
    exact splitMem_apply _ (by omega) (by omega) (by omega)

/-- The payload that `kmalloc` hands out has the bytes that it had. -/
lemma Rep.takeFound_apply (hR : Rep A h bs) (hbase : 0 < A.base)
    (hx : h.findFree n + headerSize ≤ x) (hx' : x < h.findFree n + headerSize + n) :
    (Heap.takeFound h n).1.mem x = h.mem x := by
  obtain ⟨h0, -⟩ | ⟨xs, b, ys, rfl, -, hsize, haddr, hne⟩ := hR.findFree_cases hbase n
  · rw [Heap.takeFound, if_pos h0]
  · rw [haddr] at hx hx'
    rw [Heap.takeFound, haddr, if_neg hne]
    simp only [headerSize] at hx
    exact (setIsFree_apply _ 0 (.inr hx)).trans (hR.splitBlock_apply hsize hx hx')

/-- The magic numbers behind the last block after `heap_expand` wrote the header of a new one. -/
lemma Rep.magic_appendMem {xs : List Block} {t : Block} {y : ℕ} (hR : Rep A h (xs ++ [t])) (v : ℕ)
    (hv : v < 4294967296) (hy8 : 8 ∣ y) (hy : t.addr + 24 ≤ y) :
    magic (appendMem h.mem (A.base + h.heapCurSize) v t.addr) y = heapBlockMagic ↔
      y = A.base + h.heapCurSize ∨ y ≠ A.base + h.heapCurSize + 8 ∧
        y ≠ A.base + h.heapCurSize + 16 ∧ magic h.mem y = heapBlockMagic := by
  have htop := hR.top_lt
  have hbase8 := A.base_dvd
  have hcur8 := hR.cur_dvd
  have ht8 : 8 ∣ t.addr := hR.tiles.dvd_addr A.base_dvd (by simp)
  obtain ⟨-, -, hn, -⟩ := linked_append.mp (hR.linked_appendMem hv)
  obtain ⟨nb, hnb⟩ : ∃ nb, nb = A.base + h.heapCurSize := ⟨_, rfl⟩
  rw [← hnb] at hn ⊢
  -- of the three words of the new header only the first can be the number
  by_cases hin : nb ≤ y ∧ y < nb + 24
  · obtain rfl | rfl | rfl : y = nb ∨ y = nb + 8 ∨ y = nb + 16 := by omega
    · have hmagic : magic (appendMem h.mem y v t.addr) y = heapBlockMagic := by
        rw [magic_eq_hdr, hn]
        rfl
      simp [hmagic]
    · have hfree : isFree (appendMem h.mem nb v t.addr) nb = 1 := by
        rw [isFree_eq_hdr, hn]
        rfl
      have hne : magic (appendMem h.mem nb v t.addr) (nb + 8) ≠ heapBlockMagic := by
        apply load32_ne_magic
        rw [show appendMem h.mem nb v t.addr (nb + 8) = _ from hfree]
        decide
      simp [hne]
    · have hprev : prev (appendMem h.mem nb v t.addr) nb = t.addr := by
        rw [prev_eq_hdr, hn]
        rfl
      have hne : magic (appendMem h.mem nb v t.addr) (nb + 16) ≠ heapBlockMagic := by
        rw [show magic (appendMem h.mem nb v t.addr) (nb + 16) = _ from hprev, heapBlockMagic]
        omega
      simp [hne]
  · have hsame : magic (appendMem h.mem nb v t.addr) y = magic h.mem y :=
      load32_congr fun i hi => appendMem_apply _ (by omega) (by omega)
    have hne : y ≠ nb ∧ y ≠ nb + 8 ∧ y ≠ nb + 16 := by omega
    simp [hsame, hne]

/-- **The magic numbers in a payload that `kmalloc` hands out.** They are the ones that were there,
and the one that `heap_expand` wrote if the new block was merged into a free last one. -/
lemma Rep.magic_allocBlock {y : ℕ} (hR : Rep A h bs) (hs : Settled bs) (hbase : 0 < A.base)
    (hn8 : 8 ∣ n) (hn : n ≤ heapMaxSize) (hgrants : h.Grants n) (hy8 : 8 ∣ y)
    (hy : h.landing n + headerSize ≤ y) (hy' : y + 8 ≤ h.landing n + headerSize + n) :
    magic (Heap.allocBlock h n).1.mem y = heapBlockMagic ↔
      y = A.base + h.heapCurSize ∨ y ≠ A.base + h.heapCurSize + 8 ∧
        y ≠ A.base + h.heapCurSize + 16 ∧ magic h.mem y = heapBlockMagic := by
  by_cases hfound : h.findFree n = 0
  · cases hg : growSize h n with
    | none =>
      obtain hf | ⟨g, hg', -⟩ := hgrants
      · exact absurd hfound hf
      · rw [hg] at hg'
        cases hg'
    | some g =>
      -- the heap grows, and the payload may reach over its old end
      obtain ⟨hg8, hgn, hgmax⟩ := hR.growSize_spec hn8 hn hg
      have hglt : g < 4294967296 := by
        have := A.top_lt
        omega
      simp only [headerSize] at hy hy' hgn
      obtain ⟨bs', hR', -⟩ := hR.appendChunk hbase hs hg8
        (by simp only [headerSize]; omega) hgmax
      have hsearch := hR.findFree_appendChunk (n := n) hbase hfound hglt
      rw [if_pos (hR.le_tailSize hn8 hn hg)] at hsearch
      rw [allocBlock_of_grown hfound hg]
      have hsame : magic (Heap.takeFound (Heap.appendChunk h g) n).1.mem y =
          magic (Heap.appendChunk h g).mem y :=
        load32_congr fun i hi => hR'.takeFound_apply hbase
          (by rw [hsearch, headerSize]; omega) (by rw [hsearch, headerSize]; omega)
      obtain ⟨xs, t, rfl⟩ := hR.exists_last
      have hstop := hR.at.stop_le
      have hland := hR.landing_eq hfound
      have hbehind : t.addr + 24 ≤ y := by
        rw [hland] at hy
        split_ifs at hy <;> omega
      have hmerge : magic (Heap.appendChunk h g).mem y =
          magic (appendMem h.mem (A.base + h.heapCurSize) (sub32 g headerSize) t.addr) y := by
        rw [(hR.appendChunk_mem hbase hglt rfl).1]
        split_ifs
        · exact load32_congr fun i hi => by
            rw [setNext_apply _ (by omega), setSize_apply _ (by omega)]
        · rfl
      rw [hsame, hmerge]
      exact hR.magic_appendMem _ (u32_lt _) hy8 hbehind
  · have hland : h.landing n = h.findFree n := if_pos hfound
    rw [hland] at hy hy'
    rw [allocBlock_of_found hfound]
    have hsame : magic (Heap.takeFound h n).1.mem y = magic h.mem y :=
      load32_congr fun i hi => hR.takeFound_apply hbase (by omega) (by omega)
    have hinside : y + 8 ≤ A.base + h.heapCurSize := by
      obtain ⟨h0, -⟩ | ⟨xs, b, ys, rfl, -, hsize, haddr, -⟩ := hR.findFree_cases hbase n
      · exact absurd h0 hfound
      · have hstop := hR.at.stop_le
        rw [haddr, headerSize] at hy'
        omega
    have hne : y ≠ A.base + h.heapCurSize ∧ y ≠ A.base + h.heapCurSize + 8 ∧
        y ≠ A.base + h.heapCurSize + 16 := by omega
    simp [hsame, hne]

end Aligned

namespace State

variable (h : State)

/-- The address that `kmalloc_aligned` returns for a request of at most 16 MB in all. -/
def target (n a : ℕ) : ℕ :=
  alignedAddr (h.landing (rounded (n + alignmentOf a + 8)) + headerSize) (alignmentOf a)

/-- The word 24 bytes below that address lies in the payload and is the magic number of a header:
an old one, or the one that `heap_expand` writes at the end of the heap, over what was there. -/
def Stale (n a : ℕ) : Prop :=
  h.landing (rounded (n + alignmentOf a + 8)) + headerSize + 24 ≤ h.target n a ∧
    (h.target n a - 24 = h.heapBaseAddr + h.heapCurSize ∨
      h.target n a - 24 ≠ h.heapBaseAddr + h.heapCurSize + 8 ∧
        h.target n a - 24 ≠ h.heapBaseAddr + h.heapCurSize + 16 ∧
          magic h.mem (h.target n a - 24) = heapBlockMagic)

/-- If `kmalloc_aligned` finds a block, no magic number is left 24 bytes below the address. -/
def Tidy (n a : ℕ) : Prop :=
  h.heapHead ≠ 0 → h.Grants (rounded (n + alignmentOf a + 8)) → ¬ h.Stale n a

end State

/-- **Aligned allocations can be freed**: a pointer that `kmalloc_aligned` returns is aligned and
points to `n` bytes of a used block, `kfree` of it picks that block, and the counters are then what
they were. -/
def RoundTrip (A : Arena) (h : State) (n a : ℕ) : Prop :=
  (kmallocAligned h n a).2 ≠ 0 → a ∣ (kmallocAligned h n a).2 ∧
    ∃ bs b, Rep A (kmallocAligned h n a).1 bs ∧ b ∈ usedBlocks bs ∧
      b.payload ≤ (kmallocAligned h n a).2 ∧ (kmallocAligned h n a).2 + n ≤ b.stop ∧
      blockOfPtr (kmallocAligned h n a).1 (kmallocAligned h n a).2 = b.addr ∧
      (kfree (kmallocAligned h n a).1 (kmallocAligned h n a).2).stats.usedSize =
        h.stats.usedSize ∧
      (kfree (kmallocAligned h n a).1 (kmallocAligned h n a).2).stats.numAllocations =
        h.stats.numAllocations

section RoundTrip

variable {A : Arena} {h : State} {bs : List Block} {b : Block} {n a : ℕ}

lemma IsPowerOf2.alignmentOf (h : IsPowerOf2 a) :
    IsPowerOf2 (alignmentOf a) ∧ a ∣ alignmentOf a := by
  unfold Heap.alignmentOf
  split_ifs with hlt
  · obtain ⟨h0, h1⟩ := h
    refine ⟨⟨by decide, by decide⟩, ?_⟩
    obtain rfl | rfl | rfl | rfl | rfl | rfl | rfl : a = 1 ∨ a = 2 ∨ a = 3 ∨ a = 4 ∨ a = 5 ∨
      a = 6 ∨ a = 7 := by omega
    all_goals revert h1; decide
  · exact ⟨h, dvd_rfl⟩

/-- A state represents one list only. -/
lemma Rep.unique {bs' : List Block} (hR : Rep A h bs) (hR' : Rep A h bs') : bs = bs' := by
  -- both lists are read off the same headers up to the same end
  have hlist : ∀ (lo p : ℕ) (bs bs' : List Block), Linked h.mem 0 p bs → Linked h.mem 0 p bs' →
      Tiles (A.base + h.heapCurSize) lo bs → Tiles (A.base + h.heapCurSize) lo bs' →
      bs = bs' := by
    intro lo p bs
    induction bs generalizing lo p with
    | nil =>
      intro bs' _ _ ht ht'
      cases bs' with
      | nil => rfl
      | cons c bs' =>
        have hle := ht'.2.2.2.le
        have haddr := ht'.1
        have hend : lo = A.base + h.heapCurSize := ht
        simp only [Block.stop, headerSize] at hle
        omega
    | cons b bs ih =>
      intro bs' hl hl' ht ht'
      cases bs' with
      | nil =>
        have hle := ht.2.2.2.le
        have haddr := ht.1
        have hend : lo = A.base + h.heapCurSize := ht'
        simp only [Block.stop, headerSize] at hle
        omega
      | cons c bs' =>
        have haddr : b.addr = c.addr := ht.1.trans ht'.1.symm
        have hhdr := hl.1.symm.trans ((congrArg (hdr h.mem) haddr).trans hl'.1)
        have hsize : b.size = c.size := congrArg Header.size hhdr
        have hmark : (if b.free then (1 : UInt8) else 0) = if c.free then 1 else 0 :=
          congrArg Header.isFree hhdr
        have hfree : b.free = c.free := by
          cases hb : b.free <;> cases hc : c.free <;> simp [hb, hc] at hmark ⊢
        have hbc : b = c := Block.ext haddr hsize hfree
        subst hbc
        rw [ih b.stop b.addr bs' hl.2 hl'.2 ht.2.2.2 ht'.2.2.2]
  exact hlist A.base 0 bs bs' hR.linked hR'.linked hR.tiles hR'.tiles

/-- The word 24 bytes below an aligned pointer, after `kmalloc`. -/
lemma Rep.stale_iff (hR : Rep A h bs) (hs : Settled bs)
    (hpow : IsPowerOf2 (Heap.alignmentOf a)) (hn : n + Heap.alignmentOf a + 8 ≤ heapMaxSize)
    (hptr : (Heap.kmalloc h (n + Heap.alignmentOf a + 8)).2 = b.payload)
    (hend : b.payload + (n + Heap.alignmentOf a + 8) ≤ 4294967296) :
    h.heapHead ≠ 0 ∧ h.Grants (State.rounded (n + Heap.alignmentOf a + 8)) ∧
      (h.Stale n a ↔ b.payload + 24 ≤ alignedAddr b.payload (Heap.alignmentOf a) ∧
        magic (Heap.kmalloc h (n + Heap.alignmentOf a + 8)).1.mem
          (alignedAddr b.payload (Heap.alignmentOf a) - 24) = heapBlockMagic) := by
  classical
  obtain ⟨N, hN⟩ : ∃ N, N = n + Heap.alignmentOf a + 8 := ⟨_, rfl⟩
  have h8 := alignmentOf_ge a
  rw [← hN] at hn hptr
  simp only [heapMaxSize] at hn
  have hround : State.rounded N = (N + 7) / 8 * 8 := by
    rw [State.rounded, u32_of_lt (by omega)]
  have hle : State.rounded N ≤ heapMaxSize := rounded_le hn
  have hdvd : 8 ∣ State.rounded N := dvd_rounded N
  have hne : (Heap.kmalloc h N).2 ≠ 0 := by
    rw [hptr]
    simp only [Block.payload, headerSize]
    omega
  have hz : ¬ (N = 0 ∨ h.heapHead = 0) := by
    intro hz
    exact hne (by rw [Heap.kmalloc, if_pos hz])
  have hbase : 0 < A.base := by
    rw [hR.head] at hz
    omega
  have hcall : Heap.kmalloc h N = Heap.allocBlock h (State.rounded N) := if_neg hz
  have hsnd := hR.allocBlock_snd hbase (State.rounded N)
  rw [hcall] at hptr hne
  -- the pointer is not null, so the request was granted
  have hgrants : h.Grants (State.rounded N) := by
    by_contra hno
    rw [if_neg hno] at hsnd
    exact hne hsnd
  have hlt := hR.landing_lt hbase hdvd hle hgrants
  rw [if_pos hgrants, u32_of_lt hlt] at hsnd
  have hland : h.landing (State.rounded N) + headerSize = b.payload := hsnd.symm.trans hptr
  rw [← hN]
  refine ⟨fun h0 => hz (.inr h0), hgrants, ?_⟩
  unfold State.Stale State.target
  rw [← hN, hland, hcall, hR.baseAddr]
  obtain ⟨h1, h2, h3⟩ := alignedAddr_spec b.payload (Heap.alignmentOf a) (by omega)
    (by omega)
  have hp8 : 8 ∣ alignedAddr b.payload (Heap.alignmentOf a) := (hpow.dvd h8).trans h3
  refine and_congr_right fun hlow => ?_
  rw [hR.magic_allocBlock hs hbase hdvd hle hgrants (by omega) (by omega) (by omega)]

/-- **When aligned allocations can be freed.**

**Proof sketch.** Without a magic number 24 bytes below, `kfree` reads the words that
`kmalloc_aligned` left and releases the new block, so the used blocks are those before. With one, it
takes the address 24 bytes below for the header, which is not the block that the pointer is in. -/
lemma Rep.roundTrip_iff (hR : Rep A h bs) (hs : Settled bs) (hpow : IsPowerOf2 a)
    (hn : n + Heap.alignmentOf a + 8 ≤ heapMaxSize) : RoundTrip A h n a ↔ h.Tidy n a := by
  obtain ⟨hpow', hdvd⟩ := hpow.alignmentOf
  obtain ⟨h0, heq⟩ | ⟨bs', b, hptr, hR', hs', -, hperm, hp, hplaced⟩ :=
    hR.kmallocAligned hs hpow' hn
  · have h8 := alignmentOf_ge a
    constructor
    · intro _ hhead hgrants
      exact absurd hgrants (hR.not_grants hn h0 (by omega) hhead)
    · intro _ hne
      rw [heq] at hne
      exact absurd rfl hne
  · have hused : b ∈ usedBlocks bs' := hperm.mem_iff.2 List.mem_cons_self
    obtain ⟨hb, hfree⟩ := mem_usedBlocks.1 hused
    have htop := hR'.top_lt
    have hstop := (hR'.tiles.mem hb).2.1
    have hlow := hplaced.low
    have hfits := hplaced.fits
    have hroom := hplaced.room
    have hend : b.payload + (n + Heap.alignmentOf a + 8) ≤ 4294967296 := by
      simp only [Block.stop, Block.payload] at hstop ⊢
      omega
    obtain ⟨hhead, hgrants, hstale⟩ := hR.stale_iff hs hpow' hn hptr hend
    rw [← hp] at hstale
    have hbase : 0 < A.base := by
      rw [hR.head] at hhead
      omega
    constructor
    · intro hrt _ _ hst
      obtain ⟨hfar, hmagic⟩ := hstale.1 hst
      obtain ⟨-, bs₁, b₁, hR₁, hb₁, -, -, hblock, -⟩ := hrt (by omega)
      rw [hR₁.unique hR'] at hb₁
      have hmagic' : magic (Heap.kmallocAligned h n a).1.mem
          ((Heap.kmallocAligned h n a).2 - 24) = heapBlockMagic := by
        rw [← hmagic]
        exact load32_congr fun i hi => hplaced.below _ (by omega)
      have haddr : (Heap.kmallocAligned h n a).2 - 24 = b₁.addr := by
        rw [← hblock, blockOfPtr, headerSize, sub32_of_le (by omega) (by omega)]
        simp only [hmagic', ne_eq, not_true_eq_false, if_false]
      obtain heq | hapart | hapart := hR'.eq_or_apart hb (mem_usedBlocks.1 hb₁).1
      · rw [heq] at hfar
        simp only [Block.payload, headerSize] at hfar
        omega
      · omega
      · simp only [Block.stop, Block.payload, headerSize] at hapart hfar
        omega
    · intro htidy _
      have hslot : Slotted (Heap.kmallocAligned h n a).1.mem b (Heap.kmallocAligned h n a).2 :=
        hplaced.slotted fun hfar hmagic => htidy hhead hgrants (hstale.2 ⟨hfar, hmagic⟩)
      obtain ⟨hblock, -⟩ := hR'.blockOfPtr_slotted hb hfree hslot
      obtain ⟨bs'', hR'', -, hperm', -⟩ := hR'.release hs' hbase hb hfree
      rw [← hR'.kfree_slotted hbase hb hfree hslot] at hR''
      have hsame : (usedBlocks bs'').Perm (usedBlocks bs) :=
        (hperm'.symm.trans hperm).cons_inv
      refine ⟨hdvd.trans hplaced.dvd, bs', b, hR', hused, by omega, by omega, hblock, ?_, ?_⟩
      · rw [hR''.usedSize_eq, hR.usedSize_eq]
        exact (hsame.map Block.size).sum_eq
      · rw [hR''.numAllocations_eq, hR.numAllocations_eq]
        exact hsame.length_eq

end RoundTrip

end BengalTiger.Heap
