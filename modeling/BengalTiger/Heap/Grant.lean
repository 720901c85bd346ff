import BengalTiger.Heap.Calls

set_option autoImplicit false

/-!
# What `kmalloc` answers

The address that `kmalloc` returns as a function of the state before the call, for every 32-bit
size. A request that is not small makes the sums in `heap_expand` wrap around; the block that it
appends then has a size that does not fit in the arena, but the list stays linked, so the search
after it is still determined.

## Main definitions

* `Heap.State.last`, `Heap.State.tailSize` — the last block, and its size
  after the heap grew.
* `Heap.State.landing` — the block that is taken.
* `Heap.State.Grants`, `Heap.State.Refuses` — when there is one.

## Main results

* `Heap.Rep.appendChunk_mem`, `Heap.Rep.findFree_appendChunk` — the memory
  and the search after the heap grew.
* `Heap.Rep.kmalloc_eq_zero_iff` — when `kmalloc` returns `NULL`.
-/

namespace BengalTiger.Heap

open ByteMem List

namespace State

/-- The bound on the list walks is the same in all states. -/
lemma fuel_eq (h h' : State) : h.fuel = h'.fuel := rfl

variable (h : State)

/-- The last block. -/
def last : ℕ := lastBlock h.mem h.fuel h.heapHead

/-- The size of the free block at the end after the heap grew by `g` bytes: a free last block is
merged with the new one. -/
def tailSize (g : ℕ) : ℕ :=
  if isFree h.mem h.last ≠ 0 then u32 (size h.mem h.last + g) else sub32 g headerSize

/-- The block that `kmalloc` takes for a rounded size: the first that fits, or the one at the end
after the heap grew. -/
def landing (n : ℕ) : ℕ :=
  if h.findFree n ≠ 0 then h.findFree n
  else if isFree h.mem h.last ≠ 0 then h.last else u32 (h.heapBaseAddr + h.heapCurSize)

/-- There is a block for a rounded size, at once or after the heap grew. -/
def Grants (n : ℕ) : Prop :=
  h.findFree n ≠ 0 ∨ ∃ g, growSize h n = some g ∧ n ≤ h.tailSize g

/-- `(size + 7) & ~7`. -/
def rounded (n : ℕ) : ℕ := u32 (n + 7) / 8 * 8

/-- `kmalloc` returns `NULL`: nothing is asked for, there is no heap, there is no block, or the
payload of the block is at the address 0. -/
def Refuses (n : ℕ) : Prop :=
  n = 0 ∨ h.heapHead = 0 ∨ ¬ h.Grants (rounded n) ∨ u32 (h.landing (rounded n) + headerSize) = 0

end State

section Grant

variable {A : Arena} {h : State} {bs xs : List Block} {t : Block} {g n : ℕ}

lemma Rep.last_eq (hR : Rep A h (xs ++ [t])) : h.last = t.addr := by
  have hlast := lastBlock_eq hR.linked hR.tiles (by simp) hR.length_le_fuel
  rw [hR.headAddr_eq, lastAddr_append] at hlast
  rw [State.last, hR.head, hlast]
  rfl

lemma Rep.tailSize_eq (hR : Rep A h (xs ++ [t])) (g : ℕ) :
    h.tailSize g = if t.free = true then u32 (t.size + g) else sub32 g headerSize := by
  have hA := hR.at
  simp only [State.tailSize, hR.last_eq, hA.isFree_ne_zero, hA.size_eq]

lemma growSize_lt (hmax : h.heapMaxLimit < 4294967296) (hg : growSize h n = some g) :
    g < 4294967296 := by
  have hround : alignUp (u32 (n + headerSize)) 0x100000 < 4294967296 :=
    (Nat.div_mul_le_self _ _).trans_lt (u32_lt _)
  unfold growSize at hg
  simp only at hg
  split_ifs at hg <;> cases hg <;> omega

/-- The blocks after the heap grew by `g` bytes. -/
def grownBlocks (xs : List Block) (t : Block) (nb g : ℕ) : List Block :=
  if t.free = true then xs ++ [{ t with size := u32 (t.size + g) }]
  else xs ++ [t, { addr := nb, size := sub32 g headerSize, free := true }]

/-- The memory of `heap_expand` before it calls `coalesce`. -/
lemma Rep.exists_appendChunk_eq (hR : Rep A h (xs ++ [t])) (g : ℕ) :
    ∃ h', Heap.appendChunk h g = Heap.coalesce h' (A.base + h.heapCurSize) ∧
      h'.mem = appendMem h.mem (A.base + h.heapCurSize) (sub32 g headerSize) t.addr ∧
      h'.heapHead = A.base := by
  have htop := hR.top_lt
  have e1 : u32 (h.heapBaseAddr + h.heapCurSize) = A.base + h.heapCurSize := by
    rw [hR.baseAddr]
    exact u32_of_lt htop
  have elast := hR.lastBlock_tailHeader (sub32 g headerSize)
  rw [tailHeader] at elast
  simp only [Heap.appendChunk, e1, elast]
  exact ⟨_, rfl, rfl, hR.head⟩

/-- The memory after `heap_expand`, also when its sums wrap around. The new block has no successor,
so only the second half of `coalesce` can do something, and that sets two fields of the last
block. -/
lemma Rep.appendChunk_mem (hR : Rep A h (xs ++ [t])) (hbase : 0 < A.base) (hg : g < 4294967296)
    {m : Mem} (hm : m = appendMem h.mem (A.base + h.heapCurSize) (sub32 g headerSize) t.addr) :
    (Heap.appendChunk h g).mem =
        (if t.free = true then setNext (setSize m t.addr (u32 (t.size + g))) t.addr 0 else m) ∧
      (Heap.appendChunk h g).heapHead = A.base := by
  obtain ⟨h', heq, hmem, hhead⟩ := hR.exists_appendChunk_eq g
  rw [← hm] at hmem
  have hA := hR.at
  have htop := hR.top_lt
  have hstop := hA.stop_le
  have hge := hA.addr_ge
  have hlink := hR.linked_appendMem (n := sub32 g headerSize) (u32_lt _)
  rw [← hm] at hlink
  obtain ⟨-, ht, hn, -⟩ := linked_append.mp hlink
  rw [← hmem] at ht hn
  have hnext : next h'.mem (A.base + h.heapCurSize) = 0 := by
    rw [next_eq_hdr, hn]
    rfl
  have hprev : prev h'.mem (A.base + h.heapCurSize) = t.addr := by
    rw [prev_eq_hdr, hn]
    rfl
  have hskip : Heap.coalesceNext h' (A.base + h.heapCurSize) = h' := if_neg fun hc => hc.1 hnext
  rw [heq, Heap.coalesce, hskip, Heap.coalescePrev, hprev, ← hmem]
  cases hfree : t.free with
  | false =>
    have hused : isFree h'.mem t.addr = 0 := by
      rw [isFree_eq_hdr, ht]
      simp [Block.header, hfree]
    rw [if_neg fun hc => hc.2 hused, if_neg (by simp)]
    exact ⟨rfl, hhead⟩
  | true =>
    have hused : isFree h'.mem t.addr ≠ 0 := by
      rw [isFree_eq_hdr, ht]
      simp [Block.header, hfree]
    have hsize : size h'.mem t.addr = t.size := by
      rw [size_eq_hdr, ht]
      rfl
    have hsize' : size h'.mem (A.base + h.heapCurSize) = sub32 g headerSize := by
      rw [size_eq_hdr, hn]
      rfl
    have hsum : u32 (t.size + headerSize + sub32 g headerSize) = u32 (t.size + g) := by
      simp only [u32, sub32, headerSize]
      omega
    have hkeep : ∀ m, hdr m (A.base + h.heapCurSize) = hdr h'.mem (A.base + h.heapCurSize) →
        next m (A.base + h.heapCurSize) = 0 ∧ prev m (A.base + h.heapCurSize) = t.addr := by
      intro m hm
      rw [next_eq_hdr, prev_eq_hdr, hm, ← next_eq_hdr, ← prev_eq_hdr]
      exact ⟨hnext, hprev⟩
    obtain ⟨e1, e2⟩ := hkeep (setSize h'.mem t.addr (u32 (t.size + g)))
      (hdr_setSize_of_apart _ (by omega))
    obtain ⟨e3, -⟩ := hkeep (setNext (setSize h'.mem t.addr (u32 (t.size + g))) t.addr 0) (by
      rw [hdr_setNext_of_apart _ (by omega), hdr_setSize_of_apart _ (by omega)])
    rw [if_pos ⟨by omega, hused⟩, if_pos rfl]
    simp only [hsize, hsize', hsum, e1, e2, e3, ne_eq, not_true_eq_false, if_false]
    exact ⟨trivial, hhead⟩

/-- **`heap_expand` keeps the list linked**, also when its sums wrap around: the header of the new
block is written behind all others, with whatever size comes out. -/
lemma Rep.linked_appendChunk (hR : Rep A h (xs ++ [t])) (hbase : 0 < A.base)
    (hg : g < 4294967296) :
    Linked (Heap.appendChunk h g).mem 0 0 (grownBlocks xs t (A.base + h.heapCurSize) g) := by
  have hA := hR.at
  have hlink := hR.linked_appendMem (n := sub32 g headerSize) (u32_lt _)
  rw [(hR.appendChunk_mem hbase hg rfl).1, grownBlocks]
  cases hfree : t.free with
  | false =>
    rw [if_neg (by simp), if_neg (by simp)]
    exact hlink
  | true =>
    obtain ⟨hleft, ht, -⟩ := linked_append.mp hlink
    rw [if_pos rfl, if_pos rfl]
    refine linked_append.mpr ⟨hleft.frame fun c hc => ?_, ?_, trivial⟩
    · have := hA.before hc
      rw [hdr_setNext_of_apart _ (by omega), hdr_setSize_of_apart _ (by omega)]
    · rw [hdr_setNext _ (by omega), hdr_setSize _ (u32_lt _), ht, Block.header, Block.header, hfree]
      rfl

/-- The blocks before the last one are as they were, and only the last one can fit now. -/
lemma find?_grownBlocks {nb : ℕ} (hnone : (xs ++ [t]).find? (Block.fits n) = none) :
    headAddr 0 ((grownBlocks xs t nb g).find? (Block.fits n)).toList =
      if n ≤ (if t.free = true then u32 (t.size + g) else sub32 g headerSize) then
        if t.free = true then t.addr else nb
      else 0 := by
  rw [find?_append, Option.or_eq_none_iff] at hnone
  have hlast : Block.fits n t = false := by simpa using hnone.2
  unfold grownBlocks
  cases hfree : t.free with
  | true =>
    rw [if_pos rfl, if_pos rfl, if_pos rfl, find?_append, hnone.1, Option.none_or]
    by_cases hn : n ≤ u32 (t.size + g)
    · rw [if_pos hn, find?_cons_of_pos (by simp [Block.fits, hn])]
      rfl
    · rw [if_neg hn, find?_cons_of_neg (by simp [Block.fits, hn])]
      rfl
  | false =>
    simp only [Bool.false_eq_true, if_false]
    rw [find?_append, hnone.1, Option.none_or, find?_cons_of_neg (by simp [hlast])]
    by_cases hn : n ≤ sub32 g headerSize
    · rw [if_pos hn, find?_cons_of_pos (by simp [Block.fits, hn])]
      rfl
    · rw [if_neg hn, find?_cons_of_neg (by simp [Block.fits, hn])]
      rfl

/-- The block at the end, if none fits before the heap grows. -/
lemma Rep.landing_eq (hR : Rep A h (xs ++ [t])) (hfound : h.findFree n = 0) :
    h.landing n = if t.free = true then t.addr else A.base + h.heapCurSize := by
  rw [State.landing, if_neg (by simpa using hfound), hR.last_eq, hR.baseAddr, u32_of_lt hR.top_lt]
  simp only [hR.at.isFree_ne_zero]

variable (hR : Rep A h bs)

include hR

lemma Rep.landing_ne_zero (hbase : 0 < A.base) : h.landing n ≠ 0 := by
  by_cases hfound : h.findFree n = 0
  · obtain ⟨xs, t, rfl⟩ := hR.exists_last
    have hge := hR.at.addr_ge
    rw [hR.landing_eq hfound]
    split_ifs <;> omega
  · rw [State.landing, if_pos hfound]
    exact hfound

/-- **The search after the heap grew.** -/
lemma Rep.findFree_appendChunk (hbase : 0 < A.base) (hfound : h.findFree n = 0)
    (hg : g < 4294967296) :
    (Heap.appendChunk h g).findFree n = if n ≤ h.tailSize g then h.landing n else 0 := by
  obtain ⟨xs, t, rfl⟩ := hR.exists_last
  have hA := hR.at
  have htop := hR.top_lt
  have hlink := hR.linked_appendChunk hbase hg
  have hhead := (hR.appendChunk_mem hbase hg rfl).2
  have hnone : (xs ++ [t]).find? (Block.fits n) = none := by
    obtain ⟨-, hnone⟩ | ⟨_, _, _, -, -, -, haddr, hne⟩ := hR.findFree_cases hbase n
    · exact hnone
    · exact absurd (haddr.symm.trans hfound) hne
  -- the list has grown at its end only, so nothing before the end is found
  have hne : ∀ b ∈ grownBlocks xs t (A.base + h.heapCurSize) g, b.addr ≠ 0 := by
    have hge : ∀ b ∈ xs ++ [t], A.base ≤ b.addr := fun b hb => (hR.tiles.mem hb).1
    have ht := hge t (by simp)
    intro b hb
    unfold grownBlocks at hb
    split_ifs at hb with hfree
    · simp only [mem_append, mem_singleton] at hb
      obtain hb | rfl := hb
      · have := hge b (by simp [hb])
        omega
      · show t.addr ≠ 0
        omega
    · simp only [mem_append, mem_cons, not_mem_nil, or_false] at hb
      obtain hb | rfl | rfl := hb
      · have := hge b (by simp [hb])
        omega
      · omega
      · show A.base + h.heapCurSize ≠ 0
        omega
  have hlen : (grownBlocks xs t (A.base + h.heapCurSize) g).length ≤
      (Heap.appendChunk h g).fuel := by
    have := hR.length_lt_fuel
    rw [State.fuel_eq _ h]
    simp only [length_append, length_singleton] at this
    unfold grownBlocks
    split_ifs <;> simp <;> omega
  have hheads : headAddr 0 (grownBlocks xs t (A.base + h.heapCurSize) g) = A.base := by
    have hxs := hR.headAddr_eq
    unfold grownBlocks
    cases xs with
    | nil => split_ifs <;> exact hxs
    | cons b xs => split_ifs <;> exact hxs
  have hsearch := findFreeBlock_eq (n := n) hlink hne hlen
  rw [hheads, find?_grownBlocks hnone, ← hR.tailSize_eq] at hsearch
  rw [hR.landing_eq hfound, State.findFree, hhead]
  exact hsearch

/-- The part of `kmalloc` after the size was rounded up. -/
lemma Rep.allocBlock_snd (hbase : 0 < A.base) (n : ℕ) [Decidable (h.Grants n)] :
    (Heap.allocBlock h n).2 = if h.Grants n then u32 (h.landing n + headerSize) else 0 := by
  by_cases hfound : h.findFree n = 0
  · cases hg : growSize h n with
    | none =>
      rw [allocBlock_of_full hfound hg, if_neg]
      rintro (hn | ⟨g, hg', -⟩)
      · exact hn hfound
      · rw [hg] at hg'
        cases hg'
    | some g =>
      have hmax : h.heapMaxLimit < 4294967296 := by
        have := A.top_lt
        rw [hR.limit]
        omega
      rw [allocBlock_of_grown hfound hg, Heap.takeFound,
        hR.findFree_appendChunk hbase hfound (growSize_lt hmax hg)]
      by_cases hn : n ≤ h.tailSize g
      · rw [if_pos hn, if_neg (hR.landing_ne_zero hbase), if_pos (.inr ⟨g, hg, hn⟩)]
        rfl
      · rw [if_neg hn, if_pos rfl, if_neg]
        rintro (hn' | ⟨g', hg', hn'⟩)
        · exact hn' hfound
        · rw [hg] at hg'
          cases hg'
          exact hn hn'
  · rw [allocBlock_of_found hfound, Heap.takeFound, if_neg hfound, if_pos (.inl hfound),
      State.landing, if_pos hfound]
    rfl

/-- **When `kmalloc` returns `NULL`.** -/
lemma Rep.kmalloc_eq_zero_iff (n : ℕ) : (Heap.kmalloc h n).2 = 0 ↔ h.Refuses n := by
  classical
  unfold Heap.kmalloc State.Refuses
  by_cases hn : n = 0
  · simp [hn]
  · by_cases hhead : h.heapHead = 0
    · simp [hhead]
    · have hbase : 0 < A.base := by
        rw [hR.head] at hhead
        omega
      rw [if_neg (by simp [hn, hhead]), hR.allocBlock_snd hbase]
      simp only [hn, hhead, false_or, State.rounded]
      by_cases hgrants : h.Grants (u32 (n + 7) / 8 * 8)
      · simp [hgrants]
      · simp [hgrants]

/-! ## Small requests -/

/-- `heap_expand` gives up when the rest up to the limit is too little. -/
lemma Rep.growSize_eq_none_iff (hn : n ≤ heapMaxSize) :
    growSize h n = none ↔ A.maxSize < h.heapCurSize + n + headerSize := by
  have hcur := hR.cur_le_heapMaxSize
  have hle := hR.cur_le
  simp only [heapMaxSize] at hn
  have e : u32 (n + headerSize) = n + 24 := u32_of_lt (by simp only [headerSize]; omega)
  have ea : alignUp (n + 24) 0x100000 = (n + 24 + 1048575) / 1048576 * 1048576 := by
    rw [alignUp, u32_of_lt] <;> omega
  simp only [growSize, hR.limit, e, ea]
  rw [u32_of_lt (by omega)]
  simp only [headerSize]
  split_ifs <;> simp <;> omega

/-- The grown heap has a block for a small request. -/
lemma Rep.le_tailSize (hn8 : 8 ∣ n) (hn : n ≤ heapMaxSize) (hg : growSize h n = some g) :
    n ≤ h.tailSize g := by
  obtain ⟨xs, t, rfl⟩ := hR.exists_last
  have htop := A.top_lt
  have hstop := hR.at.stop_le
  obtain ⟨-, hgn, hgmax⟩ := hR.growSize_spec hn8 hn hg
  simp only [headerSize] at hgn
  rw [hR.tailSize_eq]
  split_ifs
  · rw [u32_of_lt (by omega)]
    omega
  · rw [headerSize, sub32_of_le (by omega) (by omega)]
    omega

/-- When there is a block for a small request. -/
lemma Rep.grants_iff (hn8 : 8 ∣ n) (hn : n ≤ heapMaxSize) :
    h.Grants n ↔ h.findFree n ≠ 0 ∨ h.heapCurSize + n + headerSize ≤ A.maxSize := by
  have hnone := hR.growSize_eq_none_iff hn
  constructor
  · rintro (hfound | ⟨g, hg, -⟩)
    · exact .inl hfound
    · right
      by_contra hlt
      rw [hnone.2 (by omega)] at hg
      cases hg
  · rintro (hfound | hroom)
    · exact .inl hfound
    · right
      cases hg : growSize h n with
      | none =>
        rw [hnone] at hg
        omega
      | some g => exact ⟨g, rfl, hR.le_tailSize hn8 hn hg⟩

/-- The payload of the block for a small request is inside the arena. -/
lemma Rep.landing_lt (hbase : 0 < A.base) (hn8 : 8 ∣ n) (hn : n ≤ heapMaxSize)
    (hgrants : h.Grants n) : h.landing n + headerSize < 4294967296 := by
  have htop := A.top_lt
  have hcur := hR.cur_le
  simp only [headerSize]
  by_cases hfound : h.findFree n = 0
  · have hroom := ((hR.grants_iff hn8 hn).1 hgrants).resolve_left (fun hf => hf hfound)
    simp only [headerSize] at hroom
    obtain ⟨xs, t, rfl⟩ := hR.exists_last
    have hstop := hR.at.stop_le
    rw [hR.landing_eq hfound]
    split_ifs <;> omega
  · obtain ⟨h0, -⟩ | ⟨xs, b, ys, rfl, -, -, haddr, -⟩ := hR.findFree_cases hbase n
    · exact absurd h0 hfound
    · have hstop := hR.at.stop_le
      rw [State.landing, if_pos hfound, haddr]
      omega

omit hR in
lemma dvd_rounded (n : ℕ) : 8 ∣ State.rounded n := Nat.dvd_mul_left _ _

omit hR in
lemma rounded_le (hn : n ≤ heapMaxSize) : State.rounded n ≤ heapMaxSize := by
  simp only [heapMaxSize] at hn ⊢
  rw [State.rounded, u32_of_lt (by omega)]
  omega

/-- There is no block for a small request that is refused. -/
lemma Rep.not_grants (hn : n ≤ heapMaxSize) (h0 : (Heap.kmalloc h n).2 = 0) (hn0 : n ≠ 0)
    (hhead : h.heapHead ≠ 0) : ¬ h.Grants (State.rounded n) := by
  have hbase : 0 < A.base := by
    rw [hR.head] at hhead
    omega
  intro hgrants
  have hlt := hR.landing_lt hbase (dvd_rounded n) (rounded_le hn) hgrants
  obtain h1 | h1 | h1 | h1 := (hR.kmalloc_eq_zero_iff n).1 h0
  · exact hn0 h1
  · exact hhead h1
  · exact h1 hgrants
  · rw [u32_of_lt hlt] at h1
    simp only [headerSize] at h1
    omega

/-- A small request that is refused leaves the heap as it was. -/
lemma Rep.kmalloc_fst_of_zero (hn : n ≤ heapMaxSize) (h0 : (Heap.kmalloc h n).2 = 0) :
    (Heap.kmalloc h n).1 = h := by
  by_cases hz : n = 0 ∨ h.heapHead = 0
  · rw [Heap.kmalloc, if_pos hz]
  · have hno := hR.not_grants hn h0 (fun h1 => hz (.inl h1)) (fun h1 => hz (.inr h1))
    rw [hR.grants_iff (dvd_rounded n) (rounded_le hn)] at hno
    push Not at hno
    rw [Heap.kmalloc, if_neg hz]
    show (Heap.allocBlock h (State.rounded n)).1 = h
    rw [allocBlock_of_full hno.1 ((hR.growSize_eq_none_iff (rounded_le hn)).2 (by omega))]

/-- Up to this request no 32-bit sum of `heap_expand` wraps around. -/
def requestMax : ℕ := 4294967296 - 33554432

/-- No block holds as many bytes as the limit. -/
lemma Rep.findFree_of_large (hbase : 0 < A.base) (hn : A.maxSize ≤ n) : h.findFree n = 0 := by
  obtain ⟨h0, -⟩ | ⟨xs, b, ys, rfl, -, hsize, -⟩ := hR.findFree_cases hbase n
  · exact h0
  · have hstop := hR.at.stop_le
    have hlow := hR.at.addr_ge
    have hcur := hR.cur_le
    omega

/-- A request of more than 16 MB is refused unless a sum wraps around. -/
lemma Rep.kmalloc_of_large (hlt : heapMaxSize < n) (hn : n ≤ requestMax) :
    Heap.kmalloc h n = (h, 0) := by
  by_cases hz : n = 0 ∨ h.heapHead = 0
  · rw [Heap.kmalloc, if_pos hz]
  · have hbase : 0 < A.base := by
      rw [hR.head] at hz
      omega
    have hmax := A.maxSize_le
    have hcur := hR.cur_le
    simp only [heapMaxSize, requestMax] at hlt hn hmax
    have er : State.rounded n = (n + 7) / 8 * 8 := by
      rw [State.rounded, u32_of_lt (by omega)]
    have hlarge : n ≤ State.rounded n ∧ State.rounded n ≤ n + 7 := by omega
    have hnone : growSize h (State.rounded n) = none := by
      have e : u32 (State.rounded n + headerSize) = State.rounded n + 24 :=
        u32_of_lt (by simp only [headerSize]; omega)
      have ea : alignUp (State.rounded n + 24) 0x100000 =
          (State.rounded n + 24 + 1048575) / 1048576 * 1048576 := by
        rw [alignUp, u32_of_lt] <;> omega
      simp only [growSize, hR.limit, e, ea]
      rw [u32_of_lt (by omega), if_pos (by omega)]
      split_ifs
      · rfl
      · rfl
      · omega
    have hfull : h.findFree (State.rounded n) = 0 := hR.findFree_of_large hbase (by omega)
    rw [Heap.kmalloc, if_neg hz]
    exact allocBlock_of_full hfull hnone

/-! ## `krealloc` -/

variable {b : Block}

/-- `krealloc` to more than 16 MB fails unless a sum wraps around. -/
lemma Rep.krealloc_of_large (hb : b ∈ bs) (hlt : heapMaxSize < n) (hn : n ≤ requestMax) :
    Heap.krealloc h b.payload n = (h, 0) := by
  obtain ⟨e1, e2, e3, -⟩ := hR.header_of_mem hb
  have hstop := (hR.tiles.mem hb).2.1
  have hlow := (hR.tiles.mem hb).1
  have hcur : h.heapCurSize ≤ heapMaxSize := hR.cur_le.trans A.maxSize_le
  simp only [Block.stop, headerSize] at hstop
  rw [Heap.krealloc, if_neg b.payload_ne_zero, if_neg (by omega), e1, e2, if_neg (fun hm => hm rfl),
    e3, if_neg (by omega), hR.kmalloc_of_large hlt hn]
  exact if_neg fun hm => hm rfl

/-- **`krealloc`** of a used payload to `n > 0` bytes fails without a change, or returns the pointer
when the block is large enough, or moves the bytes to a new used block and frees the old one; the
other used payloads keep their bytes. -/
lemma Rep.krealloc_cases (hs : Settled bs) (hbase : 0 < A.base) (hb : b ∈ bs)
    (hused : b.free = false) (hn0 : n ≠ 0) (hn : n ≤ heapMaxSize) :
    Heap.krealloc h b.payload n = (h, 0) ∨
      n ≤ b.size ∧ Heap.krealloc h b.payload n = (h, b.payload) ∨
      ∃ bs' c, (Heap.krealloc h b.payload n).2 = c.payload ∧ n ≤ c.size ∧ b.size < n ∧
        c ∉ usedBlocks bs ∧ Rep A (Heap.krealloc h b.payload n).1 bs' ∧ Settled bs' ∧
        (c :: usedBlocks bs).Perm (b :: usedBlocks bs') ∧
        (∀ d ∈ usedBlocks bs, d ≠ b → ∀ x, d.payload ≤ x → x < d.stop →
          (Heap.krealloc h b.payload n).1.mem x = h.mem x) ∧
        ∀ i < b.size, (Heap.krealloc h b.payload n).1.mem (c.payload + i) =
          h.mem (b.payload + i) := by
  obtain ⟨e1, e2, e3, -⟩ := hR.header_of_mem hb
  rw [Heap.krealloc, if_neg b.payload_ne_zero, if_neg hn0, e1, e2, if_neg (fun hm => hm rfl), e3]
  by_cases hsize : b.size ≥ n
  · rw [if_pos hsize]
    exact .inr (.inl ⟨hsize, rfl⟩)
  · rw [if_neg hsize]
    have hzero := hR.kmalloc_fst_of_zero hn
    obtain ⟨bs', hR', hs', ha, hkept⟩ := hR.kmalloc hs hn
    obtain ⟨r, hr⟩ : ∃ r, r = Heap.kmalloc h n := ⟨_, rfl⟩
    rw [← hr] at hzero hkept hR' ha ⊢
    have hmem := mem_usedBlocks.mpr ⟨hb, hused⟩
    obtain ⟨h0, -⟩ | ⟨c, hptr, hc, hperm⟩ := ha
    · left
      rw [Heap.moveBlock, if_neg (fun hm => hm h0)]
      exact Prod.ext (hzero h0) h0
    · right
      right
      -- the new block is made while the old one is in use, so the two are apart
      have hnew : c ∉ usedBlocks bs := hR'.new_notMem hperm
      have hcne : c ≠ b := fun heq => hnew (heq ▸ hmem)
      have hbm : b ∈ usedBlocks bs' := hperm.mem_iff.mpr (mem_cons_of_mem _ hmem)
      have hcm : c ∈ usedBlocks bs' := hperm.mem_iff.mpr mem_cons_self
      have hb' := (mem_usedBlocks.mp hbm).1
      have hc' := (mem_usedBlocks.mp hcm).1
      obtain ⟨f1, -, f3, -⟩ := hR'.header_of_mem hb'
      have hout : ∀ x, x < c.payload ∨ c.stop ≤ x →
          copy r.1.mem c.payload b.payload b.size x = r.1.mem x := fun x hx => by
        refine copy_apply_of_outside _ ?_
        simp only [Block.stop, Block.payload] at hx ⊢
        omega
      have hcopy := hR'.set_payload hc' hout
      have hfree := hcopy.kfree_eq hbase hb' hused
      obtain ⟨bs'', hR'', hs'', hperm', hrest⟩ := hcopy.release hs' hbase hb' hused
      have hkept' : Kept bs h.mem (copy r.1.mem c.payload b.payload b.size) :=
        hkept.set_payload hR' hperm hout
      rw [Heap.moveBlock, hptr, if_pos c.payload_ne_zero, f1, f3]
      simp only [hfree]
      refine ⟨bs'', c, rfl, hc, by omega, hnew, hR'', hs'', hperm.symm.trans hperm', ?_, ?_⟩
      · intro d hd hdne x hx hx'
        have hdm : d ∈ usedBlocks bs' := hperm.mem_iff.mpr (mem_cons_of_mem _ hd)
        exact (hrest d hdm hdne x hx hx').trans (hkept' d hd x hx hx')
      · intro i hi
        have hstop : c.payload + i < c.stop := by
          simp only [Block.stop, Block.payload]
          omega
        rw [hrest c hcm hcne _ (by omega) hstop]
        show copy r.1.mem c.payload b.payload b.size (c.payload + i) = _
        rw [copy, if_pos (by omega), Nat.add_sub_cancel_left]
        refine hkept b hmem _ (by omega) ?_
        simp only [Block.stop, Block.payload]
        omega

end Grant

end BengalTiger.Heap
