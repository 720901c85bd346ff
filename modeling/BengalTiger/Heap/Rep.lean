import BengalTiger.Heap.Blocks

set_option autoImplicit false

/-!
# Heap states that represent block lists

`Rep A h bs` says that the heap state `h` represents the block list `bs` in the arena `A`: memory,
static variables and counters. The allocator writes headers only. Headers lie outside the used
payloads, and a header that is written inside a block lies in a free one, so no call changes a byte
of a payload that stays in use (`Kept`).

## Main definitions

* `Heap.Arena` — the parameters of `heap_init_at` with their bounds.
* `Heap.Counts`, `Heap.Rep`.
* `Heap.Settled` — no two neighbouring blocks are both free.
* `Heap.usedBlocks` — the used blocks of a list.
* `Heap.Kept` — two memories have the same bytes in the used payloads.

## Main results

* `Heap.Rep.at` — what a represented list says at one of its blocks.
* `Heap.Rep.set_payload` — a store into a payload keeps the representation.
* `Heap.Rep.outside_header`, `Heap.Rep.outside_free` — where used payloads lie.
-/

namespace BengalTiger.Heap

open ByteMem List

/-- The memory given to `heap_init_at`: an 8-aligned base and a limit of at most 16 MB below the
end of the address space. -/
structure Arena where
  base : ℕ
  maxSize : ℕ
  base_dvd : 8 ∣ base
  maxSize_dvd : 8 ∣ maxSize
  maxSize_le : maxSize ≤ heapMaxSize
  top_lt : base + maxSize < 4294967296

/-! ## Counters -/

/-- The bytes that a block adds to `used_size`. -/
def Block.usedBytes (b : Block) : ℕ := if b.free then 0 else b.size

/-- The bytes that a block adds to `free_size`. -/
def Block.freeBytes (b : Block) : ℕ := if b.free then b.size else 0

/-- The block counts as an allocation. -/
def Block.used (b : Block) : Bool := !b.free

/-- The counters of a heap of `cur` bytes with the blocks `bs`. -/
structure Counts (s : HeapStats) (cur : ℕ) (bs : List Block) : Prop where
  total : s.totalSize = cur
  used : s.usedSize = (bs.map Block.usedBytes).sum
  free : s.freeSize = (bs.map Block.freeBytes).sum
  allocations : s.numAllocations = bs.countP Block.used
  blocks : s.numBlocks = bs.length

/-- Used and free bytes are all payload bytes. -/
lemma sum_usedBytes_add_freeBytes (bs : List Block) :
    (bs.map Block.usedBytes).sum + (bs.map Block.freeBytes).sum = (bs.map Block.size).sum := by
  induction bs with
  | nil => rfl
  | cons b bs ih =>
    have hb : b.usedBytes + b.freeBytes = b.size := by
      cases hf : b.free <;> simp [Block.usedBytes, Block.freeBytes, hf]
    simp only [map_cons, sum_cons]
    omega

/-- The counters after a part of the list was replaced: only the part matters. -/
lemma Counts.replace {s s' : HeapStats} {cur cur' : ℕ} {xs ys : List Block}
    (mid mid' : List Block)
    (hc : Counts s cur (xs ++ (mid ++ ys))) (ht : s'.totalSize = cur')
    (hu : s'.usedSize + (mid.map Block.usedBytes).sum =
      s.usedSize + (mid'.map Block.usedBytes).sum)
    (hf : s'.freeSize + (mid.map Block.freeBytes).sum =
      s.freeSize + (mid'.map Block.freeBytes).sum)
    (ha : s'.numAllocations + mid.countP Block.used =
      s.numAllocations + mid'.countP Block.used)
    (hb : s'.numBlocks + mid.length = s.numBlocks + mid'.length) :
    Counts s' cur' (xs ++ (mid' ++ ys)) := by
  obtain ⟨-, c2, c3, c4, c5⟩ := hc
  simp only [map_append, sum_append, countP_append, length_append]
    at c2 c3 c4 c5
  refine ⟨ht, ?_, ?_, ?_, ?_⟩ <;>
    simp only [map_append, sum_append, countP_append, length_append] <;> omega

@[simp] lemma Block.usedBytes_mk_true (a n : ℕ) : (Block.mk a n true).usedBytes = 0 := rfl
@[simp] lemma Block.usedBytes_mk_false (a n : ℕ) : (Block.mk a n false).usedBytes = n := rfl
@[simp] lemma Block.freeBytes_mk_true (a n : ℕ) : (Block.mk a n true).freeBytes = n := rfl
@[simp] lemma Block.freeBytes_mk_false (a n : ℕ) : (Block.mk a n false).freeBytes = 0 := rfl
@[simp] lemma Block.used_mk (a n : ℕ) (f : Bool) : (Block.mk a n f).used = !f := rfl

section Counts

variable {s : HeapStats} {cur : ℕ} {xs ys : List Block} {b : Block}

/-- A free block is part of `free_size`. -/
lemma Counts.size_le_free (hc : Counts s cur (xs ++ b :: ys)) (hb : b.free = true) :
    b.size ≤ s.freeSize := by
  have e : b.freeBytes = b.size := if_pos hb
  rw [hc.free, map_append, sum_append, map_cons, sum_cons, e]
  omega

/-- A used block is part of `used_size` and of `num_allocations`. -/
lemma Counts.size_le_used (hc : Counts s cur (xs ++ b :: ys)) (hb : b.free = false) :
    b.size ≤ s.usedSize ∧ 0 < s.numAllocations := by
  have e : b.usedBytes = b.size := by simp [Block.usedBytes, hb]
  have e' : b.used = true := by simp [Block.used, hb]
  rw [hc.used, hc.allocations, map_append, sum_append, map_cons, sum_cons, e,
    countP_append, countP_cons, if_pos e']
  omega

/-- The counters after a free block was cut in two. -/
lemma Counts.split (hc : Counts s cur (xs ++ b :: ys)) (hb : b.free = true) {n : ℕ}
    (hn : n + headerSize ≤ b.size) (hf : s.freeSize < 4294967296)
    (hs : s.numBlocks + 1 < 4294967296) :
    Counts
      { s with
        numBlocks := u32 (s.numBlocks + 1)
        freeSize := sub32 s.freeSize headerSize } cur
      (xs ++ { b with size := n } ::
        { addr := b.addr + headerSize + n, size := b.size - n - headerSize, free := true } ::
          ys) := by
  have hfree := hc.size_le_free hb
  rw [u32_of_lt hs, sub32_of_le (by omega) hf]
  cases b with
  | mk a sz f =>
    subst hb
    refine Counts.replace [⟨a, sz, true⟩]
      [⟨a, n, true⟩, ⟨a + headerSize + n, sz - n - headerSize, true⟩] hc hc.total
      ?_ ?_ ?_ ?_ <;> simp
    dsimp only at hn hfree
    omega

/-- Two neighbours joined into one block. -/
def Block.join (b c : Block) : Block := { b with size := b.size + headerSize + c.size }

/-- The counters after two free neighbours were joined. -/
lemma Counts.merge {c : Block} (hc : Counts s cur (xs ++ b :: c :: ys)) (hb : b.free = true)
    (hcf : c.free = true) (hf : s.freeSize + headerSize < 4294967296)
    (hs : s.numBlocks < 4294967296) : Counts s.merged cur (xs ++ b.join c :: ys) := by
  have hpos : 0 < s.numBlocks := by
    rw [hc.blocks]
    simp only [length_append, length_cons]
    omega
  rw [HeapStats.merged, u32_of_lt hf, sub32_of_le hpos hs]
  cases b with
  | mk a sz f =>
    cases c with
    | mk a' sz' f' =>
      subst hb hcf
      refine Counts.replace [⟨a, sz, true⟩, ⟨a', sz', true⟩] [⟨a, sz + headerSize + sz', true⟩] hc
        hc.total ?_ ?_ ?_ ?_ <;> simp
      all_goals omega

/-- The counters after a free block was handed out. -/
lemma Counts.take (hc : Counts s cur (xs ++ b :: ys)) (hb : b.free = true)
    (hlt : s.usedSize + b.size < 4294967296) (hf : s.freeSize < 4294967296)
    (ha : s.numAllocations + 1 < 4294967296) :
    Counts
      { s with
        usedSize := u32 (s.usedSize + b.size)
        freeSize := sub32 s.freeSize b.size
        numAllocations := u32 (s.numAllocations + 1) } cur
      (xs ++ { b with free := false } :: ys) := by
  have hfree := hc.size_le_free hb
  rw [u32_of_lt hlt, u32_of_lt ha, sub32_of_le hfree hf]
  cases b with
  | mk a sz f =>
    subst hb
    refine Counts.replace [⟨a, sz, true⟩] [⟨a, sz, false⟩] hc hc.total ?_ ?_ ?_ ?_ <;>
      simp
    exact Nat.sub_add_cancel hfree

/-- The counters after a used block was released. -/
lemma Counts.release (hc : Counts s cur (xs ++ b :: ys)) (hb : b.free = false)
    (hlt : s.freeSize + b.size < 4294967296) (hu : s.usedSize < 4294967296) :
    Counts
      { s with
        usedSize := sub32 s.usedSize b.size
        freeSize := u32 (s.freeSize + b.size)
        numAllocations :=
          if s.numAllocations > 0 then s.numAllocations - 1 else s.numAllocations } cur
      (xs ++ { b with free := true } :: ys) := by
  obtain ⟨hused, hpos⟩ := hc.size_le_used hb
  rw [u32_of_lt hlt, if_pos hpos, sub32_of_le hused hu]
  cases b with
  | mk a sz f =>
    subst hb
    refine Counts.replace [⟨a, sz, false⟩] [⟨a, sz, true⟩] hc hc.total ?_ ?_ ?_ ?_ <;>
      simp
    · exact Nat.sub_add_cancel hused
    · omega

/-- The counters after the heap grew by a free block at its end. -/
lemma Counts.grow {bs : List Block} (hc : Counts s cur bs) (a : ℕ) {g : ℕ}
    (ht : cur + g < 4294967296) (hf : s.freeSize + (g - headerSize) < 4294967296)
    (hs : s.numBlocks + 1 < 4294967296) :
    Counts
      { s with
        totalSize := u32 (s.totalSize + g)
        freeSize := u32 (s.freeSize + (g - headerSize))
        numBlocks := u32 (s.numBlocks + 1) } (cur + g)
      (bs ++ [{ addr := a, size := g - headerSize, free := true }]) := by
  rw [hc.total, u32_of_lt ht, u32_of_lt hf, u32_of_lt hs]
  have hc' : Counts s cur (bs ++ ([] ++ [])) := by simpa using hc
  exact Counts.replace [] [⟨a, g - headerSize, true⟩] hc' rfl (by simp) (by simp) (by simp)
    (by simp)

end Counts

/-! ## Representation -/

/-- The state `h` represents the block list `bs` in the arena `A`. -/
structure Rep (A : Arena) (h : State) (bs : List Block) : Prop where
  linked : Linked h.mem 0 0 bs
  tiles : Tiles (A.base + h.heapCurSize) A.base bs
  head : h.heapHead = A.base
  baseAddr : h.heapBaseAddr = A.base
  limit : h.heapMaxLimit = A.maxSize
  cur_pos : 0 < h.heapCurSize
  cur_dvd : 8 ∣ h.heapCurSize
  cur_le : h.heapCurSize ≤ A.maxSize
  counts : Counts h.stats h.heapCurSize bs

/-- No two neighbouring blocks are both free. -/
def Settled (bs : List Block) : Prop :=
  (bs.map Block.free).IsChain fun x y => x = false ∨ y = false

section Rep

variable {A : Arena} {h : State} {xs ys : List Block} {b : Block}

/-- What a represented list says at one of its blocks: the header, the segments before and
after it, and where they lie. -/
structure At (A : Arena) (h : State) (xs : List Block) (b : Block) (ys : List Block) : Prop where
  left : Linked h.mem b.addr 0 xs
  header : hdr h.mem b.addr = b.header (lastAddr 0 xs) (headAddr 0 ys)
  right : Linked h.mem 0 b.addr ys
  tilesLeft : Tiles b.addr A.base xs
  tilesRight : Tiles (A.base + h.heapCurSize) b.stop ys
  size_dvd : 8 ∣ b.size
  size_pos : 0 < b.size

lemma Rep.at (hR : Rep A h (xs ++ b :: ys)) : At A h xs b ys := by
  obtain ⟨h1, h2, h3⟩ := linked_append.mp hR.linked
  obtain ⟨mid, t1, t2, t3, t4, t5⟩ := tiles_append.mp hR.tiles
  subst t2
  exact ⟨h1, h2, h3, t1, t5, t3, t4⟩

/-- The end of the arena is a 32-bit address. -/
lemma Rep.top_lt {bs : List Block} (hR : Rep A h bs) : A.base + h.heapCurSize < 4294967296 := by
  have h1 := hR.cur_le
  have h2 := A.top_lt
  omega

/-- A payload is at most as long as the arena. -/
lemma Rep.cur_le_heapMaxSize {bs : List Block} (hR : Rep A h bs) :
    h.heapCurSize ≤ 16777216 :=
  hR.cur_le.trans A.maxSize_le

/-- The blocks of a represented list, and one more, fit in the bound of the list walks. -/
lemma Rep.length_lt_fuel {bs : List Block} (hR : Rep A h bs) : bs.length < h.fuel := by
  have h1 := hR.tiles.length_eq
  have h2 := hR.cur_le_heapMaxSize
  simp only [headerSize] at h1
  unfold State.fuel headerSize
  omega

lemma Rep.length_le_fuel {bs : List Block} (hR : Rep A h bs) : bs.length ≤ h.fuel :=
  hR.length_lt_fuel.le

namespace At

variable (hA : At A h xs b ys)
include hA

lemma addr_ge : A.base ≤ b.addr := hA.tilesLeft.le

lemma stop_le : b.addr + 24 + b.size ≤ A.base + h.heapCurSize := hA.tilesRight.le

lemma before {c : Block} (hc : c ∈ xs) : c.addr + 24 ≤ b.addr := by
  have := (hA.tilesLeft.mem hc).2.1
  simp only [Block.stop, headerSize] at this
  omega

lemma after {c : Block} (hc : c ∈ ys) : b.addr + 24 + b.size ≤ c.addr :=
  (hA.tilesRight.mem hc).1

lemma magic_eq : magic h.mem b.addr = heapBlockMagic := by rw [magic_eq_hdr, hA.header]; rfl

lemma size_eq : size h.mem b.addr = b.size := by rw [size_eq_hdr, hA.header]; rfl

lemma next_eq : next h.mem b.addr = headAddr 0 ys := by rw [next_eq_hdr, hA.header]; rfl

lemma prev_eq : prev h.mem b.addr = lastAddr 0 xs := by rw [prev_eq_hdr, hA.header]; rfl

lemma isFree_ne_zero : isFree h.mem b.addr ≠ 0 ↔ b.free = true := by
  rw [isFree_eq_hdr, hA.header]
  cases hbf : b.free <;> simp [Block.header, hbf]

/-- The link to the next block is null or leads past this block. -/
lemma headAddr_right : headAddr 0 ys = 0 ∨ b.addr + 24 + b.size = headAddr 0 ys := by
  cases hA.tilesRight.headAddr 0 with
  | inl h0 => exact .inl h0.2
  | inr h1 => exact .inr h1.2.symm

/-- The link to the next block is a 32-bit address. -/
lemma headAddr_right_le : headAddr 0 ys ≤ A.base + h.heapCurSize := by
  have := hA.tilesRight.le
  simp only [Block.stop, headerSize] at this
  cases hA.headAddr_right <;> omega

end At

/-- The counters are bounded by the size of the heap. -/
lemma Rep.counts_le {bs : List Block} (hR : Rep A h bs) :
    h.stats.usedSize + h.stats.freeSize + headerSize * h.stats.numBlocks = h.heapCurSize ∧
      h.stats.numAllocations ≤ h.stats.numBlocks := by
  have h1 := hR.tiles.length_eq
  have h2 := sum_usedBytes_add_freeBytes bs
  obtain ⟨-, c2, c3, c4, c5⟩ := hR.counts
  rw [c2, c3, c4, c5]
  exact ⟨by omega, countP_le_length⟩

/-- The last block of a represented list. -/
lemma Rep.exists_last {bs : List Block} (hR : Rep A h bs) : ∃ xs t, bs = xs ++ [t] := by
  rcases eq_nil_or_concat bs with rfl | ⟨xs, t, rfl⟩
  · have h1 : A.base = A.base + h.heapCurSize := hR.tiles
    have h2 := hR.cur_pos
    omega
  · exact ⟨xs, t, concat_eq_append⟩

/-- The list starts at the base of the arena. -/
lemma Rep.headAddr_eq {bs : List Block} (hR : Rep A h bs) : headAddr 0 bs = A.base := by
  obtain ⟨xs, t, rfl⟩ := hR.exists_last
  cases hR.tiles.headAddr 0 with
  | inl he => simp at he
  | inr he => exact he.2

end Rep

/-! ## Used blocks -/

section Used

variable {A : Arena} {h : State} {bs : List Block}

/-- The used blocks. -/
def usedBlocks (bs : List Block) : List Block := bs.filter Block.used

lemma mem_usedBlocks {b : Block} : b ∈ usedBlocks bs ↔ b ∈ bs ∧ b.free = false := by
  simp [usedBlocks, Block.used]

lemma usedBlocks_append (xs ys : List Block) :
    usedBlocks (xs ++ ys) = usedBlocks xs ++ usedBlocks ys := filter_append _ _

lemma usedBlocks_cons_of_used {b : Block} (hb : b.free = false) :
    usedBlocks (b :: bs) = b :: usedBlocks bs :=
  filter_cons_of_pos (by rw [Block.used, hb]; rfl)

/-- The bytes counted as used are those of the used blocks. -/
lemma sum_usedBytes (bs : List Block) :
    (bs.map Block.usedBytes).sum = ((usedBlocks bs).map Block.size).sum := by
  induction bs with
  | nil => rfl
  | cons b bs ih =>
    cases hb : b.free <;> simp [usedBlocks, Block.usedBytes, Block.used, hb] at ih ⊢ <;> omega

variable (hR : Rep A h bs)

include hR

lemma Rep.usedSize_eq : h.stats.usedSize = ((usedBlocks bs).map Block.size).sum :=
  hR.counts.used.trans (sum_usedBytes bs)

lemma Rep.numAllocations_eq : h.stats.numAllocations = (usedBlocks bs).length := by
  rw [hR.counts.allocations, countP_eq_length_filter]
  rfl

omit hR in
lemma usedBlocks_cons_of_free {b : Block} (hb : b.free = true) :
    usedBlocks (b :: bs) = usedBlocks bs :=
  filter_cons_of_neg (by rw [Block.used, hb]; exact Bool.false_ne_true)

/-- Two blocks of a represented list are equal or do not overlap. -/
lemma Rep.eq_or_apart {b c : Block} (hb : b ∈ bs) (hc : c ∈ bs) :
    b = c ∨ b.stop ≤ c.addr ∨ c.stop ≤ b.addr := by
  by_cases hne : b = c
  · exact .inl hne
  · right
    have hp : bs.Pairwise fun b c => b.stop ≤ c.addr ∨ c.stop ≤ b.addr :=
      hR.tiles.pairwise.imp .inl
    have : Std.Symm fun b c : Block => b.stop ≤ c.addr ∨ c.stop ≤ b.addr := ⟨fun _ _ => Or.symm⟩
    exact hp.forall hb hc hne

/-- The blocks of a represented list are different. -/
lemma Rep.nodup : bs.Nodup :=
  hR.tiles.pairwise.imp fun {b c} hbc he => by
    subst he
    simp only [Block.stop, headerSize] at hbc
    omega

/-- A change of memory inside the payload of a block keeps the representation. -/
lemma Rep.set_payload {b : Block} (hb : b ∈ bs) {m : Mem}
    (hm : ∀ x, x < b.payload ∨ b.stop ≤ x → m x = h.mem x) : Rep A { h with mem := m } bs := by
  refine ⟨hR.linked.frame fun c hc => hdr_congr fun x hx hx' => hm x ?_, hR.tiles, hR.head,
    hR.baseAddr, hR.limit, hR.cur_pos, hR.cur_dvd, hR.cur_le, hR.counts⟩
  rcases hR.eq_or_apart hb hc with rfl | hbc | hbc
  · exact .inl hx'
  · right
    omega
  · left
    simp only [Block.stop, Block.payload, headerSize] at hbc ⊢
    omega

/-- Used blocks with the same payload are the same. -/
lemma Rep.payload_inj {b c : Block} (hb : b ∈ bs) (hc : c ∈ bs) (hp : c.payload = b.payload) :
    c = b := by
  rcases hR.eq_or_apart hc hb with h1 | h1 | h1
  · exact h1
  all_goals
    simp only [Block.stop, Block.payload, headerSize] at h1 hp
    omega

/-- The block of a used payload, as `kfree` and `krealloc` find it. -/
lemma Rep.header_of_mem {b : Block} (hb : b ∈ bs) :
    sub32 b.payload headerSize = b.addr ∧ magic h.mem b.addr = heapBlockMagic ∧
      size h.mem b.addr = b.size ∧ (isFree h.mem b.addr ≠ 0 ↔ b.free = true) := by
  have h1 := (hR.tiles.mem hb).2.1
  have htop := hR.top_lt
  obtain ⟨xs, ys, rfl⟩ := append_of_mem hb
  have hA := hR.at
  refine ⟨?_, hA.magic_eq, hA.size_eq, hA.isFree_ne_zero⟩
  simp only [Block.stop, Block.payload, headerSize] at h1 ⊢
  rw [sub32_of_le] <;> omega

end Used

/-! ## Used payloads -/

/-- The memories have the same bytes in the payloads of the used blocks. -/
def Kept (bs : List Block) (m m' : Mem) : Prop :=
  ∀ b ∈ usedBlocks bs, ∀ x, b.payload ≤ x → x < b.stop → m' x = m x

lemma Kept.refl (bs : List Block) (m : Mem) : Kept bs m m := fun _ _ _ _ _ => rfl

lemma Kept.trans {bs bs' : List Block} {m m' m'' : Mem} (h : Kept bs m m')
    (hu : ∀ b ∈ usedBlocks bs, b ∈ usedBlocks bs') (h' : Kept bs' m' m'') : Kept bs m m'' := by
  intro b hb x hx hx'
  rw [h' b (hu b hb) x hx hx', h b hb x hx hx']

section Kept

variable {A : Arena} {h : State} {bs ys : List Block} {b c : Block} {x : ℕ}

/-- A used payload lies outside every header. -/
lemma Rep.outside_header (hR : Rep A h bs) (hb : b ∈ usedBlocks bs) (hc : c ∈ bs)
    (hx : b.payload ≤ x) (hx' : x < b.stop) : x < c.addr ∨ c.addr + 24 ≤ x := by
  simp only [Block.payload, Block.stop, headerSize] at hx hx'
  obtain rfl | hbc | hbc := hR.eq_or_apart (mem_usedBlocks.1 hb).1 hc
  · exact .inr hx
  · left
    simp only [Block.stop, headerSize] at hbc
    omega
  · right
    simp only [Block.stop, headerSize] at hbc
    omega

/-- A used payload lies outside every free block. -/
lemma Rep.outside_free (hR : Rep A h bs) (hb : b ∈ usedBlocks bs) (hc : c ∈ bs)
    (hfree : c.free = true) (hx : b.payload ≤ x) (hx' : x < b.stop) :
    x < c.addr ∨ c.stop ≤ x := by
  obtain ⟨hb, hused⟩ := mem_usedBlocks.1 hb
  simp only [Block.payload, Block.stop, headerSize] at hx hx'
  obtain rfl | hbc | hbc := hR.eq_or_apart hb hc
  · rw [hfree] at hused
    cases hused
  · left
    simp only [Block.stop, headerSize] at hbc
    omega
  · right
    omega

/-- A used payload lies below the end of the heap. -/
lemma Rep.lt_top (hR : Rep A h bs) (hb : b ∈ usedBlocks bs) (hx' : x < b.stop) :
    x < A.base + h.heapCurSize := by
  have := (hR.tiles.mem (mem_usedBlocks.1 hb).1).2.1
  omega

/-- A used payload lies outside the header of the first block of a part of the list. -/
lemma Rep.outside_headAddr (hR : Rep A h bs) (hb : b ∈ usedBlocks bs) (hys : ∀ c ∈ ys, c ∈ bs)
    (hx : b.payload ≤ x) (hx' : x < b.stop) :
    headAddr 0 ys = 0 ∨ x < headAddr 0 ys ∨ headAddr 0 ys + 24 ≤ x := by
  cases ys with
  | nil => exact .inl rfl
  | cons c ys => exact .inr (hR.outside_header hb (hys c mem_cons_self) hx hx')

/-- A new used block is none of the old ones. -/
lemma Rep.new_notMem {h' : State} {bs' : List Block} (hR' : Rep A h' bs')
    (hperm : (usedBlocks bs').Perm (b :: usedBlocks bs)) : b ∉ usedBlocks bs :=
  (nodup_cons.mp (hperm.nodup_iff.mp (hR'.nodup.sublist filter_sublist))).1

/-- Stores into a new used block keep the old payloads. -/
lemma Kept.set_payload {h' : State} {bs' : List Block} {m m' : Mem} (hk : Kept bs m h'.mem)
    (hR' : Rep A h' bs') (hperm : (usedBlocks bs').Perm (b :: usedBlocks bs))
    (hm : ∀ x, x < b.payload ∨ b.stop ≤ x → m' x = h'.mem x) : Kept bs m m' := by
  intro c hc x hx hx'
  have hc' : c ∈ bs' := (mem_usedBlocks.1 (hperm.mem_iff.2 (mem_cons_of_mem _ hc))).1
  have hb' : b ∈ bs' := (mem_usedBlocks.1 (hperm.mem_iff.2 mem_cons_self)).1
  rw [← hk c hc x hx hx']
  refine hm x ?_
  obtain rfl | hbc | hbc := hR'.eq_or_apart hb' hc'
  · exact absurd hc (hR'.new_notMem hperm)
  · right
    simp only [Block.payload] at hx
    omega
  · left
    simp only [Block.payload]
    omega

end Kept

end BengalTiger.Heap
