import BengalTiger.Heap.Model
import Mathlib.Data.List.Chain
import Mathlib.Algebra.BigOperators.Group.List.Basic

set_option autoImplicit false

/-!
# Block lists in memory

The abstract heap is a list of blocks in address order. `Linked` says that a memory holds the
headers of such a list with the links between them, `Tiles` that the blocks fill an interval
without a gap. Both split at an append, so that an operation at one block is proved with the
blocks before it and the blocks after it as two frames.

## Main definitions

* `Heap.Header`, `Heap.hdr` — a header as one value.
* `Heap.Block`, `Heap.Linked`, `Heap.Tiles`.

## Main results

* `Heap.linked_append`, `Heap.tiles_append` — splitting a list.
* `Heap.Linked.frame` — a list whose headers are untouched stays linked.
* `Heap.Linked.relink` — a new predecessor of the first block.
* `Heap.findFreeBlock_eq`, `Heap.lastBlock_eq` — the two list walks.
-/

namespace BengalTiger.Heap

open ByteMem List

/-! ## Headers -/

/-- The content of a `heap_block_t`. -/
@[ext]
structure Header where
  magic : ℕ
  size : ℕ
  isFree : UInt8
  next : ℕ
  prev : ℕ

/-- The header at address `a`. -/
def hdr (m : Mem) (a : ℕ) : Header :=
  { magic := magic m a, size := size m a, isFree := isFree m a, next := next m a,
    prev := prev m a }

lemma magic_eq_hdr (m : Mem) (a : ℕ) : magic m a = (hdr m a).magic := rfl
lemma size_eq_hdr (m : Mem) (a : ℕ) : size m a = (hdr m a).size := rfl
lemma isFree_eq_hdr (m : Mem) (a : ℕ) : isFree m a = (hdr m a).isFree := rfl
lemma next_eq_hdr (m : Mem) (a : ℕ) : next m a = (hdr m a).next := rfl
lemma prev_eq_hdr (m : Mem) (a : ℕ) : prev m a = (hdr m a).prev := rfl

/-- A header depends on its 24 bytes only. -/
lemma hdr_congr {m m' : Mem} {a : ℕ} (h : ∀ x, a ≤ x → x < a + 24 → m' x = m x) :
    hdr m' a = hdr m a := by
  have hw : ∀ k, k + 4 ≤ 24 → load32 m' (a + k) = load32 m (a + k) := fun k hk =>
    load32_congr fun i hi => h _ (by omega) (by omega)
  have h0 : load32 m' a = load32 m a := hw 0 (by omega)
  unfold hdr magic size isFree next prev
  rw [h0, hw 4 (by omega), hw 12 (by omega), hw 16 (by omega), h (a + 8) (by omega) (by omega)]

section Setters

variable (m : Mem) {a b v : ℕ}

/-- A store inside the header at `a` leaves the bytes outside it. -/
lemma store32_outside {k : ℕ} (hk : k + 4 ≤ 24) (w : ℕ) {x : ℕ} (hx : x < a ∨ a + 24 ≤ x) :
    store32 m (a + k) w x = m x :=
  store32_apply_of_outside m w (by omega)

/-- A store inside the header at `a` leaves a header apart from it. -/
lemma hdr_store32_of_apart {k : ℕ} (hk : k + 4 ≤ 24) (w : ℕ)
    (h : a + 24 ≤ b ∨ b + 24 ≤ a) : hdr (store32 m (a + k) w) b = hdr m b :=
  hdr_congr fun _ _ _ => store32_outside m hk w (by omega)

lemma hdr_setMagic_of_apart (h : a + 24 ≤ b ∨ b + 24 ≤ a) : hdr (setMagic m a v) b = hdr m b :=
  hdr_store32_of_apart m (k := 0) (by omega) v h

lemma hdr_setSize_of_apart (h : a + 24 ≤ b ∨ b + 24 ≤ a) : hdr (setSize m a v) b = hdr m b :=
  hdr_store32_of_apart m (by omega) v h

lemma hdr_setNext_of_apart (h : a + 24 ≤ b ∨ b + 24 ≤ a) : hdr (setNext m a v) b = hdr m b :=
  hdr_store32_of_apart m (by omega) v h

lemma hdr_setPrev_of_apart (h : a + 24 ≤ b ∨ b + 24 ≤ a) : hdr (setPrev m a v) b = hdr m b :=
  hdr_store32_of_apart m (by omega) v h

lemma hdr_setIsFree_of_apart (f : UInt8) (h : a + 24 ≤ b ∨ b + 24 ≤ a) :
    hdr (setIsFree m a f) b = hdr m b :=
  hdr_congr fun _ _ _ => Function.update_of_ne (by omega) _ _

lemma hdr_setMagic (hv : v < 4294967296) :
    hdr (setMagic m a v) a = { hdr m a with magic := v } := by
  simp (disch := omega) only [hdr, setMagic, magic, size, isFree, next, prev,
    load32_store32_of_lt, load32_store32_of_disjoint, store32_apply_of_outside]

lemma hdr_setSize (hv : v < 4294967296) : hdr (setSize m a v) a = { hdr m a with size := v } := by
  simp (disch := omega) only [hdr, setSize, magic, size, isFree, next, prev,
    load32_store32_of_lt, load32_store32_of_disjoint, store32_apply_of_outside]

lemma hdr_setNext (hv : v < 4294967296) : hdr (setNext m a v) a = { hdr m a with next := v } := by
  simp (disch := omega) only [hdr, setNext, magic, size, isFree, next, prev,
    load32_store32_of_lt, load32_store32_of_disjoint, store32_apply_of_outside]

lemma hdr_setPrev (hv : v < 4294967296) : hdr (setPrev m a v) a = { hdr m a with prev := v } := by
  simp (disch := omega) only [hdr, setPrev, magic, size, isFree, next, prev,
    load32_store32_of_lt, load32_store32_of_disjoint, store32_apply_of_outside]

lemma hdr_setIsFree (f : UInt8) : hdr (setIsFree m a f) a = { hdr m a with isFree := f } := by
  have hw : ∀ k, k + 4 ≤ 8 ∨ 9 ≤ k → load32 (setIsFree m a f) (a + k) = load32 m (a + k) :=
    fun k hk => load32_congr fun i hi => Function.update_of_ne (by omega) _ _
  have h0 : load32 (setIsFree m a f) a = load32 m a := hw 0 (by omega)
  have hf : setIsFree m a f (a + 8) = f := Function.update_self _ _ _
  unfold hdr magic size isFree next prev
  rw [h0, hw 4 (by omega), hw 12 (by omega), hw 16 (by omega), hf]

end Setters

/-! ## Blocks -/

/-- A block of the heap: the address of its header, the size of its payload, its state. -/
@[ext]
structure Block where
  addr : ℕ
  size : ℕ
  free : Bool
  deriving DecidableEq, Repr

/-- The header of a block between the blocks at `p` and `q`. -/
def Block.header (b : Block) (p q : ℕ) : Header :=
  { magic := heapBlockMagic, size := b.size, isFree := if b.free then 1 else 0, next := q,
    prev := p }

/-- The address of the payload. -/
def Block.payload (b : Block) : ℕ := b.addr + headerSize

/-- The address after the block. -/
def Block.stop (b : Block) : ℕ := b.addr + headerSize + b.size

lemma Block.payload_ne_zero (b : Block) : b.payload ≠ 0 := by
  simp only [payload, headerSize]
  omega

lemma Block.stop_pos (b : Block) : 0 < b.stop := by
  simp only [Block.stop, headerSize]
  omega

/-- The address of the first block, `q` when there is none. -/
def headAddr (q : ℕ) : List Block → ℕ
  | [] => q
  | b :: _ => b.addr

/-- The address of the last block, `p` when there is none. -/
def lastAddr (p : ℕ) : List Block → ℕ
  | [] => p
  | b :: bs => lastAddr b.addr bs

/-- The memory holds the blocks `bs` as a list segment between the blocks at `p` and `q`. -/
def Linked (m : Mem) (q : ℕ) : ℕ → List Block → Prop
  | _, [] => True
  | p, b :: bs => hdr m b.addr = b.header p (headAddr q bs) ∧ Linked m q b.addr bs

/-- The blocks fill the interval from `lo` to `hi`; every payload is a positive multiple of
8 bytes long. -/
def Tiles (hi : ℕ) : ℕ → List Block → Prop
  | lo, [] => lo = hi
  | lo, b :: bs => b.addr = lo ∧ 8 ∣ b.size ∧ 0 < b.size ∧ Tiles hi b.stop bs

lemma headAddr_cons (q : ℕ) (b : Block) (bs : List Block) : headAddr q (b :: bs) = b.addr := rfl

lemma headAddr_append (q : ℕ) (xs ys : List Block) :
    headAddr q (xs ++ ys) = headAddr (headAddr q ys) xs := by
  cases xs <;> rfl

lemma lastAddr_append (p : ℕ) (xs ys : List Block) :
    lastAddr p (xs ++ ys) = lastAddr (lastAddr p xs) ys := by
  induction xs generalizing p with
  | nil => rfl
  | cons x xs ih => exact ih x.addr

/-- A list segment splits at an append. -/
lemma linked_append {m : Mem} {p q : ℕ} {xs ys : List Block} :
    Linked m q p (xs ++ ys) ↔
      Linked m (headAddr q ys) p xs ∧ Linked m q (lastAddr p xs) ys := by
  induction xs generalizing p with
  | nil => simp [Linked, lastAddr]
  | cons x xs ih =>
    simp only [cons_append, Linked, lastAddr, headAddr_append, ih, and_assoc]

/-- A tiling splits at an append. -/
lemma tiles_append {lo hi : ℕ} {xs ys : List Block} :
    Tiles hi lo (xs ++ ys) ↔ ∃ mid, Tiles mid lo xs ∧ Tiles hi mid ys := by
  induction xs generalizing lo with
  | nil => simp [Tiles]
  | cons x xs ih =>
    simp only [cons_append, Tiles, ih]
    constructor
    · rintro ⟨h1, h2, h3, mid, h4, h5⟩
      exact ⟨mid, ⟨h1, h2, h3, h4⟩, h5⟩
    · rintro ⟨mid, ⟨h1, h2, h3, h4⟩, h5⟩
      exact ⟨h1, h2, h3, mid, h4, h5⟩

/-- A list segment whose headers are untouched stays linked. -/
lemma Linked.frame {m m' : Mem} {p q : ℕ} {bs : List Block} (h : Linked m q p bs)
    (hm : ∀ b ∈ bs, hdr m' b.addr = hdr m b.addr) : Linked m' q p bs := by
  induction bs generalizing p with
  | nil => trivial
  | cons b bs ih =>
    obtain ⟨hb, hbs⟩ := h
    exact ⟨(hm b (by simp)).trans hb, ih hbs fun c hc => hm c (by simp [hc])⟩

/-! ## Tilings -/

section Tiles

variable {lo hi : ℕ} {bs : List Block}

variable (h : Tiles hi lo bs)

include h

/-- Tiles go upwards. -/
lemma Tiles.le : lo ≤ hi := by
  induction bs generalizing lo with
  | nil => exact le_of_eq h
  | cons b bs ih =>
    obtain ⟨h1, -, -, h4⟩ := h
    have := ih h4
    simp only [Block.stop, headerSize] at this
    omega

/-- A block of a tiling lies inside the interval. -/
lemma Tiles.mem {b : Block} (hb : b ∈ bs) :
    lo ≤ b.addr ∧ b.stop ≤ hi ∧ 8 ∣ b.size ∧ 0 < b.size := by
  induction bs generalizing lo with
  | nil => cases hb
  | cons c bs ih =>
    obtain ⟨h1, h2, h3, h4⟩ := h
    cases mem_cons.mp hb with
    | inl he => subst he; exact ⟨h1.ge, h4.le, h2, h3⟩
    | inr he =>
      obtain ⟨h5, h6⟩ := ih h4 he
      refine ⟨?_, h6⟩
      simp only [Block.stop] at h5
      omega

/-- The bytes of a tiling: the payloads and a header for each block. -/
lemma Tiles.length_eq : lo + (bs.map Block.size).sum + headerSize * bs.length = hi := by
  induction bs generalizing lo with
  | nil => simpa [Tiles] using h
  | cons b bs ih =>
    obtain ⟨h1, -, -, h4⟩ := h
    have := ih h4
    simp only [Block.stop, map_cons, sum_cons, length_cons] at this ⊢
    rw [← h1, ← this]
    ring

/-- Addresses of an 8-aligned tiling are 8-aligned. -/
lemma Tiles.dvd_addr (hlo : 8 ∣ lo) {b : Block} (hb : b ∈ bs) : 8 ∣ b.addr := by
  induction bs generalizing lo with
  | nil => cases hb
  | cons c bs ih =>
    obtain ⟨h1, h2, -, h4⟩ := h
    cases mem_cons.mp hb with
    | inl he => subst he; exact h1 ▸ hlo
    | inr he =>
      refine ih h4 ?_ he
      simp only [Block.stop, headerSize]
      omega

/-- The first address of a non-empty tiling is where it starts. -/
lemma Tiles.headAddr (q : ℕ) :
    bs = [] ∧ Heap.headAddr q bs = q ∨ bs ≠ [] ∧ Heap.headAddr q bs = lo := by
  cases bs with
  | nil => exact .inl ⟨rfl, rfl⟩
  | cons b bs => exact .inr ⟨cons_ne_nil _ _, h.1⟩

/-- Blocks of a tiling are in address order. -/
lemma Tiles.pairwise : bs.Pairwise fun b c => b.stop ≤ c.addr := by
  induction bs generalizing lo with
  | nil => exact .nil
  | cons b bs ih =>
    exact .cons (fun c hc => (h.2.2.2.mem hc).1) (ih h.2.2.2)

end Tiles

/-! ## The first block of a segment gets a new predecessor -/

/-- `if (q != NULL) q->prev = p`. -/
def relinkPrev (m : Mem) (q p : ℕ) : Mem := if q ≠ 0 then setPrev m q p else m

lemma relinkPrev_of_ne (m : Mem) {q p : ℕ} (hq : q ≠ 0) : relinkPrev m q p = setPrev m q p :=
  if_pos hq

lemma hdr_relinkPrev_of_apart (m : Mem) {q b p : ℕ} (h : q = 0 ∨ q + 24 ≤ b ∨ b + 24 ≤ q) :
    hdr (relinkPrev m q p) b = hdr m b := by
  unfold relinkPrev
  split_ifs with hq
  · exact hdr_setPrev_of_apart m (by omega)
  · rfl

/-- After its first block got the predecessor `p'`, the segment hangs on `p'`. -/
lemma Linked.relink {m : Mem} {p p' lo hi : ℕ} {ys : List Block} (h : Linked m 0 p ys)
    (ht : Tiles hi lo ys) (hlo : 0 < lo) (hp : p' < 4294967296) :
    Linked (relinkPrev m (headAddr 0 ys) p') 0 p' ys := by
  cases ys with
  | nil => trivial
  | cons y ys =>
    obtain ⟨hy, hys⟩ := h
    obtain ⟨hya, -, -, ht⟩ := ht
    have hne : y.addr ≠ 0 := by omega
    change Linked (relinkPrev m y.addr p') 0 p' (y :: ys)
    rw [relinkPrev_of_ne m hne]
    refine ⟨?_, hys.frame fun c hc => ?_⟩
    · rw [hdr_setPrev m hp, hy]
      rfl
    · have hc' := (ht.mem hc).1
      simp only [Block.stop, headerSize] at hc'
      exact hdr_setPrev_of_apart m (by omega)

/-! ## The list walks -/

/-- The blocks that `find_free_block` accepts. -/
def Block.fits (n : ℕ) (b : Block) : Bool := b.free && decide (n ≤ b.size)

/-- `find_free_block` finds the first block that fits.

**Proof sketch.** Induction on the list: the header of the first block decides the test as
`Block.fits` does, and its link leads to the rest. -/
lemma findFreeBlock_eq {m : Mem} {p n fuel : ℕ} {bs : List Block} (h : Linked m 0 p bs)
    (hne : ∀ b ∈ bs, b.addr ≠ 0) (hf : bs.length ≤ fuel) :
    findFreeBlock m n fuel (headAddr 0 bs) = headAddr 0 (bs.find? (Block.fits n)).toList := by
  induction bs generalizing p fuel with
  | nil => cases fuel <;> simp [findFreeBlock, headAddr]
  | cons b bs ih =>
    obtain ⟨hb, hbs⟩ := h
    cases fuel with
    | zero => simp at hf
    | succ fuel =>
      have hb0 : b.addr ≠ 0 := hne b mem_cons_self
      have ih' := ih hbs (fun c hc => hne c (mem_cons_of_mem _ hc)) (by simpa using hf)
      have hfree : isFree m b.addr ≠ 0 ↔ b.free = true := by
        rw [isFree_eq_hdr, hb]
        cases hbf : b.free <;> simp [Block.header, hbf]
      have hsize : size m b.addr = b.size := by rw [size_eq_hdr, hb]; rfl
      have hnext : next m b.addr = headAddr 0 bs := by rw [next_eq_hdr, hb]; rfl
      simp only [headAddr_cons, findFreeBlock, if_neg hb0, hfree, hsize, hnext, ih']
      by_cases hfit : b.fits n = true
      · have hc : b.free = true ∧ b.size ≥ n := by simpa [Block.fits] using hfit
        rw [if_pos hc, find?_cons_of_pos hfit]
        rfl
      · have hc : ¬ (b.free = true ∧ b.size ≥ n) := by simpa [Block.fits] using hfit
        rw [if_neg hc, find?_cons_of_neg hfit]

/-- The walk of `heap_expand` ends at the last block. -/
lemma lastBlock_eq {m : Mem} {p lo hi fuel : ℕ} {bs : List Block} (h : Linked m 0 p bs)
    (ht : Tiles hi lo bs) (hne : bs ≠ []) (hf : bs.length ≤ fuel) :
    lastBlock m fuel (headAddr 0 bs) = lastAddr p bs := by
  induction bs generalizing p lo fuel with
  | nil => exact absurd rfl hne
  | cons b bs ih =>
    obtain ⟨hb, hbs⟩ := h
    obtain ⟨-, -, -, ht⟩ := ht
    have hn : next m b.addr = headAddr 0 bs := by rw [next_eq_hdr, hb]; rfl
    cases fuel with
    | zero => simp at hf
    | succ fuel =>
      rw [headAddr_cons, lastBlock, hn]
      cases ht.headAddr 0 with
      | inl he =>
        rw [he.2, he.1]
        rfl
      | inr he =>
        have hpos := b.stop_pos
        have hne' : headAddr 0 bs ≠ 0 := by omega
        rw [if_pos hne', ih hbs ht he.1 (by simpa using hf)]
        rfl

end BengalTiger.Heap
