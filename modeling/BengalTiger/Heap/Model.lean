import BengalTiger.Common
import BengalTiger.Lib.ByteMem

set_option autoImplicit false

/-!
# The kernel heap

The first-fit allocator of `kernel/heap.c`. The blocks form a doubly linked list in address
order; a block is a `heap_block_t` header of 24 bytes followed by its payload. Headers live in
the same byte memory as the payloads, so that a store through a wrong pointer would damage
them. Pointers are 32-bit addresses, `0` is `NULL`.

The interrupt flag handling and the call of `pmm_reserve_region` in `heap_expand` do not touch
the heap and are left out.

## Main definitions

* `Heap.State` — the static variables of `heap.c` and the memory.
* `Heap.kmalloc`, `kzalloc`, `kfree`, `krealloc`, `heapInitAt` — the interface.
* `Heap.findFreeBlock`, `splitBlock`, `coalesce`, `heapExpand` — its parts.

## Implementation notes

The two list walks take a bound on the number of blocks, one more than fit in the address space, in
place of the unbounded `while`.
-/

namespace BengalTiger.Heap

open ByteMem

/-- `HEAP_BLOCK_MAGIC`. -/
def heapBlockMagic : ℕ := 0xDEADBEEF

/-- `HEAP_ALIGNED_MAGIC`. -/
def heapAlignedMagic : ℕ := 0xA116AED0

/-- `MIN_BLOCK_SIZE`. -/
def minBlockSize : ℕ := 16

/-- `HEADER_SIZE`: `sizeof(heap_block_t)`, 20 bytes on i386, rounded up to a multiple of 8. -/
def headerSize : ℕ := 24

/-! ## The fields of `heap_block_t` -/

/-- `block->magic`. -/
def magic (m : Mem) (b : ℕ) : ℕ := load32 m b
/-- `block->size`. -/
def size (m : Mem) (b : ℕ) : ℕ := load32 m (b + 4)
/-- `block->is_free`. -/
def isFree (m : Mem) (b : ℕ) : UInt8 := m (b + 8)
/-- `block->next`. -/
def next (m : Mem) (b : ℕ) : ℕ := load32 m (b + 12)
/-- `block->prev`. -/
def prev (m : Mem) (b : ℕ) : ℕ := load32 m (b + 16)

/-- `block->magic = v`. -/
def setMagic (m : Mem) (b v : ℕ) : Mem := store32 m b v
/-- `block->size = v`. -/
def setSize (m : Mem) (b v : ℕ) : Mem := store32 m (b + 4) v
/-- `block->is_free = v`. -/
def setIsFree (m : Mem) (b : ℕ) (v : UInt8) : Mem := Function.update m (b + 8) v
/-- `block->next = v`. -/
def setNext (m : Mem) (b v : ℕ) : Mem := store32 m (b + 12) v
/-- `block->prev = v`. -/
def setPrev (m : Mem) (b v : ℕ) : Mem := store32 m (b + 16) v

/-! ## State -/

/-- `heap_stats_t`. -/
structure HeapStats where
  totalSize : ℕ
  usedSize : ℕ
  freeSize : ℕ
  numAllocations : ℕ
  numBlocks : ℕ

/-- The static variables of `heap.c` and the memory. -/
structure State where
  mem : Mem
  heapHead : ℕ
  heapBaseAddr : ℕ
  heapCurSize : ℕ
  heapMaxLimit : ℕ
  stats : HeapStats

/-- `heap_init_at`. -/
def heapInitAt (mem : Mem) (base initialSize maxSize : ℕ) : State :=
  let m := setMagic mem base heapBlockMagic
  let m := setSize m base (sub32 initialSize headerSize)
  let m := setIsFree m base 1
  let m := setNext m base 0
  let m := setPrev m base 0
  { mem := m
    heapHead := base
    heapBaseAddr := base
    heapCurSize := initialSize
    heapMaxLimit := maxSize
    stats :=
      { totalSize := initialSize
        usedSize := 0
        freeSize := size m base
        numAllocations := 0
        numBlocks := 1 } }

/-- The bound on the list walks: one more than the number of headers that fit in the address
space. -/
def State.fuel (_ : State) : ℕ := 4294967296 / headerSize + 1

/-- `find_free_block`: the walk from `current`. -/
def findFreeBlock (m : Mem) (n : ℕ) : ℕ → ℕ → ℕ
  | 0, _ => 0
  | fuel + 1, current =>
    if current = 0 then 0
    else if isFree m current ≠ 0 ∧ size m current ≥ n then current
    else findFreeBlock m n fuel (next m current)

/-- `split_block`. -/
def splitBlock (h : State) (block n : ℕ) : State :=
  if size h.mem block < u32 (n + headerSize + minBlockSize) then h
  else
    let remaining := sub32 (sub32 (size h.mem block) n) headerSize
    let newBlock := u32 (block + headerSize + n)
    let m := setMagic h.mem newBlock heapBlockMagic
    let m := setSize m newBlock remaining
    let m := setIsFree m newBlock 1
    let m := setPrev m newBlock block
    let m := setNext m newBlock (next m block)
    let m := if next m block ≠ 0 then setPrev m (next m block) newBlock else m
    let m := setNext m block newBlock
    let m := setSize m block n
    { h with
      mem := m
      stats := { h.stats with
        numBlocks := u32 (h.stats.numBlocks + 1)
        freeSize := sub32 h.stats.freeSize headerSize } }

/-- The counters after two blocks became one. -/
def HeapStats.merged (s : HeapStats) : HeapStats :=
  { s with
    numBlocks := sub32 s.numBlocks 1
    freeSize := u32 (s.freeSize + headerSize) }

/-- The first half of `coalesce`: absorb a free successor. -/
def coalesceNext (h : State) (block : ℕ) : State :=
  if next h.mem block ≠ 0 ∧ isFree h.mem (next h.mem block) ≠ 0 then
    let m := setSize h.mem block
      (u32 (size h.mem block + headerSize + size h.mem (next h.mem block)))
    let m := setNext m block (next m (next m block))
    let m := if next m block ≠ 0 then setPrev m (next m block) block else m
    { h with mem := m, stats := h.stats.merged }
  else h

/-- The second half of `coalesce`: be absorbed by a free predecessor. -/
def coalescePrev (h : State) (block : ℕ) : State :=
  if prev h.mem block ≠ 0 ∧ isFree h.mem (prev h.mem block) ≠ 0 then
    let m := setSize h.mem (prev h.mem block)
      (u32 (size h.mem (prev h.mem block) + headerSize + size h.mem block))
    let m := setNext m (prev m block) (next m block)
    let m := if next m block ≠ 0 then setPrev m (next m block) (prev m block) else m
    { h with mem := m, stats := h.stats.merged }
  else h

/-- `coalesce`. -/
def coalesce (h : State) (block : ℕ) : State := coalescePrev (coalesceNext h block) block

/-- The walk of `heap_expand` to the last block. -/
def lastBlock (m : Mem) : ℕ → ℕ → ℕ
  | 0, tail => tail
  | fuel + 1, tail => if next m tail ≠ 0 then lastBlock m fuel (next m tail) else tail

/-- The growth that `heap_expand` settles on: whole megabytes, or what is left below the limit;
`none` when that is too little. -/
def growSize (h : State) (minBytes : ℕ) : Option ℕ :=
  let grow := alignUp (u32 (minBytes + headerSize)) 0x100000
  if u32 (h.heapCurSize + grow) > h.heapMaxLimit then
    if h.heapCurSize ≥ h.heapMaxLimit then none
    else
      let grow := h.heapMaxLimit - h.heapCurSize
      if grow < u32 (minBytes + headerSize) then none else some grow
  else some grow

/-- The part of `heap_expand` after the growth is fixed. -/
def appendChunk (h : State) (grow : ℕ) : State :=
  let newBlk := u32 (h.heapBaseAddr + h.heapCurSize)
  let m := setMagic h.mem newBlk heapBlockMagic
  let m := setSize m newBlk (sub32 grow headerSize)
  let m := setIsFree m newBlk 1
  let m := setNext m newBlk 0
  let tail := lastBlock m h.fuel h.heapHead
  let m := setNext m tail newBlk
  let m := setPrev m newBlk tail
  let h' :=
    { h with
      mem := m
      heapCurSize := u32 (h.heapCurSize + grow)
      stats := { h.stats with
        totalSize := u32 (h.stats.totalSize + grow)
        freeSize := u32 (h.stats.freeSize + size m newBlk)
        numBlocks := u32 (h.stats.numBlocks + 1) } }
  coalesce h' newBlk

/-- `heap_expand`: the heap and whether it grew. -/
def heapExpand (h : State) (minBytes : ℕ) : State × Bool :=
  (growSize h minBytes).elim (h, false) fun grow => (appendChunk h grow, true)

/-- The end of `kmalloc`: cut and mark the block that was found. -/
def takeBlock (h : State) (block n : ℕ) : State × ℕ :=
  let h := splitBlock h block n
  let m := setIsFree h.mem block 0
  ({ h with
      mem := m
      stats := { h.stats with
        usedSize := u32 (h.stats.usedSize + size m block)
        freeSize := sub32 h.stats.freeSize (size m block)
        numAllocations := u32 (h.stats.numAllocations + 1) } },
    u32 (block + headerSize))

/-- `find_free_block(n)`. -/
def State.findFree (h : State) (n : ℕ) : ℕ := findFreeBlock h.mem n h.fuel h.heapHead

/-- The end of `kmalloc`: `NULL` when no block was found, otherwise the block taken. -/
def takeFound (h : State) (n : ℕ) : State × ℕ :=
  if h.findFree n = 0 then (h, 0) else takeBlock h (h.findFree n) n

/-- The part of `kmalloc` after the size was rounded up: search, if nothing was found grow and
search again, and take the block found. -/
def allocBlock (h : State) (n : ℕ) : State × ℕ :=
  if h.findFree n ≠ 0 then takeFound h n
  else if (heapExpand h n).2 then takeFound (heapExpand h n).1 n
  else (h, 0)

/-- `kmalloc`: the heap after the call and the pointer returned. -/
def kmalloc (h : State) (n : ℕ) : State × ℕ :=
  if n = 0 ∨ h.heapHead = 0 then (h, 0) else allocBlock h (u32 (n + 7) / 8 * 8)

/-- `kzalloc`. -/
def kzalloc (h : State) (n : ℕ) : State × ℕ :=
  let r := kmalloc h n
  if r.2 ≠ 0 then ({ r.1 with mem := fill r.1.mem r.2 0 n }, r.2) else r

/-- `kmalloc_aligned`. -/
def kmallocAligned (h : State) (n alignment : ℕ) : State × ℕ :=
  let alignment := if alignment < 8 then 8 else alignment
  if ¬ (alignment ≠ 0 ∧ alignment &&& (alignment - 1) = 0) then (h, 0)
  else
    let metaSize := 8
    let r := kmalloc h (u32 (n + alignment + metaSize))
    if r.2 = 0 then (r.1, 0)
    else
      let addr := u32 (r.2 + metaSize)
      let alignedAddr := u32 (addr + alignment - 1) / alignment * alignment
      let m := store32 r.1.mem (sub32 alignedAddr 4) heapAlignedMagic
      let m := store32 m (sub32 alignedAddr 8) r.2
      ({ r.1 with mem := m }, alignedAddr)

/-- The block that `kfree` works on: the one before `ptr`, or the one recorded by
`kmalloc_aligned` when that has no magic number. -/
def blockOfPtr (h : State) (ptr : ℕ) : ℕ :=
  let block := sub32 ptr headerSize
  if magic h.mem block ≠ heapBlockMagic then
    if ptr ≥ u32 (h.heapBaseAddr + headerSize + 8) ∧
        load32 h.mem (sub32 ptr 4) = heapAlignedMagic then
      let rawPtr := load32 h.mem (sub32 ptr 8)
      if rawPtr ≥ u32 (h.heapBaseAddr + headerSize) ∧
          rawPtr < u32 (h.heapBaseAddr + h.heapCurSize) then
        sub32 rawPtr headerSize
      else block
    else block
  else block

/-- The end of `kfree`: release a used block. -/
def releaseBlock (h : State) (block : ℕ) : State :=
  let m := setIsFree h.mem block 1
  let h' :=
    { h with
      mem := m
      stats := { h.stats with
        usedSize := sub32 h.stats.usedSize (size m block)
        freeSize := u32 (h.stats.freeSize + size m block)
        numAllocations :=
          if h.stats.numAllocations > 0 then h.stats.numAllocations - 1
          else h.stats.numAllocations } }
  coalesce h' block

/-- `kfree`. -/
def kfree (h : State) (ptr : ℕ) : State :=
  if ptr = 0 ∨ h.heapHead = 0 then h
  else if ptr < u32 (h.heapBaseAddr + headerSize) ∨
      ptr ≥ u32 (h.heapBaseAddr + h.heapCurSize) then h
  else
    let block := blockOfPtr h ptr
    if magic h.mem block ≠ heapBlockMagic ∨ isFree h.mem block ≠ 0 then h
    else releaseBlock h block

/-- The end of `krealloc`, after its call of `kmalloc` gave `r`: copy the payload and free it. -/
def moveBlock (r : State × ℕ) (ptr : ℕ) : State × ℕ :=
  if r.2 ≠ 0 then
    (kfree { r.1 with
      mem := copy r.1.mem r.2 ptr (size r.1.mem (sub32 ptr headerSize)) } ptr, r.2)
  else r

/-- `krealloc`. -/
def krealloc (h : State) (ptr newSize : ℕ) : State × ℕ :=
  if ptr = 0 then kmalloc h newSize
  else if newSize = 0 then (kfree h ptr, 0)
  else if magic h.mem (sub32 ptr headerSize) ≠ heapBlockMagic then (h, 0)
  else if size h.mem (sub32 ptr headerSize) ≥ newSize then (h, ptr)
  else moveBlock (kmalloc h newSize) ptr

end BengalTiger.Heap
