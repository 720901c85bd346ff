import BengalTiger.Pmm
import BengalTiger.Lib.ByteMem

set_option autoImplicit false

/-!
# Page tables

The paging functions of `kernel/paging.c`. The page directory and the page tables are words in
physical memory; the tables beyond the identity window come from the static pool in the BSS, and
from the frame allocator when the pool is used up.

`paging_install` runs with physical addresses and turns paging on. After that the functions read and
write the tables through pointers that hold their physical addresses, and the processor translates
these pointers by the same tables; an access to a page that is not present is a page fault. Every
change of an entry is followed by the invalidation of its translation, so the translation buffer is
left out. The supervisor ignores the writable flag. The static variables and the bitmap of the frame
allocator are not part of the memory.

## Main definitions

* `Paging.Layout` — where the linker puts the static pool and the end of the kernel.
* `Paging.State` — the memory, the static variables and the page directory in use.
* `Paging.State.resolve` — the translation of an address by the processor.
* `Paging.pagingInstall`, `pagingMap`, `pagingMapRegion`, `pagingUnmap`,
  `pagingGetPhysical`.
-/

namespace BengalTiger.Paging

open ByteMem

/-- `PAGE_PRESENT`. -/
def pagePresent : ℕ := 0x001

/-- `PAGE_WRITABLE`. -/
def pageWritable : ℕ := 0x002

/-- `PAGE_USER`. -/
def pageUser : ℕ := 0x004

/-- `PAGE_PWT`. -/
def pagePwt : ℕ := 0x008

/-- `PAGE_PCD`. -/
def pagePcd : ℕ := 0x010

/-- `~0xFFFU`. -/
def pageMask : ℕ := 0xFFFFF000

/-- `STATIC_PT_POOL_COUNT`. -/
def staticPtPoolCount : ℕ := 32

/-- `IDENTITY_MAP_TABLES`. -/
def identityMapTables : ℕ := 8

/-- `IDENTITY_MAP_SIZE`. -/
def identityMapSize : ℕ := identityMapTables * 4 * 1024 * 1024

/-- The addresses of `static_pt_pool` and `bss_end`. The pool is aligned to a page and lies in the
BSS, and the page directory and the first tables fit behind the BSS, in the identity window. -/
structure Layout where
  staticPtPool : ℕ
  bssEnd : ℕ
  pool_pos : 0 < staticPtPool
  pool_aligned : staticPtPool % pageSize = 0
  pool_le : staticPtPool + staticPtPoolCount * pageSize ≤ bssEnd
  room : bssEnd + (identityMapTables + 2) * pageSize ≤ identityMapSize

/-- `kernel_end`. -/
def Layout.kernelEnd (L : Layout) : ℕ := alignUp L.bssEnd pageSize

/-- The memory, `page_dir`, the page directory in `cr3`, `none` as long as paging is off,
`static_pt_used` and the frame allocator. -/
structure State where
  mem : Mem
  pageDir : ℕ
  cr3 : Option ℕ
  staticPtUsed : ℕ
  pmm : Pmm.State

namespace State

variable (s : State)

/-- The physical address of an access; `none` for a page fault. -/
def resolve (a : ℕ) : Option ℕ :=
  s.cr3.elim (some a) fun dir =>
    let pde := load32 s.mem (dir + 4 * (a >>> 22))
    if pde &&& pagePresent = 0 then none
    else
      let pte := load32 s.mem ((pde &&& pageMask) + 4 * ((a >>> 12) &&& 0x3FF))
      if pte &&& pagePresent = 0 then none else some ((pte &&& pageMask) ||| (a &&& 0xFFF))

/-- A word is read; words do not cross pages. -/
def load (a : ℕ) : Option ℕ := (s.resolve a).map (load32 s.mem)

/-- A word is written. -/
def store (a v : ℕ) : Option State :=
  (s.resolve a).map fun p => { s with mem := store32 s.mem p v }

/-- A page is filled with zeros. -/
def clear (a : ℕ) : Option State :=
  (s.resolve a).map fun p => { s with mem := fill s.mem p 0 pageSize }

end State

/-- `alloc_page_table`: the new state and the table, if there is one. -/
def allocPageTable (L : Layout) (s : State) : Option (State × Option ℕ) :=
  if s.staticPtUsed < staticPtPoolCount then
    let pt := L.staticPtPool + s.staticPtUsed * pageSize
    ({ s with staticPtUsed := s.staticPtUsed + 1 }.clear pt).map fun s => (s, some pt)
  else
    let r := Pmm.pmmAllocFrame s.pmm
    if r.2 ≠ 0 ∧ r.2 < identityMapSize then
      ({ s with pmm := r.1 }.clear r.2).map fun s => (s, some r.2)
    else if r.2 ≠ 0 then some ({ s with pmm := Pmm.pmmFreeFrame r.1 (UInt32.ofNat r.2) }, none)
    else some ({ s with pmm := r.1 }, none)

/-- The body of the outer loop of `paging_install` for the table `ptIdx`: its directory entry and
its 1024 identity entries. -/
def installTable (pageDir pts : ℕ) (m : Mem) (ptIdx : ℕ) : Mem :=
  let pt := pts + ptIdx * pageSize
  let m := store32 m (pageDir + 4 * ptIdx) (pt ||| pagePresent ||| pageWritable)
  forRange 0 1024 (fun m pgIdx =>
    let addr := ptIdx * 4 * 1024 * 1024 + pgIdx * pageSize
    store32 m (pt + 4 * pgIdx) (addr ||| pagePresent ||| pageWritable)) m

/-- `paging_install`, which is called while paging is off; `mem_size` is unused. -/
def pagingInstall (L : Layout) (s : State) : State :=
  let pageDir := L.kernelEnd
  let pts := L.kernelEnd + pageSize
  let m := fill s.mem pageDir 0 pageSize
  let m := forRange 0 identityMapTables (installTable pageDir pts) m
  let m := forRange identityMapTables 1024 (fun m i => store32 m (pageDir + 4 * i) pageWritable) m
  { s with mem := m, pageDir := pageDir, cr3 := some pageDir }

/-- The first part of `paging_map`: the table of a directory entry, allocated when the entry is not
present. -/
def pageTableFor (L : Layout) (s : State) (pdIndex flags : ℕ) : Option (State × Option ℕ) :=
  (s.load (s.pageDir + 4 * pdIndex)).bind fun pde =>
    if pde &&& pagePresent ≠ 0 then some (s, some (pde &&& pageMask))
    else (allocPageTable L s).bind fun r => r.2.elim (some r) fun pt =>
      (r.1.store (s.pageDir + 4 * pdIndex) (pt ||| pagePresent ||| pageWritable |||
        (flags &&& (pageUser ||| pagePwt ||| pagePcd)))).map fun s => (s, some pt)

/-- `paging_map`; `none` for a page fault, as in the functions below. -/
def pagingMap (L : Layout) (s : State) (virt phys flags : ℕ) : Option State :=
  if s.pageDir = 0 then some s
  else
    let pdIndex := virt >>> 22
    let ptIndex := (virt >>> 12) &&& 0x3FF
    (pageTableFor L s pdIndex flags).bind fun r => r.2.elim (some r.1) fun pt =>
      r.1.store (pt + 4 * ptIndex) ((phys &&& pageMask) ||| (flags ||| pagePresent))

/-- `paging_map_region`. `total` is a multiple of the page size, so the loop visits the offsets
`k * PAGE_SIZE` below it. -/
def pagingMapRegion (L : Layout) (s : State) (virt phys size flags : ℕ) : Option State :=
  if size = 0 then some s
  else
    let offset := phys &&& (pageSize - 1)
    let vBase := alignDown virt pageSize
    let pBase := alignDown phys pageSize
    let total := alignUp (u32 (size + offset)) pageSize
    forRange 0 (total / pageSize) (fun r k => r.bind fun s =>
      pagingMap L s (u32 (vBase + k * pageSize)) (u32 (pBase + k * pageSize)) flags) (some s)

/-- `paging_unmap`. -/
def pagingUnmap (s : State) (virt : ℕ) : Option State :=
  if s.pageDir = 0 then some s
  else
    let pdIndex := virt >>> 22
    let ptIndex := (virt >>> 12) &&& 0x3FF
    (s.load (s.pageDir + 4 * pdIndex)).bind fun pde =>
      if pde &&& pagePresent = 0 then some s
      else s.store ((pde &&& pageMask) + 4 * ptIndex) 0

/-- `paging_get_physical`. -/
def pagingGetPhysical (s : State) (virt : ℕ) : Option ℕ :=
  if s.pageDir = 0 then some virt
  else
    let pdIndex := virt >>> 22
    let ptIndex := (virt >>> 12) &&& 0x3FF
    (s.load (s.pageDir + 4 * pdIndex)).bind fun pde =>
      if pde &&& pagePresent = 0 then some 0
      else (s.load ((pde &&& pageMask) + 4 * ptIndex)).map fun pte =>
        if pte &&& pagePresent = 0 then 0 else (pte &&& pageMask) ||| (virt &&& 0xFFF)

end BengalTiger.Paging
