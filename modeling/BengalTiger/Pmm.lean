import BengalTiger.Common
import BengalTiger.Lib.WordBitmap

set_option autoImplicit false

/-!
# The physical frame allocator

The bitmap allocator of `kernel/paging.c`: one bit per 4 KB frame of the 4 GB address space,
set when the frame is used. `pmmInitMmap` frees the pages of the AVAILABLE regions of the
bootloader's memory map and reserves low memory again; `pmmAllocFrame` hands out the first
clear frame.

## Main definitions

* `Pmm.State` — the bitmap and the two counters.
* `Pmm.pmmInitMmap`, `Pmm.pmmAllocFrame`,
  `Pmm.pmmFreeFrame`, `Pmm.pmmReserveRegion` — the operations.
-/

namespace BengalTiger.Pmm

open WordBitmap

/-- `BITMAP_SIZE`: `32768 * 32 = 1048576` frames, 4 GB. -/
def bitmapSize : ℕ := 32768

/-- The static variables `bitmap`, `total_frames`, `used_frames`. -/
structure State where
  bitmap : Words bitmapSize 32
  totalFrames : ℕ
  usedFrames : ℕ

/-- `frame_set_used`. -/
def frameSetUsed (s : State) (frame : ℕ) : State :=
  if h : frame / 32 < bitmapSize then
    if s.bitmap ⟨frame / 32, h⟩ &&& mask 32 (frame % 32) = 0#32 then
      { s with
        bitmap := setBit s.bitmap ⟨frame / 32, h⟩ (frame % 32)
        usedFrames := s.usedFrames + 1 }
    else s
  else s

/-- `frame_set_free`. -/
def frameSetFree (s : State) (frame : ℕ) : State :=
  if h : frame / 32 < bitmapSize then
    if s.bitmap ⟨frame / 32, h⟩ &&& mask 32 (frame % 32) ≠ 0#32 then
      { s with
        bitmap := clearBit s.bitmap ⟨frame / 32, h⟩ (frame % 32)
        usedFrames := if s.usedFrames > 0 then s.usedFrames - 1 else s.usedFrames }
    else s
  else s

/-- The first frame of a region. -/
def startFrame (base : UInt32) : ℕ := alignDown base.toNat pageSize / pageSize

/-- The frame after a region. The end address is computed with 64 bits and clipped below
4 GB. -/
def endFrame (base size : UInt32) : ℕ :=
  let endAddr := base.toNat + size.toNat
  let endAddr := if endAddr > 0xFFFFF000 then 0xFFFFF000 else endAddr
  alignUp (u32 endAddr) pageSize / pageSize

/-- `pmm_reserve_region`. -/
def pmmReserveRegion (s : State) (base size : UInt32) : State :=
  forRange (startFrame base) (min (endFrame base size) (bitmapSize * 32)) frameSetUsed s

/-- The lowest address that `pmm_init` and `pmm_init_mmap` leave to the allocator: the kernel
image rounded up, and never below the end of the largest heap. -/
def lowProtect (reservedEnd : UInt32) : ℕ :=
  let minFree := alignUp reservedEnd.toNat pageSize
  let heapLimit := heapStart + heapMaxSize
  if minFree < heapLimit then heapLimit else minFree

/-- `memset(bitmap, 0xFF, sizeof(bitmap))` with both counters set to `total`. -/
def allUsed (total : ℕ) : State := ⟨fun _ => BitVec.allOnes 32, total, total⟩

/-- `pmm_init`. -/
def pmmInit (memSize reservedEnd : UInt32) : State :=
  let total := memSize.toNat / pageSize
  let total := if total > bitmapSize * 32 then bitmapSize * 32 else total
  forRange (lowProtect reservedEnd / pageSize) total frameSetFree (allUsed total)

/-- A `multiboot_mmap_entry_t`; its `size` field only serves to step to the next entry. -/
structure MmapEntry where
  addr : UInt64
  len : UInt64
  type : UInt32
  deriving DecidableEq

/-- The part of `multiboot_info_t` that the allocator reads. The entries are those that the walk
from `mmap_addr` in steps of `size + 4` visits before `mmap_addr + mmap_length`; the list is
empty exactly when `mmap_length` is `0`. -/
structure MultibootInfo where
  flags : UInt32
  mmap : List MmapEntry

/-- `MULTIBOOT_MMAP_AVAILABLE`. -/
def mmapAvailable : UInt32 := 1

/-- The entries the two loops of `pmm_init_mmap` look at. -/
def MmapEntry.Usable (e : MmapEntry) : Prop :=
  e.type = mmapAvailable ∧ e.addr.toNat < 0xFFFFF000

instance (e : MmapEntry) : Decidable e.Usable := inferInstanceAs (Decidable (_ ∧ _))

/-- The first page boundary at or above the entry's base, in `uint64_t` arithmetic. -/
def MmapEntry.start (e : MmapEntry) : ℕ :=
  (e.addr.toNat + pageSize - 1) % 2 ^ 64 / pageSize * pageSize

/-- The last page boundary at or below the entry's end, in `uint64_t` arithmetic, clipped below
4 GB. -/
def MmapEntry.stop (e : MmapEntry) : ℕ :=
  let stop := (e.addr.toNat + e.len.toNat) % 2 ^ 64
  let stop := if stop > 0xFFFFF000 then 0xFFFFF000 else stop
  stop / pageSize * pageSize

/-- The first loop of `pmm_init_mmap`: the highest end of a non-empty available region. -/
def highestAvail (entries : List MmapEntry) : ℕ :=
  entries.foldl
    (fun highest e =>
      if e.Usable ∧ e.stop > e.start ∧ e.stop > highest then e.stop else highest) 0

/-- One iteration of the second loop of `pmm_init_mmap`: free the pages of an available entry. -/
def freeEntry (s : State) (e : MmapEntry) : State :=
  if e.Usable then forRange (e.start / pageSize) (e.stop / pageSize) frameSetFree s else s

/-- Whether `pmm_init_mmap` finds a memory map in the boot information. -/
def hasMmap (mbi : MultibootInfo) : Prop := mbi.flags &&& ((1 : UInt32) <<< 6) ≠ 0 ∧ mbi.mmap ≠ []

instance (mbi : MultibootInfo) : Decidable (hasMmap mbi) := inferInstanceAs (Decidable (_ ∧ ¬ _))

/-- `pmm_init_mmap`. -/
def pmmInitMmap (mbi : Option MultibootInfo) (fallbackMemSize reservedEnd : UInt32) : State :=
  match mbi with
  | none => pmmInit fallbackMemSize reservedEnd
  | some mbi =>
    if ¬ hasMmap mbi then pmmInit fallbackMemSize reservedEnd
    else
      let highest := highestAvail mbi.mmap
      if highest = 0 then pmmInit fallbackMemSize reservedEnd
      else
        let s := mbi.mmap.foldl freeEntry (allUsed (highest / pageSize))
        pmmReserveRegion s 0 (UInt32.ofNat (lowProtect reservedEnd))

/-- The inner loop of `pmm_alloc_frame`: the first clear bit of a word. -/
def firstClear (x : BitVec 32) : Option ℕ :=
  (List.range 32).find? fun j => x &&& mask 32 j = 0#32

/-- The outer loop of `pmm_alloc_frame` over the words still to scan. -/
def allocScan (s : State) : List (Fin bitmapSize) → State × ℕ
  | [] => (s, 0)
  | i :: rest =>
    if s.bitmap i = BitVec.allOnes 32 then allocScan s rest
    else
      match firstClear (s.bitmap i) with
      | none => allocScan s rest
      | some j =>
        let frame := i * 32 + j
        if frame ≥ s.totalFrames then (s, 0)
        else ({ s with bitmap := setBit s.bitmap i j, usedFrames := s.usedFrames + 1 },
          frame * pageSize)

/-- `pmm_alloc_frame`: the new state and the physical address, `0` when none is free. -/
def pmmAllocFrame (s : State) : State × ℕ := allocScan s (List.finRange bitmapSize)

/-- `pmm_free_frame`. -/
def pmmFreeFrame (s : State) (addr : UInt32) : State :=
  let frame := addr.toNat / pageSize
  if frame < s.totalFrames then frameSetFree s frame else s

/-- `pmm_get_free_frames`. -/
def pmmGetFreeFrames (s : State) : ℕ :=
  if s.totalFrames ≥ s.usedFrames then s.totalFrames - s.usedFrames else 0

/-! ## Bits and counters -/

/-- Frame `f` is marked used. -/
def State.used (s : State) (f : ℕ) : Bool := bit s.bitmap f

/-- A well-formed allocator: the bits past `total_frames` are all set, and `used_frames` counts
the set bits below it. -/
structure WF (s : State) : Prop where
  total_le : s.totalFrames ≤ bitmapSize * 32
  high : ∀ f, s.totalFrames ≤ f → f < bitmapSize * 32 → s.used f = true
  count : s.usedFrames = Nat.count (fun f => s.used f = true) s.totalFrames

/-- A frame number below the bitmap's capacity has its word in the array. -/
lemma div_lt_bitmapSize {f : ℕ} (h : f < bitmapSize * 32) : f / 32 < bitmapSize := by
  unfold bitmapSize at *
  omega

/-- The test of the C code on a word reads the frame's bit. -/
lemma and_mask_iff (s : State) {f : ℕ} (h : f / 32 < bitmapSize) :
    s.bitmap ⟨f / 32, h⟩ &&& mask 32 (f % 32) = 0#32 ↔ s.used f = false := by
  rw [and_mask_eq_zero_iff (Nat.mod_lt _ (by norm_num))]
  unfold State.used bit
  rw [dif_pos h]

/-- Setting a clear frame below the capacity. -/
lemma frameSetUsed_of_clear (s : State) {f : ℕ} (hf : f < bitmapSize * 32)
    (hc : s.used f = false) :
    (frameSetUsed s f).totalFrames = s.totalFrames ∧
      (frameSetUsed s f).usedFrames = s.usedFrames + 1 ∧
      ∀ g, (frameSetUsed s f).used g = (s.used g || decide (g = f)) := by
  have h := div_lt_bitmapSize hf
  unfold frameSetUsed
  rw [dif_pos h, if_pos ((and_mask_iff s h).mpr hc)]
  refine ⟨rfl, rfl, fun g => ?_⟩
  simp only [State.used]
  rw [bit_setBit _ _ (Nat.mod_lt _ (by norm_num)), Nat.div_add_mod']

/-- Setting a frame that is already set does nothing. -/
lemma frameSetUsed_of_used (s : State) {f : ℕ} (hu : s.used f = true) : frameSetUsed s f = s := by
  unfold frameSetUsed
  split_ifs with h h'
  · rw [and_mask_iff s h, hu] at h'
    exact absurd h' (by simp)
  · rfl
  · rfl

/-- Freeing a used frame below the capacity. -/
lemma frameSetFree_of_used (s : State) {f : ℕ} (hf : f < bitmapSize * 32)
    (hu : s.used f = true) (hpos : 0 < s.usedFrames) :
    (frameSetFree s f).totalFrames = s.totalFrames ∧
      (frameSetFree s f).usedFrames + 1 = s.usedFrames ∧
      ∀ g, (frameSetFree s f).used g = (s.used g && !decide (g = f)) := by
  have h := div_lt_bitmapSize hf
  have hne : s.bitmap ⟨f / 32, h⟩ &&& mask 32 (f % 32) ≠ 0#32 := by
    rw [Ne, and_mask_iff s h, hu]
    simp
  unfold frameSetFree
  rw [dif_pos h, if_pos hne]
  refine ⟨rfl, ?_, fun g => ?_⟩
  · simp only [gt_iff_lt, hpos, if_true]
    omega
  · simp only [State.used]
    rw [bit_clearBit _ _ (Nat.mod_lt _ (by norm_num)), Nat.div_add_mod']

/-- Freeing a frame that is already free does nothing. -/
lemma frameSetFree_of_clear (s : State) {f : ℕ} (hc : s.used f = false) :
    frameSetFree s f = s := by
  unfold frameSetFree
  by_cases h : f / 32 < bitmapSize
  · rw [dif_pos h, if_neg (not_not.mpr ((and_mask_iff s h).mpr hc))]
  · rw [dif_neg h]

/-- A frame below `total_frames` changes its mark, and the counter changes with it. -/
lemma WF.flip {s t : State} (hs : WF s) {f : ℕ} (hf : f < s.totalFrames)
    (htot : t.totalFrames = s.totalFrames) (hrest : ∀ g, ¬g = f → t.used g = s.used g)
    (hmark : t.used f = !s.used f)
    (hused : t.usedFrames + (s.used f).toNat = s.usedFrames + (t.used f).toNat) : WF t := by
  refine ⟨by rw [htot]; exact hs.total_le, fun g hg hlt => ?_, ?_⟩
  · rw [hrest g (by omega)]
    exact hs.high g (by omega) hlt
  · have hold := hs.count
    rw [htot]
    cases hu : s.used f with
    | false =>
      have hcount := count_succ_of_flip (p := fun g => s.used g = true)
        (q := fun g => t.used g = true) (f := f) (by simp [hu]) (by simp [hmark, hu])
        (fun g hg => by rw [hrest g hg]) s.totalFrames
      rw [if_pos hf] at hcount
      simp only [hmark, hu, Bool.not_false, Bool.toNat_false, Bool.toNat_true] at hused
      omega
    | true =>
      have hcount := count_succ_of_flip (p := fun g => t.used g = true)
        (q := fun g => s.used g = true) (f := f) (by simp [hmark, hu]) hu
        (fun g hg => by rw [hrest g hg]) s.totalFrames
      rw [if_pos hf] at hcount
      simp only [hmark, hu, Bool.not_true, Bool.toNat_false, Bool.toNat_true] at hused
      omega

/-- **The frames in `F` got the mark `v`**, and the counters are exact. -/
structure Marked (s t : State) (v : Bool) (F : ℕ → Prop) : Prop where
  wf : WF t
  total : t.totalFrames = s.totalFrames
  inside : ∀ g, F g → t.used g = v
  outside : ∀ g, ¬F g → t.used g = s.used g

/-- The frames that are clear after some were marked used. -/
lemma Marked.clear_iff_of_used {s t : State} {F : ℕ → Prop} (h : Marked s t true F) (g : ℕ) :
    t.used g = false ↔ s.used g = false ∧ ¬F g := by
  by_cases hg : F g
  · simp [h.inside g hg, hg]
  · simp [h.outside g hg, hg]

/-- The frames that are clear after some were freed. -/
lemma Marked.clear_iff_of_free {s t : State} {F : ℕ → Prop} (h : Marked s t false F) (g : ℕ) :
    t.used g = false ↔ s.used g = false ∨ F g := by
  by_cases hg : F g
  · simp [h.inside g hg, hg]
  · simp [h.outside g hg, hg]

/-- `frame_set_used` marks its frame. Frames past `total_frames` are already set, so they never
reach the counter. -/
lemma WF.frameSetUsed {s : State} (hs : WF s) {f : ℕ} (hf : f < bitmapSize * 32) :
    Marked s (frameSetUsed s f) true (· = f) := by
  cases hu : s.used f with
  | true =>
    rw [frameSetUsed_of_used s hu]
    exact ⟨hs, rfl, by rintro g rfl; exact hu, fun _ _ => rfl⟩
  | false =>
    obtain ⟨ht, hc, hb⟩ := frameSetUsed_of_clear s hf hu
    have hft : f < s.totalFrames := by
      by_contra hge
      rw [hs.high f (by omega) hf] at hu
      exact absurd hu (by simp)
    have hrest : ∀ g, ¬g = f → (Pmm.frameSetUsed s f).used g = s.used g :=
      fun g hg => by simp [hb, hg]
    exact ⟨hs.flip hft ht hrest (by simp [hb, hu]) (by simp [hb, hu, hc]), ht,
      by rintro g rfl; simp [hb], hrest⟩

/-- `frame_set_free` clears its frame, for frames below `total_frames`. -/
lemma WF.frameSetFree {s : State} (hs : WF s) {f : ℕ} (hf : f < s.totalFrames) :
    Marked s (frameSetFree s f) false (· = f) := by
  cases hu : s.used f with
  | false =>
    rw [frameSetFree_of_clear s hu]
    exact ⟨hs, rfl, by rintro g rfl; exact hu, fun _ _ => rfl⟩
  | true =>
    have hpos : 0 < s.usedFrames := by
      rw [hs.count]
      exact lt_of_le_of_lt (Nat.zero_le _) (Nat.count_strict_mono hu hf)
    obtain ⟨ht, hc, hb⟩ := frameSetFree_of_used s (hf.trans_le hs.total_le) hu hpos
    have hrest : ∀ g, ¬g = f → (Pmm.frameSetFree s f).used g = s.used g :=
      fun g hg => by simp [hb, hg]
    exact ⟨hs.flip hf ht hrest (by simp [hb, hu]) (by simp [hb, hu, hc]), ht,
      by rintro g rfl; simp [hb], hrest⟩

/-- **A loop over a range** whose rounds mark one frame each. -/
lemma WF.markRange {s : State} (hs : WF s) {v : Bool} {step : State → ℕ → State} {lo hi : ℕ}
    (hstep : ∀ k t, lo ≤ k → k < hi → WF t → t.totalFrames = s.totalFrames →
      Marked t (step t k) v (· = k)) :
    Marked s (forRange lo hi step s) v fun g => lo ≤ g ∧ g < hi := by
  rcases Nat.le_total lo hi with hle | hle
  · refine forRange_induct hle (fun k t => Marked s t v fun g => lo ≤ g ∧ g < k) ?_ ?_
    · exact ⟨hs, rfl, fun g hg => by omega, fun _ _ => rfl⟩
    · intro k t h1 h2 ht
      have hk := hstep k t h1 h2 ht.wf ht.total
      refine ⟨hk.wf, hk.total.trans ht.total, fun g hg => ?_, fun g hg => ?_⟩
      · by_cases hgk : g = k
        · exact hk.inside g hgk
        · rw [hk.outside g hgk, ht.inside g (by omega)]
      · rw [hk.outside g (by omega), ht.outside g (by omega)]
  · rw [forRange_of_le hle]
    exact ⟨hs, rfl, fun g hg => by omega, fun _ _ => rfl⟩

/-- Freeing a range of frames below `total_frames`. -/
lemma WF.freeRange {s : State} (hs : WF s) (lo hi : ℕ) (hhi : lo < hi → hi ≤ s.totalFrames) :
    Marked s (forRange lo hi Pmm.frameSetFree s) false fun g => lo ≤ g ∧ g < hi :=
  hs.markRange fun k t _ hk ht htot => ht.frameSetFree (by have := hhi (by omega); omega)

/-- Marking a range of frames below the capacity. -/
lemma WF.useRange {s : State} (hs : WF s) {lo hi : ℕ} (hhi : hi ≤ bitmapSize * 32) :
    Marked s (forRange lo hi Pmm.frameSetUsed s) true fun g => lo ≤ g ∧ g < hi :=
  hs.markRange fun k t _ hk ht _ => ht.frameSetUsed (by omega)

/-- The state with every bit set and both counters equal is well formed. -/
lemma wf_allUsed {total : ℕ} (h : total ≤ bitmapSize * 32) :
    WF (allUsed total) ∧ ∀ f, f < bitmapSize * 32 → (allUsed total).used f = true := by
  have hall : ∀ f, f < bitmapSize * 32 → (allUsed total).used f = true := by
    intro f hf
    have hm : f % 32 < 32 := Nat.mod_lt _ (by norm_num)
    unfold State.used bit allUsed
    rw [dif_pos (div_lt_bitmapSize hf), BitVec.getLsbD_allOnes]
    simp [hm]
  refine ⟨⟨h, fun f _ hf => hall f hf, ?_⟩, hall⟩
  have hc : Nat.count (fun f => (allUsed total).used f = true) total = total := by
    rw [Nat.count_iff_forall]
    exact fun f hf => hall f (by omega)
  exact hc.symm

end BengalTiger.Pmm
