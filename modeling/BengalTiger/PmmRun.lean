import BengalTiger.Pmm
import BengalTiger.Lib.System
import Mathlib.Data.Finset.Basic
import Mathlib.Order.Interval.Finset.Nat

set_option autoImplicit false

/-!
# Runs of the physical frame allocator

A run starts from `pmmInitMmap` on any boot information and takes allocations, releases of
allocated frames and reservations of regions that hold no allocated frame. The run carries the
set of frames handed out and the set of frames reserved, which the C code does not store.

## Main definitions

* `Pmm.Run`, `Pmm.system` — the runs.
* `Pmm.Permitted` — the frames that initialisation leaves to the allocator.
* `Pmm.Inv` — the invariant of the runs.

## Main results

* `Pmm.pmmInitMmap_spec` — initialisation frees the permitted frames.
* `Pmm.pmmAllocFrame_spec` — what an allocation does.
* `Pmm.frames_sound` — marks and counters are exact and every frame handed out is fresh,
  aligned and permitted, in every reachable state.
-/

namespace BengalTiger.Pmm

open WordBitmap List

/-! ## Initialisation -/

/-- The whole page of frame `f` lies inside the entry, whose kind is AVAILABLE and whose end fits in
64 bits. -/
def MmapEntry.Holds (e : MmapEntry) (f : ℕ) : Prop :=
  e.type = mmapAvailable ∧ e.addr.toNat ≤ f * pageSize ∧
    f * pageSize + pageSize ≤ e.addr.toNat + e.len.toNat ∧ e.addr.toNat + e.len.toNat < 2 ^ 64

/-- The memory-map path of `pmm_init_mmap` is taken. -/
def UsesMmap (mbi : MultibootInfo) : Prop := hasMmap mbi ∧ highestAvail mbi.mmap ≠ 0

/-- A frame that initialisation leaves to the allocator: not below the protected low memory and, on
the memory-map path, inside one available entry. -/
def Permitted (mbi : Option MultibootInfo) (reservedEnd : UInt32) (f : ℕ) : Prop :=
  lowProtect reservedEnd ≤ f * pageSize ∧
    ∀ m ∈ mbi, UsesMmap m → ∃ e ∈ m.mmap, e.Holds f

/-- The frames freed for an entry are those that lie inside it. -/
lemma MmapEntry.holds_iff (e : MmapEntry) {f : ℕ} (hf : f < 0xFFFFF) :
    e.Holds f ↔ e.Usable ∧ e.start / pageSize ≤ f ∧ f < e.stop / pageSize := by
  have haddr := e.addr.toNat_lt
  have hlen := e.len.toNat_lt
  unfold MmapEntry.Holds MmapEntry.Usable MmapEntry.start MmapEntry.stop pageSize
  dsimp only
  by_cases ht : e.type = mmapAvailable
  · simp only [ht, true_and]
    split_ifs <;> omega
  · simp [ht]

/-- The end of an entry is at most the last page boundary below 4 GB. -/
lemma MmapEntry.stop_le (e : MmapEntry) : e.stop ≤ 0xFFFFF000 := by
  unfold MmapEntry.stop pageSize
  dsimp only
  split_ifs <;> omega

/-- The result of the first loop, started at `acc`: it is bounded by 4 GB, and every non-empty
usable entry ends at or below it. -/
lemma foldl_highest (entries : List MmapEntry) (acc : ℕ) (hacc : acc ≤ 0xFFFFF000) :
    let top := entries.foldl
      (fun highest e =>
        if e.Usable ∧ e.stop > e.start ∧ e.stop > highest then e.stop else highest) acc
    acc ≤ top ∧ top ≤ 0xFFFFF000 ∧
      ∀ e ∈ entries, e.Usable → e.start < e.stop → e.stop ≤ top := by
  induction entries generalizing acc with
  | nil => exact ⟨le_rfl, hacc, by simp⟩
  | cons e rest ih =>
    simp only [foldl_cons]
    have hstop := e.stop_le
    obtain ⟨h1, h2, h3⟩ := ih
      (if e.Usable ∧ e.stop > e.start ∧ e.stop > acc then e.stop else acc) (by split_ifs <;> omega)
    refine ⟨?_, h2, ?_⟩
    · refine le_trans ?_ h1
      split_ifs with h <;> omega
    · intro e' he' hu hlt
      rcases mem_cons.mp he' with rfl | hmem
      · refine le_trans ?_ h1
        split_ifs with h
        · exact le_rfl
        · by_contra hgt
          exact h ⟨hu, hlt, by omega⟩
      · exact h3 e' hmem hu hlt

/-- **The second loop of `pmm_init_mmap`** frees the frames of the usable entries.

**Proof sketch.** Induction on the entries still to free: an unusable entry changes nothing, a
usable one frees its range, which ends at or below `total_frames`. -/
lemma foldl_freeEntry (entries : List MmapEntry) {s : State} (hw : WF s)
    (htop : ∀ e ∈ entries, e.Usable → e.start < e.stop → e.stop / pageSize ≤ s.totalFrames) :
    WF (entries.foldl freeEntry s) ∧ (entries.foldl freeEntry s).totalFrames = s.totalFrames ∧
      ∀ f, (entries.foldl freeEntry s).used f = false ↔ s.used f = false ∨
        ∃ e ∈ entries, e.Usable ∧ e.start / pageSize ≤ f ∧ f < e.stop / pageSize := by
  induction entries generalizing s with
  | nil => exact ⟨hw, rfl, fun f => by simp⟩
  | cons e rest ih =>
    have hstep : WF (freeEntry s e) ∧ (freeEntry s e).totalFrames = s.totalFrames ∧
        ∀ f, (freeEntry s e).used f = false ↔ s.used f = false ∨
          e.Usable ∧ e.start / pageSize ≤ f ∧ f < e.stop / pageSize := by
      unfold freeEntry
      split_ifs with hu
      · have hfreed := hw.freeRange (e.start / pageSize)
          (e.stop / pageSize) (fun hlt => htop e mem_cons_self hu
            (by by_contra hge; exact absurd (Nat.div_le_div_right (by omega)) (not_le.mpr hlt)))
        exact ⟨hfreed.wf, hfreed.total, fun f => by rw [hfreed.clear_iff_of_free, and_iff_right hu]⟩
      · exact ⟨hw, rfl, fun f => by simp [hu]⟩
    obtain ⟨hw₁, ht₁, hb₁⟩ := hstep
    obtain ⟨hw₂, ht₂, hb₂⟩ := ih hw₁ fun e' he' => by
      rw [ht₁]
      exact htop e' (mem_cons_of_mem _ he')
    refine ⟨hw₂, ht₂.trans ht₁, fun f => ?_⟩
    rw [foldl_cons, hb₂, hb₁, or_assoc]
    simp

/-- Rounding up does not wrap for a reserved end below `2 ^ 32 - 4096`. -/
lemma alignUp_pageSize {v : ℕ} (h : v < 2 ^ 32 - 4096) :
    alignUp v pageSize = (v + 4095) / 4096 * 4096 := by
  unfold alignUp pageSize
  rw [u32_of_lt (by omega)]
  rfl

/-- The protected low memory ends at the larger of the reserved end, rounded up to a page, and
the end of the largest heap; it is page aligned and below 4 GB. -/
lemma lowProtect_eq {reservedEnd : UInt32} (h : reservedEnd.toNat < 2 ^ 32 - 4096) :
    lowProtect reservedEnd =
        max ((reservedEnd.toNat + 4095) / 4096 * 4096) (heapStart + heapMaxSize) ∧
      lowProtect reservedEnd % pageSize = 0 ∧ lowProtect reservedEnd ≤ 0xFFFFF000 ∧
      0 < lowProtect reservedEnd := by
  unfold lowProtect
  rw [alignUp_pageSize h]
  unfold heapStart heapMaxSize pageSize
  dsimp only
  split_ifs <;> omega

/-- `pmm_init` frees the frames from the protected low memory up to `total_frames`. -/
lemma pmmInit_spec (memSize reservedEnd : UInt32) (h : reservedEnd.toNat < 2 ^ 32 - 4096) :
    WF (pmmInit memSize reservedEnd) ∧
      ∀ f < (pmmInit memSize reservedEnd).totalFrames,
        (pmmInit memSize reservedEnd).used f = false ↔ lowProtect reservedEnd ≤ f * pageSize := by
  obtain ⟨-, hmod, -, -⟩ := lowProtect_eq h
  unfold pmmInit
  set total := if memSize.toNat / pageSize > bitmapSize * 32 then bitmapSize * 32
    else memSize.toNat / pageSize with htotal
  have hle : total ≤ bitmapSize * 32 := by rw [htotal]; split_ifs <;> omega
  obtain ⟨hw, hall⟩ := wf_allUsed hle
  have hfreed := hw.freeRange (lowProtect reservedEnd / pageSize) total (fun _ => le_rfl)
  refine ⟨hfreed.wf, fun f hf => ?_⟩
  rw [hfreed.total] at hf
  have hft : f < total := hf
  rw [hfreed.clear_iff_of_free, hall f (lt_of_lt_of_le hf hle)]
  simp only [hft, and_true, Bool.true_eq_false, false_or]
  unfold pageSize at *
  omega

/-- `pmm_reserve_region` marks the frames of its region and keeps the counters exact. -/
lemma WF.pmmReserveRegion {s : State} (hs : WF s) (base size : UInt32) :
    Marked s (pmmReserveRegion s base size) true fun g =>
      startFrame base ≤ g ∧ g < min (endFrame base size) (bitmapSize * 32) :=
  hs.useRange (min_le_right _ _)

/-- The last step of `pmm_init_mmap` reserves the frames below the protected end. -/
lemma mem_lowRegion_iff {reservedEnd : UInt32} (h : reservedEnd.toNat < 2 ^ 32 - 4096) (f : ℕ) :
    startFrame 0 ≤ f ∧ f < min (endFrame 0 (UInt32.ofNat (lowProtect reservedEnd)))
      (bitmapSize * 32) ↔ f * pageSize < lowProtect reservedEnd := by
  obtain ⟨-, hmod, hle, -⟩ := lowProtect_eq h
  have hsize : (UInt32.ofNat (lowProtect reservedEnd)).toNat = lowProtect reservedEnd := by
    rw [UInt32.toNat_ofNat']
    omega
  unfold startFrame endFrame alignUp alignDown u32
  rw [hsize]
  unfold pageSize bitmapSize at *
  simp only [UInt32.toNat_zero]
  split_ifs <;> omega

/-- **Initialisation**: whatever the boot information, the allocator starts well formed and leaves
clear exactly the permitted frames.

**Proof sketch.** On the fallback path this is `pmmInit_spec`. On the memory-map path the second
loop clears the frames of the available entries (`foldl_freeEntry`), the first loop having made
`total_frames` an upper bound of all of them (`foldl_highest`); the final reservation marks the
frames below the protected end. -/
theorem pmmInitMmap_spec (mbi : Option MultibootInfo) (fallbackMemSize reservedEnd : UInt32)
    (h : reservedEnd.toNat < 2 ^ 32 - 4096) :
    WF (pmmInitMmap mbi fallbackMemSize reservedEnd) ∧
      ∀ f < (pmmInitMmap mbi fallbackMemSize reservedEnd).totalFrames,
        (pmmInitMmap mbi fallbackMemSize reservedEnd).used f = false ↔
          Permitted mbi reservedEnd f := by
  obtain ⟨hwi, hci⟩ := pmmInit_spec fallbackMemSize reservedEnd h
  unfold Permitted
  cases mbi with
  | none => exact ⟨hwi, fun f hf => by simp [pmmInitMmap, hci f hf]⟩
  | some m =>
    by_cases hm : hasMmap m
    swap
    · simp only [pmmInitMmap, hm, not_false_eq_true, if_true]
      exact ⟨hwi, fun f hf => by simp [hci f hf, UsesMmap, hm]⟩
    by_cases htop : highestAvail m.mmap = 0
    · simp only [pmmInitMmap, hm, not_true_eq_false, if_false, htop, if_true]
      exact ⟨hwi, fun f hf => by simp [hci f hf, UsesMmap, htop]⟩
    obtain ⟨-, hhigh, hbound⟩ := foldl_highest m.mmap 0 (by norm_num)
    change highestAvail m.mmap ≤ _ at hhigh
    have hpages : highestAvail m.mmap / pageSize ≤ 0xFFFFF := by
      unfold pageSize
      omega
    have hcap : highestAvail m.mmap / pageSize ≤ bitmapSize * 32 := hpages.trans (by decide)
    obtain ⟨hw₀, hall⟩ := wf_allUsed hcap
    obtain ⟨hw₁, ht₁, hb₁⟩ := foldl_freeEntry m.mmap hw₀
      (fun e he hu hlt => Nat.div_le_div_right (hbound e he hu hlt))
    have hlow := hw₁.pmmReserveRegion 0 (UInt32.ofNat (lowProtect reservedEnd))
    simp only [pmmInitMmap, hm, not_true_eq_false, if_false, htop]
    refine ⟨hlow.wf, fun f hf => ?_⟩
    rw [hlow.total, ht₁] at hf
    have hf' : f < highestAvail m.mmap / pageSize := hf
    have hused := hall f (lt_of_lt_of_le hf hcap)
    simp only [hlow.clear_iff_of_used, mem_lowRegion_iff h, hb₁, hused, Bool.true_eq_false,
      false_or, not_lt, ← MmapEntry.holds_iff _ (hf'.trans_le hpages)]
    simp [UsesMmap, hm, htop, and_comm]

/-! ## Allocation -/

/-- The inner loop finds a clear bit of a word that is not all ones. -/
lemma firstClear_spec {x : BitVec 32} (h : x ≠ BitVec.allOnes 32) :
    ∃ j < 32, firstClear x = some j ∧ x.getLsbD j = false := by
  obtain ⟨k, hk, hclear⟩ := exists_clear_of_ne_allOnes h
  cases hfc : firstClear x with
  | none =>
    rw [firstClear, find?_eq_none] at hfc
    have := hfc k (mem_range.mpr hk)
    simp only [decide_eq_true_eq] at this
    exact absurd ((and_mask_eq_zero_iff hk).mpr hclear) this
  | some j =>
    have hj : j < 32 := mem_range.mp (mem_of_find?_eq_some hfc)
    have hz := find?_some hfc
    simp only [decide_eq_true_eq] at hz
    exact ⟨j, hj, rfl, (and_mask_eq_zero_iff hj).mp hz⟩

/-- The outer loop: either every word still to scan is full and nothing changes, or a clear
frame of one of them is handed out.

**Proof sketch.** Induction on the words. A full word is skipped. A word that is not full has a
clear bit (`firstClear_spec`); its frame number is below `total_frames`, the bits past it being
all set. -/
lemma allocScan_spec {s : State} (hs : WF s) (words : List (Fin bitmapSize)) :
    (allocScan s words = (s, 0) ∧ ∀ i ∈ words, ∀ j < 32, s.used (i * 32 + j) = true) ∨
      ∃ f < s.totalFrames, s.used f = false ∧ (allocScan s words).2 = f * pageSize ∧
        Marked s (allocScan s words).1 true (· = f) := by
  induction words with
  | nil => exact Or.inl ⟨rfl, by simp⟩
  | cons i rest ih =>
    unfold allocScan
    by_cases hfull : s.bitmap i = BitVec.allOnes 32
    · rw [if_pos hfull]
      rcases ih with ⟨h0, hall⟩ | hfound
      · refine Or.inl ⟨h0, fun k hk j hj => ?_⟩
        rcases mem_cons.mp hk with rfl | hmem
        · rw [State.used, bit_word _ _ hj, hfull, BitVec.getLsbD_allOnes]
          simpa using hj
        · exact hall k hmem j hj
      · exact Or.inr hfound
    · obtain ⟨j, hj, hfc, hclear⟩ := firstClear_spec hfull
      have hfree : s.used (i * 32 + j) = false := by rw [State.used, bit_word _ _ hj, hclear]
      have hcap : i * 32 + j < bitmapSize * 32 := by
        have := i.isLt
        omega
      have hlt : ¬ i * 32 + j ≥ s.totalFrames := by
        intro hge
        rw [hs.high _ hge hcap] at hfree
        exact absurd hfree (by simp)
      rw [if_neg hfull, hfc]
      dsimp only
      rw [if_neg hlt]
      have hb : ∀ g, bit (setBit s.bitmap i j) g = (s.used g || decide (g = i * 32 + j)) :=
        fun g => bit_setBit _ _ hj g
      have hself : bit (setBit s.bitmap i j) (i * 32 + j) = true := by simp [hb]
      have hrest : ∀ g, ¬g = i * 32 + j → bit (setBit s.bitmap i j) g = s.used g :=
        fun g hg => by simp [hb, hg]
      refine Or.inr ⟨i * 32 + j, by omega, hfree, rfl, ?_, rfl, ?_, hrest⟩
      · refine hs.flip (by omega) rfl hrest ?_ ?_
        · rw [hfree]
          exact hself
        · simp only [State.used] at hfree ⊢
          rw [hfree, hself]
          rfl
      · rintro g rfl
        exact hself

/-- **What an allocation does**: it hands out a clear frame below `total_frames`, or it returns
`0`, changes nothing, and there is none. -/
lemma pmmAllocFrame_spec {s : State} (hs : WF s) :
    (pmmAllocFrame s = (s, 0) ∧ ∀ f < s.totalFrames, s.used f = true) ∨
      ∃ f < s.totalFrames, s.used f = false ∧ (pmmAllocFrame s).2 = f * pageSize ∧
        Marked s (pmmAllocFrame s).1 true (· = f) := by
  rcases allocScan_spec hs (List.finRange bitmapSize) with ⟨h0, hall⟩ | hfound
  · refine Or.inl ⟨h0, fun f hf => ?_⟩
    have hcap : f < bitmapSize * 32 := lt_of_lt_of_le hf hs.total_le
    have := hall ⟨f / 32, div_lt_bitmapSize hcap⟩ (mem_finRange _) (f % 32)
      (Nat.mod_lt _ (by norm_num))
    rwa [Nat.div_add_mod'] at this
  · exact Or.inr hfound

/-! ## Runs -/

/-- A state of a run: the allocator, with the frames handed out and the frames reserved. -/
structure Run where
  pmm : State
  allocated : Finset ℕ
  reserved : Finset ℕ

/-- The calls of a run. -/
inductive Op
  | alloc
  | free (addr : UInt32)
  | reserve (base size : UInt32)

/-- The frames that `pmm_reserve_region` marks. -/
def regionFrames (base size : UInt32) : Finset ℕ :=
  Finset.Ico (startFrame base) (min (endFrame base size) (bitmapSize * 32))

/-- What a caller may do: release frames it holds, reserve regions without frames in use. -/
def Run.Allows (r : Run) : Op → Prop
  | .alloc => True
  | .free addr => addr.toNat / pageSize ∈ r.allocated
  | .reserve base size => Disjoint (regionFrames base size) r.allocated

/-- The run after an allocation that left the allocator in `s` and returned address `a`. -/
def Run.grant (r : Run) (s : State) (a : ℕ) : Run :=
  { r with pmm := s, allocated := if a = 0 then r.allocated else insert (a / pageSize) r.allocated }

/-- The run after a call. -/
def Run.apply (r : Run) : Op → Run
  | .alloc => r.grant (pmmAllocFrame r.pmm).1 (pmmAllocFrame r.pmm).2
  | .free addr =>
    { r with
      pmm := pmmFreeFrame r.pmm addr
      allocated := r.allocated.erase (addr.toNat / pageSize) }
  | .reserve base size =>
    { r with
      pmm := pmmReserveRegion r.pmm base size
      reserved := r.reserved ∪ regionFrames base size }

/-- The allocator after `pmm_init_mmap`, driven by any sequence of allowed calls. -/
def system (mbi : Option MultibootInfo) (fallbackMemSize reservedEnd : UInt32) : System Run Op where
  init r := r = ⟨pmmInitMmap mbi fallbackMemSize reservedEnd, ∅, ∅⟩
  step r op r' := r.Allows op ∧ r' = r.apply op

/-- The invariant of the runs: the counters are exact, the clear frames are the permitted ones that
are neither handed out nor reserved, and what is handed out is permitted and not reserved. -/
structure Inv (mbi : Option MultibootInfo) (reservedEnd : UInt32) (r : Run) : Prop where
  wf : WF r.pmm
  clear : ∀ f < r.pmm.totalFrames, r.pmm.used f = false ↔
    Permitted mbi reservedEnd f ∧ f ∉ r.allocated ∧ f ∉ r.reserved
  held : ∀ f ∈ r.allocated, f < r.pmm.totalFrames ∧ Permitted mbi reservedEnd f
  apart : Disjoint r.allocated r.reserved

variable {mbi : Option MultibootInfo} {reservedEnd : UInt32} {r : Run}

/-- Frame 0 is not permitted. -/
lemma Permitted.pos (h : reservedEnd.toNat < 2 ^ 32 - 4096) {f : ℕ}
    (hf : Permitted mbi reservedEnd f) : 0 < f * pageSize :=
  (lowProtect_eq h).2.2.2.trans_le hf.1

/-- Handing out a clear frame keeps the invariant. -/
lemma Inv.grant (h : reservedEnd.toNat < 2 ^ 32 - 4096) (hi : Inv mbi reservedEnd r) {f : ℕ}
    {t : State} (hf : f < r.pmm.totalFrames) (hfree : r.pmm.used f = false)
    (htake : Marked r.pmm t true (· = f)) : Inv mbi reservedEnd (r.grant t (f * pageSize)) := by
  have htot := htake.total
  obtain ⟨hperm, hnew, hres⟩ := (hi.clear f hf).1 hfree
  have hdiv : f * pageSize / pageSize = f := Nat.mul_div_cancel f (by decide)
  have halloc : (r.grant t (f * pageSize)).allocated = insert f r.allocated := by
    rw [Run.grant, hdiv]
    exact if_neg (hperm.pos h).ne'
  refine ⟨htake.wf, fun g hg => ?_, fun g hg => ?_, ?_⟩
  · change g < t.totalFrames at hg
    change t.used g = false ↔ _
    rw [htot] at hg
    rw [htake.clear_iff_of_used, hi.clear g hg, halloc, Finset.mem_insert, not_or]
    tauto
  · change g < t.totalFrames ∧ _
    rw [htot]
    rw [halloc] at hg
    rcases Finset.mem_insert.mp hg with rfl | hold
    · exact ⟨hf, hperm⟩
    · exact hi.held g hold
  · rw [halloc]
    exact Finset.disjoint_insert_left.mpr ⟨hres, hi.apart⟩

/-- An allocation keeps the invariant. -/
lemma Inv.alloc (h : reservedEnd.toNat < 2 ^ 32 - 4096) (hi : Inv mbi reservedEnd r) :
    Inv mbi reservedEnd (r.apply .alloc) := by
  simp only [Run.apply]
  rcases pmmAllocFrame_spec hi.wf with ⟨h0, -⟩ | ⟨f, hf, hfree, hres, htake⟩
  · rw [h0]
    exact ⟨hi.wf, hi.clear, hi.held, hi.apart⟩
  · rw [hres]
    exact hi.grant h hf hfree htake

/-- Releasing a held frame keeps the invariant. -/
lemma Inv.free (hi : Inv mbi reservedEnd r) {addr : UInt32} (ha : r.Allows (.free addr)) :
    Inv mbi reservedEnd (r.apply (.free addr)) := by
  set f := addr.toNat / pageSize with hfdef
  have hheld : f ∈ r.allocated := ha
  obtain ⟨hlt, hperm⟩ := hi.held f hheld
  have hfreed := hi.wf.frameSetFree hlt
  have hpmm : pmmFreeFrame r.pmm addr = frameSetFree r.pmm f := by
    unfold pmmFreeFrame
    rw [← hfdef]
    exact if_pos hlt
  simp only [Run.apply]
  rw [hpmm, ← hfdef]
  refine ⟨hfreed.wf, fun g hg => ?_, fun g hg => ?_, ?_⟩
  · dsimp only at hg ⊢
    rw [hfreed.total] at hg
    rw [hfreed.clear_iff_of_free, hi.clear g hg, Finset.mem_erase]
    have hkept : f ∉ r.reserved := Finset.disjoint_left.mp hi.apart hheld
    by_cases hgf : g = f
    · simp [hgf, hperm, hkept]
    · simp [hgf]
  · dsimp only
    rw [hfreed.total]
    exact hi.held g (Finset.mem_of_mem_erase hg)
  · exact Finset.disjoint_of_subset_left (Finset.erase_subset _ _) hi.apart

/-- Reserving a region that holds no frame in use keeps the invariant. -/
lemma Inv.reserve (hi : Inv mbi reservedEnd r) {base size : UInt32}
    (ha : r.Allows (.reserve base size)) : Inv mbi reservedEnd (r.apply (.reserve base size)) := by
  have hmarked := hi.wf.pmmReserveRegion base size
  have hdis : Disjoint (regionFrames base size) r.allocated := ha
  simp only [Run.apply]
  refine ⟨hmarked.wf, fun g hg => ?_, fun g hg => ?_, ?_⟩
  · dsimp only at hg ⊢
    rw [hmarked.total] at hg
    rw [hmarked.clear_iff_of_used, hi.clear g hg, Finset.mem_union, not_or, regionFrames,
      Finset.mem_Ico]
    tauto
  · dsimp only
    rw [hmarked.total]
    exact hi.held g hg
  · exact Finset.disjoint_union_right.mpr ⟨hi.apart, hdis.symm⟩

/-- Every state of a run meets the invariant. -/
lemma inv_of_reachable {fallbackMemSize : UInt32} (h : reservedEnd.toNat < 2 ^ 32 - 4096)
    (hr : (system mbi fallbackMemSize reservedEnd).Reachable r) : Inv mbi reservedEnd r := by
  refine hr.invariant _ ?_ ?_
  · rintro s rfl
    obtain ⟨hw, hc⟩ := pmmInitMmap_spec mbi fallbackMemSize reservedEnd h
    exact ⟨hw, by simpa using hc, by simp, by simp⟩
  · rintro s op t hi ⟨ha, rfl⟩
    cases op with
    | alloc => exact hi.alloc h
    | free addr => exact hi.free ha
    | reserve base size => exact hi.reserve ha

/-- **The frame allocator is correct.** After `pmm_init_mmap` on any memory map (or the fallback
size) and any sequence of allocations, releases of held frames and reservations of regions
without held frames: the set bits below `total_frames` are the frames that are held, reserved or
not available, `used_frames` is their number, and the number of free frames reported is exact; a
non-zero allocation result is page aligned, at or above the protected low memory, below
`total_frames` pages, neither held nor reserved and, on the memory-map path, a page of one AVAILABLE
entry; and the result is `0` only when every frame below `total_frames` is in use.

**Proof sketch.** The invariant holds in every reachable state (`inv_of_reachable`), and the frame
that an allocation picks is clear (`pmmAllocFrame_spec`). A permitted frame is not frame `0`. -/
theorem frames_sound (mbi : Option MultibootInfo) (fallbackMemSize reservedEnd : UInt32)
    (h : reservedEnd.toNat < 2 ^ 32 - 4096) (r : Run)
    (hr : (system mbi fallbackMemSize reservedEnd).Reachable r) :
    (∀ f < r.pmm.totalFrames, r.pmm.used f = true ↔
      f ∈ r.allocated ∨ f ∈ r.reserved ∨ ¬ Permitted mbi reservedEnd f) ∧
    r.pmm.usedFrames = Nat.count (fun f => r.pmm.used f = true) r.pmm.totalFrames ∧
    pmmGetFreeFrames r.pmm = Nat.count (fun f => ¬ r.pmm.used f = true) r.pmm.totalFrames ∧
    (∀ a, (pmmAllocFrame r.pmm).2 = a → a ≠ 0 →
      a % pageSize = 0 ∧
      max ((reservedEnd.toNat + 4095) / 4096 * 4096) (heapStart + heapMaxSize) ≤ a ∧
      a < r.pmm.totalFrames * pageSize ∧
      a / pageSize ∉ r.allocated ∧ a / pageSize ∉ r.reserved ∧
      ∀ m ∈ mbi, UsesMmap m → ∃ e ∈ m.mmap, e.type = mmapAvailable ∧
        e.addr.toNat ≤ a ∧ a + pageSize ≤ e.addr.toNat + e.len.toNat) ∧
    ((pmmAllocFrame r.pmm).2 = 0 → ∀ f < r.pmm.totalFrames, r.pmm.used f = true) := by
  have hi := inv_of_reachable h hr
  obtain ⟨hlow, -, -, -⟩ := lowProtect_eq h
  refine ⟨fun f hf => ?_, hi.wf.count, ?_, ?_, ?_⟩
  · rw [← Bool.not_eq_false, hi.clear f hf]
    tauto
  · have hsum := count_add_count_not (fun f => r.pmm.used f = true) r.pmm.totalFrames
    rw [← hi.wf.count] at hsum
    unfold pmmGetFreeFrames
    split_ifs <;> omega
  · intro a ha hne
    rcases pmmAllocFrame_spec hi.wf with ⟨h0, -⟩ | ⟨f, hf, hfree, hres, -⟩
    · rw [h0] at ha
      exact absurd ha.symm hne
    · obtain ⟨⟨hperm, havail⟩, hnew, hkept⟩ := (hi.clear f hf).1 hfree
      rw [hres] at ha
      subst ha
      rw [Nat.mul_div_cancel f (by decide), ← hlow]
      refine ⟨Nat.mul_mod_left _ _, hperm, Nat.mul_lt_mul_of_pos_right hf (by decide), hnew, hkept,
        fun m hm hu => ?_⟩
      obtain ⟨e, he, ht, hstart, hend, -⟩ := havail m hm hu
      exact ⟨e, he, ht, hstart, hend⟩
  · intro hz
    rcases pmmAllocFrame_spec hi.wf with ⟨-, hall⟩ | ⟨f, hf, hfree, hres, -⟩
    · exact hall
    · have hpos := ((hi.clear f hf).1 hfree).1.pos h
      rw [hres] at hz
      omega

/-- A boot map with 64 MB of memory above the first megabyte. -/
def smallBoot : MultibootInfo := ⟨64, [⟨0, 0x9F000, 1⟩, ⟨0x100000, 0x3F00000, 1⟩]⟩

/-- The run on `smallBoot` that allocates one frame. -/
def smallRun : Run :=
  Run.apply ⟨pmmInitMmap (some smallBoot) 0x1000000 0x600000, ∅, ∅⟩ .alloc

/-- The marks and the counter are exact after one allocation on a 64 MB machine. -/
theorem frames_sound_smallRun :
    (0x600000 : UInt32).toNat < 2 ^ 32 - 4096 ∧
      (system (some smallBoot) 0x1000000 0x600000).Reachable smallRun ∧
      (∀ f < smallRun.pmm.totalFrames, smallRun.pmm.used f = true ↔
        f ∈ smallRun.allocated ∨ f ∈ smallRun.reserved ∨ ¬ Permitted (some smallBoot) 0x600000 f) ∧
      smallRun.pmm.usedFrames =
        Nat.count (fun f => smallRun.pmm.used f = true) smallRun.pmm.totalFrames := by
  have hr : (system (some smallBoot) 0x1000000 0x600000).Reachable smallRun :=
    System.Reachable.step (System.Reachable.init rfl)
      (show Run.Allows _ .alloc ∧ _ from ⟨trivial, rfl⟩)
  have hend : (0x600000 : UInt32).toNat < 2 ^ 32 - 4096 := by decide
  obtain ⟨hmarks, hcount, -⟩ := frames_sound _ _ _ hend _ hr
  exact ⟨hend, hr, hmarks, hcount⟩

end BengalTiger.Pmm
