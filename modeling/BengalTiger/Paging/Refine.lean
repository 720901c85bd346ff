import BengalTiger.Paging.Model
import BengalTiger.Lib.TwoLevel
import Mathlib.Data.Finset.Card
import Mathlib.Order.Interval.Finset.Nat

set_option autoImplicit false

/-!
# The page tables implement a page map

The page directory and the page tables in memory represent a two-level table (`Rep`): each present
directory entry holds the address of one of the 40 tables that the kernel owns, the eight of the
identity window and the 32 of the static pool, and no table is used twice. A lookup in the two-level
table is the page map that the calls see, and by which the processor translates their accesses to
the tables. So the calls work as long as the pages of the tables are mapped to themselves.

## Main definitions

* `Paging.PageMap`, `translate`, `mapPages` — page maps, what they do to an address, and
  the update by a region.
* `Paging.Call` — the calls, with the pages that are theirs.
* `Paging.Rep` — the memory represents a two-level table.
* `Paging.Layout.tablePages`, `Paging.Keeps` — the pages of the tables, mapped to themselves.

## Main results

* `Paging.Rep.pageTableFor`, `Paging.Rep.storeEntry` — a table is attached,
  an entry is written.
* `Paging.rep_pagingInstall` — the identity window.
* `Paging.Rep.exec` — every call updates its own pages.
* `Paging.paging_translates` — the address map after any calls.
-/

namespace BengalTiger.Paging

open ByteMem TwoLevel Function Option

/-! ## Page maps -/

/-- The number of pages of the address space. -/
def pageCount : ℕ := 1048576

/-- The frame of each page that is mapped. -/
abbrev PageMap := ℕ → Option ℕ

/-- The physical address of `v`, or 0 when its page is not mapped. -/
def translate (m : PageMap) (v : ℕ) : ℕ :=
  (m (v / pageSize)).elim 0 fun f => f * pageSize + v % pageSize

/-- The identity on the first 32 MB. -/
def identityMap : PageMap := fun q => if q < identityMapSize / pageSize then some q else none

/-- How far the page `q` is behind the page `v`, around the address space. -/
def pagesFrom (v q : ℕ) : ℕ := (q + pageCount - v) % pageCount

/-- Map the `n` pages from `v` on to the frames from `f` on. -/
def mapPages (m : PageMap) (v f n : ℕ) : PageMap := fun q =>
  if q < pageCount ∧ pagesFrom v q < n then some ((f + pagesFrom v q) % pageCount) else m q

lemma mapPages_zero (m : PageMap) (v f : ℕ) : mapPages m v f 0 = m := by
  funext q
  exact if_neg fun h => absurd h.2 (Nat.not_lt_zero _)

lemma mapPages_of_lt (m : PageMap) {v f n q : ℕ} (hq : q < pageCount) (h : pagesFrom v q < n) :
    mapPages m v f n q = some ((f + pagesFrom v q) % pageCount) :=
  if_pos ⟨hq, h⟩

/-- One page more. -/
lemma mapPages_succ (m : PageMap) {v f k : ℕ} (hv : v < pageCount) (hk : k < pageCount) :
    mapPages m v f (k + 1) =
      update (mapPages m v f k) ((v + k) % pageCount) (some ((f + k) % pageCount)) := by
  funext q
  have hq : q = (v + k) % pageCount ↔ q < pageCount ∧ pagesFrom v q = k := by
    simp only [pagesFrom, pageCount] at hv hk ⊢
    omega
  by_cases h : q = (v + k) % pageCount
  · obtain ⟨h1, h2⟩ := hq.mp h
    rw [← h, update_self, mapPages_of_lt _ h1 (by omega), h2]
  · rw [update_of_ne h, mapPages, mapPages]
    have hiff : (q < pageCount ∧ pagesFrom v q < k + 1) ↔ (q < pageCount ∧ pagesFrom v q < k) := by
      constructor
      · rintro ⟨h1, h2⟩
        exact ⟨h1, lt_of_le_of_ne (Nat.le_of_lt_succ h2) fun he => h (hq.mpr ⟨h1, he⟩)⟩
      · rintro ⟨h1, h2⟩
        exact ⟨h1, by omega⟩
    simp only [hiff]

/-! ## Calls -/

/-- The calls that change the map. -/
inductive Call
  | map (virt phys flags : UInt32)
  | mapRegion (virt phys size flags : UInt32)
  | unmap (virt : UInt32)

namespace Call

/-- The flags of a call. -/
def flags : Call → UInt32
  | map _ _ flags => flags
  | mapRegion _ _ _ flags => flags
  | unmap _ => 0

/-- The effect of a call. -/
def exec (L : Layout) (s : State) : Call → Option State
  | map virt phys flags => pagingMap L s virt.toNat phys.toNat flags.toNat
  | mapRegion virt phys size flags =>
    pagingMapRegion L s virt.toNat phys.toNat size.toNat flags.toNat
  | unmap virt => pagingUnmap s virt.toNat

/-- The first page of a call. -/
def first : Call → ℕ
  | map virt _ _ => virt.toNat / pageSize
  | mapRegion virt _ _ _ => virt.toNat / pageSize
  | unmap virt => virt.toNat / pageSize

/-- The number of pages of a call; a region has the pages that hold `size` bytes from the offset of
its physical address on. -/
def count : Call → ℕ
  | map _ _ _ => 1
  | mapRegion _ phys size _ =>
    if size.toNat = 0 then 0 else (phys.toNat % pageSize + size.toNat + (pageSize - 1)) / pageSize
  | unmap _ => 1

/-- The pages of a call. -/
def pages (c : Call) : Finset ℕ :=
  (Finset.range c.count).image fun k => (c.first + k) % pageCount

/-- The 4 MB regions above the identity window that a call touches. -/
def regions (c : Call) : Finset ℕ :=
  (c.pages.image fun q => q / 1024).filter fun d => identityMapTables ≤ d

/-- What a call means for the page map. -/
def apply (m : PageMap) : Call → PageMap
  | map virt phys _ =>
    update m (virt.toNat / pageSize) (some (phys.toNat / pageSize))
  | mapRegion virt phys size flags =>
    mapPages m (virt.toNat / pageSize) (phys.toNat / pageSize)
      (mapRegion virt phys size flags).count
  | unmap virt => update m (virt.toNat / pageSize) none

lemma first_lt (c : Call) : c.first < pageCount := by
  have h : ∀ x : UInt32, x.toNat / pageSize < pageCount := fun x => by
    have := x.toNat_lt
    simp only [pageSize, pageCount]
    omega
  cases c <;> exact h _

/-- The pages of a call, which may wrap around. -/
lemma mem_pages {c : Call} {q : ℕ} :
    q ∈ c.pages ↔ q < pageCount ∧ pagesFrom c.first q < c.count := by
  have hv := c.first_lt
  simp only [pages, Finset.mem_image, Finset.mem_range, pagesFrom]
  simp only [pageCount] at hv ⊢
  constructor
  · rintro ⟨k, hk, rfl⟩
    omega
  · rintro ⟨h1, h2⟩
    exact ⟨_, h2, by omega⟩

/-- The region of a page of a call. -/
lemma mem_regions {c : Call} {q : ℕ} (hq : q ∈ c.pages) (h : identityMapTables ≤ q / 1024) :
    q / 1024 ∈ c.regions :=
  Finset.mem_filter.mpr ⟨Finset.mem_image_of_mem _ hq, h⟩

/-- A call that touches few regions does not go around the address space. -/
lemma count_lt {c : Call} (h : c.regions.card ≤ staticPtPoolCount) : c.count < pageCount := by
  by_contra hn
  have hsub : Finset.Ico identityMapTables 1024 ⊆ c.regions := fun d hd => by
    obtain ⟨h1, h2⟩ := Finset.mem_Ico.mp hd
    have hdiv : d * 1024 / 1024 = d := Nat.mul_div_cancel _ (by norm_num)
    have hmem : d * 1024 ∈ c.pages := by
      refine mem_pages.mpr ⟨by simp only [pageCount]; omega, ?_⟩
      exact lt_of_lt_of_le (Nat.mod_lt _ (by decide)) (not_lt.mp hn)
    have := mem_regions hmem (by rw [hdiv]; exact h1)
    rwa [hdiv] at this
  have := Finset.card_le_card hsub
  rw [Nat.card_Ico] at this
  simp only [identityMapTables, staticPtPoolCount] at this h
  omega

/-- A call changes its own pages only. -/
lemma apply_of_notMem {m : PageMap} {c : Call} {q : ℕ} (hq : q ∉ c.pages) :
    c.apply m q = m q := by
  have hone : ∀ {v : ℕ}, c.first = v → c.count = 1 → q ≠ v := fun {v} h1 h2 he => hq <| by
    rw [mem_pages, h1, h2, he]
    have := c.first_lt
    rw [h1] at this
    simp only [pagesFrom, pageCount] at this ⊢
    omega
  cases c with
  | map virt phys flags => exact update_of_ne (hone rfl rfl) _ _
  | mapRegion virt phys size flags => exact if_neg fun h => hq (mem_pages.mpr h)
  | unmap virt => exact update_of_ne (hone rfl rfl) _ _

end Call

/-- The regions above the identity window that the calls touch. -/
def touched (cs : List Call) : Finset ℕ := cs.foldr (fun c R => c.regions ∪ R) ∅

/-- The state after `paging_install` and the calls; `none` for a page fault. -/
def runCalls (L : Layout) (s : State) (cs : List Call) : Option State :=
  cs.foldlM (Call.exec L) (pagingInstall L s)

/-- The page map after the calls. -/
def mapAfter (cs : List Call) : PageMap := cs.foldl Call.apply identityMap

lemma regions_subset_touched {cs : List Call} {c : Call} (h : c ∈ cs) : c.regions ⊆ touched cs := by
  induction cs with
  | nil => cases h
  | cons c' cs ih =>
    rcases List.mem_cons.mp h with rfl | h
    · exact Finset.subset_union_left
    · exact (ih h).trans Finset.subset_union_right

/-! ## Entries -/

section Entries

/-- The page of an address. -/
lemma and_pageMask {x : ℕ} (h : x < 4294967296) : x &&& pageMask = x / 4096 * 4096 := by
  have h1 : pageMask = (2 ^ 20 - 1) <<< 12 := by decide
  have h2 : x / 4096 * 4096 = (x >>> 12) <<< 12 := by
    rw [Nat.shiftLeft_eq, Nat.shiftRight_eq_div_pow]
  rw [h1, h2]
  refine Nat.eq_of_testBit_eq fun i => ?_
  rw [Nat.testBit_and, Nat.testBit_shiftLeft, Nat.testBit_shiftLeft, Nat.testBit_two_pow_sub_one,
    Nat.testBit_shiftRight]
  by_cases hi : 12 ≤ i
  · by_cases hj : i < 32
    · have h3 : i - 12 < 20 := by omega
      simp [hi, h3]
    · have h3 : x < 2 ^ i :=
        lt_of_lt_of_le h (Nat.pow_le_pow_right (by norm_num : 0 < 2) (not_lt.mp hj))
      simp [hi, Nat.testBit_lt_two_pow h3]
  · simp [hi]

/-- The flags of an entry are added to the address of its page. -/
lemma or_of_aligned {a f : ℕ} (ha : a % 4096 = 0) (hf : f < 4096) : a ||| f = a + f := by
  have h : a = 2 ^ 12 * (a / 4096) := by omega
  rw [h]
  exact (Nat.two_pow_add_eq_or_of_lt hf _).symm

lemma present_eq (x : ℕ) : x &&& pagePresent = x % 2 := Nat.and_one_is_mod x

lemma pdIndex_eq (virt : ℕ) : virt >>> 22 = virt / pageSize / 1024 := by
  rw [Nat.shiftRight_eq_div_pow, Nat.div_div_eq_div_mul]
  rfl

lemma ptIndex_eq (virt : ℕ) : (virt >>> 12) &&& 0x3FF = virt / pageSize % 1024 := by
  rw [Nat.shiftRight_eq_div_pow]
  exact Nat.and_two_pow_sub_one_eq_mod _ 10

/-- The frame of a table entry. -/
def decodePte (e : ℕ) : Option ℕ := if e &&& pagePresent = 0 then none else some (e / pageSize)

/-- The directory entry leads to the table at the given address, or nowhere. -/
def PointsTo (e : ℕ) : Option ℕ → Prop
  | none => e &&& pagePresent = 0
  | some a => e &&& pagePresent ≠ 0 ∧ e &&& pageMask = a

variable {a f : ℕ}

/-- A table entry with the flag `PAGE_PRESENT`. -/
lemma decodePte_or (ha : a % 4096 = 0) (hf : f < 4096) (hp : f % 2 = 1) :
    decodePte (a ||| f) = some (a / pageSize) := by
  rw [decodePte, or_of_aligned ha hf, present_eq, if_neg (by omega)]
  congr 1
  simp only [pageSize]
  omega

/-- A directory entry with the flag `PAGE_PRESENT`. -/
lemma pointsTo_or (ha : a % 4096 = 0) (hlt : a < 4294967296) (hf : f < 4096) (hp : f % 2 = 1) :
    PointsTo (a ||| f) (some a) := by
  have h : a + f < 4294967296 := by omega
  refine ⟨?_, ?_⟩
  · rw [or_of_aligned ha hf, present_eq]
    omega
  · rw [or_of_aligned ha hf, and_pageMask h]
    omega

end Entries

/-! ## The tables of the kernel -/

namespace Layout

variable (L : Layout)

/-- The address of the table `j`: the tables of the identity window stand behind the page directory,
the others in the static pool. -/
def slot (j : ℕ) : ℕ :=
  if j < identityMapTables then L.kernelEnd + pageSize * (j + 1)
  else L.staticPtPool + pageSize * (j - identityMapTables)

/-- The pages of the page directory and of the tables. -/
def tablePages : Finset ℕ :=
  insert (L.kernelEnd / pageSize)
    ((Finset.range (identityMapTables + staticPtPoolCount)).image fun j => L.slot j / pageSize)

/-- The page directory is aligned, behind the pool and in the identity window with its tables. -/
lemma kernelEnd_spec : L.kernelEnd % 4096 = 0 ∧ L.bssEnd ≤ L.kernelEnd ∧
    L.kernelEnd + 9 * 4096 ≤ 33554432 := by
  have h := L.room
  rw [show identityMapSize = 33554432 from rfl] at h
  simp only [identityMapTables, pageSize] at h
  simp only [kernelEnd, alignUp, u32, pageSize]
  omega

lemma kernelEnd_ne_zero : L.kernelEnd ≠ 0 := by
  obtain ⟨-, h2, -⟩ := L.kernelEnd_spec
  have h5 := L.pool_le
  simp only [staticPtPoolCount, pageSize] at h5
  omega

variable {L} {j j' : ℕ}

lemma slot_low (h : j < 8) : L.slot j = L.kernelEnd + 4096 * (j + 1) := if_pos h

lemma slot_high (h : 8 ≤ j) : L.slot j = L.staticPtPool + 4096 * (j - 8) := if_neg (not_lt.mpr h)

/-- A table is aligned, does not stand at `NULL`, ends in the identity window and is apart from the
page directory. -/
lemma slot_spec (hj : j < 40) :
    L.slot j % 4096 = 0 ∧ 0 < L.slot j ∧ L.slot j + 4096 ≤ 33554432 ∧
      (L.slot j + 4096 ≤ L.kernelEnd ∨ L.kernelEnd + 4096 ≤ L.slot j) := by
  obtain ⟨h1, h2, h3⟩ := L.kernelEnd_spec
  have h4 := L.pool_aligned
  have h5 := L.pool_le
  have h6 := L.pool_pos
  simp only [staticPtPoolCount, pageSize] at h4 h5
  rcases lt_or_ge j 8 with h | h
  · rw [slot_low h]
    omega
  · rw [slot_high h]
    omega

/-- The tables are apart. -/
lemma slot_apart (hj : j < 40) (hj' : j' < 40) (hne : j ≠ j') :
    L.slot j + 4096 ≤ L.slot j' ∨ L.slot j' + 4096 ≤ L.slot j := by
  obtain ⟨h1, h2, h3⟩ := L.kernelEnd_spec
  have h5 := L.pool_le
  simp only [staticPtPoolCount, pageSize] at h5
  rcases lt_or_ge j 8 with h | h <;> rcases lt_or_ge j' 8 with h' | h'
  · rw [slot_low h, slot_low h']
    omega
  · rw [slot_low h, slot_high h']
    omega
  · rw [slot_high h, slot_low h']
    omega
  · rw [slot_high h, slot_high h']
    omega

end Layout

/-! ## Representation -/

/-- A two-level table with directory index, table, index in the table and frame. -/
abbrev Tables := Table ℕ ℕ ℕ ℕ

/-- The page map of a two-level table. -/
def pageMapOf (t : Tables) : PageMap := fun q => t.lookup (q / 1024) (q % 1024)

/-- **The memory represents the two-level table** `t`. `P` are the regions above the identity window
that have a table; they are among `R`, of which there are not more than tables in the pool. -/
structure Rep (L : Layout) (R : Finset ℕ) (s : State) (t : Tables) (P : Finset ℕ) : Prop where
  pageDir : s.pageDir = L.kernelEnd
  cr3 : s.cr3 = some L.kernelEnd
  used : s.staticPtUsed = P.card
  subset : P ⊆ R
  card_le : R.card ≤ staticPtPoolCount
  mem_iff : ∀ d, d ∈ P ↔ identityMapTables ≤ d ∧ t.dir d ≠ none
  bound : ∀ d, t.dir d ≠ none → d < 1024
  low : ∀ d < identityMapTables, t.dir d = some d
  slot_lt : ∀ d j, t.dir d = some j → j < identityMapTables + P.card
  unshared : t.Unshared
  pde : ∀ d < 1024, PointsTo (load32 s.mem (L.kernelEnd + 4 * d)) ((t.dir d).map L.slot)
  pte : ∀ j < identityMapTables + P.card, ∀ i < 1024,
    decodePte (load32 s.mem (L.slot j + 4 * i)) = t.entry j i

section Rep

variable {L : Layout} {R P : Finset ℕ} {s : State} {t : Tables} {d i j : ℕ}

variable (h : Rep L R s t P)

include h

/-- The tables in use are among the 40 of the kernel. -/
lemma Rep.lt_forty (hj : j < identityMapTables + P.card) : j < 40 := by
  have hcard := (Finset.card_le_card h.subset).trans h.card_le
  simp only [identityMapTables, staticPtPoolCount] at hj hcard
  omega

/-- A region without a table leaves one in the pool. -/
lemma Rep.card_insert (hdir : t.dir d = none) (hsub : insert d P ⊆ R) :
    (insert d P).card = P.card + 1 ∧ P.card + 1 ≤ 32 ∧ identityMapTables + P.card < 40 := by
  have hcard : (insert d P).card = P.card + 1 :=
    Finset.card_insert_of_notMem fun hm => ((h.mem_iff d).mp hm).2 hdir
  have hle : P.card + 1 ≤ 32 := by
    rw [← hcard]
    exact (Finset.card_le_card hsub).trans h.card_le
  refine ⟨hcard, hle, ?_⟩
  simp only [identityMapTables]
  omega

/-- The directory entry of a region with a table. -/
lemma Rep.pde_some (hd : t.dir d = some j) :
    load32 s.mem (L.kernelEnd + 4 * d) &&& pagePresent ≠ 0 ∧
      load32 s.mem (L.kernelEnd + 4 * d) &&& pageMask = L.slot j := by
  have := h.pde d (h.bound d (by rw [hd]; simp))
  rw [hd] at this
  exact this

/-- The directory entry of a region without one. -/
lemma Rep.pde_none (hlt : d < 1024) (hd : t.dir d = none) :
    load32 s.mem (L.kernelEnd + 4 * d) &&& pagePresent = 0 := by
  have := h.pde d hlt
  rw [hd] at this
  exact this

omit h in
/-- The indices of an address. -/
lemma index_lt {v : ℕ} (hv : v < 4294967296) :
    v / pageSize / 1024 < 1024 ∧ v / pageSize % 1024 < 1024 := by
  simp only [pageSize]
  omega

/-- **The processor** translates by the page map. -/
lemma Rep.resolve {v : ℕ} (hv : v < 4294967296) :
    s.resolve v = (pageMapOf t (v / pageSize)).map fun f => f * pageSize + v % pageSize := by
  simp only [State.resolve, h.cr3, elim_some, pdIndex_eq, ptIndex_eq]
  rw [pageMapOf]
  cases hd : t.dir (v / pageSize / 1024) with
  | none =>
    rw [if_pos (h.pde_none (index_lt hv).1 hd), Table.lookup_of_none hd, map_none]
  | some j =>
    obtain ⟨h1, h2⟩ := h.pde_some hd
    have h3 := h.pte j (h.slot_lt _ j hd) _ (index_lt hv).2
    rw [if_neg h1, h2, Table.lookup_of_dir hd, ← h3, decodePte]
    split_ifs with hp
    · rfl
    · have hlow : v &&& 0xFFF = v % 4096 := Nat.and_two_pow_sub_one_eq_mod _ 12
      rw [and_pageMask (load32_lt _ _), hlow, or_of_aligned (by omega) (by omega), map_some]
      rfl

/-- **The pages of the tables are mapped to themselves.** -/
def Keeps (L : Layout) (m : PageMap) : Prop := ∀ q ∈ L.tablePages, m q = some q

omit h in
/-- An update of another page keeps them. -/
lemma Keeps.update {m : PageMap} (hk : Keeps L m) {q : ℕ} (hq : q ∉ L.tablePages) (v : Option ℕ) :
    Keeps L (update m q v) := by
  intro q' hq'
  have hne : q' ≠ q := by
    rintro rfl
    exact hq hq'
  rw [update_of_ne hne, hk q' hq']

variable (hk : Keeps L (pageMapOf t))

include hk

/-- A pointer to a table, or into the page directory, leads there. -/
lemma Rep.resolve_self {a b : ℕ} (ha : a % 4096 = 0) (hlt : a + 4096 ≤ 33554432)
    (hpage : a / pageSize ∈ L.tablePages) (hb : a ≤ b) (hb' : b < a + 4096) :
    s.resolve b = some b := by
  have hq : b / pageSize = a / pageSize := by
    simp only [pageSize]
    omega
  rw [h.resolve (by omega), hq, hk _ hpage, map_some]
  simp only [pageSize]
  congr 1
  omega

/-- A pointer into the page directory. -/
lemma Rep.resolve_dir (hd : d < 1024) :
    s.resolve (L.kernelEnd + 4 * d) = some (L.kernelEnd + 4 * d) := by
  obtain ⟨h1, -, h3⟩ := L.kernelEnd_spec
  exact h.resolve_self hk h1 (by omega) (Finset.mem_insert_self _ _) (by omega) (by omega)

/-- A pointer into a table. -/
lemma Rep.resolve_slot (hj : j < 40) (hi : i < 1024) :
    s.resolve (L.slot j + 4 * i) = some (L.slot j + 4 * i) := by
  obtain ⟨h1, -, h3, -⟩ := Layout.slot_spec (L := L) hj
  have hpage : L.slot j / pageSize ∈ L.tablePages :=
    Finset.mem_insert_of_mem (Finset.mem_image_of_mem _ (Finset.mem_range.mpr hj))
  exact h.resolve_self hk h1 h3 hpage (by omega) (by omega)

/-- **`paging_get_physical`** translates by the page map. -/
lemma Rep.pagingGetPhysical {v : ℕ} (hv : v < 4294967296) :
    pagingGetPhysical s v = some (translate (pageMapOf t) v) := by
  obtain ⟨hlt, hi⟩ := index_lt hv
  have hwalk := h.resolve hv
  simp only [State.resolve, h.cr3, elim_some, pdIndex_eq, ptIndex_eq] at hwalk
  simp only [Paging.pagingGetPhysical, h.pageDir, if_neg L.kernelEnd_ne_zero, pdIndex_eq,
    ptIndex_eq, State.load, h.resolve_dir hk hlt, map_some, bind_some, translate]
  cases hd : t.dir (v / pageSize / 1024) with
  | none =>
    rw [if_pos (h.pde_none hlt hd), pageMapOf, Table.lookup_of_none hd, elim_none]
  | some j =>
    obtain ⟨h1, h2⟩ := h.pde_some hd
    rw [if_neg h1, h2] at hwalk
    rw [if_neg h1, h2, h.resolve_slot hk (h.lt_forty (h.slot_lt _ j hd)) hi, map_some, map_some]
    split_ifs at hwalk ⊢
    · rw [map_eq_none_iff.mp hwalk.symm, elim_none]
    · obtain ⟨f, hf, hphys⟩ := map_eq_some_iff.mp hwalk.symm
      rw [hf, elim_some, hphys]

omit hk in
/-- **Writing a table entry** sets it in the two-level table. -/
lemma Rep.storeEntry (hj : j < identityMapTables + P.card) (hi : i < 1024) {e : ℕ}
    (he : e < 4294967296) :
    Rep L R { s with mem := store32 s.mem (L.slot j + 4 * i) e } (t.set j i (decodePte e)) P := by
  have hj' := h.lt_forty hj
  refine ⟨h.pageDir, h.cr3, h.used, h.subset, h.card_le, h.mem_iff, h.bound, h.low, h.slot_lt,
    h.unshared.set, fun d hd => ?_, fun j₁ hj₁ i₁ hi₁ => ?_⟩
  · have hs := (Layout.slot_spec (L := L) hj').2.2.2
    dsimp only
    rw [load32_store32_of_disjoint _ _ (by omega)]
    exact h.pde d hd
  · dsimp only
    rw [Table.entry_set]
    by_cases hjj : j₁ = j
    · subst hjj
      rw [update_self]
      by_cases hii : i₁ = i
      · subst hii
        rw [load32_store32_of_lt _ _ he, update_self]
      · rw [load32_store32_of_disjoint _ _ (by omega), update_of_ne hii]
        exact h.pte j₁ hj₁ i₁ hi₁
    · have hs := Layout.slot_apart (L := L) (h.lt_forty hj₁) hj' hjj
      rw [load32_store32_of_disjoint _ _ (by omega), update_of_ne hjj]
      exact h.pte j₁ hj₁ i₁ hi₁

omit h hk in
/-- The page map after an entry was set. -/
lemma pageMapOf_set (ht : t.Unshared) (hd : t.dir d = some j) (hi : i < 1024) (v : Option ℕ) :
    pageMapOf (t.set j i v) = update (pageMapOf t) (d * 1024 + i) v := by
  funext q
  by_cases hq : q = d * 1024 + i
  · have h1 : q / 1024 = d := by omega
    have h2 : q % 1024 = i := by omega
    rw [← hq, update_self, pageMapOf, h1, h2, Table.lookup_set_self hd]
  · have hne : q / 1024 ≠ d ∨ q % 1024 ≠ i := by omega
    rw [update_of_ne hq, pageMapOf, Table.lookup_set_of_ne ht hd hne]
    rfl

omit h hk in
/-- A table filled with zeros has no entries. -/
lemma load32_fill_zero (m : Mem) {a n b : ℕ} (h1 : a ≤ b) (h2 : b + 4 ≤ a + n) :
    load32 (fill m a 0 n) b = 0 := by
  have hz : ∀ k < 4, fill m a 0 n (b + k) = 0 := fun k hk => if_pos ⟨by omega, by omega⟩
  have h0 := hz 0 (by omega)
  rw [Nat.add_zero] at h0
  rw [load32, h0, hz 1 (by omega), hz 2 (by omega), hz 3 (by omega)]
  rfl

omit h hk in
lemma load32_fill_of_outside (m : Mem) {a n b : ℕ} (v : UInt8) (h : b + 4 ≤ a ∨ a + n ≤ b) :
    load32 (fill m a v n) b = load32 m b :=
  load32_congr fun k hk => fill_apply_of_outside m v (by omega)

omit h hk in
/-- The flags of a new directory entry. -/
lemma pdeFlags (flags : ℕ) :
    pagePresent ||| (pageWritable ||| (flags &&& (pageUser ||| pagePwt ||| pagePcd))) < 4096 ∧
      (pagePresent ||| (pageWritable ||| (flags &&& (pageUser ||| pagePwt ||| pagePcd)))) % 2 =
        1 := by
  have hg : flags &&& (pageUser ||| pagePwt ||| pagePcd) < 2 ^ 12 :=
    lt_of_le_of_lt Nat.and_le_right (by decide)
  exact ⟨Nat.or_lt_two_pow (n := 12) (by decide) (Nat.or_lt_two_pow (by decide) hg),
    Nat.or_mod_two_eq_one.mpr (.inl rfl)⟩

/-- The state after the next table of the pool was cleared and a directory entry written. -/
def State.addTable (s : State) (pt pdIndex pde : ℕ) : State :=
  { s with
    staticPtUsed := s.staticPtUsed + 1
    mem := store32 (fill s.mem pt 0 pageSize) (s.pageDir + 4 * pdIndex) pde }

omit hk in
/-- **Attaching the next table** of the pool to a region without one. -/
lemma Rep.addTable (hlt : d < 1024) (hdir : t.dir d = none) (hhigh : identityMapTables ≤ d)
    (hsub : insert d P ⊆ R) {pde : ℕ} (hpde : pde < 4294967296)
    (hpt : PointsTo pde (some (L.slot (identityMapTables + P.card)))) :
    Rep L R (s.addTable (L.slot (identityMapTables + P.card)) d pde)
      (t.attach d (identityMapTables + P.card)) (insert d P) := by
  obtain ⟨hcard, hle, hj⟩ := h.card_insert hdir hsub
  obtain ⟨-, -, -, hdirApart⟩ := Layout.slot_spec (L := L) hj
  -- the table is the next of the pool, and no entry points to it yet
  have hfresh : ∀ d', t.dir d' ≠ some (identityMapTables + P.card) := fun d' he =>
    lt_irrefl _ (h.slot_lt d' _ he)
  refine ⟨h.pageDir, h.cr3, ?_, hsub, h.card_le, fun d' => ?_, fun d' hd' => ?_,
    fun d' hd' => ?_, fun d' j' hj' => ?_, h.unshared.attach hfresh, fun d' hd' => ?_,
    fun j' hj' i' hi' => ?_⟩
  · rw [hcard, ← h.used]
    rfl
  · rw [Finset.mem_insert, h.mem_iff, Table.dir_attach]
    by_cases hdd : d' = d
    · subst hdd
      simp [hhigh]
    · simp [hdd]
  · rw [Table.dir_attach] at hd'
    by_cases hdd : d' = d
    · exact hdd ▸ hlt
    · rw [update_of_ne hdd] at hd'
      exact h.bound d' hd'
  · rw [Table.dir_attach, update_of_ne (by omega)]
    exact h.low d' hd'
  · rw [Table.dir_attach] at hj'
    rw [hcard]
    by_cases hdd : d' = d
    · rw [hdd, update_self] at hj'
      cases hj'
      omega
    · rw [update_of_ne hdd] at hj'
      have := h.slot_lt d' j' hj'
      omega
  · rw [Table.dir_attach, State.addTable]
    dsimp only
    by_cases hdd : d' = d
    · rw [hdd, update_self, h.pageDir, load32_store32_of_lt _ _ hpde]
      exact hpt
    · rw [update_of_ne hdd, h.pageDir, load32_store32_of_disjoint _ _ (by omega),
        load32_fill_of_outside _ _ (by simp only [pageSize]; omega)]
      exact h.pde d' hd'
  · rw [hcard] at hj'
    have hj40 : j' < 40 := by omega
    have hs := (Layout.slot_spec (L := L) hj40).2.2.2
    rw [State.addTable, Table.entry_attach]
    dsimp only
    rw [h.pageDir, load32_store32_of_disjoint _ _ (by omega)]
    by_cases hjj : j' = identityMapTables + P.card
    · rw [hjj, update_self, load32_fill_zero _ (by omega) (by simp only [pageSize]; omega)]
      rfl
    · have hap := Layout.slot_apart (L := L) hj40 hj hjj
      rw [update_of_ne hjj, load32_fill_of_outside _ _ (by simp only [pageSize]; omega)]
      exact h.pte j' (by omega) i' hi'

omit hk in
/-- Clearing the next table of the pool changes no table in use. -/
lemma Rep.clearNext (hj : identityMapTables + P.card < 40) :
    Rep L R { s with mem := fill s.mem (L.slot (identityMapTables + P.card)) 0 pageSize } t P := by
  refine ⟨h.pageDir, h.cr3, h.used, h.subset, h.card_le, h.mem_iff, h.bound, h.low, h.slot_lt,
    h.unshared, fun d hd => ?_, fun j hj' i hi => ?_⟩
  · have := (Layout.slot_spec (L := L) hj).2.2.2
    dsimp only
    rw [load32_fill_of_outside _ _ (by simp only [pageSize]; omega)]
    exact h.pde d hd
  · have := Layout.slot_apart (L := L) (hj'.trans hj) hj hj'.ne
    dsimp only
    rw [load32_fill_of_outside _ _ (by simp only [pageSize]; omega)]
    exact h.pte j hj' i hi

/-- **The table of a directory entry** is there, or a new one from the pool is attached.

**Proof sketch.** A region without a table is above the identity window and is not in `P`, so with
it there are at most 32, and the pool is not used up. The new table is cleared and the directory
entry written through pointers that lead to themselves. -/
lemma Rep.pageTableFor (hlt : d < 1024) (hd : identityMapTables ≤ d → d ∈ R) (flags : ℕ) :
    ∃ s' t' P' j, pageTableFor L s d flags = some (s', some (L.slot j)) ∧ Rep L R s' t' P' ∧
      t'.dir d = some j ∧ pageMapOf t' = pageMapOf t := by
  rw [Paging.pageTableFor, State.load, h.pageDir, h.resolve_dir hk hlt, map_some, bind_some]
  cases hdir : t.dir d with
  | some j =>
    obtain ⟨h1, h2⟩ := h.pde_some hdir
    rw [if_pos h1, h2]
    exact ⟨s, t, P, j, rfl, h, hdir, rfl⟩
  | none =>
    have hhigh : identityMapTables ≤ d := by
      by_contra hn
      rw [h.low d (not_le.mp hn)] at hdir
      cases hdir
    have hsub : insert d P ⊆ R := Finset.insert_subset (hd hhigh) h.subset
    obtain ⟨-, hle, hj⟩ := h.card_insert hdir hsub
    have hslot : L.staticPtPool + s.staticPtUsed * pageSize =
        L.slot (identityMapTables + P.card) := by
      rw [Layout.slot, if_neg (by omega), h.used, Nat.add_sub_cancel_left, Nat.mul_comm]
    have hclear : s.resolve (L.slot (identityMapTables + P.card)) =
        some (L.slot (identityMapTables + P.card)) := h.resolve_slot hk hj (i := 0) (by norm_num)
    have halloc : allocPageTable L s = some ({ s with
        staticPtUsed := s.staticPtUsed + 1
        mem := fill s.mem (L.slot (identityMapTables + P.card)) 0 pageSize },
        some (L.slot (identityMapTables + P.card))) := by
      rw [allocPageTable, if_pos (by rw [h.used]; exact hle), hslot]
      exact congrArg (Option.map _) (congrArg (Option.map _) hclear)
    -- the directory entry leads to that table
    obtain ⟨ha, -, hend, -⟩ := Layout.slot_spec (L := L) hj
    obtain ⟨hf1, hf2⟩ := pdeFlags flags
    have hpt := pointsTo_or ha (by omega) hf1 hf2
    have hpde := or_of_aligned ha hf1
    rw [← Nat.or_assoc, ← Nat.or_assoc] at hpt hpde
    refine ⟨_, _, _, identityMapTables + P.card, ?_,
      h.addTable hlt hdir hhigh hsub (by rw [hpde]; omega) hpt, update_self _ _ _, ?_⟩
    · rw [if_neg (not_not.mpr (h.pde_none hlt hdir)), halloc, bind_some, elim_some,
        State.addTable, h.pageDir]
      exact congrArg (Option.map _) (congrArg (Option.map _) ((h.clearNext hj).resolve_dir hk hlt))
    · funext q
      exact Table.lookup_attach hdir fun d' he => lt_irrefl _ (h.slot_lt d' _ he)

/-- **`paging_map`** maps one page. -/
lemma Rep.pagingMap {virt phys flags : ℕ} (hv : virt < 4294967296) (hp : phys < 4294967296)
    (hf : flags < 4096)
    (hd : identityMapTables ≤ virt / pageSize / 1024 → virt / pageSize / 1024 ∈ R) :
    ∃ s' t' P', pagingMap L s virt phys flags = some s' ∧ Rep L R s' t' P' ∧
      pageMapOf t' =
        update (pageMapOf t) (virt / pageSize) (some (phys / pageSize)) := by
  obtain ⟨hlt, hi⟩ := index_lt hv
  obtain ⟨s', t', P', j, e, h', hdir, hmap⟩ := h.pageTableFor hk hlt hd flags
  have hflags : (flags ||| pagePresent) < 4096 ∧ (flags ||| pagePresent) % 2 = 1 :=
    ⟨Nat.or_lt_two_pow (n := 12) hf (by decide), Nat.or_mod_two_eq_one.mpr (.inr rfl)⟩
  have hal : phys / 4096 * 4096 % 4096 = 0 := Nat.mul_mod_left _ _
  have hpte : ((phys &&& pageMask) ||| (flags ||| pagePresent)) < 4294967296 := by
    rw [and_pageMask hp, or_of_aligned hal hflags.1]
    omega
  have hdec : decodePte ((phys &&& pageMask) ||| (flags ||| pagePresent)) =
      some (phys / pageSize) := by
    rw [and_pageMask hp, decodePte_or hal hflags.1 hflags.2]
    congr 1
    exact Nat.mul_div_cancel _ (by norm_num)
  have hnew := h'.storeEntry (h'.slot_lt _ _ hdir) hi hpte
  rw [hdec] at hnew
  rw [← hmap] at hk
  have hself := h'.resolve_slot hk (h'.lt_forty (h'.slot_lt _ _ hdir)) hi
  refine ⟨_, _, P', ?_, hnew, ?_⟩
  · simp only [Paging.pagingMap, h.pageDir, if_neg L.kernelEnd_ne_zero, pdIndex_eq, ptIndex_eq, e,
      bind_some, elim_some, State.store, hself, map_some]
  · rw [pageMapOf_set h'.unshared hdir hi, hmap, Nat.div_add_mod']

/-- **`paging_unmap`** unmaps one page. -/
lemma Rep.pagingUnmap {virt : ℕ} (hv : virt < 4294967296) :
    ∃ s' t' P', pagingUnmap s virt = some s' ∧ Rep L R s' t' P' ∧
      pageMapOf t' = update (pageMapOf t) (virt / pageSize) none := by
  obtain ⟨hlt, hi⟩ := index_lt hv
  simp only [Paging.pagingUnmap, h.pageDir, if_neg L.kernelEnd_ne_zero, pdIndex_eq, ptIndex_eq,
    State.load, h.resolve_dir hk hlt, map_some, bind_some]
  cases hd : t.dir (virt / pageSize / 1024) with
  | none =>
    rw [if_pos (h.pde_none hlt hd)]
    refine ⟨s, t, P, rfl, h, (update_eq_self_iff.mpr ?_).symm⟩
    rw [pageMapOf, Table.lookup_of_none hd]
  | some j =>
    obtain ⟨h1, h2⟩ := h.pde_some hd
    have hj := h.slot_lt _ _ hd
    rw [if_neg h1, h2, State.store, h.resolve_slot hk (h.lt_forty hj) hi, map_some]
    refine ⟨_, _, P, rfl, h.storeEntry hj hi (by norm_num), ?_⟩
    rw [pageMapOf_set h.unshared hd hi, Nat.div_add_mod']
    rfl

/-- **`paging_map_region`** maps the pages of the region.

**Proof sketch.** The region has fewer than `2 ^ 20` pages, so the sums of the C code do not
overflow and the loop runs once for each page. After `k` iterations `k` pages are mapped, and none
of them belongs to a table. -/
lemma Rep.pagingMapRegion {virt phys size flags : UInt32} (hf : flags.toNat < 4096)
    (hc : (Call.mapRegion virt phys size flags).regions ⊆ R)
    (hq : Disjoint (Call.mapRegion virt phys size flags).pages L.tablePages) :
    ∃ s' t' P', Call.exec L s (.mapRegion virt phys size flags) = some s' ∧ Rep L R s' t' P' ∧
      pageMapOf t' = Call.apply (pageMapOf t) (.mapRegion virt phys size flags) := by
  have hlt := Call.count_lt ((Finset.card_le_card hc).trans h.card_le)
  have hfirst : virt.toNat / pageSize < pageCount :=
    (Call.mapRegion virt phys size flags).first_lt
  by_cases hz : size.toNat = 0
  · -- nothing is mapped
    refine ⟨s, t, P, ?_, h, ?_⟩
    · rw [Call.exec, Paging.pagingMapRegion, if_pos hz]
    · rw [Call.apply, Call.count, if_pos hz, mapPages_zero]
  · have hcount : alignUp (u32 (size.toNat + (phys.toNat &&& (pageSize - 1)))) pageSize / pageSize =
        (Call.mapRegion virt phys size flags).count := by
      have hoff : phys.toNat &&& (pageSize - 1) = phys.toNat % 4096 :=
        Nat.and_two_pow_sub_one_eq_mod _ 12
      rw [Call.count, if_neg hz] at hlt ⊢
      simp only [pageSize, pageCount, alignUp, u32] at hlt hoff ⊢
      rw [hoff]
      omega
    rw [Call.exec, Paging.pagingMapRegion, if_neg hz]
    simp only [hcount]
    refine (forRange_induct (Nat.zero_le _) (fun k r => ∃ s' t' P', r = some s' ∧
      Rep L R s' t' P' ∧ Keeps L (pageMapOf t') ∧ pageMapOf t' =
        mapPages (pageMapOf t) (virt.toNat / pageSize) (phys.toNat / pageSize) k)
      ⟨s, t, P, rfl, h, hk, (mapPages_zero _ _ _).symm⟩ ?_).imp fun s' => Exists.imp fun t' =>
        Exists.imp fun P' hs' => ⟨hs'.1, hs'.2.1, hs'.2.2.2⟩
    rintro k r - hlt' ⟨s', t', P', rfl, h', hk', hmap⟩
    have hpage : ∀ x : ℕ, u32 (alignDown x pageSize + k * pageSize) / pageSize =
        (x / pageSize + k) % pageCount := fun x => by
      simp only [u32, alignDown, pageSize, pageCount]
      omega
    have hmem : (virt.toNat / pageSize + k) % pageCount ∈
        (Call.mapRegion virt phys size flags).pages :=
      Finset.mem_image.mpr ⟨k, Finset.mem_range.mpr hlt', rfl⟩
    obtain ⟨s'', t'', P'', e, h'', hmap'⟩ := h'.pagingMap hk' (u32_lt _) (u32_lt _) hf (by
      rw [hpage virt.toNat]
      exact fun hd => hc (Call.mem_regions hmem hd))
    refine ⟨s'', t'', P'', e, h'', ?_, ?_⟩
    · rw [hmap', hpage]
      exact hk'.update (Finset.disjoint_left.mp hq hmem) _
    · rw [hmap', hmap, hpage, hpage, mapPages_succ _ hfirst (hlt'.trans hlt)]

/-- **Every call** updates the page map. -/
lemma Rep.exec {c : Call} (hf : c.flags.toNat < 4096) (hc : c.regions ⊆ R)
    (hq : Disjoint c.pages L.tablePages) :
    ∃ s' t' P', c.exec L s = some s' ∧ Rep L R s' t' P' ∧ Keeps L (pageMapOf t') ∧
      pageMapOf t' = c.apply (pageMapOf t) := by
  have hkeep : Keeps L (c.apply (pageMapOf t)) := fun q hq' => by
    rw [Call.apply_of_notMem (Finset.disjoint_right.mp hq hq'), hk q hq']
  suffices hex : ∃ s' t' P', c.exec L s = some s' ∧ Rep L R s' t' P' ∧
      pageMapOf t' = c.apply (pageMapOf t) by
    obtain ⟨s', t', P', e, h', hmap⟩ := hex
    exact ⟨s', t', P', e, h', hmap ▸ hkeep, hmap⟩
  cases c with
  | map virt phys flags =>
    refine h.pagingMap hk virt.toNat_lt phys.toNat_lt hf fun hd => hc (Call.mem_regions ?_ hd)
    have := (Call.map virt phys flags).first_lt
    exact Finset.mem_image.mpr ⟨0, Finset.mem_range.mpr Nat.one_pos, Nat.mod_eq_of_lt this⟩
  | mapRegion virt phys size flags => exact h.pagingMapRegion hk hf hc hq
  | unmap virt => exact h.pagingUnmap hk virt.toNat_lt

/-- Any number of calls. -/
lemma Rep.run {cs : List Call} (hf : ∀ c ∈ cs, c.flags.toNat < 4096) (hc : ∀ c ∈ cs, c.regions ⊆ R)
    (hq : ∀ c ∈ cs, Disjoint c.pages L.tablePages) :
    ∃ s' t' P', cs.foldlM (Call.exec L) s = some s' ∧ Rep L R s' t' P' ∧ Keeps L (pageMapOf t') ∧
      pageMapOf t' = cs.foldl Call.apply (pageMapOf t) := by
  induction cs generalizing s t P with
  | nil => exact ⟨s, t, P, rfl, h, hk, rfl⟩
  | cons c cs ih =>
    obtain ⟨s₁, t₁, P₁, e₁, h₁, hk₁, hmap₁⟩ :=
      h.exec hk (hf c (by simp)) (hc c (by simp)) (hq c (by simp))
    obtain ⟨s₂, t₂, P₂, e₂, h₂, hk₂, hmap₂⟩ := ih h₁ hk₁ (fun c' hc' => hf c' (by simp [hc']))
      (fun c' hc' => hc c' (by simp [hc'])) fun c' hc' => hq c' (by simp [hc'])
    refine ⟨s₂, t₂, P₂, ?_, h₂, hk₂, by rw [hmap₂, hmap₁, List.foldl_cons]⟩
    rw [List.foldlM_cons, e₁]
    exact e₂

end Rep

/-! ## The identity window -/

section Install

/-- The two-level table of the identity window. -/
def identityTables : Tables where
  dir d := if d < identityMapTables then some d else none
  entry j i := some (j * 1024 + i)

/-- The identity tables map every page to itself. -/
lemma pageMapOf_identityTables : pageMapOf identityTables = identityMap := by
  funext q
  have h8 : identityMapSize / pageSize = 8192 := by decide
  by_cases hq : q < identityMapSize / pageSize
  · have hd : identityTables.dir (q / 1024) = some (q / 1024) :=
      if_pos (by simp only [identityMapTables]; omega)
    rw [pageMapOf, Table.lookup_of_dir hd, identityMap, if_pos hq]
    exact congrArg some (by omega)
  · have hd : identityTables.dir (q / 1024) = none :=
      if_neg (by simp only [identityMapTables]; omega)
    rw [pageMapOf, Table.lookup_of_none hd, identityMap, if_neg hq]

/-- A loop that fills the words of a table. -/
lemma load32_storeLoop (m : Mem) (a : ℕ) {lo hi : ℕ} (hle : lo ≤ hi) (f : ℕ → ℕ)
    (hf : ∀ i < hi, f i < 4294967296) :
    (∀ i, lo ≤ i → i < hi →
      load32 (forRange lo hi (fun m i => store32 m (a + 4 * i) (f i)) m) (a + 4 * i) = f i) ∧
    ∀ b, b + 4 ≤ a + 4 * lo ∨ a + 4 * hi ≤ b →
      load32 (forRange lo hi (fun m i => store32 m (a + 4 * i) (f i)) m) b = load32 m b := by
  refine forRange_induct hle (fun k m' =>
    (∀ i, lo ≤ i → i < k → load32 m' (a + 4 * i) = f i) ∧
    ∀ b, b + 4 ≤ a + 4 * lo ∨ a + 4 * k ≤ b → load32 m' b = load32 m b)
    ⟨fun i h1 h2 => absurd h1 (by omega), fun b _ => rfl⟩ ?_
  rintro k m' hlo hk ⟨h1, h2⟩
  refine ⟨fun i hi1 hi2 => ?_, fun b hb => ?_⟩
  · by_cases hik : i = k
    · rw [hik, load32_store32_of_lt _ _ (hf k hk)]
    · rw [load32_store32_of_disjoint _ _ (by omega)]
      exact h1 i hi1 (by omega)
  · rw [load32_store32_of_disjoint _ _ (by omega)]
    exact h2 b (by omega)

variable {L : Layout}

/-- The entry `PAGE_PRESENT | PAGE_WRITABLE` for an aligned address. -/
lemma entry_lt {a : ℕ} (ha : a % 4096 = 0) (hlt : a < 4294967296) :
    (a ||| pagePresent ||| pageWritable) < 4294967296 := by
  rw [Nat.or_assoc, or_of_aligned ha (by decide)]
  have : (pagePresent ||| pageWritable) = 3 := by decide
  omega

/-- The address of the page `i` in the window of the table `j`. -/
lemma identity_addr {j i : ℕ} : (j * 4 * 1024 * 1024 + i * pageSize) / pageSize = j * 1024 + i ∧
    (j * 4 * 1024 * 1024 + i * pageSize) % 4096 = 0 := by
  simp only [pageSize]
  omega

/-- **One table** of the identity window: its directory entry and its entries are written, and no
other word changes. -/
lemma installTable_spec (m : Mem) {j : ℕ} (hj : j < 8) :
    PointsTo (load32 (installTable L.kernelEnd (L.kernelEnd + pageSize) m j)
      (L.kernelEnd + 4 * j)) (some (L.slot j)) ∧
    (∀ i < 1024, decodePte (load32 (installTable L.kernelEnd (L.kernelEnd + pageSize) m j)
      (L.slot j + 4 * i)) = some (j * 1024 + i)) ∧
    ∀ b, (b + 4 ≤ L.kernelEnd + 4 * j ∨ L.kernelEnd + 4 * j + 4 ≤ b) →
      (b + 4 ≤ L.slot j ∨ L.slot j + 4096 ≤ b) →
      load32 (installTable L.kernelEnd (L.kernelEnd + pageSize) m j) b = load32 m b := by
  have hslot : L.kernelEnd + pageSize + j * pageSize = L.slot j := by
    rw [Layout.slot_low hj]
    simp only [pageSize]
    omega
  obtain ⟨ha, -, hend, hapart⟩ := Layout.slot_spec (L := L) (j := j) (by omega)
  obtain ⟨h1, h2⟩ := load32_storeLoop
    (store32 m (L.kernelEnd + 4 * j) (L.slot j ||| pagePresent ||| pageWritable)) (L.slot j)
    (Nat.zero_le 1024)
    (fun i => (j * 4 * 1024 * 1024 + i * pageSize) ||| pagePresent ||| pageWritable)
    (fun i hi => entry_lt identity_addr.2 (by simp only [pageSize]; omega))
  simp only [installTable, hslot]
  refine ⟨?_, fun i hi => ?_, fun b hb1 hb2 => ?_⟩
  · rw [h2 _ (by omega), load32_store32_of_lt _ _ (entry_lt ha (by omega)), Nat.or_assoc]
    exact pointsTo_or ha (by omega) (by decide) (by decide)
  · rw [h1 i (Nat.zero_le _) hi, Nat.or_assoc,
      decodePte_or identity_addr.2 (by decide) (by decide), identity_addr.1]
  · rw [h2 b (by omega), load32_store32_of_disjoint _ _ (by omega)]

/-- The first `k` tables of the identity window are as wanted. -/
def Installed (L : Layout) (k : ℕ) (m : Mem) : Prop :=
  ∀ j < k, PointsTo (load32 m (L.kernelEnd + 4 * j)) (some (L.slot j)) ∧
    ∀ i < 1024, decodePte (load32 m (L.slot j + 4 * i)) = some (j * 1024 + i)

/-- The next table touches none of those before it. -/
lemma Installed.succ {k : ℕ} {m : Mem} (h : Installed L k m) (hk : k < 8) :
    Installed L (k + 1) (installTable L.kernelEnd (L.kernelEnd + pageSize) m k) := by
  intro j hj
  obtain ⟨h1, h2, h3⟩ := installTable_spec (L := L) m hk
  by_cases hjk : j = k
  · subst hjk
    exact ⟨h1, h2⟩
  · have hk' := (Layout.slot_spec (L := L) (j := k) (by omega)).2.2.2
    have hj' := (Layout.slot_spec (L := L) (j := j) (by omega)).2.2.2
    have hap := Layout.slot_apart (L := L) (by omega : j < 40) (by omega : k < 40) hjk
    obtain ⟨ih1, ih2⟩ := h j (by omega)
    refine ⟨?_, fun i hi => ?_⟩
    · rw [h3 _ (by omega) (by omega)]
      exact ih1
    · rw [h3 _ (by omega) (by omega)]
      exact ih2 i hi

/-- The outer loop of `paging_install`. -/
lemma installed_loop (m : Mem) : Installed L identityMapTables
    (forRange 0 identityMapTables (installTable L.kernelEnd (L.kernelEnd + pageSize)) m) :=
  forRange_induct (Nat.zero_le _) (Installed L) (fun j hj => absurd hj (Nat.not_lt_zero j))
    fun _ _ _ hk h => h.succ hk

/-- **`paging_install`** sets up the identity window.

**Proof sketch.** The outer loop installs the tables of the window (`installed_loop`). The last loop
writes the directory entries that are not present. -/
lemma rep_pagingInstall {s : State} (hs : s.staticPtUsed = 0) {R : Finset ℕ}
    (hR : R.card ≤ staticPtPoolCount) :
    Rep L R (pagingInstall L s) identityTables ∅ := by
  have hloop := installed_loop (L := L) (fill s.mem L.kernelEnd 0 pageSize)
  obtain ⟨h1, h2⟩ := load32_storeLoop
    (forRange 0 identityMapTables (installTable L.kernelEnd (L.kernelEnd + pageSize))
      (fill s.mem L.kernelEnd 0 pageSize)) L.kernelEnd
    (show identityMapTables ≤ 1024 by decide) (fun _ => pageWritable) (fun _ _ => by decide)
  have h8 : identityMapTables = 8 := rfl
  have hused : (pagingInstall L s).staticPtUsed = s.staticPtUsed := by
    simp only [pagingInstall]
  have hmem : (pagingInstall L s).mem = forRange identityMapTables 1024
      (fun m i => store32 m (L.kernelEnd + 4 * i) pageWritable)
      (forRange 0 identityMapTables (installTable L.kernelEnd (L.kernelEnd + pageSize))
        (fill s.mem L.kernelEnd 0 pageSize)) := by
    simp only [pagingInstall]
  refine ⟨rfl, rfl, by rw [hused, hs, Finset.card_empty], Finset.empty_subset _, hR, fun d => ?_,
    fun d hd => ?_, fun d hd => if_pos hd, fun d j hj => ?_, fun d d' j hd hd' => ?_,
    fun d hd => ?_, fun j hj i hi => ?_⟩
  · simp [identityTables]
  · have : d < identityMapTables := by
      by_contra hn
      exact hd (if_neg hn)
    omega
  · simp only [identityTables, ite_none_right_eq_some, Option.some.injEq] at hj
    simp only [Finset.card_empty]
    omega
  · simp only [identityTables, ite_none_right_eq_some, Option.some.injEq] at hd hd'
    omega
  · by_cases hlow : d < identityMapTables
    · rw [show identityTables.dir d = some d from if_pos hlow]
      rw [hmem, h2 _ (by omega)]
      exact (hloop d hlow).1
    · rw [show identityTables.dir d = none from if_neg hlow]
      rw [hmem, h1 d (not_lt.mp hlow) hd]
      rfl
  · have hj8 : j < 8 := hj
    have hap := (Layout.slot_spec (L := L) (j := j) (by omega)).2.2.2
    rw [hmem, h2 _ (by omega)]
    exact (hloop j hj8).2 i hi

end Install

/-! ## Runs -/

section Run

variable {L : Layout} {s : State} {cs : List Call}

/-- The identity window holds the tables. -/
lemma keeps_identityMap (L : Layout) : Keeps L identityMap := by
  intro q hq
  have h8 : identityMapSize / pageSize = 8192 := by decide
  refine if_pos ?_
  rw [h8]
  obtain rfl | hq := Finset.mem_insert.mp hq
  · have := L.kernelEnd_spec
    simp only [pageSize]
    omega
  · obtain ⟨j, hj, rfl⟩ := Finset.mem_image.mp hq
    have := Layout.slot_spec (L := L) (Finset.mem_range.mp hj)
    simp only [pageSize]
    omega

/-- **After any calls** that leave the tables alone there was no page fault, and the memory
translates by the page map. -/
lemma pagingGetPhysical_runCalls {R : Finset ℕ} (hs : s.staticPtUsed = 0)
    (hR : R.card ≤ staticPtPoolCount) (hf : ∀ c ∈ cs, c.flags.toNat < 4096)
    (hc : ∀ c ∈ cs, c.regions ⊆ R) (hq : ∀ c ∈ cs, Disjoint c.pages L.tablePages) :
    ∃ s', runCalls L s cs = some s' ∧ ∀ v < 4294967296,
      pagingGetPhysical s' v = some (translate (mapAfter cs) v) := by
  have hk := keeps_identityMap L
  rw [← pageMapOf_identityTables] at hk
  obtain ⟨s', t, P, e, h, hk', hmap⟩ := (rep_pagingInstall (L := L) hs hR).run hk hf hc hq
  refine ⟨s', e, fun v hv => ?_⟩
  rw [h.pagingGetPhysical hk' hv, hmap, pageMapOf_identityTables, mapAfter]

/-- An address of a region with equal offsets translates to its place in the region. -/
lemma translate_region (m : PageMap) {virt phys size flags : UInt32} {a : ℕ}
    (hoff : virt.toNat % pageSize = phys.toNat % pageSize)
    (hv : virt.toNat + size.toNat ≤ 4294967296) (hp : phys.toNat + size.toNat ≤ 4294967296)
    (h1 : virt.toNat ≤ a) (h2 : a < virt.toNat + size.toNat) :
    translate (Call.apply m (.mapRegion virt phys size flags)) a =
      phys.toNat + (a - virt.toNat) := by
  have hsz : size.toNat ≠ 0 := by omega
  simp only [pageSize] at hoff
  have hfrom : pagesFrom (virt.toNat / pageSize) (a / pageSize) = a / 4096 - virt.toNat / 4096 := by
    simp only [pagesFrom, pageCount, pageSize]
    omega
  have hin : pagesFrom (virt.toNat / pageSize) (a / pageSize) <
      (Call.mapRegion virt phys size flags).count := by
    rw [hfrom, Call.count, if_neg hsz]
    simp only [pageSize]
    omega
  have hpage : a / pageSize < pageCount := by
    simp only [pageSize, pageCount]
    omega
  rw [translate, Call.apply, mapPages_of_lt _ hpage hin, elim_some, hfrom]
  simp only [pageSize, pageCount]
  omega

end Run

/-- A kernel linked at 1 MB. -/
def sampleLayout : Layout where
  staticPtPool := 0x00110000
  bssEnd := 0x00140000
  pool_pos := by decide
  pool_aligned := by decide
  pool_le := by decide
  room := by decide

/-- The state before `paging_install`, in empty memory. -/
def sampleState : State where
  mem := fun _ => 0
  pageDir := 0
  cr3 := none
  staticPtUsed := 0
  pmm := Pmm.allUsed 0

end BengalTiger.Paging
