import BengalTiger.Fat.Closed
import BengalTiger.Fat.Run

set_option autoImplicit false

/-!
# Volumes inside another device

The image of a volume is put at sector `base` of another device and mounted there. On a closed
volume the driver reads and writes sectors of the image only, and every one of its functions does
the same at `base` as at the beginning of a device. So any sequence of calls returns the same
results, changes the image in the same way, and leaves the rest of the other device alone.

## Main definitions

* `Fat.Fs.relocate` — the driver with the image of its volume at `base` of a device.
* `Fat.Fs.Fits` — a closed volume whose image fits there.
* `Fat.Fs.call`, `Fat.Fs.calls` — calls and their results.
* `Fat.lifetime` — the states of a volume after any calls.

## Main results

* `Fat.Fs.Fits.calls` — sequences of calls on the relocated volume.
* `Fat.Fs.Fits.mountAtLba_eq` — the copied image is mounted.
* `Fat.relocation_invariant` — the two disks.
-/

namespace BengalTiger.Fat

open BlockDevice List Option

namespace Fs

/-- The driver with the image of its volume put at sector `base` of the device `d`. -/
def relocate (s : Fs) (base : ℕ) (d : Device 512) : Fs where
  disk := d.patch base s.disk
  boot := s.boot
  volLbaOffset := base
  fatStartSector := base + s.fatStartSector
  rootStartSector := base + s.rootStartSector
  rootSectors := s.rootSectors
  dataStartSector := base + s.dataStartSector
  totalClusters := s.totalClusters
  fatType := s.fatType
  mounted := s.mounted

/-- The volume is closed, and its image fits into the device at `base`. -/
structure Fits (base : ℕ) (d : Device 512) (b₀ : Sector) (s : Fs) : Prop extends s.Closed b₀ where
  le : base + s.disk.size ≤ d.size
  lt : base + s.disk.size < 4294967296

/-- From `s` the driver came to `t`, and the relocated one to `t'`. -/
def Moved (base : ℕ) (d : Device 512) (b₀ : Sector) (s t t' : Fs) : Prop :=
  t' = t.relocate base d ∧ Sibling s t ∧ t.Fits base d b₀

/-- A function returned `r` from `s`, and `r'` from the relocated driver: the results are equal. -/
structure Agrees (base : ℕ) (d : Device 512) (b₀ : Sector) (s : Fs) {β : Type} (r r' : β × Fs) :
    Prop where
  result : r'.1 = r.1
  moved : Moved base d b₀ s r.2 r'.2

variable {base : ℕ} {d : Device 512} {b₀ : Sector} {s t t' u u' : Fs} {c v lba : ℕ}

lemma Fits.next (h : s.Fits base d b₀) (hst : Sibling s t) (ht : t.Closed b₀) :
    t.Fits base d b₀ where
  toClosed := ht
  le := by rw [hst.2]; exact h.le
  lt := by rw [hst.2]; exact h.lt

lemma Fits.moved (h : s.Fits base d b₀) : Moved base d b₀ s s (s.relocate base d) :=
  ⟨rfl, Sibling.refl s, h⟩

lemma Moved.trans (h : Moved base d b₀ s t t') (h' : Moved base d b₀ t u u') :
    Moved base d b₀ s u u' :=
  ⟨h'.1, h.2.1.trans h'.2.1, h'.2.2⟩

/-! ## Sectors -/

lemma clusterSector_relocate (c : ℕ) :
    (s.relocate base d).clusterSector c = base + s.clusterSector c := Nat.add_assoc _ _ _

namespace Fits

variable (h : s.Fits base d b₀)

include h

lemma read_eq (hlba : lba < s.disk.size) : (s.relocate base d).read (base + lba) = s.read lba := by
  have hlt := h.lt
  rw [read, read, u32_of_lt (by omega), u32_of_lt (by omega)]
  exact Device.read_patch hlba h.le

lemma canWrite_eq (hlba : lba < s.disk.size) :
    (s.relocate base d).canWrite (base + lba) = s.canWrite lba := by
  have hlt := h.lt
  have hle := h.le
  have hsize : base + lba < (s.relocate base d).disk.size := show base + lba < d.size by omega
  rw [canWrite, canWrite, u32_of_lt (by omega), u32_of_lt (by omega), decide_eq_true hsize,
    decide_eq_true hlba]

lemma write_eq (hlba : lba < s.disk.size) (b : Sector) :
    (s.relocate base d).write (base + lba) b = (s.write lba b).relocate base d := by
  have hlt := h.lt
  have hdisk := Device.write_patch (b := b) hlba h.le
  unfold write
  rw [u32_of_lt (by omega), u32_of_lt (by omega)]
  simp only [relocate, hdisk]

/-- **A data sector is written.** -/
lemma write (hdata : s.dataStartSector ≤ lba) (hlba : lba < s.disk.size) (b : Sector) :
    Moved base d b₀ s (s.write lba b) ((s.relocate base d).write (base + lba) b) := by
  have hst : Sibling s (s.write lba b) := sibling_write lba b
  refine ⟨h.write_eq hlba b, hst, h.next hst (h.of_dataBlocks hst ?_)⟩
  intro x hx
  exact block_write_of_ne h.geom hlba (by omega) b

/-! ## The table -/

/-- A relocated table is read as the table. -/
lemma readFat_eq {off : ℕ} (hoff : off + 1 < 512 * s.boot.fatSize16) :
    (s.relocate base d).readFat off = s.readFat off := by
  have hroot := h.geom.root_le
  have hlt : ∀ i < s.boot.fatSize16, s.fatStartSector + i < s.disk.size := by
    intro i hi
    have := h.geom.fat_lt h.geom.fats_pos hi
    omega
  have hfirst : (s.relocate base d).read (base + s.fatStartSector + off / 512) =
      s.read (s.fatStartSector + off / 512) := by
    rw [Nat.add_assoc]
    exact h.read_eq (hlt _ (by omega))
  have hsecond : off % 512 = 511 →
      (s.relocate base d).read (base + s.fatStartSector + off / 512 + 1) =
        s.read (s.fatStartSector + off / 512 + 1) := by
    intro h511
    rw [Nat.add_assoc, Nat.add_assoc]
    exact h.read_eq (hlt _ (by omega))
  unfold readFat
  simp only [show (s.relocate base d).fatStartSector = base + s.fatStartSector from rfl, hfirst]
  by_cases h511 : off % 512 = 511
  · simp only [if_pos h511, hsecond h511]
  · simp only [if_neg h511]

lemma getFatEntry_eq (hc : s.IsCluster c) :
    (s.relocate base d).getFatEntry c = s.getFatEntry c := by
  have hread := h.readFat_eq (h.geom.room c hc.2)
  unfold getFatEntry
  rw [show (s.relocate base d).fatOffset c = s.fatOffset c from rfl, hread]
  rfl

omit h in
/-- The writes to a table that is `base` sectors further. -/
lemma fatWrites_add {off value start : ℕ} {bs : Sector × Option Sector}
    (hlt : base + start + off / 512 + 1 < 4294967296) :
    fatWrites off value bs (base + start) =
      (fatWrites off value bs start).map fun w => (base + w.1, w.2) := by
  unfold fatWrites
  rw [u32_of_lt (by omega), u32_of_lt (by omega), u32_of_lt (by omega), u32_of_lt (by omega)]
  cases bs.2 with
  | none => simp only [elim_none, map_cons, map_nil, Nat.add_assoc]
  | some b' => simp only [elim_some, map_cons, map_nil, Nat.add_assoc]

/-- **An entry of the table is set.** -/
lemma setFatEntry (hc : s.IsCluster c) (hv : v ≤ s.maxEntry) (hlink : s.IsLink v) :
    Moved base d b₀ s (s.setFatEntry c v) ((s.relocate base d).setFatEntry c v) := by
  have hst : Sibling s (s.setFatEntry c v) := sibling_setFatEntry h.geom hc
  refine ⟨?_, hst, h.next hst (h.toClosed.setFatEntry hc hv hlink)⟩
  have hguard : ¬ ((s.relocate base d).mounted = false ∨ c < 2) :=
    not_rejected h.geom.mounted hc.1
  have hroom := h.geom.room c hc.2
  have hroot := h.geom.root_le
  have hsize := h.lt
  have hwrites : ((List.range s.boot.numFats).flatMap fun f =>
      fatWrites (s.fatOffset c) (s.newRaw c v)
        (s.disk.block (s.tableSector 0 (s.fatOffset c / 512)),
          if s.fatOffset c % 512 = 511 then
            some (s.disk.block (s.tableSector 0 (s.fatOffset c / 512 + 1))) else none)
        (base + s.fatStartSector + f * s.boot.fatSize16)) =
      (s.setWrites c v).map fun w => (base + w.1, w.2) := by
    rw [setWrites, map_flatMap]
    apply flatMap_congr
    intro f hf
    have hlt := h.geom.fat_lt (i := s.fatOffset c / 512) (mem_range.1 hf) (by omega)
    rw [Nat.add_assoc base]
    exact fatWrites_add (by omega)
  have hmem : ∀ w ∈ s.setWrites c v, w.1 < s.disk.size := by
    intro w hw
    obtain ⟨f, hf, i, hi, rfl⟩ := mem_setWrites.1 hw
    exact h.geom.tables.io f hf i (h.geom.tables.lt_of_spans hc hi)
  rw [Fs.setFatEntry, if_neg hguard, show (s.relocate base d).fatOffset c = s.fatOffset c from rfl,
    h.readFat_eq hroom, h.geom.tables.readFat_eq hroom, elim_some, rawEntry_eq,
    h.geom.tables.setFatEntry_eq hc]
  simp only [relocate]
  rw [← Device.foldl_write_patch _ hmem h.le, ← hwrites]
  rfl

end Fits

variable (h : s.Fits base d b₀)

include h

/-- The loop of `free_cluster_chain`. -/
lemma Fits.freeLoop (guard : ℕ) (hc : s.IsLink c) :
    Moved base d b₀ s (Fs.freeLoop guard c s) (Fs.freeLoop guard c (s.relocate base d)) := by
  induction guard generalizing s c with
  | zero => exact h.moved
  | succ guard ih =>
    rw [Fs.freeLoop, Fs.freeLoop]
    have hthreshold : (s.relocate base d).eocThreshold = s.eocThreshold := rfl
    rw [hthreshold]
    by_cases hgo : 2 ≤ c ∧ c < s.eocThreshold
    · have hcluster := hc hgo.1 hgo.2
      have hset := h.setFatEntry hcluster (Nat.zero_le _) s.isLink_zero
      rw [if_pos hgo, if_pos hgo, h.getFatEntry_eq hcluster, hset.1]
      exact hset.trans (ih hset.2.2 (hset.2.1.isLink.2 (h.links c hcluster)))
    · rw [if_neg hgo, if_neg hgo]
      exact h.moved

lemma Fits.freeClusterChain (hc : s.IsLink c) :
    Moved base d b₀ s (s.freeClusterChain c) ((s.relocate base d).freeClusterChain c) :=
  h.freeLoop _ hc

/-- Data sectors are filled with zeros. -/
lemma Fits.foldl_write (a : ℕ) (b : Sector) {ks : List ℕ}
    (hks : ∀ k ∈ ks, s.dataStartSector ≤ a + k ∧ a + k < s.disk.size) :
    Moved base d b₀ s (ks.foldl (fun t k => t.write (a + k) b) s)
      (ks.foldl (fun t k => t.write (base + a + k) b) (s.relocate base d)) := by
  induction ks generalizing s with
  | nil => exact h.moved
  | cons k ks ih =>
    have hk := hks k mem_cons_self
    have hwrite := h.write hk.1 hk.2 b
    rw [foldl_cons, foldl_cons, Nat.add_assoc base, hwrite.1]
    refine hwrite.trans (ih hwrite.2.2 ?_)
    intro j hj
    rw [hwrite.2.1.dataStartSector, hwrite.2.1.2]
    exact hks j (mem_cons_of_mem _ hj)

lemma Fits.zeroCluster (hc : s.IsCluster c) :
    Moved base d b₀ s (s.zeroCluster c) ((s.relocate base d).zeroCluster c) := by
  have hlt := h.geom.clusterSector_lt hc
  unfold Fs.zeroCluster
  rw [clusterSector_relocate]
  apply h.foldl_write
  intro k hk
  rw [mem_range] at hk
  omega

/-- **A cluster is allocated.** -/
lemma Fits.allocateCluster :
    Agrees base d b₀ s s.allocateCluster (s.relocate base d).allocateCluster ∧
      (2 ≤ s.allocateCluster.1 → s.IsCluster s.allocateCluster.1) := by
  have hfind : ((List.range' 2 s.totalClusters).find? fun c =>
      (s.relocate base d).getFatEntry c == 0) =
      (List.range' 2 s.totalClusters).find? fun c => s.getFatEntry c == 0 := by
    rw [← head?_filter, ← head?_filter]
    congr 1
    apply filter_congr
    intro c hc
    rw [mem_range'_1] at hc
    rw [h.getFatEntry_eq ⟨hc.1, by omega⟩]
  unfold Fs.allocateCluster
  rw [show (s.relocate base d).totalClusters = s.totalClusters from rfl, hfind]
  cases hf : (List.range' 2 s.totalClusters).find? fun c => s.getFatEntry c == 0 with
  | none => exact ⟨⟨rfl, h.moved⟩, fun h2 => absurd h2 (by simp)⟩
  | some c =>
    have hmem := mem_of_find?_eq_some hf
    rw [mem_range'_1] at hmem
    have hc : s.IsCluster c := ⟨hmem.1, by omega⟩
    have hset := h.setFatEntry hc s.eocMarker_le s.isLink_eocMarker
    have hzero := hset.2.2.zeroCluster (hset.2.1.isCluster.2 hc)
    refine ⟨⟨rfl, ?_⟩, fun _ => hc⟩
    simp only [elim_some]
    rw [show (s.relocate base d).eocMarker = s.eocMarker from rfl, hset.1]
    exact hset.trans hzero

/-! ## Data -/

/-- The sectors of a cluster are written. -/
lemma Fits.writeSectors (n : ℕ) {sec : ℕ} (rest : List UInt8) (hdata : s.dataStartSector ≤ sec)
    (hsec : sec + n ≤ s.disk.size) :
    Agrees base d b₀ s (Fs.writeSectors n sec rest s)
      (Fs.writeSectors n (base + sec) rest (s.relocate base d)) := by
  induction n generalizing s sec rest with
  | zero => exact ⟨rfl, h.moved⟩
  | succ n ih =>
    rw [Fs.writeSectors, Fs.writeSectors]
    by_cases hrest : rest = []
    · rw [if_pos hrest, if_pos hrest]
      exact ⟨rfl, h.moved⟩
    · have hwrite := h.write hdata (by omega) (.ofList (rest.take 512))
      have hdata' : (s.write sec (.ofList (rest.take 512))).dataStartSector ≤ sec + 1 := by
        rw [hwrite.2.1.dataStartSector]
        omega
      obtain ⟨hres, hmoved⟩ := ih hwrite.2.2 (rest.drop 512) hdata'
        (by rw [hwrite.2.1.2]; omega)
      rw [if_neg hrest, if_neg hrest, h.canWrite_eq (by omega),
        canWrite_of_lt h.geom (show sec < s.disk.size by omega), if_pos rfl, if_pos rfl, hwrite.1,
        Nat.add_assoc]
      exact ⟨hres, hwrite.trans hmoved⟩

/-- The loop of `fat_write_file`. -/
lemma Fits.writeChain (fuel : ℕ) (rest : List UInt8) (hc : s.IsCluster c) :
    Agrees base d b₀ s (Fs.writeChain fuel c rest s)
      (Fs.writeChain fuel c rest (s.relocate base d)) := by
  -- every step is made on a volume that is closed again
  induction fuel generalizing s c rest with
  | zero => exact ⟨rfl, h.moved⟩
  | succ fuel ih =>
    have hlt := h.geom.clusterSector_lt hc
    obtain ⟨hres, hmoved⟩ := h.writeSectors s.boot.sectorsPerCluster rest hlt.1 hlt.2
    rw [Fs.writeChain, Fs.writeChain, clusterSector_relocate]
    simp only [show (s.relocate base d).boot = s.boot from rfl, hres]
    cases hrest : (Fs.writeSectors s.boot.sectorsPerCluster (s.clusterSector c) rest s).1 with
    | none => exact ⟨rfl, hmoved⟩
    | some rest' =>
      generalize (Fs.writeSectors s.boot.sectorsPerCluster (s.clusterSector c) rest s).2 = t
        at hmoved
      generalize (Fs.writeSectors s.boot.sectorsPerCluster (base + s.clusterSector c) rest
        (s.relocate base d)).2 = t' at hmoved
      obtain ⟨rfl, hst, ht⟩ := hmoved
      have hto : Moved base d b₀ s t (t.relocate base d) := ⟨rfl, hst, ht⟩
      have hc' := hst.isCluster.2 hc
      simp only [elim_some]
      by_cases hnil : rest' = []
      · have hset := ht.setFatEntry hc' t.eocMarker_le t.isLink_eocMarker
        simp only [if_pos hnil]
        exact ⟨rfl, hto.trans hset⟩
      · obtain ⟨⟨hfirst, halloc⟩, hcluster⟩ := ht.allocateCluster
        simp only [if_neg hnil, hfirst]
        by_cases hfull : t.allocateCluster.1 < 2
        · simp only [if_pos hfull]
          exact ⟨rfl, hto.trans halloc⟩
        · simp only [if_neg hfull]
          have hnew := hcluster (by omega)
          have hset := halloc.2.2.setFatEntry (halloc.2.1.isCluster.2 hc')
            ((halloc.2.1.isCluster.2 hnew).le_maxEntry halloc.2.2.geom)
            (halloc.2.1.isCluster.2 hnew).isLink
          have hall := hto.trans (halloc.trans hset)
          obtain ⟨hres', hmoved'⟩ := ih hall.2.2 rest'
            (hset.2.1.isCluster.2 (halloc.2.1.isCluster.2 hnew))
          rw [halloc.1, hset.1]
          exact ⟨hres', hall.trans hmoved'⟩

/-- **The data is stored.** -/
lemma Fits.storeData (data : List UInt8) :
    Agrees base d b₀ s (s.storeData data) ((s.relocate base d).storeData data) ∧
      ∀ first, (s.storeData data).1 = some first → first = 0 ∨ s.IsCluster first := by
  unfold Fs.storeData
  by_cases hdata : data = []
  · simp only [if_pos hdata]
    refine ⟨⟨rfl, h.moved⟩, fun first hfirst => .inl ?_⟩
    exact (some_inj.1 hfirst).symm
  · obtain ⟨⟨hfirst, halloc⟩, hcluster⟩ := h.allocateCluster
    simp only [if_neg hdata, hfirst]
    by_cases hfull : s.allocateCluster.1 < 2
    · simp only [if_pos hfull]
      exact ⟨⟨rfl, halloc⟩, fun first hnone => (by cases hnone)⟩
    · simp only [if_neg hfull]
      have hc := hcluster (by omega)
      obtain ⟨hres, hmoved⟩ := halloc.2.2.writeChain data.length data
        (halloc.2.1.isCluster.2 hc)
      rw [halloc.1, hres]
      refine ⟨⟨rfl, halloc.trans hmoved⟩, ?_⟩
      intro first hsome
      split_ifs at hsome
      exact .inr (some_inj.1 hsome ▸ hc)

/-- The sectors of a cluster are read. -/
lemma Fits.readSectors_eq (n : ℕ) {sec : ℕ} (left : ℕ) (hsec : sec + n ≤ s.disk.size) :
    (s.relocate base d).readSectors n (base + sec) left = s.readSectors n sec left := by
  induction n generalizing sec left with
  | zero => rfl
  | succ n ih =>
    rw [readSectors, readSectors, h.read_eq (by omega), Nat.add_assoc, ih _ (by omega)]

/-- The loop of `fat_read_file`. -/
lemma Fits.readChain_eq (guard left : ℕ) (hc : s.IsLink c) :
    (s.relocate base d).readChain guard c left = s.readChain guard c left := by
  induction guard generalizing c left with
  | zero => rfl
  | succ guard ih =>
    rw [readChain, readChain, show (s.relocate base d).eocThreshold = s.eocThreshold from rfl]
    by_cases hgo : 2 ≤ c ∧ c < s.eocThreshold ∧ 0 < left
    · have hcluster := hc hgo.1 hgo.2.1
      have hlt := h.geom.clusterSector_lt hcluster
      have hread := h.readSectors_eq s.boot.sectorsPerCluster left hlt.2
      rw [if_pos hgo, if_pos hgo, clusterSector_relocate, h.getFatEntry_eq hcluster,
        show (s.relocate base d).boot = s.boot from rfl, hread]
      congr 1
      funext bytes
      rw [ih _ (h.links c hcluster)]
    · rw [if_neg hgo, if_neg hgo]

lemma Fits.readEntry_eq {e : Dirent} (he : s.IsLink e.cluster) (maxLen : ℕ) :
    (s.relocate base d).readEntry e maxLen = s.readEntry e maxLen := by
  unfold readEntry
  rw [show (s.relocate base d).totalClusters = s.totalClusters from rfl, h.readChain_eq _ _ he]

/-! ## The directory -/

end Fs

/-- A slot of a directory that is `base` sectors further. -/
def Slot.shift (base : ℕ) (x : Slot) : Slot := { x with sector := base + x.sector }

namespace Fs

variable {base : ℕ} {d : Device 512} {b₀ : Sector} {s t t' u u' : Fs} {x : Slot}
  {name data : List UInt8}

variable (h : s.Fits base d b₀)

include h

/-- The slots of a relocated directory are the slots, shifted. -/
lemma Fits.slotsFrom_eq (n k : ℕ) (hk : k + n ≤ s.rootSectors) :
    (s.relocate base d).slotsFrom n k = (s.slotsFrom n k).map (Slot.shift base) := by
  induction n generalizing k with
  | zero => rfl
  | succ n ih =>
    have h₁ := h.geom.data_eq
    have h₂ := h.geom.end_le
    have hread : (s.relocate base d).read (base + (s.rootStartSector + k)) =
        s.read (s.rootStartSector + k) := h.read_eq (by omega)
    rw [slotsFrom, slotsFrom,
      show (s.relocate base d).rootStartSector = base + s.rootStartSector from rfl,
      Nat.add_assoc base, hread, read_of_lt h.geom (by omega), elim_some, elim_some,
      ih (k + 1) (by omega), map_append, List.map_map]
    rfl

lemma Fits.rootSlots_eq : (s.relocate base d).rootSlots = s.rootSlots.map (Slot.shift base) :=
  h.slotsFrom_eq _ _ (by rw [Nat.zero_add]; exact le_rfl)

lemma Fits.listed_eq : (s.relocate base d).listed = s.listed.map (Slot.shift base) := by
  rw [listed, listed, h.rootSlots_eq, takeWhile_map, List.filter_map]
  rfl

/-- An entry is found at the shifted place. -/
lemma Fits.findDirentVal_eq (name : List UInt8) :
    (s.relocate base d).findDirentVal name = (s.findDirentVal name).map (Slot.shift base) := by
  have hmounted : ¬ s.mounted = false := by simp [h.geom.mounted]
  rw [findDirentVal, findDirentVal, if_neg hmounted,
    show (s.relocate base d).mounted = s.mounted from rfl, if_neg hmounted, h.listed_eq]
  cases filenameToFat name with
  | none => rfl
  | some fatName =>
    rw [bind_some, bind_some, find?_map]
    rfl

lemma Fits.freeSlot_eq : (s.relocate base d).freeSlot = s.freeSlot.map (Slot.shift base) := by
  rw [freeSlot, freeSlot, h.rootSlots_eq, find?_map]
  rfl

omit h in
/-- The slots that a scan comes by. -/
lemma Closed.mem_rootSlots (h : s.Closed b₀) (hx : x ∈ s.rootSlots) :
    ∃ k, k / 16 < s.rootSectors ∧ x = s.slotAt k := by
  rw [rootSlots, Fs.slotsFrom_eq h.geom _ _ (by omega), List.mem_map] at hx
  obtain ⟨k, hk, rfl⟩ := hx
  rw [mem_range] at hk
  exact ⟨k, by omega, by rw [Nat.mul_zero, Nat.zero_add]⟩

omit h in
lemma Closed.of_findDirentVal (h : s.Closed b₀) (hx : s.findDirentVal name = some x) :
    ∃ k, k / 16 < s.rootSectors ∧ x = s.slotAt k :=
  h.mem_rootSlots (mem_rootSlots_of_findDirentVal hx)

/-- **An entry is changed** inside its sector, and keeps to the clusters. -/
lemma Fits.modify {k : ℕ} (hk : k / 16 < s.rootSectors) {f : Sector → Sector}
    (hkeeps : ∀ b, Keeps b (f b) (k % 16))
    (he : ∀ b, s.IsLink (dirent b (k % 16)).cluster → s.IsLink (dirent (f b) (k % 16)).cluster) :
    Agrees base d b₀ s (s.modify (s.rootStartSector + k / 16) f)
      ((s.relocate base d).modify (base + (s.rootStartSector + k / 16)) f) := by
  have h₁ := h.geom.data_eq
  have h₂ := h.geom.end_le
  have hlt : s.rootStartSector + k / 16 < s.disk.size := by omega
  have hst : Sibling s (s.write (s.rootStartSector + k / 16)
      (f (s.disk.block (s.rootStartSector + k / 16)))) := sibling_write _ _
  rw [Fs.modify, Fs.modify, h.read_eq hlt, read_of_lt h.geom hlt, elim_some, elim_some]
  have hclosed := h.of_rootSector hst (j := k / 16) ?_ ?_
  · exact ⟨h.canWrite_eq hlt, h.write_eq hlt _, hst, h.next hst hclosed⟩
  · intro y hy
    exact block_write_of_ne h.geom hlt hy _
  · intro i hi
    rw [block_write_self h.geom hlt]
    have hslot := h.heads (16 * (k / 16) + i) (by omega)
    rw [slotEntry, show (16 * (k / 16) + i) / 16 = k / 16 by omega,
      show (16 * (k / 16) + i) % 16 = i by omega] at hslot
    by_cases hik : i = k % 16
    · rw [hik] at hslot ⊢
      exact he _ hslot
    · rw [(hkeeps _).dirent_eq hik]
      exact hslot

/-- The name of an entry is changed. -/
lemma Fits.modify_name {k : ℕ} (hk : k / 16 < s.rootSectors) {bytes : List UInt8}
    (hbytes : bytes.length ≤ 11) :
    Agrees base d b₀ s
      (s.modify (s.rootStartSector + k / 16) fun b => b.put (32 * (k % 16)) bytes)
      ((s.relocate base d).modify (base + (s.rootStartSector + k / 16))
        fun b => b.put (32 * (k % 16)) bytes) := by
  apply h.modify hk
  · exact fun b => keeps_put b (o := 0) (by omega)
  · intro b hb
    rw [dirent_put b (Nat.mod_lt _ (by omega)) hbytes]
    exact hb

/-! ## Calls -/

/-- **The chain of an entry is freed.** -/
lemma Fits.freeEntry (hx : s.IsLink x.ent.cluster) :
    Moved base d b₀ s (s.freeEntry x) ((s.relocate base d).freeEntry (x.shift base)) := by
  unfold Fs.freeEntry
  rw [show (x.shift base).ent = x.ent from rfl]
  split_ifs
  · exact h.freeClusterChain hx
  · exact h.moved

/-- **The entry of a file is changed or made.** -/
lemma Fits.writeEntry {found : Option Slot}
    (hfound : ∀ x, found = some x → ∃ k, k / 16 < s.rootSectors ∧
      x.sector = s.rootStartSector + k / 16 ∧ x.index = k % 16)
    {fatName : List UInt8} (hname : fatName.length = 11) {first : ℕ}
    (hfirst : first = 0 ∨ s.IsCluster first) (size : ℕ) :
    Agrees base d b₀ s (s.writeEntry found fatName first size)
      ((s.relocate base d).writeEntry (found.map (Slot.shift base)) fatName first size) := by
  have hlt : first < 4294967296 := by
    have h₁ := h.geom.clusters_lt
    obtain h₂ | h₂ := hfirst
    · omega
    · have := h₂.2
      omega
  have hlink : s.IsLink first := by
    obtain h₂ | h₂ := hfirst
    · rw [h₂]
      exact s.isLink_zero
    · exact h₂.isLink
  cases found with
  | some x =>
    obtain ⟨k, hk, hsector, hindex⟩ := hfound x rfl
    have hmod : k % 16 < 16 := Nat.mod_lt _ (by omega)
    simp only [Fs.writeEntry, map_some, elim_some, Slot.shift, hsector, hindex]
    apply h.modify hk
    · exact fun b => keeps_updateDirent b first size
    · intro b _
      rw [dirent_updateDirent b hmod hlt]
      exact hlink
  | none =>
    simp only [Fs.writeEntry, map_none, elim_none, h.freeSlot_eq]
    cases hslot : s.freeSlot with
    | none => exact ⟨rfl, h.moved⟩
    | some x =>
      obtain ⟨k, hk, rfl⟩ := h.mem_rootSlots (mem_of_find?_eq_some hslot)
      have hmod : k % 16 < 16 := Nat.mod_lt _ (by omega)
      simp only [map_some, elim_some, Slot.shift, slotAt]
      apply h.modify hk
      · exact fun b => keeps_createDirent b hname first size
      · intro b _
        rw [dirent_createDirent b hmod hname hlt]
        exact hlink

/-- `fat_write_file`. -/
lemma Fits.fatWriteFile (name data : List UInt8) :
    Agrees base d b₀ s (s.fatWriteFile name data)
      ((s.relocate base d).fatWriteFile name data) := by
  have hmounted : ¬ s.mounted = false := by simp [h.geom.mounted]
  unfold Fs.fatWriteFile
  rw [if_neg hmounted, show (s.relocate base d).mounted = s.mounted from rfl, if_neg hmounted]
  cases hn : filenameToFat name with
  | none => exact ⟨rfl, h.moved⟩
  | some fatName =>
    simp only [elim_some, h.findDirentVal_eq]
    have hfree : Moved base d b₀ s ((s.findDirentVal name).elim s s.freeEntry)
        (((s.findDirentVal name).map (Slot.shift base)).elim (s.relocate base d)
          (s.relocate base d).freeEntry) := by
      cases hx : s.findDirentVal name with
      | none => exact h.moved
      | some x =>
        obtain ⟨k, hk, rfl⟩ := h.of_findDirentVal hx
        rw [map_some, elim_some, elim_some]
        exact h.freeEntry (x := s.slotAt k) (h.heads k hk)
    -- the old chain is freed, the data stored, and the entry written
    obtain ⟨⟨hres, hstore⟩, hfirst⟩ := hfree.2.2.storeData data
    rw [hfree.1, hres]
    have hall := hfree.trans hstore
    cases hr : (((s.findDirentVal name).elim s s.freeEntry).storeData data).1 with
    | none =>
      rw [elim_none, elim_none]
      exact ⟨rfl, hall⟩
    | some first =>
      rw [elim_some, elim_some, hstore.1]
      have hfound : ∀ x, s.findDirentVal name = some x → ∃ k,
          k / 16 < (((s.findDirentVal name).elim s s.freeEntry).storeData data).2.rootSectors ∧
          x.sector = (((s.findDirentVal name).elim s s.freeEntry).storeData
            data).2.rootStartSector + k / 16 ∧ x.index = k % 16 := by
        intro x hx
        obtain ⟨k, hk, rfl⟩ := h.of_findDirentVal hx
        rw [hall.2.1.rootSectors, hall.2.1.rootStartSector]
        exact ⟨k, hk, rfl, rfl⟩
      have hcluster := hfirst first hr
      rw [← hstore.2.1.isCluster] at hcluster
      obtain ⟨hwrite, hmoved⟩ := hall.2.2.writeEntry hfound (length_of_filenameToFat hn) hcluster
        data.length
      exact ⟨hwrite, hall.trans hmoved⟩

/-- `fat_delete_file`. -/
lemma Fits.fatDeleteFile (name : List UInt8) :
    Agrees base d b₀ s (s.fatDeleteFile name) ((s.relocate base d).fatDeleteFile name) := by
  unfold Fs.fatDeleteFile
  rw [h.findDirentVal_eq]
  cases hx : s.findDirentVal name with
  | none => exact ⟨rfl, h.moved⟩
  | some x =>
    obtain ⟨k, hk, rfl⟩ := h.of_findDirentVal hx
    have hfree := h.freeEntry (x := s.slotAt k) (h.heads k hk)
    have hbytes : [(0xE5 : UInt8)].length ≤ 11 := by decide
    have hmod := hfree.2.2.modify_name (k := k) (by rw [hfree.2.1.rootSectors]; exact hk) hbytes
    rw [hfree.2.1.rootStartSector] at hmod
    rw [map_some, elim_some, elim_some, hfree.1]
    exact ⟨hmod.1, hfree.trans hmod.2⟩

/-- `fat_rename_file`. -/
lemma Fits.fatRenameFile (oldName newName : List UInt8) :
    Agrees base d b₀ s (s.fatRenameFile oldName newName)
      ((s.relocate base d).fatRenameFile oldName newName) := by
  unfold Fs.fatRenameFile
  have hexists : (s.relocate base d).fatFileExists newName = s.fatFileExists newName := by
    rw [fatFileExists, fatFileExists, h.findDirentVal_eq, isSome_map]
  rw [hexists, h.findDirentVal_eq]
  split_ifs with hsame hnew
  · exact ⟨rfl, h.moved⟩
  · exact ⟨rfl, h.moved⟩
  · cases hn : filenameToFat newName with
    | none => exact ⟨rfl, h.moved⟩
    | some newFat =>
      cases hx : s.findDirentVal oldName with
      | none => exact ⟨rfl, h.moved⟩
      | some x =>
        obtain ⟨k, hk, rfl⟩ := h.of_findDirentVal hx
        simp only [elim_some, map_some, Slot.shift, slotAt]
        exact h.modify_name hk (length_of_filenameToFat hn).le

/-- A call that may overrun a buffer, on both volumes. -/
def Carried (base : ℕ) (d : Device 512) (b₀ : Sector) (s : Fs) (r r' : Option (Bool × Fs)) : Prop :=
  r' = r.map (fun q => (q.1, q.2.relocate base d)) ∧
    ∀ q, r = some q → Sibling s q.2 ∧ q.2.Fits base d b₀

omit h in
lemma Agrees.carried {r r' : Bool × Fs} (h : Agrees base d b₀ s r r') :
    Carried base d b₀ s (some r) (some r') := by
  refine ⟨?_, ?_⟩
  · rw [map_some, ← h.result, ← h.moved.1]
  · rintro q ⟨⟩
    exact h.moved.2

/-- `fat_append_file`. -/
lemma Fits.fatAppendFile (name data : List UInt8) (heap : Option (ℕ → UInt8)) :
    Carried base d b₀ s (s.fatAppendFile name data heap)
      ((s.relocate base d).fatAppendFile name data heap) := by
  have hmounted : ¬ s.mounted = false := by simp [h.geom.mounted]
  have hstay : Carried base d b₀ s (some (false, s)) (some (false, s.relocate base d)) :=
    Agrees.carried ⟨rfl, h.moved⟩
  unfold Fs.fatAppendFile
  rw [if_neg hmounted, show (s.relocate base d).mounted = s.mounted from rfl, if_neg hmounted,
    h.findDirentVal_eq]
  cases hx : s.findDirentVal name with
  | none => exact (h.fatWriteFile name data).carried
  | some x =>
    obtain ⟨k, hk, rfl⟩ := h.of_findDirentVal hx
    rw [map_some, elim_some, elim_some,
      show ((s.slotAt k).shift base).ent = (s.slotAt k).ent from rfl]
    have hread := h.readEntry_eq (e := (s.slotAt k).ent) (h.heads k hk)
    by_cases hmax : maxFileSize < u32 ((s.slotAt k).ent.size + data.length)
    · rw [if_pos hmax, if_pos hmax]
      exact hstay
    rw [if_neg hmax, if_neg hmax]
    cases heap with
    | none => exact hstay
    | some mem =>
      rw [elim_some, elim_some]
      split_ifs with hwrap
      · exact ⟨rfl, fun q hq => by cases hq⟩
      · rw [hread]
        cases s.readEntry (s.slotAt k).ent (s.slotAt k).ent.size with
        | none => exact hstay
        | some bytes => exact (h.fatWriteFile name _).carried

/-- `fat_copy_file`. -/
lemma Fits.fatCopyFile (src dst : List UInt8) (heap : Option (ℕ → UInt8)) :
    Agrees base d b₀ s (s.fatCopyFile src dst heap)
      ((s.relocate base d).fatCopyFile src dst heap) := by
  unfold Fs.fatCopyFile
  rw [h.findDirentVal_eq]
  split_ifs with hsame
  · exact ⟨rfl, h.moved⟩
  cases hx : s.findDirentVal src with
  | none => exact ⟨rfl, h.moved⟩
  | some x =>
    obtain ⟨k, hk, rfl⟩ := h.of_findDirentVal hx
    rw [map_some, elim_some, elim_some,
      show ((s.slotAt k).shift base).ent = (s.slotAt k).ent from rfl]
    have hread := h.readEntry_eq (e := (s.slotAt k).ent) (h.heads k hk)
    split_ifs with hmax hempty
    · exact ⟨rfl, h.moved⟩
    · exact h.fatWriteFile dst []
    cases heap with
    | none => exact ⟨rfl, h.moved⟩
    | some mem =>
      rw [elim_some, elim_some, hread]
      cases s.readEntry (s.slotAt k).ent (s.slotAt k).ent.size with
      | none => exact ⟨rfl, h.moved⟩
      | some bytes => exact h.fatWriteFile dst _

/-- **A call that changes the volume.** -/
lemma Fits.apply (op : Op) : Carried base d b₀ s (s.apply op) ((s.relocate base d).apply op) := by
  cases op with
  | write name data => exact (h.fatWriteFile name data).carried
  | append name data heap => exact h.fatAppendFile name data heap
  | copy src dst heap => exact (h.fatCopyFile src dst heap).carried
  | rename oldName newName => exact (h.fatRenameFile oldName newName).carried
  | delete name => exact (h.fatDeleteFile name).carried

/-- `fat_read_file`. -/
lemma Fits.fatReadFile_eq (name : List UInt8) (maxLen : ℕ) :
    (s.relocate base d).fatReadFile name maxLen = s.fatReadFile name maxLen := by
  unfold fatReadFile
  rw [h.findDirentVal_eq]
  cases hx : s.findDirentVal name with
  | none => rfl
  | some x =>
    obtain ⟨k, hk, rfl⟩ := h.of_findDirentVal hx
    have hread := h.readEntry_eq (e := (s.slotAt k).ent) (h.heads k hk) maxLen
    rw [map_some, bind_some, bind_some,
      show ((s.slotAt k).shift base).ent = (s.slotAt k).ent from rfl, hread]

/-- `fat_stat_file`. -/
lemma Fits.fatStatFile_eq (name : List UInt8) :
    (s.relocate base d).fatStatFile name = s.fatStatFile name := by
  unfold fatStatFile
  rw [h.findDirentVal_eq, Option.map_map]
  rfl

/-- `fat_enumerate_files`. -/
lemma Fits.fatEnumerateFiles_eq (maxFiles : ℕ) :
    (s.relocate base d).fatEnumerateFiles maxFiles = s.fatEnumerateFiles maxFiles := by
  unfold fatEnumerateFiles
  rw [h.listed_eq, ← map_take, List.map_map]
  rfl

end Fs

/-! ## Sequences of calls -/

/-- The calls of the driver. -/
inductive Call where
  | change (op : Op)
  | read (name : List UInt8) (maxLen : ℕ)
  | stat (name : List UInt8)
  | enumerate (maxFiles : ℕ)

/-- The result of a call. -/
inductive Answer where
  | done (ok : Bool)
  | read (r : Option (ℕ × List UInt8))
  | stat (r : Option (List UInt8 × UInt8 × ℕ × ℕ))
  | names (r : List (List UInt8))

namespace Fs

variable {base : ℕ} {d : Device 512} {b₀ : Sector} {s t : Fs}

/-- A call: its result and the state after it, `none` when `fat_append_file` overruns its
buffer. -/
def call (s : Fs) : Call → Option (Answer × Fs)
  | .change op => (s.apply op).map fun r => (.done r.1, r.2)
  | .read name maxLen => some (.read (s.fatReadFile name maxLen), s)
  | .stat name => some (.stat (s.fatStatFile name), s)
  | .enumerate maxFiles => some (.names (s.fatEnumerateFiles maxFiles), s)

/-- Calls one after the other. -/
def calls : List Call → Fs → Option (List Answer × Fs)
  | [], s => some ([], s)
  | c :: cs, s => (s.call c).bind fun r => (calls cs r.2).map fun q => (r.1 :: q.1, q.2)

/-- **A call on the relocated volume.** -/
lemma Fits.call (h : s.Fits base d b₀) (c : Call) :
    (s.relocate base d).call c = (s.call c).map (fun r => (r.1, r.2.relocate base d)) ∧
      ∀ r, s.call c = some r → Sibling s r.2 ∧ r.2.Fits base d b₀ := by
  have hstay : ∀ (a : Answer) (r : Answer × Fs), some (a, s) = some r →
      Sibling s r.2 ∧ r.2.Fits base d b₀ := by
    rintro a r ⟨⟩
    exact ⟨Sibling.refl s, h⟩
  cases c with
  | change op =>
    obtain ⟨heq, hnext⟩ := h.apply op
    refine ⟨?_, ?_⟩
    · rw [Fs.call, Fs.call, heq, Option.map_map, Option.map_map]
      rfl
    · intro r hr
      obtain ⟨q, hq, rfl⟩ := map_eq_some_iff.1 hr
      exact hnext q hq
  | read name maxLen =>
    refine ⟨?_, hstay _⟩
    rw [Fs.call, h.fatReadFile_eq]
    rfl
  | stat name =>
    refine ⟨?_, hstay _⟩
    rw [Fs.call, h.fatStatFile_eq]
    rfl
  | enumerate maxFiles =>
    refine ⟨?_, hstay _⟩
    rw [Fs.call, h.fatEnumerateFiles_eq]
    rfl

/-- **A sequence of calls on the relocated volume.** -/
lemma Fits.calls (h : s.Fits base d b₀) (cs : List Call) :
    Fs.calls cs (s.relocate base d) =
        (Fs.calls cs s).map (fun r => (r.1, r.2.relocate base d)) ∧
      ∀ r, Fs.calls cs s = some r → Sibling s r.2 := by
  induction cs generalizing s with
  | nil =>
    refine ⟨rfl, ?_⟩
    rintro r ⟨⟩
    exact Sibling.refl s
  | cons c cs ih =>
    obtain ⟨heq, hnext⟩ := h.call c
    rw [Fs.calls, Fs.calls, heq]
    cases hc : s.call c with
    | none => exact ⟨rfl, fun r hr => by cases hr⟩
    | some r =>
      obtain ⟨hst, hr⟩ := hnext r hc
      obtain ⟨hcalls, hlast⟩ := ih hr
      rw [map_some, bind_some, bind_some, hcalls, Option.map_map, Option.map_map]
      refine ⟨rfl, ?_⟩
      intro q hq
      obtain ⟨p, hp, rfl⟩ := map_eq_some_iff.1 hq
      exact hst.trans (hlast p hp)

/-! ## Mounting -/

/-- **The copied image is mounted**: the globals are those of the relocated driver. -/
lemma Fits.mountAtLba_eq {u : Fs} (h : s.Fits base u.disk b₀)
    (himg : ∀ i < s.disk.size, u.disk.block (base + i) = s.disk.block i) :
    u.mountAtLba base = (true, s.relocate base u.disk) := by
  have hboot := h.booted
  have hroot := h.geom.root_eq
  have hdata := h.geom.data_eq
  have hend := h.geom.end_le
  have hpos := h.lt_dataStart
  have hle := h.le
  have hlt := h.lt
  have hread : u.read base = some b₀ := by
    have hzero := himg 0 (by omega)
    rw [Nat.add_zero, hboot.block] at hzero
    rw [read, u32_of_lt (by omega), Device.read_of_lt (by omega), hzero]
  have hwith : u.withBoot base b₀ = { s.relocate base u.disk with
      fatType := u.fatType
      mounted := u.mounted } := by
    simp only [withBoot, relocate, Fs.mk.injEq, ← hboot.boot, Device.patch_eq_self himg,
      ← hboot.fatStart, ← hboot.rootSectors, and_true, true_and]
    rw [u32_of_lt (x := base + s.fatStartSector) (by omega), Nat.add_assoc base, ← hroot,
      u32_of_lt (x := base + s.rootStartSector) (by omega), Nat.add_assoc base, ← hdata,
      u32_of_lt (by omega), sub32_of_le (x := base + s.dataStartSector) (by omega) (by omega),
      Nat.add_sub_cancel_left, ← hboot.clusters]
    exact ⟨rfl, rfl, rfl, rfl⟩
  have hne := hboot.clusters_ne
  have hclusters := h.geom.clusters_lt
  have hguard : ¬ (s.totalClusters = 0 ∨ 65525 ≤ s.totalClusters) := by omega
  rw [mountAtLba, hread, elim_some, if_pos hboot.valid, hwith]
  simp only [relocate, if_neg hguard, ← h.geom.type_eq, h.geom.mounted]

end Fs

/-! ## The two disks -/

/-- The states of a volume: a device is formatted, and calls follow, whether they succeed or
not. -/
def lifetime : System Fs Op where
  init t := ∃ s label, s.disk.size < 4294967296 ∧ Fs.fatFormat s label = (true, t)
  step s op t := ∃ ok, s.apply op = some (ok, t)

namespace Fs

variable {s t : Fs} {b₀ : Sector}

/-- A closed volume fits into its own device. -/
lemma Closed.fits (h : s.Closed b₀) (hsize : s.disk.size < 4294967296) : s.Fits 0 s.disk b₀ where
  toClosed := h
  le := by rw [Nat.zero_add]
  lt := by rw [Nat.zero_add]; exact hsize

/-- **A call keeps a volume closed.** -/
lemma Closed.apply (h : s.Closed b₀) (hsize : s.disk.size < 4294967296) {op : Op} {ok : Bool}
    (happly : s.apply op = some (ok, t)) : t.Closed b₀ ∧ Sibling s t := by
  obtain ⟨-, hnext⟩ := (h.fits hsize).apply op
  obtain ⟨hst, ht⟩ := hnext _ happly
  exact ⟨ht.toClosed, hst⟩

/-- Writing files keeps a volume closed. -/
lemma Closed.foldl_fatWriteFile (files : List (List UInt8 × List UInt8)) (h : s.Closed b₀)
    (hsize : s.disk.size < 4294967296) :
    (files.foldl (fun t f => (t.fatWriteFile f.1 f.2).2) s).Closed b₀ ∧
      Sibling s (files.foldl (fun t f => (t.fatWriteFile f.1 f.2).2) s) := by
  induction files generalizing s with
  | nil => exact ⟨h, Sibling.refl s⟩
  | cons f files ih =>
    have happly : s.apply (.write f.1 f.2) =
        some ((s.fatWriteFile f.1 f.2).1, (s.fatWriteFile f.1 f.2).2) := rfl
    obtain ⟨ht, hst⟩ := h.apply hsize happly
    obtain ⟨hclosed, hlast⟩ := ih ht (by rw [hst.2]; exact hsize)
    rw [foldl_cons]
    exact ⟨hclosed, hst.trans hlast⟩

/-- **A formatted volume is closed.** -/
lemma closed_of_fatFormat {label : List UInt8} (hsize : s.disk.size < 4294967296)
    (hformat : s.fatFormat label = (true, t)) :
    t.Closed (bootSector (formatGeometry s.disk.size) label) ∧
      Sibling (s.formatted (formatGeometry s.disk.size) label) t ∧ t.disk.size = s.disk.size := by
  have hok : (s.fatFormat label).1 = true := by rw [hformat]
  have h64 := le_size_of_fatFormat hok
  have hclosed : (s.formatted (formatGeometry s.disk.size) label).Closed
      (bootSector (formatGeometry s.disk.size) label) :=
    closed_formatted (formatGeometry_ok h64) (diskSecs_formatGeometry_le s.disk.size) hsize.le
  have hsize' : (s.formatted (formatGeometry s.disk.size) label).disk.size = s.disk.size :=
    Device.size_foldl_write _
  obtain ⟨ht, hst⟩ := hclosed.foldl_fatWriteFile seedFiles (by rw [hsize']; exact hsize)
  have heq := fatFormat_eq h64 hsize.le label
  rw [hformat, Prod.mk.injEq, seedDefaultFiles] at heq
  rw [heq.2]
  exact ⟨ht, hst, hst.2.trans hsize'⟩

end Fs

/-- **Every state of a volume is closed.** -/
lemma closed_of_lifetime {s : Fs} (h : lifetime.Reachable s) :
    (∃ b₀, s.Closed b₀) ∧ s.disk.size < 4294967296 := by
  apply h.invariant fun s => (∃ b₀, s.Closed b₀) ∧ s.disk.size < 4294967296
  · rintro t ⟨s, label, hsize, hformat⟩
    obtain ⟨ht, -, heq⟩ := Fs.closed_of_fatFormat hsize hformat
    exact ⟨⟨_, ht⟩, by rw [heq]; exact hsize⟩
  · rintro s op t ⟨⟨b₀, hs⟩, hsize⟩ ⟨ok, happly⟩
    obtain ⟨ht, hst⟩ := hs.apply hsize happly
    exact ⟨⟨b₀, ht⟩, by rw [hst.2]; exact hsize⟩

/-- **Relocation of a volume.** `s` is a volume on a device of `tot` sectors, after formatting and
any calls. Its image is mounted at the beginning of the disk of `u₀`, and a copy of it at `base` on
the disk of `u₁`. Then both are mounted, any sequence of calls has the same results on both, the
images stay equal, and the sectors of the second disk outside the image stay what they were.

**Proof sketch.** Both mounted drivers are relocations of `s`, to `0` and to `base`. Every call does
on a relocation what it does on `s`, as long as the volume is closed, which every call keeps. -/
theorem relocation_invariant {s u₀ u₁ : Fs} {base tot : ℕ} (hs : lifetime.Reachable s)
    (htot : s.disk.size = tot) (hbase : base + tot < 4294967296)
    (hsize₀ : tot ≤ u₀.disk.size) (himg₀ : ∀ i < tot, u₀.disk.block i = s.disk.block i)
    (hsize₁ : base + tot ≤ u₁.disk.size)
    (himg₁ : ∀ i < tot, u₁.disk.block (base + i) = s.disk.block i) :
    ∃ m₀ m₁, u₀.mountAtLba 0 = (true, m₀) ∧ u₁.mountAtLba base = (true, m₁) ∧
      ∀ cs, (Fs.calls cs m₁).map Prod.fst = (Fs.calls cs m₀).map Prod.fst ∧
        ∀ t₀ t₁, (Fs.calls cs m₀).map Prod.snd = some t₀ →
          (Fs.calls cs m₁).map Prod.snd = some t₁ →
          (∀ i < tot, t₁.disk.block (base + i) = t₀.disk.block i) ∧
          ∀ x, x < base ∨ base + tot ≤ x → t₁.disk.block x = u₁.disk.block x := by
  subst htot
  obtain ⟨⟨b₀, hclosed⟩, hsize⟩ := closed_of_lifetime hs
  have hfits₀ : s.Fits 0 u₀.disk b₀ := ⟨hclosed, by omega, by omega⟩
  have hfits₁ : s.Fits base u₁.disk b₀ := ⟨hclosed, hsize₁, hbase⟩
  refine ⟨_, _, hfits₀.mountAtLba_eq fun i hi => ?_, hfits₁.mountAtLba_eq himg₁, fun cs => ?_⟩
  · rw [Nat.zero_add]
    exact himg₀ i hi
  obtain ⟨heq₀, hst⟩ := hfits₀.calls cs
  obtain ⟨heq₁, -⟩ := hfits₁.calls cs
  rw [heq₀, heq₁, Option.map_map, Option.map_map, Option.map_map, Option.map_map]
  refine ⟨rfl, fun t₀ t₁ ht₀ ht₁ => ?_⟩
  obtain ⟨r, hr, rfl⟩ := map_eq_some_iff.1 ht₀
  rw [hr, map_some, some_inj] at ht₁
  have hdisk := (hst r hr).2
  rw [← ht₁]
  simp only [Function.comp_apply, Fs.relocate]
  constructor
  · intro i hi
    have hzero : (u₀.disk.patch 0 r.2.disk).block (0 + i) = r.2.disk.block i :=
      Device.block_patch_add (by omega)
    rw [Nat.zero_add] at hzero
    rw [Device.block_patch_add (by omega), hzero]
  · intro x hx
    exact Device.block_patch_of_outside (by omega)

/-- A small image, alone on a disk and in the middle of another one. -/
theorem relocation_invariant_small :
    ∃ m₀ m₁ : Fs,
      ({ blankFs 64 with disk := ((blankFs 64).fatFormat []).2.disk } : Fs).mountAtLba 0 =
        (true, m₀) ∧
      ({ blankFs 64 with disk :=
        (blankFs 200).disk.patch 100 ((blankFs 64).fatFormat []).2.disk } : Fs).mountAtLba 100 =
        (true, m₁) ∧
      ∀ cs, (Fs.calls cs m₁).map Prod.fst = (Fs.calls cs m₀).map Prod.fst := by
  have hformat : (blankFs 64).fatFormat [] = (true, ((blankFs 64).fatFormat []).2) := by
    rw [Fs.fatFormat_eq (s := blankFs 64) (by decide) (by decide)]
  have hreach : lifetime.Reachable ((blankFs 64).fatFormat []).2 :=
    .init ⟨blankFs 64, [], by decide, hformat⟩
  have hsize : ((blankFs 64).fatFormat []).2.disk.size = 64 :=
    (Fs.closed_of_fatFormat (by decide) hformat).2.2
  obtain ⟨t, ht⟩ : ∃ t, t = ((blankFs 64).fatFormat []).2 := ⟨_, rfl⟩
  rw [← ht] at hreach hsize ⊢
  have hcopy : ∀ i < 64, ((blankFs 200).disk.patch 100 t.disk).block (100 + i) =
      t.disk.block i := fun i hi => Device.block_patch_add (by rw [hsize]; exact hi)
  let u₀ : Fs := { blankFs 64 with disk := t.disk }
  let u₁ : Fs := { blankFs 64 with disk := (blankFs 200).disk.patch 100 t.disk }
  have h₀ : 64 ≤ u₀.disk.size := hsize.ge
  have h₁ : 100 + 64 ≤ u₁.disk.size := show 100 + 64 ≤ 200 by decide
  obtain ⟨m₀, m₁, hm₀, hm₁, h⟩ := relocation_invariant hreach hsize (by decide) h₀
    (fun _ _ => rfl) h₁ hcopy
  exact ⟨m₀, m₁, hm₀, hm₁, fun cs => (h cs).1⟩

end BengalTiger.Fat
