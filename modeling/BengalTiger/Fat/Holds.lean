import BengalTiger.Fat.Layout
import BengalTiger.Fat.VolumeOps

set_option autoImplicit false

/-!
# Volumes on a device

A mounted device holds a volume when its tables, its root directory and its data sectors hold the
table, the directory and the clusters of the volume. A write to one of the three regions changes
that part of the volume only.

## Main definitions

* `Fat.Fs.Holds` — the device holds the volume.

## Main results

* `Fat.Fs.Holds.setFatEntry` — an entry of the table is set.
* `Fat.Fs.Holds.of_dataBlocks`, `Fat.Fs.Holds.of_rootBlocks` — sectors of
  the other regions are written.
-/

namespace BengalTiger.Fat

open BlockDevice LinkTable

namespace Fs

/-- The bytes of a cluster. -/
def clusterBytes (s : Fs) (c : ℕ) : List UInt8 :=
  (List.range s.boot.sectorsPerCluster).flatMap fun j =>
    (s.disk.block (s.clusterSector c + j)).toList

/-- The entry in slot `k` of the root directory. -/
def slotEntry (s : Fs) (k : ℕ) : Dirent :=
  dirent (s.disk.block (s.rootStartSector + k / 16)) (k % 16)

/-- **The device holds the volume.** -/
structure Holds (s : Fs) (sh : Shape) (v : Vol) : Prop where
  geom : s.Geom
  copies : s.Copies
  clusters : s.totalClusters = sh.clusters
  slots : s.rootSectors * 16 = sh.slots
  bytes : s.boot.sectorsPerCluster * 512 = sh.bytes
  eoc : s.eocMarker = sh.eoc
  threshold : s.eocThreshold = sh.threshold
  fat : ∀ c, sh.IsCluster c → s.getFatEntry c = v.fat c
  dir : ∀ k < sh.slots, s.slotEntry k = v.dir k
  data : ∀ c, sh.IsCluster c → s.clusterBytes c = v.data c

variable {s t : Fs} {sh : Shape} {v : Vol} {c : ℕ}

lemma Holds.isCluster (h : s.Holds sh v) : s.IsCluster c ↔ sh.IsCluster c := by
  unfold IsCluster Shape.IsCluster
  rw [h.clusters]

/-- The largest value of an entry is the mark that ends a chain. -/
lemma Holds.maxEntry (h : s.Holds sh v) : s.maxEntry = sh.eoc := h.eoc

/-- The sectors of the clusters. -/
lemma Holds.clusterSector_lt (h : s.Holds sh v) (hc : sh.IsCluster c) :
    s.dataStartSector ≤ s.clusterSector c ∧
      s.clusterSector c + s.boot.sectorsPerCluster ≤ s.disk.size :=
  h.geom.clusterSector_lt (h.isCluster.2 hc)

/-- Cluster and sector determine the place. -/
lemma clusterSector_inj {c' i i' : ℕ} (hc : sh.IsCluster c)
    (hc' : sh.IsCluster c') (hi : i < s.boot.sectorsPerCluster)
    (hi' : i' < s.boot.sectorsPerCluster)
    (heq : s.clusterSector c + i = s.clusterSector c' + i') : c = c' := by
  unfold clusterSector at heq
  have hinj := table_index_inj hi hi' (f := c - 2) (g := c' - 2) (by omega)
  have h₁ := hc.1
  have h₂ := hc'.1
  omega

lemma Holds.root_lt (h : s.Holds sh v) {i : ℕ} (hi : i < s.rootSectors) :
    s.rootStartSector + i < s.dataStartSector ∧ s.rootStartSector + i < s.disk.size := by
  have h₁ := h.geom.data_eq
  have h₂ := h.geom.end_le
  omega

/-- The number of a slot's sector. -/
lemma Holds.slot_lt (h : s.Holds sh v) {k : ℕ} (hk : k < sh.slots) : k / 16 < s.rootSectors := by
  have := h.slots
  omega

/-! ## Frames -/

/-- The table is a matter of the sectors before the root directory. -/
lemma getFatEntry_of_blocks (hs : Geom s) (hst : Sibling s t)
    (hfat : ∀ x, s.fatStartSector ≤ x → x < s.rootStartSector → t.disk.block x = s.disk.block x)
    (hc : s.IsCluster c) : t.getFatEntry c = s.getFatEntry c := by
  have hbyte : ∀ a < 512 * s.boot.fatSize16, t.fatByte a = s.fatByte a := by
    intro a ha
    have hlt := hs.fat_lt (i := a / 512) hs.fats_pos (by omega)
    unfold fatByte
    rw [hst.fatStartSector, hfat _ (by omega) (by omega)]
  have hroom := hs.room c hc.2
  rw [getFatEntry_eq (hst.geom hs) (hst.isCluster.2 hc), getFatEntry_eq hs hc, hst.decodeEntry,
    hst.fatOffset, hbyte _ (by omega), hbyte _ hroom]

/-- The tables stay equal while their sectors are kept. -/
lemma copies_of_blocks (hs : Geom s) (hcopies : s.Copies) (hst : Sibling s t)
    (hfat : ∀ x, s.fatStartSector ≤ x → x < s.rootStartSector →
      t.disk.block x = s.disk.block x) : t.Copies := by
  unfold Copies
  rw [hst.boot, hst.fatStartSector]
  intro f hf i hi
  have h₁ := hs.fat_lt hf hi
  have h₂ := hs.fat_lt hs.fats_pos hi
  rw [hfat _ (by omega) (by omega), hfat _ (by omega) (by omega)]
  exact hcopies f hf i hi

lemma slotEntry_of_blocks (hst : Sibling s t)
    (hroot : ∀ i < s.rootSectors,
      t.disk.block (s.rootStartSector + i) = s.disk.block (s.rootStartSector + i)) {k : ℕ}
    (hk : k / 16 < s.rootSectors) : t.slotEntry k = s.slotEntry k := by
  unfold slotEntry
  rw [hst.rootStartSector, hroot _ hk]

/-- The bytes of a cluster depend on its sectors. -/
lemma clusterBytes_of_blocks (hst : Sibling s t)
    (hdata : ∀ j < s.boot.sectorsPerCluster,
      t.disk.block (s.clusterSector c + j) = s.disk.block (s.clusterSector c + j)) :
    t.clusterBytes c = s.clusterBytes c := by
  unfold clusterBytes
  rw [hst.boot]
  apply List.flatMap_congr
  intro j hj
  rw [hst.clusterSector, hdata j (List.mem_range.1 hj)]

/-- The constants of a sibling. -/
lemma Holds.of_sibling (h : s.Holds sh v) (hst : Sibling s t) {w : Vol} (hcopies : t.Copies)
    (hfat : ∀ c, sh.IsCluster c → t.getFatEntry c = w.fat c)
    (hdir : ∀ k < sh.slots, t.slotEntry k = w.dir k)
    (hdata : ∀ c, sh.IsCluster c → t.clusterBytes c = w.data c) : t.Holds sh w where
  geom := hst.geom h.geom
  copies := hcopies
  clusters := hst.totalClusters.trans h.clusters
  slots := by rw [hst.rootSectors]; exact h.slots
  bytes := by rw [hst.boot]; exact h.bytes
  eoc := hst.eocMarker.trans h.eoc
  threshold := hst.eocThreshold.trans h.threshold
  fat := hfat
  dir := hdir
  data := hdata

/-- **An entry of the table is set.** -/
lemma Holds.setFatEntry (h : s.Holds sh v) (hc : sh.IsCluster c) {x : ℕ} (hx : x ≤ sh.eoc) :
    (s.setFatEntry c x).Holds sh { v with fat := Function.update v.fat c x } := by
  have hc' := h.isCluster.2 hc
  have hst : Sibling s (s.setFatEntry c x) := sibling_setFatEntry h.geom hc'
  have hblock : ∀ y, s.rootStartSector ≤ y →
      (s.setFatEntry c x).disk.block y = s.disk.block y := fun y hy =>
    block_setFatEntry_of_outside h.geom hc' (.inr hy)
  apply h.of_sibling hst
  · exact copies_setFatEntry h.geom h.copies hc'
  · intro d hd
    rw [getFatEntry_setFatEntry h.geom hc' (h.isCluster.2 hd) (by rwa [h.maxEntry]),
      h.fat d hd]
    simp only [Function.update_apply]
  · intro k hk
    rw [slotEntry_of_blocks hst _ (h.slot_lt hk), h.dir k hk]
    intro i _
    exact hblock _ (Nat.le_add_right _ _)
  · intro d hd
    rw [clusterBytes_of_blocks hst, h.data d hd]
    intro j _
    have h₁ := (h.clusterSector_lt hd).1
    have h₂ := h.geom.data_eq
    exact hblock _ (by omega)

/-- **Data sectors are written**: the clusters hold what the sectors hold. -/
lemma Holds.of_dataBlocks (h : s.Holds sh v) (hst : Sibling s t)
    (hsame : ∀ x, x < s.dataStartSector → t.disk.block x = s.disk.block x) {d : ℕ → List UInt8}
    (hdata : ∀ c, sh.IsCluster c → t.clusterBytes c = d c) :
    t.Holds sh { v with data := d } := by
  have hroot := h.geom.data_eq
  have hfat : ∀ x, s.fatStartSector ≤ x → x < s.rootStartSector →
      t.disk.block x = s.disk.block x := fun x _ hx => hsame x (by omega)
  apply h.of_sibling hst
  · exact copies_of_blocks h.geom h.copies hst hfat
  · intro c hc
    rw [getFatEntry_of_blocks h.geom hst hfat (h.isCluster.2 hc), h.fat c hc]
  · intro k hk
    rw [slotEntry_of_blocks hst _ (h.slot_lt hk), h.dir k hk]
    intro i hi
    exact hsame _ (h.root_lt hi).1
  · exact hdata

/-- **Sectors of the root directory are written**: the directory holds what they hold. -/
lemma Holds.of_rootBlocks (h : s.Holds sh v) (hst : Sibling s t)
    (hsame : ∀ x, x < s.rootStartSector ∨ s.dataStartSector ≤ x →
      t.disk.block x = s.disk.block x) {d : ℕ → Dirent}
    (hdir : ∀ k < sh.slots, t.slotEntry k = d k) : t.Holds sh { v with dir := d } := by
  have hfat : ∀ x, s.fatStartSector ≤ x → x < s.rootStartSector →
      t.disk.block x = s.disk.block x := fun x _ hx => hsame x (.inl hx)
  apply h.of_sibling hst
  · exact copies_of_blocks h.geom h.copies hst hfat
  · intro c hc
    rw [getFatEntry_of_blocks h.geom hst hfat (h.isCluster.2 hc), h.fat c hc]
  · exact hdir
  · intro c hc
    rw [clusterBytes_of_blocks hst, h.data c hc]
    intro j _
    have h₁ := (h.clusterSector_lt hc).1
    exact hsame _ (.inr (by omega))

end Fs

end BengalTiger.Fat
