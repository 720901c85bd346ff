import BengalTiger.Fat.Table

set_option autoImplicit false

/-!
# The layout of a mounted volume

The tables, the root directory and the clusters of a volume lie one after the other inside the
device, and each table has room for all entries. On such a volume no sector number wraps around, and
the laws of the tables are about the sectors as they are counted.

## Main definitions

* `Fat.Fs.Geom` — the layout.
* `Fat.Fs.Copies` — the tables are equal.

## Main results

* `Fat.Fs.getFatEntry_setFatEntry` — the entries after one of them is set.
* `Fat.Fs.block_setFatEntry_of_outside` — the rest of the device.
* `Fat.Fs.copies_setFatEntry` — the tables stay equal.
-/

namespace BengalTiger.Fat

open BlockDevice

namespace Fs

/-! ## Layout -/

/-- The layout of a mounted volume: the tables, the root directory and the clusters follow each
other and end inside the device, and a table has room for every entry. -/
structure Geom (s : Fs) : Prop where
  mounted : s.mounted = true
  spc_pos : 0 < s.boot.sectorsPerCluster
  spc_le : s.boot.sectorsPerCluster ≤ 128
  fats_pos : 0 < s.boot.numFats
  root_eq : s.rootStartSector = s.fatStartSector + s.boot.numFats * s.boot.fatSize16
  data_eq : s.dataStartSector = s.rootStartSector + s.rootSectors
  end_le : s.dataStartSector + s.totalClusters * s.boot.sectorsPerCluster ≤ s.disk.size
  size_le : s.disk.size ≤ 4294967296
  clusters_lt : s.totalClusters < 65525
  type_eq : s.fatType = if s.totalClusters < 4085 then .fat12 else .fat16
  room : ∀ c < s.totalClusters + 2, s.fatOffset c + 1 < 512 * s.boot.fatSize16

/-- The tables are equal. -/
def Copies (s : Fs) : Prop :=
  ∀ f < s.boot.numFats, ∀ i < s.boot.fatSize16,
    s.disk.block (s.fatStartSector + f * s.boot.fatSize16 + i) =
      s.disk.block (s.fatStartSector + i)

variable {s t : Fs} {c c' v : ℕ}

variable (hs : Geom s)

include hs

/-- The layout does not depend on the contents. -/
lemma Sibling.geom (h : Sibling s t) : Geom t where
  mounted := h.mounted.trans hs.mounted
  spc_pos := by rw [h.boot]; exact hs.spc_pos
  spc_le := by rw [h.boot]; exact hs.spc_le
  fats_pos := by rw [h.boot]; exact hs.fats_pos
  root_eq := by rw [h.rootStartSector, h.fatStartSector, h.boot]; exact hs.root_eq
  data_eq := by rw [h.dataStartSector, h.rootStartSector, h.rootSectors]; exact hs.data_eq
  end_le := by rw [h.dataStartSector, h.totalClusters, h.boot, h.2]; exact hs.end_le
  size_le := by rw [h.2]; exact hs.size_le
  clusters_lt := by rw [h.totalClusters]; exact hs.clusters_lt
  type_eq := by rw [h.fatType, h.totalClusters]; exact hs.type_eq
  room := by
    rw [h.totalClusters, h.boot]
    intro c hc
    rw [h.fatOffset]
    exact hs.room c hc

/-! ## Sectors in range -/

/-- Access to a sector in the range of the device. -/
lemma read_of_lt {lba : ℕ} (h : lba < s.disk.size) : s.read lba = some (s.disk.block lba) := by
  have hu : u32 lba = lba := u32_of_lt (h.trans_le hs.size_le)
  rw [read, hu, Device.read_of_lt h]

lemma canWrite_of_lt {lba : ℕ} (h : lba < s.disk.size) : s.canWrite lba = true := by
  have hu : u32 lba = lba := u32_of_lt (h.trans_le hs.size_le)
  rw [canWrite, hu]
  exact decide_eq_true h

omit hs in
lemma sibling_write (lba : ℕ) (b : Sector) : Sibling s (s.write lba b) :=
  sibling_disk Device.size_write

lemma block_write_self {lba : ℕ} (h : lba < s.disk.size) (b : Sector) :
    (s.write lba b).disk.block lba = b := by
  have hu : u32 lba = lba := u32_of_lt (h.trans_le hs.size_le)
  unfold write
  rw [hu]
  exact Device.block_write_self h

lemma block_write_of_ne {lba x : ℕ} (h : lba < s.disk.size) (hx : x ≠ lba) (b : Sector) :
    (s.write lba b).disk.block x = s.disk.block x := by
  have hu : u32 lba = lba := u32_of_lt (h.trans_le hs.size_le)
  unfold write
  rw [hu]
  exact Device.block_write_of_ne hx

/-! ## The entries of a table -/

/-- The byte at an offset of the first table. -/
def fatByte (s : Fs) (a : ℕ) : UInt8 := (s.disk.block (s.fatStartSector + a / 512)).get (a % 512)

/-- The sectors of the tables lie before the root directory, inside the device. -/
lemma Geom.fat_lt {f i : ℕ} (hf : f < s.boot.numFats) (hi : i < s.boot.fatSize16) :
    s.fatStartSector + f * s.boot.fatSize16 + i < s.rootStartSector := by
  have hle := mul_add_le (k := s.boot.fatSize16) hf
  have := hs.root_eq
  omega

lemma Geom.root_le : s.rootStartSector ≤ s.disk.size := by
  have h₁ := hs.data_eq
  have h₂ := hs.end_le
  omega

omit hs in
/-- The sectors of the clusters. -/
lemma Geom.clusterSector_lt (hs : s.Geom) (hc : s.IsCluster c) :
    s.dataStartSector ≤ s.clusterSector c ∧
      s.clusterSector c + s.boot.sectorsPerCluster ≤ s.disk.size := by
  have hend := hs.end_le
  have hle := mul_add_le (k := s.boot.sectorsPerCluster) hc.sub_two_lt
  unfold clusterSector
  omega

/-- A sector of a table, without wrapping around. -/
lemma Geom.tableSector_eq {f i : ℕ} (hf : f < s.boot.numFats) (hi : i < s.boot.fatSize16) :
    s.tableSector f i = s.fatStartSector + f * s.boot.fatSize16 + i := by
  have h₁ := hs.fat_lt hf hi
  have h₂ := hs.root_le
  have h₃ := hs.size_le
  exact u32_of_lt (by omega)

/-- The tables of a volume that is laid out well. -/
lemma Geom.tables : s.Tables where
  mounted := hs.mounted
  fats_pos := hs.fats_pos
  tables_le := by
    have h₁ := hs.root_eq
    have h₂ := hs.root_le
    have h₃ := hs.size_le
    omega
  clusters_lt := hs.clusters_lt
  room := hs.room
  io := by
    intro f hf i hi
    have h₁ := hs.fat_lt hf hi
    have h₂ := hs.root_le
    rw [hs.tableSector_eq hf hi]
    omega

lemma Geom.tableSector_zero_eq {i : ℕ} (hi : i < s.boot.fatSize16) :
    s.tableSector 0 i = s.fatStartSector + i := by
  rw [hs.tableSector_eq hs.fats_pos hi, Nat.zero_mul, Nat.add_zero]

lemma Geom.tableByte_eq {a : ℕ} (ha : a < 512 * s.boot.fatSize16) :
    s.tableByte 0 a = s.fatByte a := by
  rw [tableByte, fatByte, hs.tableSector_zero_eq (by omega)]

/-- Two ways to say that the tables are equal. -/
lemma Geom.identical_iff : s.Identical ↔ s.Copies := by
  have hblock : ∀ f < s.boot.numFats, ∀ i < s.boot.fatSize16,
      (s.disk.block (s.tableSector f i) = s.disk.block (s.tableSector 0 i) ↔
        s.disk.block (s.fatStartSector + f * s.boot.fatSize16 + i) =
          s.disk.block (s.fatStartSector + i)) := by
    intro f hf i hi
    rw [hs.tableSector_eq hf hi, hs.tableSector_zero_eq hi]
  constructor
  · exact fun h f hf i hi => (hblock f hf i hi).1 (h f hf i hi)
  · exact fun h f hf i hi => (hblock f hf i hi).2 (h f hf i hi)

/-- The entry of a cluster is in the two bytes at its offset. -/
lemma getFatEntry_eq (hc : s.IsCluster c) :
    s.getFatEntry c = s.decodeEntry c
      (rdLe16 (s.fatByte (s.fatOffset c)) (s.fatByte (s.fatOffset c + 1))) := by
  have hroom := hs.room c hc.2
  rw [hs.tables.getFatEntry_eq hc, hs.tableByte_eq (by omega), hs.tableByte_eq hroom]

/-! ## Setting an entry -/

lemma sibling_setFatEntry (hc : s.IsCluster c) :
    Sibling s (s.setFatEntry c v) := hs.tables.sibling_setFatEntry hc

/-- Sectors outside the tables stay. -/
lemma block_setFatEntry_of_outside (hc : s.IsCluster c) {x : ℕ}
    (hx : x < s.fatStartSector ∨ s.rootStartSector ≤ x) :
    (s.setFatEntry c v).disk.block x = s.disk.block x := by
  apply hs.tables.block_setFatEntry_of_outside hc
  intro f hf i hi
  have := hs.fat_lt hf hi
  rw [hs.tableSector_eq hf hi]
  omega

/-- The tables stay equal. -/
lemma copies_setFatEntry (hcopies : s.Copies) (hc : s.IsCluster c) :
    (s.setFatEntry c v).Copies := by
  have hsib : Sibling s (s.setFatEntry c v) := sibling_setFatEntry hs hc
  rw [← (hsib.geom hs).identical_iff]
  exact hs.tables.identical_setFatEntry hc (hs.identical_iff.2 hcopies)

/-- The offset of an entry, without wrapping around. -/
lemma fatOffset_of_lt (hc : c < s.totalClusters + 2) :
    s.fatOffset c = if s.fatType = .fat12 then c + c / 2 else c * 2 := by
  have := hs.clusters_lt
  exact fatOffset_eq (by omega)

/-- **The laws of the table.** After an entry is set it is read back, and the others are as
before. -/
lemma getFatEntry_setFatEntry (hc : s.IsCluster c) (hc' : s.IsCluster c') (hv : v ≤ s.maxEntry) :
    (s.setFatEntry c v).getFatEntry c' = if c' = c then v else s.getFatEntry c' := by
  rw [hs.tables.getFatEntry_setFatEntry hc hc', Nat.mod_eq_of_lt (by omega)]

end Fs

end BengalTiger.Fat
