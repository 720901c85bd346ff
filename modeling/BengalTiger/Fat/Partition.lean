import BengalTiger.Disk
import BengalTiger.Fat.Untrusted

set_option autoImplicit false

/-!
# Volumes on a partition

`try_mount_disk` looks for a volume at sector 0 and then at the start of every partition of the
master boot record. The file system computes with 32-bit sector numbers while the driver of the hard
disk puts 28 bits of them into its registers. So a volume that reaches past `2 ^ 28` sectors is
accessed at other places than the file system asks for. The loops over a chain follow every value
below the end mark, so a chain can lead behind the last cluster of the volume.

## Main definitions

* `Fat.Fs.tryMountDisk` — the search for a volume.
* `Fat.Fs.Asks` — the sectors that the file system asks for.
* `Fat.Fs.EndsBelow` — the volume and the chains on it end below a sector.
* `Fat.Exact` — every successful access to a sector is to that sector.

## Main results

* `Fat.Fs.mountAtLba_of_tryMountDisk` — where a volume is found.
* `Fat.Fs.Placed.exact_iff` — when the sectors asked for are accessed where they are.
* `Fat.sector_addressing_iff` — which sectors and volumes are accessed where they are.
-/

namespace BengalTiger.Fat

open BlockDevice List
open Disk (Disks Drive Io ataReadSector ataWriteSector address ataBasePort)

/-! ## The search for a volume -/

/-- The start of partition `i` of a master boot record, if it is a FAT partition and not empty. -/
def partitionStart (mbr : Sector) (i : ℕ) : Option ℕ :=
  let entry := 0x1BE + 16 * i
  let partType := mbr.get (entry + 4)
  let lbaStart := le32 mbr (entry + 8)
  let sectorCount := le32 mbr (entry + 12)
  if 0 < lbaStart ∧ 0 < sectorCount ∧
      (partType = 0x01 ∨ partType = 0x04 ∨ partType = 0x06 ∨ partType = 0x0E) then some lbaStart
  else none

namespace Fs

variable {s t : Fs} {base x : ℕ} {mbr : Sector}

/-- The loop of `try_mount_disk` over the partitions. -/
def tryPartitions (mbr : Sector) : List ℕ → Fs → Bool × Fs
  | [], s => (false, s)
  | i :: parts, s =>
    (partitionStart mbr i).elim (tryPartitions mbr parts s) fun lbaStart =>
      let r := s.mountAtLba lbaStart
      if r.1 then r else tryPartitions mbr parts r.2

/-- `try_mount_disk`. -/
def tryMountDisk (s : Fs) : Bool × Fs :=
  let r := s.mountAtLba 0
  if r.1 then r
  else (r.2.read 0).elim (false, r.2) fun mbr =>
    if mbr.get 510 ≠ 0x55 ∨ mbr.get 511 ≠ 0xAA then (false, r.2)
    else tryPartitions mbr (List.range 4) r.2

/-- The places where `try_mount_disk` looks for a volume. -/
def Start (s : Fs) (base : ℕ) : Prop :=
  base = 0 ∨ ∃ i < 4, partitionStart (s.disk.block 0) i = some base

lemma disk_withBoot (s : Fs) (base : ℕ) (b : Sector) : (s.withBoot base b).disk = s.disk := rfl

/-- Mounting leaves the device. -/
lemma disk_of_mountAtLba {r : Bool × Fs} (h : s.mountAtLba base = r) : r.2.disk = s.disk := by
  rw [mountAtLba] at h
  cases hread : s.read base with
  | none =>
    rw [hread] at h
    rw [← h]
    rfl
  | some b =>
    rw [hread, Option.elim_some] at h
    split_ifs at h
    · simp only at h
      split_ifs at h
      all_goals
        rw [← h]
        exact s.disk_withBoot base b
    · rw [← h]

/-- A volume that the loop mounts is at the start of one of the partitions. -/
lemma mountAtLba_of_tryPartitions {parts : List ℕ} (h : tryPartitions mbr parts s = (true, t)) :
    ∃ s' : Fs, ∃ i ∈ parts, ∃ lbaStart, s'.disk = s.disk ∧ partitionStart mbr i = some lbaStart ∧
      s'.mountAtLba lbaStart = (true, t) := by
  induction parts generalizing s with
  | nil => cases h
  | cons i parts ih =>
    rw [tryPartitions] at h
    cases hstart : partitionStart mbr i with
    | none =>
      rw [hstart] at h
      obtain ⟨s', j, hj, lbaStart, hs'⟩ := ih h
      exact ⟨s', j, mem_cons_of_mem _ hj, lbaStart, hs'⟩
    | some lbaStart =>
      rw [hstart, Option.elim_some] at h
      simp only at h
      split_ifs at h
      · exact ⟨s, i, mem_cons_self, lbaStart, rfl, hstart, h⟩
      · obtain ⟨s', j, hj, lbaStart', hdisk, hs'⟩ := ih h
        exact ⟨s', j, mem_cons_of_mem _ hj, lbaStart',
          hdisk.trans (disk_of_mountAtLba rfl), hs'⟩

/-- **Where a volume is found.** -/
theorem mountAtLba_of_tryMountDisk (h : s.tryMountDisk = (true, t)) :
    ∃ s' : Fs, ∃ base, s'.disk = s.disk ∧ s.Start base ∧ s'.mountAtLba base = (true, t) := by
  rw [tryMountDisk] at h
  split_ifs at h
  · exact ⟨s, 0, rfl, .inl rfl, h⟩
  · have hdisk : (s.mountAtLba 0).2.disk = s.disk := disk_of_mountAtLba rfl
    cases hread : (s.mountAtLba 0).2.read 0 with
    | none =>
      rw [hread] at h
      cases h
    | some mbr =>
      rw [hread, Option.elim_some] at h
      split_ifs at h with hmark
      · cases h
      obtain ⟨s', i, hi, lbaStart, hs', hstart, hmount⟩ := mountAtLba_of_tryPartitions h
      have hmbr : mbr = s.disk.block 0 := by
        rw [← hdisk]
        exact Device.eq_block_of_read hread
      rw [hmbr] at hstart
      exact ⟨s', lbaStart, hs'.trans hdisk, .inr ⟨i, mem_range.1 hi, hstart⟩, hmount⟩

/-- A partition starts at a 32-bit sector number. -/
lemma Start.lt (h : s.Start base) : base < 4294967296 := by
  obtain rfl | ⟨i, -, hi⟩ := h
  · decide
  · unfold partitionStart at hi
    simp only at hi
    split_ifs at hi
    cases hi
    have h₁ : le16 (s.disk.block 0) (0x1BE + 16 * i + 8) < 65536 := rdLe16_lt _ _
    have h₂ : le16 (s.disk.block 0) (0x1BE + 16 * i + 8 + 2) < 65536 := rdLe16_lt _ _
    unfold le32
    omega

/-! ## The sectors of a volume -/

/-- **The sectors that the file system asks for** as long as no access fails: its boot sector, those
of the root directory, the entries of its clusters in every table and the clusters themselves; and
for every file that is found, the entries that are cleared when its chain is freed, and the sectors
and the entries of the clusters from which its bytes are read. -/
inductive Asks (t : Fs) : ℕ → Prop where
  | boot : Asks t t.volLbaOffset
  | root {i : ℕ} (hi : i < t.rootSectors) : Asks t (u32 (t.rootStartSector + i))
  | table {f c y : ℕ} (hf : f < t.boot.numFats) (hc : t.IsCluster c)
      (hy : y ∈ t.entrySectors f c) : Asks t y
  | cluster {c k : ℕ} (hc : t.IsCluster c) (hk : k < t.boot.sectorsPerCluster) :
      Asks t (u32 (t.clusterSector c + k))
  | freed {name : List UInt8} {x : Slot} {f c y : ℕ} (hx : t.findDirentVal name = some x)
      (hc : c ∈ t.freedChain x) (hf : f < t.boot.numFats) (hy : y ∈ t.entrySectors f c) : Asks t y
  | link {name : List UInt8} {x : Slot} {i c y : ℕ} (hx : t.findDirentVal name = some x)
      (hc : (t.walk x.ent.cluster)[i]? = some c)
      (hsize : i * t.boot.sectorsPerCluster * 512 < x.ent.size) (hy : y ∈ t.entrySectors 0 c) :
      Asks t y
  | data {name : List UInt8} {x : Slot} {i c k : ℕ} (hx : t.findDirentVal name = some x)
      (hc : (t.walk x.ent.cluster)[i]? = some c) (hk : k < t.boot.sectorsPerCluster)
      (hsize : (i * t.boot.sectorsPerCluster + k) * 512 < x.ent.size) :
      Asks t (u32 (t.clusterSector c + k))

end Fs

/-- The sectors from the start of a volume to the end of its last cluster. -/
def Boot.sectors (boot : Boot) : ℕ :=
  boot.metaSectors + (boot.total - boot.metaSectors) / boot.sectorsPerCluster *
    boot.sectorsPerCluster

namespace Fs

variable {s t : Fs} {base x : ℕ}

/-- **The volume and the chains on it end below a sector**: its last cluster, and for every file the
entries that are cleared with its chain, in the last table, and the entries and the sectors of the
clusters that its bytes are read from. -/
structure EndsBelow (t : Fs) (base limit : ℕ) : Prop where
  volume : base + t.boot.sectors ≤ limit
  freed : ∀ name x c, t.findDirentVal name = some x → c ∈ t.freedChain x →
    base + t.boot.reservedSectors + (t.boot.numFats - 1) * t.boot.fatSize16 +
      (t.fatOffset c + 1) / 512 < limit
  link : ∀ name x i c, t.findDirentVal name = some x → (t.walk x.ent.cluster)[i]? = some c →
    i * t.boot.sectorsPerCluster * 512 < x.ent.size →
      base + t.boot.reservedSectors + (t.fatOffset c + 1) / 512 < limit
  data : ∀ name x i c k, t.findDirentVal name = some x → (t.walk x.ent.cluster)[i]? = some c →
    k < t.boot.sectorsPerCluster → (i * t.boot.sectorsPerCluster + k) * 512 < x.ent.size →
      base + t.boot.metaSectors + (c - 2) * t.boot.sectorsPerCluster + k < limit

/-- The clusters that a loop over a chain comes by are below the end mark. -/
lemma lt_of_mem_walk {c c' : ℕ} (h : c' ∈ t.walk c) : 2 ≤ c' ∧ c' < t.eocThreshold := by
  unfold walk at h
  generalize t.totalClusters + 2 = guard at h
  induction guard generalizing c with
  | zero => cases h
  | succ guard ih =>
    rw [LinkTable.follow] at h
    split_ifs at h with hends
    · cases h
    · obtain rfl | h := mem_cons.1 h
      · unfold Ends at hends
        omega
      · exact ih h

/-- The end mark, and where the entries below it are. -/
lemma div_fatOffset_le {c : ℕ} (hc : c < t.eocThreshold) :
    c < 65528 ∧ (t.fatOffset c + 1) / 512 ≤ c ∧ (t.fatOffset c + 1) / 512 ≤ 255 := by
  have hc' : c < 65528 := by
    unfold eocThreshold at hc
    split_ifs at hc <;> omega
  rw [fatOffset_eq (by omega)]
  split_ifs <;> omega

namespace Placed

lemma sectors_boot (h : t.Placed base) :
    t.boot.sectors = t.boot.metaSectors + t.totalClusters * t.boot.sectorsPerCluster := by
  rw [Boot.sectors, h.clusters_eq]

/-- The clusters of the volume are below the end mark. -/
lemma le_eocThreshold (h : t.Placed base) : t.totalClusters + 2 ≤ t.eocThreshold := by
  have := h.clusters_lt
  unfold eocThreshold
  rw [h.type_eq]
  split_ifs <;> simp_all <;> omega

/-- What mounting guarantees does not depend on the device. -/
lemma withDisk (h : t.Placed base) (d : Device 512) : ({ t with disk := d } : Fs).Placed base :=
  ⟨h.mounted, h.offset_eq, h.spc_pos, h.reserved_pos, h.fats_pos, h.fat_pos, h.root_pos,
    h.sectors_eq, h.fat_eq, h.root_eq, h.data_eq, h.meta_lt, h.total_lt, h.clusters_eq,
    h.clusters_pos, h.clusters_lt, h.type_eq⟩

/-! The sectors of a volume that begins below `2 ^ 28`: their numbers do not wrap around, since a
boot sector describes fewer than `2 ^ 31` sectors. -/

section Sectors

variable (h : t.Placed base) (hbase : base < 268435456)
  (hsmall : t.boot.metaSectors + 65536 * t.boot.sectorsPerCluster < 2147483648)
include h hbase hsmall

/-- The sectors of an entry end with the one of its last byte. -/
lemma mem_entrySectors {f c y : ℕ} (hf : f < t.boot.numFats) (hc : c < t.eocThreshold)
    (hy : y ∈ t.entrySectors f c) : y ≤ base + t.boot.reservedSectors +
      f * t.boot.fatSize16 + (t.fatOffset c + 1) / 512 := by
  have hoffset := div_fatOffset_le hc
  have hcopy := mul_add_le (k := t.boot.fatSize16) hf
  have hfat := h.fat_eq
  unfold Boot.metaSectors at hsmall
  rw [u32_of_lt (by omega)] at hfat
  have hle := (Fs.mem_entrySectors hy (by omega)).2
  omega

/-- The sector of the last byte of an entry is one of its sectors. -/
lemma last_mem_entrySectors {f c : ℕ} (hf : f < t.boot.numFats) (hc : c < t.eocThreshold) :
    base + t.boot.reservedSectors + f * t.boot.fatSize16 + (t.fatOffset c + 1) / 512 ∈
      t.entrySectors f c := by
  have hoffset := div_fatOffset_le hc
  have hcopy := mul_add_le (k := t.boot.fatSize16) hf
  have hfat := h.fat_eq
  unfold Boot.metaSectors at hsmall
  rw [u32_of_lt (by omega)] at hfat
  rw [← hfat]
  exact Fs.last_mem_entrySectors f (by omega)

/-- A sector of a cluster. -/
lemma clusterSector_eq {c k : ℕ} (hc : c < t.eocThreshold) (hk : k < t.boot.sectorsPerCluster) :
    u32 (t.clusterSector c + k) =
      base + t.boot.metaSectors + (c - 2) * t.boot.sectorsPerCluster + k := by
  have hlt : c - 2 < 65535 := by
    have := (div_fatOffset_le hc).1
    omega
  have hle := mul_add_le (k := t.boot.sectorsPerCluster) hlt
  have hdata := h.data_eq
  rw [u32_of_lt (by omega)] at hdata
  rw [clusterSector, hdata, u32_of_lt (by omega)]

/-- The entries of the clusters of the volume end before the clusters do. -/
lemma entrySectors_lt {f c y : ℕ} (hf : f < t.boot.numFats) (hc : t.IsCluster c)
    (hy : y ∈ t.entrySectors f c) : y < base + t.boot.sectors := by
  have hthreshold : c < t.eocThreshold := by
    have := h.le_eocThreshold
    have := hc.2
    omega
  have hle := h.mem_entrySectors hbase hsmall hf hthreshold hy
  have hoffset := (div_fatOffset_le hthreshold).2.1
  have hoffset' : (t.fatOffset c + 1) / 512 ≤ t.totalClusters := by
    have := hc.2
    have := h.clusters_lt
    have := h.clusters_pos
    rw [fatOffset_eq (by omega)]
    split_ifs <;> omega
  have hcopy := mul_add_le (k := t.boot.fatSize16) hf
  have hspc : t.totalClusters ≤ t.totalClusters * t.boot.sectorsPerCluster :=
    Nat.le_mul_of_pos_right _ h.spc_pos
  obtain ⟨h₁, h₂⟩ := And.intro h.fat_pos h.root_pos
  rw [h.sectors_boot, Boot.metaSectors]
  omega

/-- **The sectors asked for** are below a sector if the volume and its chains are. -/
lemma lt_of_asks {limit : ℕ} (hend : t.EndsBelow base limit) (hx : t.Asks x) : x < limit := by
  have hvolume := hend.volume
  have hsectors := h.sectors_boot
  have hmeta : t.boot.metaSectors = t.boot.reservedSectors +
      t.boot.numFats * t.boot.fatSize16 + t.boot.rootSectors := rfl
  have hreserved := h.reserved_pos
  -- the sectors of chains may lie behind the volume; the others are inside
  cases hx with
  | boot =>
    rw [h.offset_eq]
    omega
  | root hi =>
    rw [h.sectors_eq] at hi
    have hroot := h.root_eq
    rw [u32_of_lt (by omega)] at hroot
    rw [u32_of_lt (by omega)]
    omega
  | table hf hc hy =>
    have := h.entrySectors_lt hbase hsmall hf hc hy
    omega
  | @cluster c k hc hk =>
    have hthreshold : c < t.eocThreshold := by
      have := h.le_eocThreshold
      have := hc.2
      omega
    have hle := mul_add_le (k := t.boot.sectorsPerCluster) hc.sub_two_lt
    rw [h.clusterSector_eq hbase hsmall hthreshold hk]
    omega
  | @freed name x f c y hx hc hf hy =>
    have hlt := hend.freed name x c hx hc
    have hle := h.mem_entrySectors hbase hsmall hf (lt_of_mem_freed hc).2 hy
    have hcopy : f * t.boot.fatSize16 ≤ (t.boot.numFats - 1) * t.boot.fatSize16 :=
      Nat.mul_le_mul_right _ (by omega)
    omega
  | link hx hc hsize hy =>
    have hlt := hend.link _ _ _ _ hx hc hsize
    have hthreshold := (lt_of_mem_walk (mem_of_getElem? hc)).2
    have hle := h.mem_entrySectors hbase hsmall h.fats_pos hthreshold hy
    omega
  | data hx hc hk hsize =>
    have hthreshold := (lt_of_mem_walk (mem_of_getElem? hc)).2
    rw [h.clusterSector_eq hbase hsmall hthreshold hk]
    exact hend.data _ _ _ _ _ hx hc hk hsize

/-- If the sectors asked for are below a sector, then the volume and its chains end below it. -/
lemma endsBelow {limit : ℕ} (hall : ∀ x, t.Asks x → x < limit) : t.EndsBelow base limit where
  volume := by
    obtain ⟨h₁, h₂⟩ := And.intro h.clusters_pos h.spc_pos
    have hc : t.IsCluster (t.totalClusters + 1) := ⟨by omega, by omega⟩
    have hlast := hall _ (.cluster (k := t.boot.sectorsPerCluster - 1) hc (by omega))
    have hthreshold : t.totalClusters + 1 < t.eocThreshold := by
      have := h.le_eocThreshold
      omega
    rw [h.clusterSector_eq hbase hsmall hthreshold (by omega)] at hlast
    have hmul : (t.totalClusters + 1 - 2 + 1) * t.boot.sectorsPerCluster =
        t.totalClusters * t.boot.sectorsPerCluster := congrArg (· * _) (by omega)
    rw [Nat.add_mul, Nat.one_mul] at hmul
    rw [h.sectors_boot]
    omega
  freed name x c hx hc := by
    have hf : t.boot.numFats - 1 < t.boot.numFats := by
      have := h.fats_pos
      omega
    exact hall _ (.freed hx hc hf
      (h.last_mem_entrySectors hbase hsmall hf (lt_of_mem_freed hc).2))
  link name x i c hx hc hsize := by
    have hlast := h.last_mem_entrySectors hbase hsmall h.fats_pos
      (lt_of_mem_walk (mem_of_getElem? hc)).2
    rw [Nat.zero_mul, Nat.add_zero] at hlast
    exact hall _ (.link hx hc hsize hlast)
  data name x i c k hx hc hk hsize := by
    have hlt := hall _ (.data hx hc hk hsize)
    rwa [h.clusterSector_eq hbase hsmall (lt_of_mem_walk (mem_of_getElem? hc)).2 hk] at hlt

omit hbase hsmall in
/-- Whatever the tables and the directory hold, nothing behind the last cluster that is below the
end mark is asked for. -/
lemma endsBelow_of_le {limit : ℕ} (hle : base + t.boot.metaSectors +
    (t.eocThreshold - 2) * t.boot.sectorsPerCluster ≤ limit) : t.EndsBelow base limit := by
  have hthreshold := h.le_eocThreshold
  have hspc := h.spc_pos
  have hmeta : t.boot.metaSectors = t.boot.reservedSectors +
      t.boot.numFats * t.boot.fatSize16 + t.boot.rootSectors := rfl
  have hlast := mul_add_le (k := t.boot.fatSize16)
    (show t.boot.numFats - 1 < t.boot.numFats by have := h.fats_pos; omega)
  have hdata : t.eocThreshold - 2 ≤ (t.eocThreshold - 2) * t.boot.sectorsPerCluster :=
    Nat.le_mul_of_pos_right _ hspc
  have hroot := h.root_pos
  have hfat := h.fat_pos
  constructor
  case volume =>
    have : t.totalClusters * t.boot.sectorsPerCluster ≤
      (t.eocThreshold - 2) * t.boot.sectorsPerCluster := Nat.mul_le_mul_right _ (by omega)
    rw [h.sectors_boot]
    omega
  case freed =>
    intro name x c _ hc
    have hlt := (lt_of_mem_freed hc).2
    have := div_fatOffset_le hlt
    omega
  case link =>
    intro name x i c _ hc _
    have hlt := (lt_of_mem_walk (mem_of_getElem? hc)).2
    have := div_fatOffset_le hlt
    omega
  case data =>
    intro name x i c k _ hc hk _
    have hlt := lt_of_mem_walk (mem_of_getElem? hc)
    have := mul_add_le (k := t.boot.sectorsPerCluster) (show c - 2 < t.eocThreshold - 2 by omega)
    omega

end Sectors

end Placed

/-- A name is found behind slots that a scan skips. -/
lemma findDirentVal_of_slots {name : List UInt8} {pre rest : List Slot} {x : Slot}
    (hm : s.mounted = true) (hslots : s.rootSlots = pre ++ x :: rest)
    (hpre : ∀ y ∈ pre, y.ent.first ≠ 0 ∧ y.ent.isPlain = false)
    (hx : x.ent.isLive = true) (hplain : x.ent.isPlain = true)
    (hname : filenameToFat name = some x.ent.name) : s.findDirentVal name = some x := by
  unfold Dirent.isLive at hx
  rw [Bool.and_eq_true] at hx
  have hskip : (pre.filter fun y => y.ent.first != 0xE5 && y.ent.isPlain) = [] := by
    rw [filter_eq_nil_iff]
    intro y hy
    simp [(hpre y hy).2]
  rw [findDirentVal, hm, if_neg (by simp), hname, Option.bind_some, listed, hslots,
    takeWhile_append_of_pos (fun y hy => by simpa using (hpre y hy).1),
    takeWhile_cons_of_pos (by exact hx.1), filter_append, hskip, nil_append,
    filter_cons_of_pos (by rw [hx.2, hplain]; rfl), find?_cons_of_pos (by simp)]

/-- A device with the blocks of another one but for the first root sector, which begins with an
entry `A`: its first cluster is the last value below the end mark, and it is as long as one
cluster. -/
def farDisk (t : Fs) (d : Device 512) : Device 512 where
  size := 4294967296
  block := Function.update d.block t.rootStartSector (createDirent (.zero 512) 0
    (ascii "A          ".toList) (t.eocThreshold - 1) (t.boot.sectorsPerCluster * 512))

section FarDisk

variable (h : t.Placed base)
  (hsmall : t.boot.metaSectors + 65536 * t.boot.sectorsPerCluster < 2147483648)
include h hsmall

/-- The entry is found. -/
lemma Placed.findDirentVal_farDisk (d : Device 512) :
    ({ t with disk := t.farDisk d } : Fs).findDirentVal (ascii "A".toList) =
      some ⟨t.rootStartSector, 0, ⟨ascii "A          ".toList, attrArchive, t.eocThreshold - 1,
        t.boot.sectorsPerCluster * 512⟩⟩ := by
  obtain ⟨u, hu⟩ : ∃ u : Fs, u = { t with disk := t.farDisk d } := ⟨_, rfl⟩
  obtain ⟨b, hb⟩ : ∃ b : Sector, b = createDirent (.zero 512) 0 (ascii "A          ".toList)
    (t.eocThreshold - 1) (t.boot.sectorsPerCluster * 512) := ⟨_, rfl⟩
  rw [← hu]
  have hroot : t.rootStartSector < 4294967296 := by
    rw [h.root_eq]
    exact Nat.mod_lt _ (by norm_num)
  have hread : u.read (t.rootStartSector + 0) = some b := by
    have hblock : u.disk.block t.rootStartSector = b := by
      rw [hu, hb]
      exact Function.update_self _ _ _
    have hlt : t.rootStartSector < u.disk.size := by
      rw [hu]
      exact hroot
    rw [Nat.add_zero, Fs.read, u32_of_lt hroot, Device.read_of_lt hlt, hblock]
  have hent : dirent b 0 = ⟨ascii "A          ".toList, attrArchive, t.eocThreshold - 1,
      t.boot.sectorsPerCluster * 512⟩ := by
    have hmark : t.eocThreshold ≤ 65528 := by
      unfold eocThreshold
      split_ifs <;> omega
    rw [hb, dirent_createDirent _ (by omega) rfl (by omega), Nat.mod_eq_of_lt (by omega)]
  have hcount : u.rootSectors = t.rootSectors - 1 + 1 := by
    have := h.root_pos
    rw [← h.sectors_eq] at this
    rw [hu]
    show t.rootSectors = _
    omega
  have hstart : u.rootStartSector = t.rootStartSector := by rw [hu]
  -- the entry is in the first slot of the first root sector
  have hslots : u.rootSlots = [] ++ ⟨t.rootStartSector, 0, dirent b 0⟩ ::
      ((List.range' 1 15).map (fun i => (⟨t.rootStartSector + 0, i, dirent b i⟩ : Slot)) ++
        u.slotsFrom (t.rootSectors - 1) 1) := by
    rw [rootSlots, hcount, slotsFrom, hstart, hread, Option.elim_some,
      show List.range 16 = 0 :: List.range' 1 15 from rfl, map_cons]
    rfl
  have hplain : (attrArchive != 0x0F && attrArchive &&& 0x08 == 0) = true := by decide
  rw [hent] at hslots
  exact findDirentVal_of_slots (by rw [hu]; exact h.mounted) hslots (by simp) rfl hplain rfl

/-- **A chain behind the volume**: the bytes of this file are read from the last cluster that is
below the end mark. -/
lemma Placed.asks_farDisk (hbase : base < 268435456) (d : Device 512) :
    ({ t with disk := t.farDisk d } : Fs).Asks
      (base + t.boot.metaSectors + (t.eocThreshold - 2) * t.boot.sectorsPerCluster - 1) := by
  have hspc := h.spc_pos
  have hfind := h.findDirentVal_farDisk hsmall d
  have hplaced := h.withDisk (t.farDisk d)
  have hmark : 2 < t.eocThreshold := by
    unfold eocThreshold
    split_ifs <;> omega
  have hwalk : (({ t with disk := t.farDisk d } : Fs).walk (t.eocThreshold - 1))[0]? =
      some (t.eocThreshold - 1) := by
    have hends : ¬ ({ t with disk := t.farDisk d } : Fs).Ends (t.eocThreshold - 1) := by
      show ¬ (_ ∨ t.eocThreshold ≤ _)
      omega
    rw [walk, LinkTable.follow, if_neg hends]
    rfl
  have hlast : t.boot.sectorsPerCluster - 1 < t.boot.sectorsPerCluster := by omega
  have hasks := Asks.data hfind hwalk hlast (by
    show (0 * t.boot.sectorsPerCluster + _) * 512 < t.boot.sectorsPerCluster * 512
    omega)
  rw [hplaced.clusterSector_eq hbase hsmall (show _ < t.eocThreshold by omega) hlast] at hasks
  convert hasks using 1
  have hmul : (t.eocThreshold - 1 - 2 + 1) * t.boot.sectorsPerCluster =
      (t.eocThreshold - 2) * t.boot.sectorsPerCluster := congrArg (· * _) (by omega)
  rw [Nat.add_mul, Nat.one_mul] at hmul
  dsimp only
  omega

end FarDisk

end Fs

/-! ## Addresses -/

/-- **Every successful access to a sector** of a hard disk is to that sector. -/
def Exact (lba : ℕ) : Prop :=
  ∀ (d : Disks) (drv : Drive) (io : Io), d.ramdiskActive = false → d.activeHdd = some drv →
    ((ataReadSector d lba io).1.1 = true →
      address (ataReadSector d lba io).2.writes (ataBasePort drv.channel) = lba) ∧
    ∀ buf, (ataWriteSector d lba buf io).1.1 = true →
      address (ataWriteSector d lba buf io).2.writes (ataBasePort drv.channel) = lba

lemma mod_eq_self_iff (lba : ℕ) : lba % 268435456 = lba ↔ lba < 268435456 := by
  omega

/-- A hard disk that is the master of the first channel. -/
def masterDisk : Disks := ⟨false, none, some ⟨0, true, true⟩⟩

/-- The sectors that an access finds. -/
lemma exact_iff (lba : ℕ) : Exact lba ↔ lba < 268435456 := by
  constructor
  · intro h
    have hread : (ataReadSector masterDisk lba Disk.readyIo).1.1 = true :=
      Disk.ataReadSector_ready rfl rfl rfl lba
    have haddress := (h masterDisk ⟨0, true, true⟩ Disk.readyIo rfl rfl).1 hread
    rw [Disk.address_ataReadSector rfl rfl hread] at haddress
    exact (mod_eq_self_iff lba).1 haddress
  · intro h d drv io hram hdrv
    constructor
    · intro hread
      rw [Disk.address_ataReadSector hram hdrv hread, (mod_eq_self_iff lba).2 h]
    · intro buf hwrite
      rw [Disk.address_ataWriteSector hram hdrv hwrite, (mod_eq_self_iff lba).2 h]

/-- **A volume is accessed where it is** if and only if it and its chains end below `2 ^ 28`. -/
lemma Fs.Placed.exact_iff {t : Fs} {base : ℕ} (h : t.Placed base)
    (hsmall : t.boot.metaSectors + 65536 * t.boot.sectorsPerCluster < 2147483648) :
    (∀ x, t.Asks x → Exact x) ↔ t.EndsBelow base 268435456 := by
  constructor
  · intro hall
    have hbase := (Fat.exact_iff _).1 (hall _ .boot)
    rw [h.offset_eq] at hbase
    exact h.endsBelow hbase hsmall fun x hx => (Fat.exact_iff x).1 (hall x hx)
  · intro hend x hx
    have hbase : base < 268435456 := by
      have hvolume := hend.volume
      have := h.reserved_pos
      rw [h.sectors_boot, Boot.metaSectors] at hvolume
      omega
    exact (Fat.exact_iff x).2 (h.lt_of_asks hbase hsmall hend hx)

/-- The bytes of a boot sector bound the volume. -/
lemma Boot.small_ofSector {b : Sector} (hfats : (Boot.ofSector b).numFats ≤ 4) :
    (Boot.ofSector b).metaSectors + 65536 * (Boot.ofSector b).sectorsPerCluster < 2147483648 := by
  have hspc : (Boot.ofSector b).sectorsPerCluster ≤ 255 := by
    have := (b.get 13).toNat_lt
    show (b.get 13).toNat ≤ 255
    omega
  have hreserved : (Boot.ofSector b).reservedSectors < 65536 := rdLe16_lt _ _
  have hfat : (Boot.ofSector b).fatSize16 < 65536 := rdLe16_lt _ _
  have hroot : (Boot.ofSector b).rootEntries < 65536 := rdLe16_lt _ _
  have htables : (Boot.ofSector b).numFats * (Boot.ofSector b).fatSize16 ≤ 4 * 65535 :=
    Nat.mul_le_mul hfats (by omega)
  rw [Boot.metaSectors, Boot.rootSectors]
  omega

/-- A disk with one partition of 64 sectors, in the middle of which sector `2 ^ 28` is. -/
def straddling : Fs :=
  { blankFs 268435520 with
    disk := ((blankFs 268435520).disk.write 0 (((Block.zero 512).put 0x1C2 ([0x04, 0, 0, 0] ++
      wrLe32 268435424 ++ wrLe32 64)).put 510 [0x55, 0xAA])).write 268435424
        (bootSector (formatGeometry 64) []) }

end BengalTiger.Fat
