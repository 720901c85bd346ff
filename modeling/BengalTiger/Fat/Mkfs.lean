import BengalTiger.Fat.Relocate

set_option autoImplicit false

/-!
# The volume that `fat_format` makes

For every size of the device and every label: the computation of the geometry does not wrap around,
the volume is mounted with the type that its boot sector names and its tables are marked for, all of
its sectors lie inside the device, and the default files are there.

## Main definitions

* `Fat.Geometry.Unwrapped` — the computation of the geometry does not wrap around.

## Main results

* `Fat.Fs.fsType_bootSector` — the type that the boot sector names.
* `Fat.fatFormat_coherent` — the volume.
-/

namespace BengalTiger.Fat

open BlockDevice

/-- **The computation of the geometry does not wrap around**: the subtractions have no borrow, and
the conversion of the size of a table to 16 bits keeps its value. -/
structure Geometry.Unwrapped (g : Geometry) : Prop where
  /-- `disk_secs - reserved - r_secs`. -/
  estimate : reserved + g.rSecs ≤ g.diskSecs
  /-- `(approx_clusters + 2) * 3 + 1`, and with it `(approx_clusters + 2) * 2`. -/
  bytes : (g.approxClusters + 2) * 3 + 1 < 4294967296
  /-- `(uint16_t)((fat_bytes + 511) / 512)`. -/
  table : (g.fatBytes + 511) / 512 < 65536
  fatSecs : g.fatSecs = (g.fatBytes + 511) / 512
  /-- `disk_secs - reserved - num_fats * fat_secs - r_secs`. -/
  data : reserved + numFats * g.fatSecs + g.rSecs ≤ g.diskSecs

/-- The geometry of a device of at least 64 sectors is computed without wrapping. -/
lemma formatGeometry_unwrapped {n : ℕ} (hn : 64 ≤ n) : (formatGeometry n).Unwrapped := by
  have hranges := formatGeometry_ranges n
  obtain ⟨hlt, hfat, -, hle, -, -⟩ := formatGeometry_table hn
  have hmeta := formatGeometry_meta hn
  have hroot := hranges.root
  have hdisk := hranges.disk
  constructor
  case estimate =>
    unfold reserved
    omega
  case bytes => omega
  case table => omega
  case fatSecs => exact hfat
  case data =>
    unfold reserved numFats
    omega

/-! ## The type in the boot sector -/

lemma length_volLabel (label : List UInt8) : (volLabel label).length = 11 := by
  unfold volLabel
  split_ifs
  · rfl
  · apply length_padded
    simp

lemma length_bootHeader (g : Geometry) : (bootHeader g).length = 43 := by
  simp [bootHeader, ascii, wrLe16, wrLe32]

/-- **The type that the boot sector names**, at offset 54. -/
lemma fsType_bootSector (g : Geometry) (label : List UInt8) :
    ((List.range 8).map fun k => (bootSector g label).get (54 + k)) =
      ascii (if g.fat12 then "FAT12   " else "FAT16   ").toList := by
  have hlabel := length_volLabel label
  have hheader := length_bootHeader g
  have hget : ∀ k < 8, (bootSector g label).get (54 + k) =
      (ascii (if g.fat12 then "FAT12   " else "FAT16   ").toList)[k]?.getD 0 := by
    intro k hk
    rw [bootSector_eq, Block.get_put_of_lt _ _ (by omega), Block.get_put _ _ _ (by omega),
      if_pos (Nat.zero_le _), Nat.sub_zero, List.getElem?_append_right (by omega),
      List.getElem?_append_right (by omega), hheader, hlabel,
      show 54 + k - 43 - 11 = k by omega, Block.get_zero]
  have hmap : ((List.range 8).map fun k => (bootSector g label).get (54 + k)) =
      (List.range 8).map fun k =>
        (ascii (if g.fat12 then "FAT12   " else "FAT16   ").toList)[k]?.getD 0 :=
    List.map_congr_left fun k hk => hget k (List.mem_range.1 hk)
  rw [hmap]
  cases g.fat12 <;> decide

namespace Fs

variable {s t : Fs}

/-- A volume at the beginning of its own device. -/
lemma relocate_zero (h : t.volLbaOffset = 0) : t.relocate 0 t.disk = t := by
  have hdisk : t.disk.patch 0 t.disk = t.disk :=
    Device.patch_eq_self fun i _ => by rw [Nat.zero_add]
  cases t
  simp_all [relocate]

/-- The default files can be read. -/
lemma fatReadFile_seed (label : List UInt8) (h64 : 64 ≤ s.disk.size)
    (hsize : s.disk.size ≤ 4294967296) {f : List UInt8 × List UInt8} (hf : f ∈ seedFiles)
    (maxLen : ℕ) :
    (s.fatFormat label).2.fatReadFile f.1 maxLen = some (f.2.length, f.2.take maxLen) := by
  obtain ⟨sh, v, chain, hv, hinv, hfiles, -⟩ := fatFormat_holds h64 hsize label
  obtain ⟨-, fatName, hn, -⟩ := seedFiles_spec f hf
  rw [hv.fatReadFile_eq hinv, hn, Option.bind_some, hfiles f hf fatName hn, Option.map_some]

/-- A file that can be read exists. -/
lemma fatFileExists_of_fatReadFile {name : List UInt8} {maxLen : ℕ} {r : ℕ × List UInt8}
    (h : t.fatReadFile name maxLen = some r) : t.fatFileExists name = true := by
  obtain ⟨x, hx, -⟩ := Option.bind_eq_some_iff.1 h
  rw [fatFileExists, hx]
  rfl

end Fs

/-- **`fat_format` makes a coherent volume**, on every device of at least 64 sectors and for every
label. -/
theorem fatFormat_coherent {s : Fs} (h64 : 64 ≤ s.disk.size) (hsize : s.disk.size < 4294967296)
    (label : List UInt8) :
    ∃ t, s.fatFormat label = (true, t) ∧
      -- the computation of the geometry
      (formatGeometry s.disk.size).Unwrapped ∧
      -- the boot sector, and what `mount_at_lba(0)` makes of it
      t.disk.block 0 = bootSector (formatGeometry s.disk.size) label ∧
      t.mountAtLba 0 = (true, t) ∧
      -- the type of the mounted volume, of the boot sector and of the new tables
      (t.fatType = .fat12 ↔ t.totalClusters < 4085) ∧
      (t.fatType = .fat16 ↔ 4085 ≤ t.totalClusters) ∧ t.totalClusters < 65525 ∧
      ((List.range 8).map fun k => (t.disk.block 0).get (54 + k)) =
        ascii (if t.fatType = .fat12 then "FAT12   " else "FAT16   ").toList ∧
      (∀ f < t.boot.numFats,
        (t.fatStartSector + f * t.boot.fatSize16, (Block.zero 512).put 0
          (if t.fatType = .fat12 then [0xF8, 0xFF, 0xFF] else [0xF8, 0xFF, 0xFF, 0xFF])) ∈
          formatWrites (formatGeometry s.disk.size) label) ∧
      -- the tables have room for the entries of all clusters
      (∀ c < t.totalClusters + 2, t.fatOffset c + 1 < 512 * t.boot.fatSize16) ∧
      -- the tables, the root directory and the clusters
      t.rootStartSector = t.fatStartSector + t.boot.numFats * t.boot.fatSize16 ∧
      t.dataStartSector = t.rootStartSector + t.rootSectors ∧
      t.dataStartSector + t.totalClusters * t.boot.sectorsPerCluster ≤
        min s.disk.size 1048576 ∧
      -- the default files
      ∀ f ∈ seedFiles, t.fatFileExists f.1 = true ∧
        ∀ maxLen, t.fatReadFile f.1 maxLen = some (f.2.length, f.2.take maxLen) := by
  have hg := formatGeometry_ok h64
  have hdisk := (formatGeometry_ranges s.disk.size).disk
  obtain ⟨t, hformat⟩ : ∃ t, s.fatFormat label = (true, t) :=
    ⟨_, Fs.fatFormat_eq h64 hsize.le label⟩
  obtain ⟨hclosed, hst, hsize'⟩ := Fs.closed_of_fatFormat hsize hformat
  obtain ⟨-, h₂, -, h₄, -, h₆, -⟩ := ofSector_bootSector hg label
  have hgeom := hclosed.geom
  have hboot : t.boot = Boot.ofSector (bootSector (formatGeometry s.disk.size) label) := hst.boot
  have hclusters : t.totalClusters = (formatGeometry s.disk.size).clusters := hst.totalClusters
  have hzero : t.volLbaOffset = 0 := by rw [hst.1]; rfl
  have hblock := hclosed.booted.block
  have hfat12 : (formatGeometry s.disk.size).fat12 = decide (t.fatType = .fat12) := by
    rw [hg.fat12_eq, hgeom.type_eq, hclusters, decide_eq_decide]
    split_ifs with h <;> simp [h]
  refine ⟨t, hformat, formatGeometry_unwrapped h64, hblock, ?_, ?_, ?_, hgeom.clusters_lt, ?_, ?_,
    hgeom.room, hgeom.root_eq, hgeom.data_eq, ?_, ?_⟩
  · have hmount := (hclosed.fits (by rw [hsize']; exact hsize)).mountAtLba_eq (u := t)
      fun i _ => by rw [Nat.zero_add]
    rwa [Fs.relocate_zero hzero] at hmount
  · rw [hgeom.type_eq]
    split_ifs with h <;> simp [h]
  · rw [hgeom.type_eq]
    by_cases h : t.totalClusters < 4085
    · simp [h]
    · simp [h, Nat.le_of_not_lt h]
  · rw [hblock, fsType_bootSector, hfat12]
    simp
  · intro f hf
    rw [hboot, h₄] at hf
    have hstart : t.fatStartSector = 1 := hst.fatStartSector
    refine mem_formatWrites.2 (.inr (.inl ⟨f, hf, 0, hg.fatSecs_pos, ?_⟩))
    rw [if_pos rfl, firstFatSector, hfat12, hstart, hboot, h₆]
    simp
  · have hstart : t.dataStartSector = 1 + 2 * (formatGeometry s.disk.size).fatSecs +
        (formatGeometry s.disk.size).rSecs := hst.dataStartSector
    have hmeta := hg.meta_lt
    have hdiv := Nat.div_mul_le_self ((formatGeometry s.disk.size).diskSecs -
      (1 + 2 * (formatGeometry s.disk.size).fatSecs + (formatGeometry s.disk.size).rSecs))
      (formatGeometry s.disk.size).spc
    rw [hstart, hclusters, hboot, h₂, Geometry.clusters, ← hdisk]
    omega
  · intro f hf
    have hread : ∀ maxLen, t.fatReadFile f.1 maxLen = some (f.2.length, f.2.take maxLen) := by
      intro maxLen
      have hseed := Fs.fatReadFile_seed label h64 hsize.le hf maxLen
      rwa [hformat] at hseed
    exact ⟨Fs.fatFileExists_of_fatReadFile (hread 0), hread⟩

theorem fatFormat_coherent_small : 64 ≤ (blankFs 64).disk.size ∧
    ∃ t, (blankFs 64).fatFormat [] = (true, t) ∧ t.mountAtLba 0 = (true, t) := by
  obtain ⟨t, hformat, -, -, hmount, -⟩ :=
    fatFormat_coherent (s := blankFs 64) (by decide) (by decide) []
  exact ⟨by decide, t, hformat, hmount⟩

end BengalTiger.Fat
