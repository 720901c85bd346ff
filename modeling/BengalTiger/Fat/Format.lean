import BengalTiger.Fat.Calls

set_option autoImplicit false

/-!
# Formatting

`fat_format` on any device of at least 64 sectors. The geometry it computes has tables with room for
all entries, the boot sector it writes is mounted with that geometry, the tables and the root
directory are empty, and the default files fit. So formatting ends with a consistent volume.

## Main definitions

* `Fat.Geometry.Ok` — the conditions on a geometry.
* `Fat.Geometry.approxClusters`, `Fat.Geometry.fatBytes` — what the size of
  a table is computed from.
* `Fat.Fs.formatted` — the state before the default files are written.
* `Fat.Fs.Consistent` — the device holds a consistent volume.

## Main results

* `Fat.formatGeometry_ok` — the geometry that is computed.
* `Fat.Fs.fatFormat_eq` — formatting succeeds.
* `Fat.Fs.fatFormat_holds` — it gives a consistent volume.
-/

namespace BengalTiger.Fat

open BlockDevice LinkTable List

/-! ## Geometry -/

/-- The clusters of a geometry. -/
def Geometry.clusters (g : Geometry) : ℕ := (g.diskSecs - (1 + 2 * g.fatSecs + g.rSecs)) / g.spc

/-- The conditions on a geometry under which the volume is laid out as its boot sector says. -/
structure Geometry.Ok (g : Geometry) : Prop where
  total_le : g.diskSecs ≤ 1048576
  spc : g.spc = 1 ∨ g.spc = 2 ∨ g.spc = 4 ∨ g.spc = 8 ∨ g.spc = 16
  rootEnts_ge : 64 ≤ g.rootEnts
  rootEnts_le : g.rootEnts ≤ 512
  rSecs_eq : g.rSecs * 16 = g.rootEnts
  fatSecs_pos : 0 < g.fatSecs
  fatSecs_lt : g.fatSecs < 65536
  meta_lt : 1 + 2 * g.fatSecs + g.rSecs < g.diskSecs
  clusters_ge : 8 ≤ g.clusters
  clusters_lt : g.clusters < 65525
  fat12_eq : g.fat12 = decide (g.clusters < 4085)
  room : (if g.clusters < 4085 then g.clusters + 1 + (g.clusters + 1) / 2
    else (g.clusters + 1) * 2) + 1 < 512 * g.fatSecs

/-- The estimate of the clusters, without the tables. -/
def Geometry.approxClusters (g : Geometry) : ℕ := (g.diskSecs - reserved - g.rSecs) / g.spc

/-- The bytes of a table for the estimated number of clusters. -/
def Geometry.fatBytes (g : Geometry) : ℕ :=
  if g.approxClusters < 4085 then ((g.approxClusters + 2) * 3 + 1) / 2
  else (g.approxClusters + 2) * 2

/-- The size of a table: it has room for the entries of all clusters. -/
lemma fatSecs_spec {a fs : ℕ} (ha : a < 65536)
    (hfs : fs = u16 (u32 ((if a < 4085 then u32 ((a + 2) * 3 + 1) / 2 else u32 ((a + 2) * 2)) + 511)
      / 512)) :
    fs = ((if a < 4085 then ((a + 2) * 3 + 1) / 2 else (a + 2) * 2) + 511) / 512 ∧
      0 < fs ∧ fs ≤ 257 ∧ fs * 256 ≤ a + 2 + 255 ∧
      (if a < 4085 then a + 1 + (a + 1) / 2 else (a + 1) * 2) + 1 < 512 * fs := by
  have hbytes : fs = ((if a < 4085 then ((a + 2) * 3 + 1) / 2 else (a + 2) * 2) + 511) / 512 := by
    rw [u32_of_lt (x := (a + 2) * 3 + 1) (by omega), u32_of_lt (x := (a + 2) * 2) (by omega)] at hfs
    rw [hfs, u32_of_lt (by split_ifs <;> omega)]
    exact Nat.mod_eq_of_lt (by split_ifs <;> omega)
  refine ⟨hbytes, ?_⟩
  split_ifs at hbytes ⊢ <;> omega

/-- The ranges of the numbers that are computed first. -/
structure Geometry.Ranges (g : Geometry) (n : ℕ) : Prop where
  disk : g.diskSecs = min n 1048576
  root : g.diskSecs ≤ 2048 ∧ g.rSecs = 7 ∧ g.rootEnts = 112 ∨
    2048 < g.diskSecs ∧ g.rSecs = 32 ∧ g.rootEnts = 512
  spc : g.diskSecs < 8192 ∧ g.spc = 1 ∨
    8192 ≤ g.diskSecs ∧ g.diskSecs < 16384 ∧ g.spc = 2 ∨
    16384 ≤ g.diskSecs ∧ g.diskSecs < 262144 ∧ g.spc = 4 ∨
    262144 ≤ g.diskSecs ∧ g.diskSecs < 524288 ∧ g.spc = 8 ∨
    524288 ≤ g.diskSecs ∧ g.spc = 16

/-- The numbers computed first are in their ranges. -/
lemma formatGeometry_ranges (n : ℕ) : (formatGeometry n).Ranges n := by
  obtain ⟨g, hg⟩ : ∃ g, g = formatGeometry n := ⟨_, rfl⟩
  have hdisk : g.diskSecs = if 1048576 < n then 1048576 else n := by rw [hg]; rfl
  have hspc : g.spc = if 524288 ≤ g.diskSecs then 16 else if 262144 ≤ g.diskSecs then 8
    else if 16384 ≤ g.diskSecs then 4 else if 8192 ≤ g.diskSecs then 2 else 1 := by rw [hg]; rfl
  have hents : g.rootEnts = if g.diskSecs ≤ 2048 then 112 else 512 := by rw [hg]; rfl
  have hrsecs : g.rSecs = (g.rootEnts * 32 + 511) / 512 := by rw [hg]; rfl
  rw [← hg]
  constructor
  case disk => split_ifs at hdisk <;> omega
  case root => split_ifs at hents <;> omega
  case spc => split_ifs at hspc <;> omega

/-- The estimate and the table that it asks for are computed without wrapping around. -/
lemma formatGeometry_table {n : ℕ} (hn : 64 ≤ n) :
    (formatGeometry n).approxClusters < 65536 ∧
      (formatGeometry n).fatSecs = ((formatGeometry n).fatBytes + 511) / 512 ∧
      0 < (formatGeometry n).fatSecs ∧ (formatGeometry n).fatSecs ≤ 257 ∧
      (formatGeometry n).fatSecs * 256 ≤ (formatGeometry n).approxClusters + 2 + 255 ∧
      (if (formatGeometry n).approxClusters < 4085 then
          (formatGeometry n).approxClusters + 1 + ((formatGeometry n).approxClusters + 1) / 2
        else ((formatGeometry n).approxClusters + 1) * 2) + 1 <
        512 * (formatGeometry n).fatSecs := by
  obtain ⟨hdisk, hroot, hspc⟩ := formatGeometry_ranges n
  obtain ⟨g, hg⟩ : ∃ g, g = formatGeometry n := ⟨_, rfl⟩
  obtain ⟨a, ha⟩ : ∃ a, a = sub32 (sub32 g.diskSecs reserved) g.rSecs / g.spc := ⟨_, rfl⟩
  obtain ⟨b, hb⟩ : ∃ b, b = u16 (u32 ((if a < 4085 then u32 ((a + 2) * 3 + 1) / 2
    else u32 ((a + 2) * 2)) + 511) / 512) := ⟨_, rfl⟩
  have hfat : g.fatSecs = if b = 0 then 1 else b := by
    rw [hb, ha, hg]
    rfl
  rw [← hg] at hdisk hroot hspc ⊢
  rw [reserved, sub32_of_le (x := g.diskSecs) (by omega) (by omega),
    sub32_of_le (by omega) (by omega)] at ha
  have hexact : g.approxClusters = a := by rw [ha, Geometry.approxClusters, reserved]
  have ha_lt : a < 65536 := by
    rw [ha]
    obtain ⟨_, h⟩ | ⟨_, _, h⟩ | ⟨_, _, h⟩ | ⟨_, _, h⟩ | ⟨_, h⟩ := hspc <;> rw [h] <;> omega
  obtain ⟨hb_eq, hb_pos, hb_le, hb_size, hb_room⟩ := fatSecs_spec ha_lt hb
  rw [if_neg (by omega)] at hfat
  rw [Geometry.fatBytes, hexact, hfat]
  exact ⟨ha_lt, hb_eq, hb_pos, hb_le, hb_size, hb_room⟩

/-- The sectors in front of the clusters, and eight clusters, fit into the device. -/
lemma formatGeometry_meta {n : ℕ} (hn : 64 ≤ n) :
    1 + 2 * (formatGeometry n).fatSecs + (formatGeometry n).rSecs + 8 * (formatGeometry n).spc ≤
      (formatGeometry n).diskSecs := by
  obtain ⟨hdisk, hroot, hspc⟩ := formatGeometry_ranges n
  obtain ⟨ha_lt, -, -, -, hsize, -⟩ := formatGeometry_table hn
  generalize formatGeometry n = g at *
  have ha : g.approxClusters = (g.diskSecs - 1 - g.rSecs) / g.spc := rfl
  obtain ⟨_, h⟩ | ⟨_, _, h⟩ | ⟨_, _, h⟩ | ⟨_, _, h⟩ | ⟨_, h⟩ := hspc <;> rw [h] at ha ⊢ <;> omega

/-- **The geometry that is computed** satisfies the conditions. The estimate has at least as many
clusters as the volume, so the table that it asks for has room for their entries. -/
lemma formatGeometry_ok {n : ℕ} (hn : 64 ≤ n) : (formatGeometry n).Ok := by
  obtain ⟨hdisk, hroot, hspc⟩ := formatGeometry_ranges n
  obtain ⟨ha_lt, -, hfat_pos, hfat_le, -, hroom⟩ := formatGeometry_table hn
  have hmeta := formatGeometry_meta hn
  obtain ⟨g, hg⟩ : ∃ g, g = formatGeometry n := ⟨_, rfl⟩
  have hfat12 : g.fat12 = decide (sub32 (sub32 g.diskSecs reserved) g.rSecs / g.spc < 4085 ∨
      sub32 (sub32 (sub32 g.diskSecs reserved) (numFats * g.fatSecs)) g.rSecs / g.spc < 4085) := by
    rw [hg]
    rfl
  rw [← hg] at hdisk hroot hspc ha_lt hfat_pos hfat_le hroom hmeta ⊢
  have ha : g.approxClusters = (g.diskSecs - 1 - g.rSecs) / g.spc := rfl
  have hC_le : g.clusters ≤ g.approxClusters := by
    rw [ha]
    exact Nat.div_le_div_right (by omega)
  have hb_large : 4085 ≤ g.approxClusters → (g.approxClusters + 1) * 2 + 1 < 512 * g.fatSecs := by
    intro hle
    rwa [if_neg (by omega)] at hroom
  have hC_lt : g.clusters < 65525 := by
    unfold Geometry.clusters
    obtain ⟨_, h⟩ | ⟨_, _, h⟩ | ⟨_, _, h⟩ | ⟨_, _, h⟩ | ⟨_, h⟩ := hspc <;>
      rw [h] at ha ⊢ <;> omega
  have hspc_pos : 0 < g.spc := by omega
  constructor
  case total_le => omega
  case spc => omega
  case rootEnts_ge => omega
  case rootEnts_le => omega
  case rSecs_eq => omega
  case fatSecs_pos => omega
  case fatSecs_lt => omega
  case meta_lt => omega
  case clusters_ge =>
    rw [Geometry.clusters, Nat.le_div_iff_mul_le hspc_pos]
    omega
  case clusters_lt => exact hC_lt
  case fat12_eq =>
    rw [hfat12, reserved, numFats, sub32_of_le (x := g.diskSecs) (by omega) (by omega),
      sub32_of_le (x := g.diskSecs - 1) (by omega) (by omega),
      sub32_of_le (x := g.diskSecs - 1) (by omega) (by omega),
      sub32_of_le (by omega) (by omega), ← ha, decide_eq_decide]
    have : (g.diskSecs - 1 - 2 * g.fatSecs - g.rSecs) / g.spc = g.clusters := by
      unfold Geometry.clusters
      congr 1
      omega
    rw [this]
    omega
  case room => split_ifs at hroom ⊢ <;> omega

/-! ## The boot sector -/

/-- The bytes of the boot sector up to the label. -/
def bootHeader (g : Geometry) : List UInt8 :=
  [0xEB, 0x3C, 0x90] ++ ascii "BENGALOS".toList ++ wrLe16 512 ++ [UInt8.ofNat g.spc] ++
    wrLe16 reserved ++ [UInt8.ofNat numFats] ++ wrLe16 g.rootEnts ++
    wrLe16 (if g.diskSecs < 65536 then g.diskSecs else 0) ++ [0xF8] ++ wrLe16 g.fatSecs ++
    wrLe16 32 ++ wrLe16 64 ++ wrLe32 0 ++
    wrLe32 (if g.diskSecs < 65536 then 0 else g.diskSecs) ++
    [0x80, 0, 0x29] ++ wrLe32 0x20261031

lemma bootSector_eq (g : Geometry) (label : List UInt8) : bootSector g label =
    ((Block.zero 512).put 0 (bootHeader g ++ (volLabel label ++
      ascii (if g.fat12 then "FAT12   " else "FAT16   ").toList))).put 510 [0x55, 0xAA] := by
  unfold bootSector bootHeader
  simp only [append_assoc]

lemma get_bootSector (g : Geometry) (label : List UInt8) {i : ℕ} {a : UInt8}
    (h : (bootHeader g)[i]? = some a) (hi : i < 510) : (bootSector g label).get i = a := by
  have hlt := (List.getElem?_eq_some_iff.1 h).1
  rw [bootSector_eq, Block.get_put_of_lt _ _ hi, Block.get_put _ _ _ (by omega),
    if_pos (Nat.zero_le _), Nat.sub_zero, getElem?_append_left hlt, h, Option.getD_some]

lemma le16_bootSector (g : Geometry) (label : List UInt8) {i v : ℕ} (hv : v < 65536)
    (h₁ : (bootHeader g)[i]? = some (UInt8.ofNat v))
    (h₂ : (bootHeader g)[i + 1]? = some (UInt8.ofNat (v / 256))) (hi : i + 1 < 510) :
    le16 (bootSector g label) i = v := by
  rw [le16, get_bootSector g label h₁ (by omega), get_bootSector g label h₂ hi, rdLe16_ofNat hv]

/-- The bytes of the header, one by one. -/
lemma bootHeader_eq (g : Geometry) : ∃ rest, bootHeader g =
    0xEB :: 0x3C :: 0x90 :: 66 :: 69 :: 78 :: 71 :: 65 :: 76 :: 79 :: 83 :: UInt8.ofNat 512 ::
    UInt8.ofNat (512 / 256) :: UInt8.ofNat g.spc :: UInt8.ofNat 1 :: UInt8.ofNat (1 / 256) ::
    UInt8.ofNat 2 :: UInt8.ofNat g.rootEnts :: UInt8.ofNat (g.rootEnts / 256) ::
    UInt8.ofNat (if g.diskSecs < 65536 then g.diskSecs else 0) ::
    UInt8.ofNat ((if g.diskSecs < 65536 then g.diskSecs else 0) / 256) :: 0xF8 ::
    UInt8.ofNat g.fatSecs :: UInt8.ofNat (g.fatSecs / 256) ::
    UInt8.ofNat 32 :: UInt8.ofNat (32 / 256) :: UInt8.ofNat 64 :: UInt8.ofNat (64 / 256) ::
    UInt8.ofNat 0 :: UInt8.ofNat (0 / 256) :: UInt8.ofNat (0 / 65536) ::
    UInt8.ofNat (0 / 65536 / 256) ::
    UInt8.ofNat (if g.diskSecs < 65536 then 0 else g.diskSecs) ::
    UInt8.ofNat ((if g.diskSecs < 65536 then 0 else g.diskSecs) / 256) ::
    UInt8.ofNat ((if g.diskSecs < 65536 then 0 else g.diskSecs) / 65536) ::
    UInt8.ofNat ((if g.diskSecs < 65536 then 0 else g.diskSecs) / 65536 / 256) :: rest := by
  have hoem : ascii "BENGALOS".toList = [66, 69, 78, 71, 65, 76, 79, 83] := by decide
  refine ⟨[0x80, 0, 0x29] ++ wrLe32 0x20261031, ?_⟩
  simp only [bootHeader, hoem, wrLe16, wrLe32, reserved, numFats, cons_append, nil_append]

/-- The fields of the boot sector are read back. -/
lemma ofSector_bootSector {g : Geometry} (hg : g.Ok) (label : List UInt8) :
    (Boot.ofSector (bootSector g label)).bytesPerSector = 512 ∧
      (Boot.ofSector (bootSector g label)).sectorsPerCluster = g.spc ∧
      (Boot.ofSector (bootSector g label)).reservedSectors = 1 ∧
      (Boot.ofSector (bootSector g label)).numFats = 2 ∧
      (Boot.ofSector (bootSector g label)).rootEntries = g.rootEnts ∧
      (Boot.ofSector (bootSector g label)).fatSize16 = g.fatSecs ∧
      (Boot.ofSector (bootSector g label)).total = g.diskSecs := by
  have hspc := hg.spc
  have hents := hg.rootEnts_le
  have hfat := hg.fatSecs_lt
  have htotal := hg.total_le
  have hmeta := hg.meta_lt
  have hget : ∀ {i : ℕ} {a : UInt8}, (bootHeader g)[i]? = some a → i < 510 →
      (bootSector g label).get i = a := fun h hi => get_bootSector g label h hi
  have h16 : ∀ {i v : ℕ}, v < 65536 → (bootHeader g)[i]? = some (UInt8.ofNat v) →
      (bootHeader g)[i + 1]? = some (UInt8.ofNat (v / 256)) → i + 1 < 510 →
      le16 (bootSector g label) i = v := fun hv h₁ h₂ hi => le16_bootSector g label hv h₁ h₂ hi
  obtain ⟨rest, hheader⟩ := bootHeader_eq g
  rw [hheader] at hget h16
  simp only [Boot.total, Boot.ofSector]
  refine ⟨?_, ?_, ?_, ?_, ?_, ?_, ?_⟩
  · exact h16 (i := 11) (v := 512) (by omega) rfl rfl (by omega)
  · rw [hget (i := 13) rfl (by omega), UInt8.toNat_ofNat']
    omega
  · exact h16 (i := 14) (v := 1) (by omega) rfl rfl (by omega)
  · rw [hget (i := 16) rfl (by omega)]
    rfl
  · exact h16 (i := 17) (v := g.rootEnts) (by omega) rfl rfl (by omega)
  · exact h16 (i := 22) (v := g.fatSecs) (by omega) rfl rfl (by omega)
  · have h₁ : le16 (bootSector g label) 19 = if g.diskSecs < 65536 then g.diskSecs else 0 :=
      h16 (i := 19) (by split_ifs <;> omega) rfl rfl (by omega)
    have h₂ : le16 (bootSector g label) 32 =
        (if g.diskSecs < 65536 then 0 else g.diskSecs) % 65536 := by
      rw [le16, hget (i := 32) rfl (by omega), hget (i := 33) rfl (by omega), rdLe16_ofNat_mod]
    have h₃ : le16 (bootSector g label) 34 =
        (if g.diskSecs < 65536 then 0 else g.diskSecs) / 65536 % 65536 := by
      rw [le16, hget (i := 34) rfl (by omega), hget (i := 35) rfl (by omega), rdLe16_ofNat_mod]
    simp only [le32, h₁, h₂, h₃]
    split_ifs <;> omega

lemma rootSectors_bootSector {g : Geometry} (hg : g.Ok) (label : List UInt8) :
    (Boot.ofSector (bootSector g label)).rootSectors = g.rSecs := by
  rw [Boot.rootSectors, (ofSector_bootSector hg label).2.2.2.2.1, ← hg.rSecs_eq]
  omega

/-- The boot sector is valid. -/
lemma isValidBpb_bootSector {g : Geometry} (hg : g.Ok) (label : List UInt8) :
    isValidBpb (bootSector g label) := by
  obtain ⟨h₁, h₂, h₃, h₄, h₅, h₆, h₇⟩ := ofSector_bootSector hg label
  have hroot := rootSectors_bootSector hg label
  have hmeta := hg.meta_lt
  have hents := hg.rootEnts_ge
  have hfat := hg.fatSecs_pos
  unfold isValidBpb
  simp only [h₁, h₂, h₃, h₄, h₅, h₆, h₇, hroot]
  refine ⟨?_, ?_, trivial, ?_, ?_, by omega, by omega, by omega, by omega, by omega, by omega⟩
  · exact Block.get_put_add _ (k := 0) (by simp) (by omega)
  · exact Block.get_put_add _ (k := 1) (by simp) (by omega)
  · have := hg.spc
    omega
  · obtain h | h | h | h | h := hg.spc <;> rw [h] <;> rfl

/-! ## The sectors -/

lemma mem_formatWrites {g : Geometry} {label : List UInt8} {w : ℕ × Sector} :
    w ∈ formatWrites g label ↔ w = (0, bootSector g label) ∨
      (∃ f < 2, ∃ k < g.fatSecs,
        w = (1 + f * g.fatSecs + k, if k = 0 then firstFatSector g else .zero 512)) ∨
      ∃ k < g.rSecs, w = (1 + 2 * g.fatSecs + k, .zero 512) := by
  unfold formatWrites reserved numFats
  simp only [cons_append, mem_cons, mem_append, mem_flatMap, mem_map, mem_range, eq_comm (a := w)]

namespace Fs

variable {s : Fs} {label : List UInt8} {g : Geometry}

/-- Sectors in range are written. -/
lemma writeAll_eq {ws : List (ℕ × Sector)} (hsize : s.disk.size ≤ 4294967296)
    (h : ∀ w ∈ ws, w.1 < s.disk.size) :
    writeAll ws s = (true, { s with disk := ws.foldl (fun d w => d.write w.1 w.2) s.disk }) := by
  induction ws generalizing s with
  | nil => rfl
  | cons w ws ih =>
    have hw := h w mem_cons_self
    have hu : u32 w.1 = w.1 := u32_of_lt (by omega)
    have hcan : s.canWrite w.1 = true := by
      rw [canWrite, hu]
      exact decide_eq_true hw
    have hsize' : (s.write w.1 w.2).disk.size = s.disk.size := Device.size_write
    rw [writeAll, if_pos hcan, ih (by rw [hsize']; exact hsize) (by
      intro x hx
      rw [hsize']
      exact h x (mem_cons_of_mem _ hx)), foldl_cons, write, hu]

/-- The device after `fat_format` wrote its sectors. -/
def formattedDisk (g : Geometry) (label : List UInt8) (d : Device 512) : Device 512 :=
  (formatWrites g label).foldl (fun d w => d.write w.1 w.2) d

/-- The state once the new volume is mounted. -/
def formatted (s : Fs) (g : Geometry) (label : List UInt8) : Fs where
  disk := formattedDisk g label s.disk
  boot := Boot.ofSector (bootSector g label)
  volLbaOffset := 0
  fatStartSector := 1
  rootStartSector := 1 + 2 * g.fatSecs
  rootSectors := g.rSecs
  dataStartSector := 1 + 2 * g.fatSecs + g.rSecs
  totalClusters := g.clusters
  fatType := if g.clusters < 4085 then .fat12 else .fat16
  mounted := true

/-- The type of a new volume. -/
lemma fatType_formatted : (s.formatted g label).fatType = .fat12 ↔ g.clusters < 4085 := by
  unfold formatted
  by_cases h12 : g.clusters < 4085
  · simp [h12]
  · simp [h12]

section Formatted

variable (hg : g.Ok) (hle : g.diskSecs ≤ s.disk.size)

include hg hle

/-- `fat_format` writes inside the device. -/
lemma formatWrites_lt {w : ℕ × Sector} (hw : w ∈ formatWrites g label) :
    w.1 < s.disk.size := by
  have hmeta := hg.meta_lt
  obtain rfl | ⟨f, hf, k, hk, rfl⟩ | ⟨k, hk, rfl⟩ := mem_formatWrites.1 hw
  · show 0 < s.disk.size
    omega
  · have hfk : f * g.fatSecs ≤ 1 * g.fatSecs := Nat.mul_le_mul_right _ (by omega)
    show 1 + f * g.fatSecs + k < s.disk.size
    omega
  · show 1 + 2 * g.fatSecs + k < s.disk.size
    omega

/-- The first sector is the boot sector. -/
lemma block_formattedDisk_zero :
    (formattedDisk g label s.disk).block 0 = bootSector g label := by
  have hmeta := hg.meta_lt
  apply Device.block_foldl_write_of_mem
  · exact mem_formatWrites.2 (.inl rfl)
  · intro w hw h0
    obtain rfl | ⟨f, hf, k, hk, rfl⟩ | ⟨k, hk, rfl⟩ := mem_formatWrites.1 hw
    · rfl
    · simp only at h0
      omega
    · simp only at h0
      omega
  · omega

variable (label) in
/-- The sectors of the tables are empty but for the first entries. -/
lemma block_formattedDisk_fat {f k : ℕ} (hf : f < 2) (hk : k < g.fatSecs) :
    (formattedDisk g label s.disk).block (1 + f * g.fatSecs + k) =
      if k = 0 then firstFatSector g else .zero 512 := by
  have hlt : ∀ e < 2, e * g.fatSecs ≤ 1 * g.fatSecs := fun e he =>
    Nat.mul_le_mul_right _ (by omega)
  have hmem : (1 + f * g.fatSecs + k, if k = 0 then firstFatSector g else .zero 512) ∈
      formatWrites g label := mem_formatWrites.2 (.inr (.inl ⟨f, hf, k, hk, rfl⟩))
  apply Device.block_foldl_write_of_mem hmem
  · intro w hw h0
    obtain rfl | ⟨f', hf', k', hk', rfl⟩ | ⟨k', hk', rfl⟩ := mem_formatWrites.1 hw
    · simp only at h0
      omega
    · have hinj := table_index_inj hk' hk (f := f') (g := f) (by simp only at h0; omega)
      rw [hinj.2]
    · have := hlt f hf
      simp only at h0
      omega
  · exact formatWrites_lt hg hle hmem

/-- The sectors of the root directory are empty. -/
lemma block_formattedDisk_root {k : ℕ} (hk : k < g.rSecs) :
    (formattedDisk g label s.disk).block (1 + 2 * g.fatSecs + k) = .zero 512 := by
  have hmem : (1 + 2 * g.fatSecs + k, Block.zero 512) ∈ formatWrites g label :=
    mem_formatWrites.2 (.inr (.inr ⟨k, hk, rfl⟩))
  apply Device.block_foldl_write_of_mem hmem
  · intro w hw h0
    obtain rfl | ⟨f, hf, k', hk', rfl⟩ | ⟨k', hk', rfl⟩ := mem_formatWrites.1 hw
    · simp only at h0
      omega
    · have : f * g.fatSecs ≤ 1 * g.fatSecs := Nat.mul_le_mul_right _ (by omega)
      simp only at h0
      omega
    · rfl
  · exact formatWrites_lt hg hle hmem

variable (label) in
/-- **The new volume is mounted** with the geometry that was computed. -/
lemma mountAtLba_formatted :
    ({ s with disk := formattedDisk g label s.disk } : Fs).mountAtLba 0 =
      (true, s.formatted g label) := by
  obtain ⟨h₁, h₂, h₃, h₄, h₅, h₆, h₇⟩ := ofSector_bootSector hg label
  have hroot := rootSectors_bootSector hg label
  have hmeta := hg.meta_lt
  have htotal := hg.total_le
  have hsize : (formattedDisk g label s.disk).size = s.disk.size := Device.size_foldl_write _
  have hread : ({ s with disk := formattedDisk g label s.disk } : Fs).read 0 =
      some (bootSector g label) := by
    have := Device.read_of_lt (d := formattedDisk g label s.disk) (i := 0) (by omega)
    rw [block_formattedDisk_zero hg hle] at this
    exact this
  have hwith : ({ s with disk := formattedDisk g label s.disk } : Fs).withBoot 0
      (bootSector g label) = { s.formatted g label with
        fatType := s.fatType
        mounted := s.mounted } := by
    simp only [withBoot, formatted, h₂, h₃, h₄, h₆, h₇, hroot, Geometry.clusters,
      Fs.mk.injEq, true_and]
    rw [u32_of_lt (x := 0 + 1) (by omega), u32_of_lt (x := 0 + 1 + 2 * g.fatSecs) (by omega),
      u32_of_lt (by omega), sub32_of_le (y := 0) (by omega) (by omega),
      sub32_of_le (by omega) (by omega)]
    simp
  have hge := hg.clusters_ge
  have hlt := hg.clusters_lt
  rw [mountAtLba, hread, Option.elim_some, if_pos (isValidBpb_bootSector hg label), hwith]
  exact if_neg (show ¬ (g.clusters = 0 ∨ 65525 ≤ g.clusters) by omega)

variable (label) in
/-- The layout of the new volume. -/
lemma geom_formatted (hsize : s.disk.size ≤ 4294967296) : (s.formatted g label).Geom := by
  obtain ⟨-, h₂, -, h₄, -, h₆, -⟩ := ofSector_bootSector hg label
  have hsize' : (formattedDisk g label s.disk).size = s.disk.size := Device.size_foldl_write _
  have hspc := hg.spc
  have hmeta := hg.meta_lt
  constructor
  case mounted => rfl
  case spc_pos => simp only [formatted, h₂]; omega
  case spc_le => simp only [formatted, h₂]; omega
  case fats_pos => simp only [formatted, h₄]; omega
  case root_eq => simp only [formatted, h₄, h₆]
  case data_eq => rfl
  case end_le =>
    simp only [formatted, h₂, hsize']
    have := Nat.div_mul_le_self (g.diskSecs - (1 + 2 * g.fatSecs + g.rSecs)) g.spc
    unfold Geometry.clusters
    omega
  case size_le => rw [formatted, hsize']; exact hsize
  case clusters_lt => exact hg.clusters_lt
  case type_eq => rfl
  case room =>
    have hroom := hg.room
    have hlt := hg.clusters_lt
    intro c hc
    have hc' : c < g.clusters + 2 := hc
    have hfat : (s.formatted g label).boot.fatSize16 = g.fatSecs := h₆
    rw [hfat, fatOffset]
    by_cases h12 : g.clusters < 4085
    · rw [if_pos h12] at hroom
      rw [if_pos (fatType_formatted.2 h12), u32_of_lt (by omega)]
      omega
    · rw [if_neg h12] at hroom
      rw [if_neg (mt fatType_formatted.1 h12), u32_of_lt (by omega)]
      omega

lemma copies_formatted : (s.formatted g label).Copies := by
  obtain ⟨-, -, -, h₄, -, h₆, -⟩ := ofSector_bootSector hg label
  simp only [Copies, formatted, h₄, h₆]
  intro f hf i hi
  have hzero := block_formattedDisk_fat label hg hle (f := 0) (by omega) hi
  rw [Nat.zero_mul, Nat.add_zero] at hzero
  rw [block_formattedDisk_fat label hg hle hf hi, hzero]

/-- The bytes of a new table, after the first entries. -/
lemma fatByte_formatted {a : ℕ} (ha : a < 512 * g.fatSecs)
    (hfirst : (if g.clusters < 4085 then 3 else 4) ≤ a) :
    (s.formatted g label).fatByte a = 0 := by
  have hzero := block_formattedDisk_fat label hg hle (f := 0) (k := a / 512)
    (by omega) (by omega)
  rw [Nat.zero_mul, Nat.add_zero] at hzero
  simp only [fatByte, formatted]
  rw [hzero]
  split_ifs with h0
  · unfold firstFatSector
    rw [hg.fat12_eq, Block.get_put_of_le, Block.get_zero]
    split_ifs at hfirst ⊢ <;> simp_all <;> omega
  · exact Block.get_zero _

/-- **The table of the new volume is empty.** -/
lemma getFatEntry_formatted (hsize : s.disk.size ≤ 4294967296) {c : ℕ}
    (hc : (s.formatted g label).IsCluster c) : (s.formatted g label).getFatEntry c = 0 := by
  have hgeom := geom_formatted label hg hle hsize
  have hroom := hgeom.room c hc.2
  have hoff := fatOffset_of_lt hgeom hc.2
  have hfirst : (if g.clusters < 4085 then 3 else 4) ≤ (s.formatted g label).fatOffset c := by
    have := hc.1
    rw [hoff]
    by_cases h12 : g.clusters < 4085
    · rw [if_pos h12, if_pos (fatType_formatted.2 h12)]
      omega
    · rw [if_neg h12, if_neg (mt fatType_formatted.1 h12)]
      omega
  have hfat : (s.formatted g label).boot.fatSize16 = g.fatSecs :=
    (ofSector_bootSector hg label).2.2.2.2.2.1
  rw [hfat] at hroom
  rw [getFatEntry_eq hgeom hc, fatByte_formatted hg hle (by omega) hfirst,
    fatByte_formatted hg hle hroom (by omega)]
  unfold decodeEntry
  split_ifs <;> rfl

/-- **The root directory of the new volume is empty.** -/
lemma slotEntry_formatted {k : ℕ} (hk : k / 16 < g.rSecs) :
    ((s.formatted g label).slotEntry k).first = 0 := by
  simp only [slotEntry, formatted]
  rw [block_formattedDisk_root hg hle hk]
  simp [Dirent.first, dirent, range_succ_eq_map]

end Formatted

/-! ## Consistent volumes -/

/-- The numbers of a mounted volume. -/
def shape (s : Fs) (hs : s.Geom) : Shape where
  clusters := s.totalClusters
  slots := s.rootSectors * 16
  bytes := s.boot.sectorsPerCluster * 512
  eoc := s.eocMarker
  threshold := s.eocThreshold
  bytes_pos := Nat.mul_pos hs.spc_pos (by omega)
  clusters_lt := by
    have hlt := hs.clusters_lt
    rw [eocThreshold, hs.type_eq]
    by_cases h12 : s.totalClusters < 4085
    · rw [if_pos (by rw [if_pos h12])]
      omega
    · rw [if_neg (by rw [if_neg h12]; simp)]
      omega
  threshold_le := by
    unfold eocThreshold eocMarker
    split_ifs <;> omega

/-- The volume on a device. -/
def vol (s : Fs) : Vol where
  fat := s.getFatEntry
  dir := s.slotEntry
  data := s.clusterBytes

/-- A mounted device with equal tables holds its volume. -/
lemma holds_vol (hs : s.Geom) (hcopies : s.Copies) : s.Holds (s.shape hs) s.vol where
  geom := hs
  copies := hcopies
  clusters := rfl
  slots := rfl
  bytes := rfl
  eoc := rfl
  threshold := rfl
  fat := fun _ _ => rfl
  dir := fun _ _ => rfl
  data := fun _ _ => rfl

/-- **The device holds a consistent volume.** -/
def Consistent (s : Fs) : Prop := ∃ sh v chain, s.Holds sh v ∧ Vol.Inv sh v chain

end Fs

namespace Vol

variable {sh : Shape} {v : Vol} {chain : ℕ → List ℕ} {k : ℕ} {name data : List UInt8}

/-- An empty volume is consistent. -/
lemma inv_empty (hfat : ∀ c, sh.IsCluster c → v.fat c = 0)
    (hdir : ∀ k < sh.slots, (v.dir k).first = 0) : v.Inv sh fun _ => [] := by
  have hdead : ∀ k < sh.slots, (v.dir k).isLive ≠ true := by
    intro k hk hlive
    exact first_ne_zero_of_isLive hlive (hdir k hk)
  constructor
  case isCluster => simp
  case nodup => simp
  case linked => exact fun _ => trivial
  case disjoint => simp
  case used => exact fun c hc hne => absurd (hfat c hc) hne
  case dead => exact fun _ _ _ => rfl
  case beyond => exact fun _ _ => rfl
  case cluster => exact fun k hk hlive => absurd hlive (hdead k hk)
  case length => exact fun k hk hlive => absurd hlive (hdead k hk)
  case names => exact fun k hk _ _ hlive => absurd hlive (hdead k hk)
  case isName => exact fun k hk hlive => absurd hlive (hdead k hk)
  case plain => exact fun k hk hlive => absurd hlive (hdead k hk)
  case tail => exact fun _ k _ hk _ => hdir k hk

/-- The rest of a list without repetitions, after its first elements are filtered out. -/
lemma filter_notMem_take {l : List ℕ} (h : l.Nodup) (n : ℕ) :
    l.filter (fun x => x ∉ l.take n) = l.drop n := by
  have hsplit := take_append_drop n l
  have hnodup := h
  rw [← hsplit, nodup_append] at hnodup
  conv_lhs => rw [← hsplit, filter_append]
  have h₁ : (l.take n).filter (fun x => x ∉ (l.take n ++ l.drop n).take n) = [] := by
    rw [hsplit, filter_eq_nil_iff]
    intro x hx
    simpa using hx
  have h₂ : (l.drop n).filter (fun x => x ∉ (l.take n ++ l.drop n).take n) = l.drop n := by
    rw [hsplit, filter_eq_self]
    intro x hx
    simp only [decide_eq_true_eq]
    exact fun hx' => hnodup.2.2 x hx' x hx rfl
  rw [h₁, h₂, nil_append]

/-- **The free clusters after data is stored.** -/
lemma freeList_store (v : Vol) (data : List UInt8) :
    (v.store sh data).freeList sh = (v.freeList sh).drop (sh.need data.length) := by
  rw [← filter_notMem_take (nodup_freeList sh v)]
  unfold freeList
  rw [filter_filter]
  apply filter_congr
  intro c _
  show decide (link sh.eoc (v.place sh data) v.fat c = 0) =
    (decide (c ∉ v.place sh data) && decide (v.fat c = 0))
  rw [← Bool.decide_and, decide_eq_decide]
  by_cases hc : c ∈ v.place sh data
  · simp only [hc, not_true_eq_false, false_and, iff_false]
    obtain h | h := link_of_mem sh.eoc hc v.fat
    · have := (mem_freeList_of_mem_place h).1.1
      omega
    · have := eoc_pos sh
      omega
  · rw [link_of_notMem hc]
    simp [hc]

variable (sh) in
/-- Freeing a chain keeps what is free. -/
lemma length_freeList_vacate (v : Vol) (k : ℕ) :
    (v.freeList sh).length ≤ ((v.vacate sh k).freeList sh).length := by
  apply List.Sublist.length_le
  unfold freeList
  apply monotone_filter_right
  intro c hc
  simp only [decide_eq_true_eq] at hc ⊢
  rw [vacate, fat_free, clear, hc, ite_self]

end Vol

namespace Fs

variable {s : Fs} {sh : Shape} {v : Vol} {chain : ℕ → List ℕ}

/-- The default files are written: there is a slot and two clusters for each.

**Proof sketch.** Induction on the files. The slots from `j` on are not live, so the file is
written to one of the slots up to `j`; at most two clusters are taken. -/
lemma Holds.seed (files : List (List UInt8 × List UInt8)) (j : ℕ) (h : s.Holds sh v)
    (hinv : v.Inv sh chain) (hslots : j + files.length ≤ sh.slots)
    (hdead : ∀ k < sh.slots, j ≤ k → (v.dir k).first = 0)
    (hfree : 2 * files.length ≤ (v.freeList sh).length)
    (hfiles : ∀ f ∈ files, f.2.length ≤ 1024 ∧
      ∃ fatName, filenameToFat f.1 = some fatName ∧ fatName.headD 0 ≠ 0xE5)
    (hnames : (files.map fun f => filenameToFat f.1).Nodup) :
    ∃ w chain', (files.foldl (fun t f => (t.fatWriteFile f.1 f.2).2) s).Holds sh w ∧
      w.Inv sh chain' ∧ (v.freeList sh).length ≤ (w.freeList sh).length + 2 * files.length ∧
      (∀ f ∈ files, ∀ fatName, filenameToFat f.1 = some fatName →
        w.file sh fatName = some f.2) ∧
      ∀ other, (∀ f ∈ files, filenameToFat f.1 ≠ some other) →
        w.file sh other = v.file sh other := by
  induction files generalizing s v chain j with
  | nil => exact ⟨v, chain, h, hinv, by simp, by simp, fun _ _ => rfl⟩
  | cons f files ih =>
    obtain ⟨hlen, fatName, hn, hE5⟩ := hfiles f mem_cons_self
    simp only [length_cons] at hslots hfree
    have hneed : sh.need f.2.length ≤ 2 := by
      have hbytes : 512 ≤ sh.bytes := by
        have h₁ := h.bytes
        have h₂ := h.geom.spc_pos
        omega
      rw [Shape.need, Nat.div_le_iff_le_mul_add_pred (by omega)]
      omega
    obtain ⟨k, ht⟩ : ∃ k, v.target sh fatName = some k := by
      cases htarget : v.target sh fatName with
      | some k => exact ⟨k, rfl⟩
      | none =>
        rw [Vol.target, Option.or_eq_none_iff, Vol.freeSlot, find?_eq_none] at htarget
        have := htarget.2 j (mem_range.2 (by omega))
        simp [Dirent.isLive, hdead j (by omega) le_rfl] at this
    obtain ⟨hk, hprev, hnew, hold⟩ := hinv.target_spec ht
    have hmono := v.length_freeList_vacate sh k
    have hfits : v.Fits sh k f.2 := by
      unfold Vol.Fits
      omega
    obtain ⟨-, hafter⟩ := h.fatWriteFile hinv hn ht f.2
    rw [if_pos hfits] at hafter
    have hinv' := hinv.writeSlot hk ⟨_, hn⟩ hE5 hprev hnew hfits
    have hkj : k ≤ j := by
      by_contra hlt
      exact hprev j (by omega) (hdead j (by omega) le_rfl)
    have hdead' : ∀ i < sh.slots, j + 1 ≤ i →
        ((v.writeSlot sh k fatName f.2).dir i).first = 0 := by
      intro i hi hij
      show (Function.update v.dir k _ i).first = 0
      rw [Function.update_of_ne (by omega)]
      exact hdead i hi (by omega)
    have hfree' : (v.freeList sh).length ≤
        ((v.writeSlot sh k fatName f.2).freeList sh).length + 2 := by
      show _ ≤ (((v.vacate sh k).store sh f.2).freeList sh).length + 2
      rw [Vol.freeList_store, length_drop]
      omega
    have hfile := hinv.file_writeSlot hk ⟨_, hn⟩ hE5 hprev hnew hfits hold
    rw [map_cons, nodup_cons] at hnames
    have hfresh : ∀ f' ∈ files, filenameToFat f'.1 ≠ some fatName := by
      intro f' hf' heq
      rw [← hn] at heq
      exact hnames.1 (mem_map.2 ⟨f', hf', heq⟩)
    obtain ⟨w, chain', hw, hwinv, hwfree, hwfiles, hwother⟩ := ih (j + 1) hafter.2 hinv' (by omega)
      hdead' (by omega) (fun f' hf' => hfiles f' (mem_cons_of_mem _ hf')) hnames.2
    rw [foldl_cons]
    refine ⟨w, chain', hw, hwinv, by rw [length_cons]; omega, ?_, ?_⟩
    · intro f' hf' n hn'
      obtain rfl | hf' := mem_cons.1 hf'
      · rw [hn, Option.some_inj] at hn'
        rw [← hn', hwother fatName hfresh, hfile, if_pos rfl]
      · exact hwfiles f' hf' n hn'
    · intro other hother
      have hne : other ≠ fatName := by
        rintro rfl
        exact hother f mem_cons_self hn
      rw [hwother other fun f' hf' => hother f' (mem_cons_of_mem _ hf'), hfile, if_neg hne]

/-- A line of a text. A literal is matched with its characters, so that nothing is decoded. -/
lemma length_line_le {l : List Char} (h : l.length ≤ 80) :
    (ascii (String.ofList l).toList).length ≤ 80 * 1 := by
  rw [ascii, length_map, String.toList_ofList]
  exact h

/-- A text after one more line. -/
lemma length_append_line_le {s : String} {l : List Char} {n : ℕ}
    (hs : (ascii s.toList).length ≤ 80 * n) (h : l.length ≤ 80) :
    (ascii (s ++ String.ofList l).toList).length ≤ 80 * (n + 1) := by
  have hl := length_line_le h
  simp only [ascii, length_map, String.toList_append, length_append] at hs hl ⊢
  omega

/-- The texts of the default files have few lines. -/
lemma length_seedTexts :
    helloText.length ≤ 80 * 2 ∧ readmeText.length ≤ 80 * 9 ∧ demoText.length ≤ 80 * 6 := by
  unfold helloText readmeText demoText
  refine ⟨?_, ?_, ?_⟩
  · refine length_append_line_le ?_ (by decide)
    exact length_line_le (by decide)
  · iterate 8 refine length_append_line_le ?_ (by decide)
    exact length_line_le (by decide)
  · iterate 5 refine length_append_line_le ?_ (by decide)
    exact length_line_le (by decide)

/-- The default files have names that can be stored, and they are short. -/
lemma seedFiles_spec : ∀ f ∈ seedFiles, f.2.length ≤ 1024 ∧
    ∃ fatName, filenameToFat f.1 = some fatName ∧ fatName.headD 0 ≠ 0xE5 := by
  obtain ⟨hhello, hreadme, hdemo⟩ := length_seedTexts
  intro f hf
  simp only [seedFiles, mem_cons, not_mem_nil, or_false] at hf
  obtain rfl | rfl | rfl | rfl := hf <;> dsimp only
  · exact ⟨by omega, ascii "HELLO   TXT".toList, by decide, by decide⟩
  · exact ⟨by omega, ascii "README  TXT".toList, by decide, by decide⟩
  · exact ⟨by omega, ascii "DEMO    SH ".toList, by decide, by decide⟩
  · exact ⟨by decide, ascii "CONFIG  CFG".toList, by decide, by decide⟩

/-- The default files have different names. -/
lemma nodup_seedFiles : (seedFiles.map fun f => filenameToFat f.1).Nodup := by
  simp only [seedFiles, map_cons, map_nil]
  decide

/-- The geometry takes no more sectors than the device has. -/
lemma diskSecs_formatGeometry_le (n : ℕ) : (formatGeometry n).diskSecs ≤ n := by
  show (if 1048576 < n then 1048576 else n) ≤ n
  split_ifs <;> omega

/-- **Formatting succeeds** on any device of at least 64 sectors: the new volume is mounted and the
default files are written to it. -/
lemma fatFormat_eq (h64 : 64 ≤ s.disk.size) (hsize : s.disk.size ≤ 4294967296)
    (label : List UInt8) :
    s.fatFormat label =
      (true, (s.formatted (formatGeometry s.disk.size) label).seedDefaultFiles) := by
  have hg := formatGeometry_ok h64
  have hle := diskSecs_formatGeometry_le s.disk.size
  have hlt : ∀ w ∈ formatWrites (formatGeometry s.disk.size) label,
      w.1 < ({ s with mounted := false } : Fs).disk.size := fun w hw =>
    formatWrites_lt (s := s) hg hle hw
  have hwrite := writeAll_eq (s := { s with mounted := false }) hsize hlt
  have hmount := mountAtLba_formatted (s := { s with mounted := false }) label hg hle
  rw [fatFormat]
  simp only
  rw [if_neg (show ¬ s.disk.size < 64 by omega), hwrite]
  simp only [if_true]
  have hmount' : ({ s with
      disk := (formatWrites (formatGeometry s.disk.size) label).foldl
        (fun d w => d.write w.1 w.2) s.disk
      mounted := false } : Fs).mountAtLba 0 =
      (true, s.formatted (formatGeometry s.disk.size) label) := hmount
  rw [hmount', if_pos rfl]

/-- A volume that was just laid out is empty. -/
lemma holds_formatted (h64 : 64 ≤ s.disk.size) (hsize : s.disk.size ≤ 4294967296)
    (label : List UInt8) :
    ∃ sh v, (s.formatted (formatGeometry s.disk.size) label).Holds sh v ∧
      (∀ c, sh.IsCluster c → v.fat c = 0) ∧ (∀ k < sh.slots, (v.dir k).first = 0) ∧
      sh.slots = (formatGeometry s.disk.size).rootEnts ∧
      sh.clusters = (formatGeometry s.disk.size).clusters ∧
      sh.bytes = (formatGeometry s.disk.size).spc * 512 := by
  have hg := formatGeometry_ok h64
  have hle := diskSecs_formatGeometry_le s.disk.size
  have hgeom := geom_formatted label hg hle hsize
  have hholds := holds_vol hgeom (copies_formatted hg hle)
  have hslots : ((s.formatted (formatGeometry s.disk.size) label).shape hgeom).slots =
      (formatGeometry s.disk.size).rootEnts := hg.rSecs_eq
  refine ⟨_, _, hholds, fun c hc => getFatEntry_formatted hg hle hsize hc, ?_, hslots, rfl, ?_⟩
  · intro k hk
    apply slotEntry_formatted hg hle
    have := hg.rSecs_eq
    omega
  · show (Boot.ofSector (bootSector (formatGeometry s.disk.size) label)).sectorsPerCluster * 512 = _
    rw [(ofSector_bootSector hg label).2.1]

/-- **A formatted volume is consistent**, and the default files take eight clusters at most. -/
lemma fatFormat_holds (h64 : 64 ≤ s.disk.size) (hsize : s.disk.size ≤ 4294967296)
    (label : List UInt8) : ∃ sh v chain, (s.fatFormat label).2.Holds sh v ∧ Vol.Inv sh v chain ∧
      (∀ f ∈ seedFiles, ∀ fatName, filenameToFat f.1 = some fatName →
        v.file sh fatName = some f.2) ∧
      (formatGeometry s.disk.size).clusters ≤ (v.freeList sh).length + 8 ∧
      sh.clusters = (formatGeometry s.disk.size).clusters ∧
      sh.bytes = (formatGeometry s.disk.size).spc * 512 := by
  have hg := formatGeometry_ok h64
  obtain ⟨sh, v, hholds, hfat, hdir, hslots, hclusters, hbytes⟩ := holds_formatted h64 hsize label
  have hfree : v.freeList sh = List.range' 2 (formatGeometry s.disk.size).clusters := by
    rw [← hclusters]
    apply filter_eq_self.2
    intro c hc
    rw [mem_range'_1] at hc
    exact decide_eq_true (hfat c ⟨hc.1, by have := hc.2; omega⟩)
  rw [fatFormat_eq h64 hsize]
  simp only [seedDefaultFiles]
  have hents := hg.rootEnts_ge
  have hge := hg.clusters_ge
  have hlen : seedFiles.length = 4 := rfl
  obtain ⟨w, chain, hw, hinv, hwfree, hwfiles, -⟩ :=
    hholds.seed seedFiles 0 (Vol.inv_empty hfat hdir) (by omega) (fun k hk _ => hdir k hk)
      (by rw [hfree, length_range']; omega) seedFiles_spec nodup_seedFiles
  rw [hfree, length_range'] at hwfree
  exact ⟨sh, w, chain, hw, hinv, hwfiles, by omega, hclusters, hbytes⟩

/-- A device on which formatting succeeds has 64 sectors. -/
lemma le_size_of_fatFormat {label : List UInt8} (h : (s.fatFormat label).1 = true) :
    64 ≤ s.disk.size := by
  by_contra hlt
  rw [fatFormat] at h
  simp only at h
  rw [if_pos (show s.disk.size < 64 by omega)] at h
  cases h

end Fs

end BengalTiger.Fat
