import BengalTiger.Fat.Model

set_option autoImplicit false

/-!
# Mounted volumes

`mount_at_lba` takes the layout of a volume from its boot sector, wherever on the disk the volume
is; sector numbers are computed modulo `2 ^ 32`. The operations on a mounted volume change the
contents of the device and nothing else.

## Main definitions

* `Fat.Fs.Placed` — what mounting guarantees of the layout.
* `Fat.Fs.IsCluster` — the numbers of the clusters.
* `Fat.Fs.Sibling` — only the contents of the device differ.

## Main results

* `Fat.Fs.mountAtLba_eq_true` — what a successful mount has found.
* `Fat.Fs.placed_of_mountAtLba` — the layout of the volume.
-/

namespace BengalTiger.Fat

open BlockDevice

/-! ## Byte order -/

lemma rdLe16_lt (lo hi : UInt8) : rdLe16 lo hi < 65536 := by
  have h₁ := lo.toNat_lt
  have h₂ := hi.toNat_lt
  unfold rdLe16
  omega

/-- A two-byte value is read back. -/
lemma rdLe16_ofNat {v : ℕ} (h : v < 65536) :
    rdLe16 (UInt8.ofNat v) (UInt8.ofNat (v / 256)) = v := by
  unfold rdLe16
  rw [UInt8.toNat_ofNat', UInt8.toNat_ofNat']
  omega

/-! ## Rows -/

/-- Row `i` of `n` rows of length `k` ends inside them. -/
lemma mul_add_le {i n k : ℕ} (h : i < n) : i * k + k ≤ n * k := by
  have hle : (i + 1) * k ≤ n * k := Nat.mul_le_mul_right k h
  rwa [Nat.add_mul, Nat.one_mul] at hle

/-- Table and sector determine the place. -/
lemma table_index_inj {size f g i j : ℕ} (hi : i < size) (hj : j < size)
    (h : f * size + i = g * size + j) : f = g ∧ i = j := by
  have hf : f = g := by
    have h₁ : (f * size + i) / size = f := by
      rw [Nat.add_comm, Nat.add_mul_div_right _ _ (by omega), Nat.div_eq_of_lt hi, Nat.zero_add]
    have h₂ : (g * size + j) / size = g := by
      rw [Nat.add_comm, Nat.add_mul_div_right _ _ (by omega), Nat.div_eq_of_lt hj, Nat.zero_add]
    rw [← h₁, ← h₂, h]
  subst hf
  exact ⟨rfl, by omega⟩

/-- `meta` of `is_valid_bpb`: the sectors in front of the clusters. -/
def Boot.metaSectors (boot : Boot) : ℕ :=
  boot.reservedSectors + boot.numFats * boot.fatSize16 + boot.rootSectors

/-- The sizes in a boot sector are unsigned 32-bit numbers. -/
lemma Boot.total_ofSector_lt (b : Sector) : (Boot.ofSector b).total < 4294967296 := by
  have h₁ : le16 b 19 < 65536 := rdLe16_lt _ _
  have h₂ : le16 b 32 < 65536 := rdLe16_lt _ _
  have h₃ : le16 b 34 < 65536 := rdLe16_lt _ _
  unfold Boot.total
  split_ifs
  · show le16 b 19 < 4294967296
    omega
  · show le16 b 32 + 65536 * le16 b 34 < 4294967296
    omega

namespace Fs

/-- The clusters of a volume are numbered from 2. -/
def IsCluster (s : Fs) (c : ℕ) : Prop := 2 ≤ c ∧ c < s.totalClusters + 2

/-- The check at the head of `get_fat_entry` and of `set_fat_entry` passes. -/
lemma not_rejected {s : Fs} {c : ℕ} (hm : s.mounted = true) (h2 : 2 ≤ c) :
    ¬ (s.mounted = false ∨ c < 2) := by
  rintro (h | h)
  · rw [hm] at h
    cases h
  · omega

lemma IsCluster.sub_two_lt {s : Fs} {c : ℕ} (h : s.IsCluster c) : c - 2 < s.totalClusters := by
  obtain ⟨h₁, h₂⟩ := h
  omega

/-- The two states differ in the contents of the device only. -/
def Sibling (s t : Fs) : Prop := t = { s with disk := t.disk } ∧ t.disk.size = s.disk.size

variable {s t u : Fs} {c c' v base : ℕ}

/-! ## States with the same globals -/

lemma Sibling.refl (s : Fs) : Sibling s s := ⟨rfl, rfl⟩

lemma Sibling.trans (h : Sibling s t) (h' : Sibling t u) : Sibling s u := by
  refine ⟨?_, h'.2.trans h.2⟩
  rw [h'.1, h.1]

/-- A state with another device of the same size. -/
lemma sibling_disk {d : Device 512} (h : d.size = s.disk.size) :
    Sibling s { s with disk := d } := ⟨rfl, h⟩

section Sibling

variable (h : Sibling s t)

include h

lemma Sibling.boot : t.boot = s.boot := by rw [h.1]

lemma Sibling.fatStartSector : t.fatStartSector = s.fatStartSector := by rw [h.1]

lemma Sibling.rootStartSector : t.rootStartSector = s.rootStartSector := by rw [h.1]

lemma Sibling.rootSectors : t.rootSectors = s.rootSectors := by rw [h.1]

lemma Sibling.dataStartSector : t.dataStartSector = s.dataStartSector := by rw [h.1]

lemma Sibling.totalClusters : t.totalClusters = s.totalClusters := by rw [h.1]

lemma Sibling.fatType : t.fatType = s.fatType := by rw [h.1]

lemma Sibling.mounted : t.mounted = s.mounted := by rw [h.1]

lemma Sibling.eocThreshold : t.eocThreshold = s.eocThreshold := by
  unfold Fs.eocThreshold
  rw [h.fatType]

lemma Sibling.eocMarker : t.eocMarker = s.eocMarker := by
  unfold Fs.eocMarker
  rw [h.fatType]

lemma Sibling.fatOffset (c : ℕ) : t.fatOffset c = s.fatOffset c := by
  unfold Fs.fatOffset
  rw [h.fatType]

lemma Sibling.decodeEntry (c raw : ℕ) : t.decodeEntry c raw = s.decodeEntry c raw := by
  unfold Fs.decodeEntry
  rw [h.fatType]

lemma Sibling.clusterSector (c : ℕ) : t.clusterSector c = s.clusterSector c := by
  unfold Fs.clusterSector
  rw [h.boot, h.dataStartSector]

lemma Sibling.isCluster : IsCluster t c ↔ IsCluster s c := by
  unfold IsCluster
  rw [h.totalClusters]

end Sibling

/-! ## Mounting -/

/-- What `mount_at_lba` has found when it succeeds. -/
lemma mountAtLba_eq_true (h : s.mountAtLba base = (true, t)) :
    ∃ b, s.read base = some b ∧ isValidBpb b ∧ 0 < (s.withBoot base b).totalClusters ∧
      (s.withBoot base b).totalClusters < 65525 ∧
      t = { s.withBoot base b with
        fatType := if (s.withBoot base b).totalClusters < 4085 then .fat12 else .fat16
        mounted := true } := by
  rw [mountAtLba] at h
  cases hread : s.read base with
  | none =>
    rw [hread] at h
    cases h
  | some b =>
    rw [hread, Option.elim_some] at h
    by_cases hvalid : isValidBpb b
    · rw [if_pos hvalid] at h
      simp only at h
      by_cases hbad : (s.withBoot base b).totalClusters = 0 ∨
          65525 ≤ (s.withBoot base b).totalClusters
      · rw [if_pos hbad] at h
        cases h
      · rw [if_neg hbad, Prod.mk.injEq] at h
        exact ⟨b, rfl, hvalid, by omega, by omega, h.2.symm⟩
    · rw [if_neg hvalid] at h
      cases h

/-- **What mounting guarantees** of the layout. The sector numbers may wrap around. -/
structure Placed (t : Fs) (base : ℕ) : Prop where
  mounted : t.mounted = true
  offset_eq : t.volLbaOffset = base
  spc_pos : 0 < t.boot.sectorsPerCluster
  reserved_pos : 0 < t.boot.reservedSectors
  fats_pos : 0 < t.boot.numFats
  fat_pos : 0 < t.boot.fatSize16
  root_pos : 0 < t.boot.rootSectors
  sectors_eq : t.rootSectors = t.boot.rootSectors
  fat_eq : t.fatStartSector = u32 (base + t.boot.reservedSectors)
  root_eq : t.rootStartSector =
    u32 (base + t.boot.reservedSectors + t.boot.numFats * t.boot.fatSize16)
  data_eq : t.dataStartSector = u32 (base + t.boot.metaSectors)
  meta_lt : t.boot.metaSectors < t.boot.total
  total_lt : t.boot.total < 4294967296
  clusters_eq : t.totalClusters =
    (t.boot.total - t.boot.metaSectors) / t.boot.sectorsPerCluster
  clusters_pos : 0 < t.totalClusters
  clusters_lt : t.totalClusters < 65525
  type_eq : t.fatType = if t.totalClusters < 4085 then .fat12 else .fat16

/-- The clusters that `mount_at_lba` counts: the sectors in front of them do not depend on where
the volume is. -/
lemma totalClusters_withBoot (s : Fs) (base : ℕ) {b : Sector} (hvalid : isValidBpb b) :
    (s.withBoot base b).totalClusters = ((Boot.ofSector b).total -
      (Boot.ofSector b).metaSectors) / (Boot.ofSector b).sectorsPerCluster := by
  have htotal := Boot.total_ofSector_lt b
  obtain ⟨-, -, -, -, -, -, -, -, -, -, hmeta⟩ := hvalid
  change (Boot.ofSector b).metaSectors < (Boot.ofSector b).total at hmeta
  have hdata : sub32 (s.withBoot base b).dataStartSector base = (Boot.ofSector b).metaSectors := by
    unfold Boot.metaSectors at hmeta ⊢
    simp only [withBoot, sub32, u32]
    omega
  show sub32 _ (sub32 (s.withBoot base b).dataStartSector base) / _ = _
  rw [hdata, sub32_of_le hmeta.le htotal]

/-- A mounted volume is placed where its boot sector says. -/
lemma placed_of_mountAtLba (hmount : s.mountAtLba base = (true, t)) : t.Placed base := by
  obtain ⟨b, -, hvalid, hpos, hlt, rfl⟩ := mountAtLba_eq_true hmount
  obtain ⟨-, -, -, hspc, -, hreserved, hfats, -, hents, hfat, hmeta⟩ := id hvalid
  constructor
  case mounted => rfl
  case offset_eq => rfl
  case spc_pos => exact Nat.pos_of_ne_zero hspc
  case reserved_pos => exact Nat.pos_of_ne_zero hreserved
  case fats_pos => exact hfats
  case fat_pos => exact Nat.pos_of_ne_zero hfat
  case root_pos =>
    show 0 < (Boot.ofSector b).rootSectors
    unfold Boot.rootSectors
    omega
  case sectors_eq => rfl
  case fat_eq => rfl
  case root_eq =>
    simp only [withBoot, u32]
    omega
  case data_eq =>
    simp only [withBoot, Boot.metaSectors, u32]
    omega
  case meta_lt => exact hmeta
  case total_lt => exact Boot.total_ofSector_lt b
  case clusters_eq => exact s.totalClusters_withBoot base hvalid
  case clusters_pos => exact hpos
  case clusters_lt => exact hlt
  case type_eq => rfl

/-- The clusters end with the volume. -/
lemma Placed.end_le (h : t.Placed base) :
    t.boot.metaSectors + t.totalClusters * t.boot.sectorsPerCluster ≤ t.boot.total := by
  have hdiv := Nat.div_mul_le_self (t.boot.total - t.boot.metaSectors) t.boot.sectorsPerCluster
  rw [← h.clusters_eq] at hdiv
  have := h.meta_lt
  omega

/-! ## Table offsets -/

/-- The offset of an entry, for the numbers that an entry can hold. -/
lemma fatOffset_eq (h : c < 65536) :
    s.fatOffset c = if s.fatType = .fat12 then c + c / 2 else c * 2 := by
  unfold fatOffset
  rw [u32_of_lt (by omega), u32_of_lt (by omega)]

lemma fatOffset_le {c' : ℕ} (hle : c ≤ c') (h : c' < 65536) : s.fatOffset c ≤ s.fatOffset c' := by
  rw [fatOffset_eq (by omega), fatOffset_eq h]
  split_ifs <;> omega

end Fs

end BengalTiger.Fat
