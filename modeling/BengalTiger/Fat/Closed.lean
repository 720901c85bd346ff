import BengalTiger.Fat.Format

set_option autoImplicit false

/-!
# Closed volumes

A call that fails can leave a volume with chains that end too early or share clusters. What no call
breaks is that the volume is closed: the links of the table and the first clusters of the entries
stay among the clusters, the tables are equal, and the globals are those of the boot sector.

## Main definitions

* `Fat.Fs.Booted` — the globals are those of the boot sector.
* `Fat.Fs.Closed` — the volume is closed.

## Main results

* `Fat.Fs.Closed.setFatEntry`, `Fat.Fs.Closed.of_dataBlocks`,
  `Fat.Fs.Closed.of_rootSector` — writes to the three regions.
* `Fat.Fs.closed_formatted` — a new volume is closed.
-/

namespace BengalTiger.Fat

open BlockDevice

namespace Fs

/-- The globals are those of the boot sector `b₀` at the beginning of the device. -/
structure Booted (s : Fs) (b₀ : Sector) : Prop where
  block : s.disk.block 0 = b₀
  valid : isValidBpb b₀
  boot : s.boot = Boot.ofSector b₀
  fatStart : s.fatStartSector = s.boot.reservedSectors
  rootSectors : s.rootSectors = s.boot.rootSectors
  clusters : s.totalClusters = sub32 s.boot.total s.dataStartSector / s.boot.sectorsPerCluster
  clusters_ne : s.totalClusters ≠ 0

/-- A loop over a chain that comes to `c` ends there or goes on at a cluster. -/
def IsLink (s : Fs) (c : ℕ) : Prop := 2 ≤ c → c < s.eocThreshold → s.IsCluster c

/-- **The volume is closed**; `b₀` is its boot sector. -/
structure Closed (s : Fs) (b₀ : Sector) : Prop where
  geom : s.Geom
  copies : s.Copies
  booted : s.Booted b₀
  links : ∀ c, s.IsCluster c → s.IsLink (s.getFatEntry c)
  heads : ∀ k, k / 16 < s.rootSectors → s.IsLink (s.slotEntry k).cluster

variable {s t : Fs} {b₀ : Sector} {c v : ℕ}

/-- Writing behind the boot sector keeps what it says. -/
lemma Booted.of_sibling (h : s.Booted b₀) (hst : Sibling s t)
    (h0 : t.disk.block 0 = s.disk.block 0) : t.Booted b₀ where
  block := h0.trans h.block
  valid := h.valid
  boot := hst.boot.trans h.boot
  fatStart := by rw [hst.fatStartSector, hst.boot]; exact h.fatStart
  rootSectors := by rw [hst.rootSectors, hst.boot]; exact h.rootSectors
  clusters := by rw [hst.totalClusters, hst.boot, hst.dataStartSector]; exact h.clusters
  clusters_ne := by rw [hst.totalClusters]; exact h.clusters_ne

/-- The first sector is not part of a table. -/
lemma Booted.fat_pos (h : s.Booted b₀) : 0 < s.fatStartSector := by
  obtain ⟨-, -, -, -, -, hreserved, -⟩ := h.valid
  rw [h.fatStart, h.boot]
  exact Nat.pos_of_ne_zero hreserved

lemma Sibling.isLink (hst : Sibling s t) : t.IsLink c ↔ s.IsLink c := by
  unfold IsLink
  rw [hst.eocThreshold, hst.isCluster]

lemma isLink_zero (s : Fs) : s.IsLink 0 := fun h => absurd h (by omega)

lemma isLink_eocMarker (s : Fs) : s.IsLink s.eocMarker := by
  intro _ h
  unfold eocMarker eocThreshold at h
  split_ifs at h <;> omega

lemma IsCluster.isLink (h : s.IsCluster c) : s.IsLink c := fun _ _ => h

/-- A cluster is a value that an entry can have. -/
lemma IsCluster.le_maxEntry (hs : s.Geom) (h : s.IsCluster c) : c ≤ s.maxEntry := by
  have hlt := hs.clusters_lt
  have := h.2
  rw [maxEntry, hs.type_eq]
  split_ifs with h₁ h₂ <;> simp_all <;> omega

lemma eocMarker_le (s : Fs) : s.eocMarker ≤ s.maxEntry := by
  unfold eocMarker maxEntry
  split_ifs <;> omega

namespace Closed

lemma lt_dataStart (h : s.Closed b₀) : 0 < s.dataStartSector := by
  have h₁ := h.booted.fat_pos
  have h₂ := h.geom.root_eq
  have h₃ := h.geom.data_eq
  omega

/-- **An entry of the table is set.** -/
lemma setFatEntry (h : s.Closed b₀) (hc : s.IsCluster c) (hv : v ≤ s.maxEntry)
    (hlink : s.IsLink v) :
    (s.setFatEntry c v).Closed b₀ := by
  have hst : Sibling s (s.setFatEntry c v) := sibling_setFatEntry h.geom hc
  constructor
  case geom => exact hst.geom h.geom
  case copies => exact copies_setFatEntry h.geom h.copies hc
  case booted =>
    exact h.booted.of_sibling hst (block_setFatEntry_of_outside h.geom hc (.inl h.booted.fat_pos))
  case links =>
    intro c' hc'
    rw [hst.isCluster] at hc'
    rw [hst.isLink, getFatEntry_setFatEntry h.geom hc hc' hv]
    split_ifs
    · exact hlink
    · exact h.links c' hc'
  case heads =>
    intro k hk
    rw [hst.rootSectors] at hk
    rw [hst.isLink, slotEntry_of_blocks hst _ hk]
    · exact h.heads k hk
    · intro i _
      exact block_setFatEntry_of_outside h.geom hc (.inr (Nat.le_add_right _ _))

/-- The boot sector and the tables are kept, and the entries start inside. -/
lemma of_tableBlocks (h : s.Closed b₀) (hst : Sibling s t)
    (hsame : ∀ x, x < s.rootStartSector → t.disk.block x = s.disk.block x)
    (hheads : ∀ k, k / 16 < s.rootSectors → s.IsLink (t.slotEntry k).cluster) : t.Closed b₀ := by
  have hpos := h.booted.fat_pos
  have hroot := h.geom.root_eq
  have hfat : ∀ x, s.fatStartSector ≤ x → x < s.rootStartSector →
      t.disk.block x = s.disk.block x := fun x _ hx => hsame x hx
  constructor
  case geom => exact hst.geom h.geom
  case copies => exact copies_of_blocks h.geom h.copies hst hfat
  case booted => exact h.booted.of_sibling hst (hsame 0 (by omega))
  case links =>
    intro c hc
    rw [hst.isCluster] at hc
    rw [hst.isLink, getFatEntry_of_blocks h.geom hst hfat hc]
    exact h.links c hc
  case heads =>
    intro k hk
    rw [hst.rootSectors] at hk
    rw [hst.isLink]
    exact hheads k hk

/-- **Data sectors are written.** -/
lemma of_dataBlocks (h : s.Closed b₀) (hst : Sibling s t)
    (hsame : ∀ x, x < s.dataStartSector → t.disk.block x = s.disk.block x) : t.Closed b₀ := by
  have hroot := h.geom.data_eq
  refine h.of_tableBlocks hst (fun x hx => hsame x (by omega)) fun k hk => ?_
  rw [slotEntry_of_blocks hst (fun i hi => hsame _ (by omega)) hk]
  exact h.heads k hk

/-- **A sector of the root directory is written.** -/
lemma of_rootSector (h : s.Closed b₀) (hst : Sibling s t) {j : ℕ}
    (hsame : ∀ x, x ≠ s.rootStartSector + j → t.disk.block x = s.disk.block x)
    (hheads : ∀ i < 16, s.IsLink (dirent (t.disk.block (s.rootStartSector + j)) i).cluster) :
    t.Closed b₀ := by
  refine h.of_tableBlocks hst (fun x hx => hsame x (by omega)) fun k hk => ?_
  rw [slotEntry, hst.rootStartSector]
  by_cases hkj : k / 16 = j
  · rw [hkj]
    exact hheads _ (Nat.mod_lt _ (by omega))
  · rw [hsame _ (by omega)]
    exact h.heads k hk

end Closed

/-- **A new volume is closed.** -/
lemma closed_formatted {g : Geometry} {label : List UInt8} (hg : g.Ok)
    (hle : g.diskSecs ≤ s.disk.size) (hsize : s.disk.size ≤ 4294967296) :
    (s.formatted g label).Closed (bootSector g label) := by
  obtain ⟨h₁, h₂, h₃, h₄, h₅, h₆, h₇⟩ := ofSector_bootSector hg label
  have hroot := rootSectors_bootSector hg label
  have hmeta := hg.meta_lt
  have htotal := hg.total_le
  constructor
  case geom => exact geom_formatted label hg hle hsize
  case copies => exact copies_formatted hg hle
  case booted =>
    constructor
    case block => exact block_formattedDisk_zero hg hle
    case valid => exact isValidBpb_bootSector hg label
    case boot => rfl
    case fatStart => simp only [formatted, h₃]
    case rootSectors => simp only [formatted, hroot]
    case clusters =>
      simp only [formatted, h₂, h₇, Geometry.clusters]
      rw [sub32_of_le (by omega) (by omega)]
    case clusters_ne =>
      have := hg.clusters_ge
      show g.clusters ≠ 0
      omega
  case links =>
    intro c hc
    rw [getFatEntry_formatted hg hle hsize hc]
    exact isLink_zero _
  case heads =>
    intro k hk
    have hblock : (s.formatted g label).disk.block (1 + 2 * g.fatSecs + k / 16) = .zero 512 :=
      block_formattedDisk_root hg hle hk
    have hcluster : ((s.formatted g label).slotEntry k).cluster = 0 := by
      simp only [slotEntry]
      rw [show (s.formatted g label).rootStartSector = 1 + 2 * g.fatSecs from rfl, hblock]
      simp [dirent, le16, rdLe16]
    rw [hcluster]
    exact isLink_zero _

end Fs

end BengalTiger.Fat
