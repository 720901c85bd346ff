import BengalTiger.Fat.Buffers

set_option autoImplicit false

/-!
# Volumes of an untrusted disk

`mount_at_lba` accepts a boot sector without comparing the size of a table with the number of
clusters, and a loop over a chain compares its values with the end mark only. So an access to the
table can leave it.

## Main definitions

* `Fat.Fs.Laid` — what mounting guarantees of the layout.
* `Fat.Fs.entrySectors` — the sectors of a table that hold an entry.
* `Fat.Fs.TableSafe` — the entries of all clusters lie inside their tables.
* `Fat.Fs.freed` — the clusters whose entries `free_cluster_chain` clears.
* `Fat.Fs.deleteWrites`, `Fat.Fs.DeleteConfined` — the writes of a deletion, which go to the tables
  and to one sector of the root directory only.

## Main results

* `Fat.table_access_safe_iff` — when the entries lie inside their tables.
* `Fat.delete_framed_iff` — when a deletion writes nothing else.
-/

namespace BengalTiger.Fat

open BlockDevice List

namespace Fs

variable {s t : Fs} {base c : ℕ}

/-! ## Mounting -/

/-- **What mounting guarantees** of the layout, if the sector numbers of the volume do not wrap
around. -/
structure Laid (t : Fs) (base : ℕ) : Prop where
  mounted : t.mounted = true
  spc_pos : 0 < t.boot.sectorsPerCluster
  fats_pos : 0 < t.boot.numFats
  fat_pos : 0 < t.boot.fatSize16
  root_pos : 0 < t.rootSectors
  fat_eq : t.fatStartSector = base + t.boot.reservedSectors
  root_eq : t.rootStartSector = t.fatStartSector + t.boot.numFats * t.boot.fatSize16
  data_eq : t.dataStartSector = t.rootStartSector + t.rootSectors
  end_le : t.dataStartSector + t.totalClusters * t.boot.sectorsPerCluster ≤ base + t.boot.total
  end_lt : t.dataStartSector < base + t.boot.total
  clusters_pos : 0 < t.totalClusters
  clusters_lt : t.totalClusters < 65525
  type_eq : t.fatType = if t.totalClusters < 4085 then .fat12 else .fat16

/-- A mounted volume that does not wrap around is laid out as its boot sector says. -/
lemma laid_of_mountAtLba (hmount : s.mountAtLba base = (true, t))
    (hwrap : base + t.boot.total < 4294967296) : t.Laid base := by
  have h := placed_of_mountAtLba hmount
  have hmeta := h.meta_lt
  have hend := h.end_le
  have hdata := h.data_eq
  rw [u32_of_lt (by omega)] at hdata
  unfold Boot.metaSectors at hmeta hdata
  have hroot := h.root_eq
  rw [u32_of_lt (by omega)] at hroot
  have hfat := h.fat_eq
  rw [u32_of_lt (by omega)] at hfat
  constructor
  case mounted => exact h.mounted
  case spc_pos => exact h.spc_pos
  case fats_pos => exact h.fats_pos
  case fat_pos => exact h.fat_pos
  case root_pos => rw [h.sectors_eq]; exact h.root_pos
  case fat_eq => exact hfat
  case root_eq => rw [hroot, hfat]
  case data_eq =>
    rw [hdata, hroot, h.sectors_eq]
    omega
  case end_le =>
    unfold Boot.metaSectors at hend
    omega
  case end_lt => omega
  case clusters_pos => exact h.clusters_pos
  case clusters_lt => exact h.clusters_lt
  case type_eq => exact h.type_eq

/-! ## Where the entries of a table are -/

/-- The sectors of table `f` that hold entry `c`: a second one if the two bytes lie in different
sectors. -/
def entrySectors (s : Fs) (f c : ℕ) : List ℕ :=
  u32 (s.fatStartSector + f * s.boot.fatSize16 + s.fatOffset c / 512) ::
    if s.fatOffset c % 512 = 511 then
      [u32 (s.fatStartSector + f * s.boot.fatSize16 + s.fatOffset c / 512 + 1)]
    else []

/-- **The entries of all clusters lie inside their tables.** -/
def TableSafe (s : Fs) : Prop :=
  ∀ c, s.IsCluster c → ∀ f < s.boot.numFats, ∀ x ∈ s.entrySectors f c,
    s.fatStartSector + f * s.boot.fatSize16 ≤ x ∧
      x < s.fatStartSector + (f + 1) * s.boot.fatSize16

/-- The sectors that `set_fat_entry` writes. -/
lemma map_fst_fatWrites {bs : Sector × Option Sector} (h : s.readFat (s.fatOffset c) = some bs)
    (raw f : ℕ) :
    (fatWrites (s.fatOffset c) raw bs (s.fatStartSector + f * s.boot.fatSize16)).map Prod.fst =
      s.entrySectors f c := by
  obtain ⟨b, -, hbs⟩ := Option.bind_eq_some_iff.1 h
  unfold entrySectors
  split_ifs at hbs ⊢ with hcross
  · obtain ⟨b', -, hb'⟩ := Option.bind_eq_some_iff.1 hbs
    cases hb'
    rfl
  · cases hbs
    rfl

/-- The sectors of an entry in terms of its last byte. -/
lemma mem_entrySectors {f x : ℕ} (hx : x ∈ s.entrySectors f c)
    (hwrap : s.fatStartSector + f * s.boot.fatSize16 + (s.fatOffset c + 1) / 512 < 4294967296) :
    s.fatStartSector + f * s.boot.fatSize16 ≤ x ∧
      x ≤ s.fatStartSector + f * s.boot.fatSize16 + (s.fatOffset c + 1) / 512 := by
  unfold entrySectors at hx
  rw [mem_cons] at hx
  obtain rfl | hx := hx
  · rw [u32_of_lt (by omega)]
    omega
  · split_ifs at hx with hcross
    · rw [mem_singleton.1 hx, u32_of_lt (by omega)]
      omega
    · cases hx

/-- The sector of the last byte is one of them. -/
lemma last_mem_entrySectors (f : ℕ)
    (hwrap : s.fatStartSector + f * s.boot.fatSize16 + (s.fatOffset c + 1) / 512 < 4294967296) :
    s.fatStartSector + f * s.boot.fatSize16 + (s.fatOffset c + 1) / 512 ∈ s.entrySectors f c := by
  unfold entrySectors
  by_cases hcross : s.fatOffset c % 512 = 511
  · rw [if_pos hcross, u32_of_lt (by omega), u32_of_lt (by omega)]
    apply mem_cons_of_mem
    rw [mem_singleton]
    omega
  · rw [if_neg hcross, u32_of_lt (by omega), mem_singleton]
    omega

end Fs

/-- **When the entries of all clusters lie inside their tables**: the last byte of the last entry
has to.

**Proof sketch.** Offsets grow with the cluster, so the last cluster decides. The volume has more
sectors than its tables reach, so no sector number wraps around. -/
theorem table_access_safe_iff {s t : Fs} {base : ℕ} (hmount : s.mountAtLba base = (true, t))
    (hwrap : base + t.boot.total < 4294967296) :
    t.TableSafe ↔ t.fatOffset (t.totalClusters + 1) + 1 < 512 * t.boot.fatSize16 := by
  have ht := Fs.laid_of_mountAtLba hmount hwrap
  have hlast : t.fatOffset (t.totalClusters + 1) ≤ (t.totalClusters + 1) * 2 := by
    have := ht.clusters_lt
    rw [Fs.fatOffset_eq (by omega)]
    split_ifs <;> omega
  have hfats : t.boot.fatSize16 ≤ t.boot.numFats * t.boot.fatSize16 :=
    Nat.le_mul_of_pos_left _ ht.fats_pos
  have hclusters : t.totalClusters ≤ t.totalClusters * t.boot.sectorsPerCluster :=
    Nat.le_mul_of_pos_right _ ht.spc_pos
  obtain ⟨h₁, h₂, h₃, h₄⟩ := And.intro ht.root_eq (And.intro ht.data_eq
    (And.intro ht.end_le ht.clusters_pos))
  constructor
  · intro hsafe
    have hmem := Fs.last_mem_entrySectors (s := t) (c := t.totalClusters + 1) 0 (by omega)
    have hlt := (hsafe _ ⟨by omega, by omega⟩ 0 ht.fats_pos _ hmem).2
    omega
  · intro hroom c hc f hf x hx
    have hle : t.fatOffset c ≤ t.fatOffset (t.totalClusters + 1) := by
      have := ht.clusters_lt
      have := hc.2
      exact Fs.fatOffset_le (by omega) (by omega)
    have hcopy := mul_add_le (k := t.boot.fatSize16) hf
    rw [Nat.add_mul, Nat.one_mul]
    have hbounds := Fs.mem_entrySectors hx (by omega)
    omega

/-- A volume of 2000 sectors whose tables have one sector each. -/
def shortTable : Bool × Fs :=
  ({ blankFs 2000 with
    disk := (blankFs 2000).disk.write 0 (bootSector ⟨2000, 1, 112, 7, 1, true⟩ []) } :
      Fs).mountAtLba 0

/-- It is mounted, and entry 342 of its first table lies in the second one. -/
theorem short_table_mounted : shortTable.1 = true ∧ 0 + shortTable.2.boot.total < 4294967296 ∧
    shortTable.2.IsCluster 342 ∧ ¬ shortTable.2.TableSafe := by
  have hc : shortTable.2.IsCluster 342 := ⟨by decide, by decide +kernel⟩
  refine ⟨by decide +kernel, by decide +kernel, hc, fun hsafe => ?_⟩
  have hmem : 2 ∈ shortTable.2.entrySectors 0 342 := by decide +kernel
  have hlt := (hsafe 342 hc 0 (by decide +kernel) 2 hmem).2
  revert hlt
  decide +kernel

/-- A formatted volume of 64 sectors is mounted. -/
theorem table_access_safe_iff_small : ∃ s t : Fs, s.mountAtLba 0 = (true, t) ∧
    0 + t.boot.total < 4294967296 ∧
    (t.TableSafe ↔ t.fatOffset (t.totalClusters + 1) + 1 < 512 * t.boot.fatSize16) := by
  have hmount : (forgedFs 0 0).1 = true := by decide +kernel
  have hwrap : 0 + (forgedFs 0 0).2.boot.total < 4294967296 := by decide +kernel
  have heq : forgedFs 0 0 = (true, (forgedFs 0 0).2) := Prod.ext hmount rfl
  exact ⟨_, _, heq, hwrap, table_access_safe_iff heq hwrap⟩

/-! ## The writes of the calls that free clusters -/

namespace Fs

variable {s t : Fs} {guard c v y : ℕ} {x : Slot} {name : List UInt8}

/-- The clusters whose entries the loop of `free_cluster_chain` clears. -/
def freed : ℕ → ℕ → Fs → List ℕ
  | 0, _, _ => []
  | guard + 1, c, s =>
    if 2 ≤ c ∧ c < s.eocThreshold then c :: freed guard (s.getFatEntry c) (s.setFatEntry c 0)
    else []

/-- The clusters whose entries are cleared when the chain of a file is freed. -/
def freedChain (s : Fs) (x : Slot) : List ℕ := freed (s.totalClusters + 2) x.ent.cluster s

/-- The writes of `set_fat_entry`, in order. -/
def setFatWrites (s : Fs) (c v : ℕ) : List (ℕ × Sector) :=
  if s.mounted = false ∨ c < 2 then []
  else (s.readFat (s.fatOffset c)).elim [] fun bs =>
    let raw := s.encodeEntry c (rawEntry (s.fatOffset c) bs) v
    (List.range s.boot.numFats).flatMap fun f =>
      fatWrites (s.fatOffset c) raw bs (s.fatStartSector + f * s.boot.fatSize16)

/-- The writes of the loop of `free_cluster_chain`. -/
def freeWrites : ℕ → ℕ → Fs → List (ℕ × Sector)
  | 0, _, _ => []
  | guard + 1, c, s =>
    if 2 ≤ c ∧ c < s.eocThreshold then
      s.setFatWrites c 0 ++ freeWrites guard (s.getFatEntry c) (s.setFatEntry c 0)
    else []

/-- The writes of `fat_delete_file`. -/
def deleteWrites (s : Fs) (name : List UInt8) : List (ℕ × Sector) :=
  (s.findDirentVal name).elim [] fun x =>
    freeWrites (s.totalClusters + 2) x.ent.cluster s ++
      ((s.freeEntry x).read x.sector).elim [] fun b =>
        [(u32 x.sector, b.put (32 * x.index) [0xE5])]

/-- **A deletion writes to the tables and to the root sector of the entry only.** A write behind the
end of the device fails. -/
def DeleteConfined (s : Fs) (name : List UInt8) : Prop :=
  ∀ w ∈ s.deleteWrites name, w.1 < s.disk.size →
    s.fatStartSector ≤ w.1 ∧ w.1 < s.rootStartSector ∨
      ∃ x, s.findDirentVal name = some x ∧ w.1 = x.sector

/-- A deletion changes the tables and the root sector of the entry only. -/
def DeleteFramed (s : Fs) (name : List UInt8) : Prop :=
  ∀ y, y < s.fatStartSector ∨ s.rootStartSector ≤ y →
    (∀ x, s.findDirentVal name = some x → y ≠ x.sector) →
    (s.fatDeleteFile name).2.disk.block y = s.disk.block y

/-- **Clearing an entry stays inside**: if the entry can be read from the first table, each of its
sectors in every copy is in front of the root directory, or it is the root sector of the file, or it
is not on the device. -/
def ClearsInside (s : Fs) (x : Slot) (c : ℕ) : Prop :=
  (∀ y ∈ s.entrySectors 0 c, y < s.disk.size) →
    ∀ f < s.boot.numFats, ∀ y ∈ s.entrySectors f c, y < s.disk.size →
      y < s.rootStartSector ∨ y = x.sector

/-- The sectors that are written when an entry is cleared: none if it cannot be read. -/
def entryWrites (s : Fs) (c : ℕ) : List ℕ :=
  if ∀ y ∈ s.entrySectors 0 c, y < s.disk.size then
    (List.range s.boot.numFats).flatMap fun f => s.entrySectors f c
  else []

/-- `set_fat_entry` does its writes. -/
lemma setFatEntry_eq (s : Fs) (c v : ℕ) : s.setFatEntry c v =
    { s with disk := (s.setFatWrites c v).foldl (fun d w => d.write w.1 w.2) s.disk } := by
  unfold setFatEntry setFatWrites
  split_ifs
  · rfl
  · cases s.readFat (s.fatOffset c) <;> rfl

lemma sibling_setFatEntry_any (s : Fs) (c v : ℕ) : Sibling s (s.setFatEntry c v) := by
  rw [setFatEntry_eq]
  exact sibling_disk (Device.size_foldl_write _)

/-- The loop of `free_cluster_chain` does its writes. -/
lemma freeLoop_eq (guard c : ℕ) (s : Fs) : freeLoop guard c s =
    { s with disk := (freeWrites guard c s).foldl (fun d w => d.write w.1 w.2) s.disk } := by
  induction guard generalizing c s with
  | zero => rfl
  | succ guard ih =>
    rw [freeLoop, freeWrites]
    split_ifs
    · rw [ih, foldl_append]
      simp only [setFatEntry_eq s c 0]
    · rfl

/-- The loop clears one entry after the other. -/
lemma freeLoop_eq_foldl (guard c : ℕ) (s : Fs) :
    freeLoop guard c s = (freed guard c s).foldl (fun s c => s.setFatEntry c 0) s := by
  induction guard generalizing c s with
  | zero => rfl
  | succ guard ih =>
    rw [freeLoop, freed]
    split_ifs
    · rw [ih, foldl_cons]
    · rfl

/-- The guard bounds the rounds of the loop. -/
lemma length_freed_le (guard c : ℕ) (s : Fs) : (freed guard c s).length ≤ guard := by
  induction guard generalizing c s with
  | zero => exact le_rfl
  | succ guard ih =>
    rw [freed]
    split_ifs
    · exact Nat.succ_le_succ (ih _ _)
    · exact Nat.zero_le _

/-- The loop clears entries below the end mark. -/
lemma lt_of_mem_freed {c' : ℕ} (h : c' ∈ freed guard c s) : 2 ≤ c' ∧ c' < s.eocThreshold := by
  induction guard generalizing c s with
  | zero => cases h
  | succ guard ih =>
    rw [freed] at h
    split_ifs at h with hgo
    · obtain rfl | h := mem_cons.1 h
      · exact hgo
      · have hlt := ih h
        rwa [(sibling_setFatEntry_any s c 0).eocThreshold] at hlt
    · cases h

/-- When the chain of a file is freed, the loop clears the entries of `freedChain`. -/
lemma freeEntry_eq_foldl (s : Fs) (x : Slot) :
    s.freeEntry x = (s.freedChain x).foldl (fun s c => s.setFatEntry c 0) s := by
  unfold freeEntry freeClusterChain freedChain
  split_ifs with h2
  · exact freeLoop_eq_foldl _ _ _
  · rw [freed, if_neg fun h => h2 h.1]
    rfl

/-- The writes of `fat_delete_file` are what it does to the disk. -/
lemma disk_fatDeleteFile (s : Fs) (name : List UInt8) : (s.fatDeleteFile name).2.disk =
    (s.deleteWrites name).foldl (fun d w => d.write w.1 w.2) s.disk := by
  unfold fatDeleteFile deleteWrites
  cases s.findDirentVal name with
  | none => rfl
  | some x =>
    have hfree : (s.freeEntry x).disk = (freeWrites (s.totalClusters + 2) x.ent.cluster s).foldl
        (fun d w => d.write w.1 w.2) s.disk := by
      unfold freeEntry freeClusterChain
      split_ifs with h2
      · rw [freeLoop_eq]
      · rw [freeWrites, if_neg fun h => h2 h.1]
        rfl
    rw [Option.elim_some, Option.elim_some, foldl_append, ← hfree, modify]
    cases (s.freeEntry x).read x.sector <;> rfl

lemma Sibling.entrySectors (h : Sibling s t) (f c : ℕ) :
    t.entrySectors f c = s.entrySectors f c := by
  unfold Fs.entrySectors
  rw [h.fatStartSector, h.boot, h.fatOffset]

lemma Sibling.entryWrites (h : Sibling s t) (c : ℕ) : t.entryWrites c = s.entryWrites c := by
  unfold Fs.entryWrites
  simp only [h.entrySectors, h.boot, h.2]

/-- The sectors that `set_fat_entry` writes. -/
lemma map_fst_setFatWrites (hm : s.mounted = true) (h2 : 2 ≤ c) (v : ℕ) :
    (s.setFatWrites c v).map Prod.fst = s.entryWrites c := by
  have hsome : (s.readFat (s.fatOffset c)).isSome ↔ ∀ y ∈ s.entrySectors 0 c, y < s.disk.size := by
    unfold readFat Fs.read Device.read entrySectors
    rw [Nat.zero_mul, Nat.add_zero]
    split_ifs <;> simp_all
  unfold setFatWrites entryWrites
  rw [if_neg (not_rejected hm h2)]
  cases hread : s.readFat (s.fatOffset c) with
  | none =>
    rw [hread] at hsome
    rw [if_neg fun h => Bool.false_ne_true (hsome.2 h)]
    rfl
  | some bs =>
    rw [hread] at hsome
    rw [if_pos (hsome.1 rfl), Option.elim_some, map_flatMap]
    exact congrArg (List.flatMap · _) (funext fun f => map_fst_fatWrites hread _ f)

/-- **The sectors that the loop writes** are those of the entries that it clears. -/
lemma map_fst_freeWrites (hm : s.mounted = true) (guard c : ℕ) :
    (freeWrites guard c s).map Prod.fst = (freed guard c s).flatMap s.entryWrites := by
  induction guard generalizing c s with
  | zero => rfl
  | succ guard ih =>
    have hst := sibling_setFatEntry_any s c 0
    rw [freeWrites, freed]
    split_ifs with hgo
    · rw [map_append, map_fst_setFatWrites hm hgo.1, ih (hst.mounted.trans hm), flatMap_cons]
      exact congrArg (s.entryWrites c ++ List.flatMap · _) (funext hst.entryWrites)
    · rfl

/-- The sector of an entry that is found. -/
lemma mem_slotsFrom {x : Slot} (n : ℕ) : ∀ k, x ∈ s.slotsFrom n k →
    ∃ i < k + n, x.sector = s.rootStartSector + i ∧ u32 (s.rootStartSector + i) < s.disk.size := by
  induction n with
  | zero => intro k hx; cases hx
  | succ n ih =>
    intro k hx
    rw [slotsFrom] at hx
    cases hread : s.read (s.rootStartSector + k) with
    | none =>
      rw [hread] at hx
      cases hx
    | some b =>
      rw [hread, Option.elim_some, mem_append] at hx
      obtain hx | hx := hx
      · obtain ⟨j, -, rfl⟩ := mem_map.1 hx
        refine ⟨k, by omega, rfl, ?_⟩
        by_contra hlt
        rw [Fs.read, Device.read, if_neg hlt] at hread
        cases hread
      · obtain ⟨i, hi, hx⟩ := ih (k + 1) hx
        exact ⟨i, by omega, hx⟩

/-- What mounting guarantees does not depend on the contents of the disk. -/
lemma Sibling.laid {base : ℕ} (hst : Sibling s t) (h : s.Laid base) : t.Laid base := by
  rw [hst.1]
  exact ⟨h.mounted, h.spc_pos, h.fats_pos, h.fat_pos, h.root_pos, h.fat_eq, h.root_eq, h.data_eq,
    h.end_le, h.end_lt, h.clusters_pos, h.clusters_lt, h.type_eq⟩

section Laid

variable {base : ℕ} (h : s.Laid base) (hwrap : base + s.boot.total + 256 ≤ 4294967296)
include h hwrap

/-- The sectors of an entry that the loop clears: the sector numbers do not wrap around. -/
lemma Laid.mem_entrySectors {f : ℕ} (hf : f < s.boot.numFats) (hc : c < s.eocThreshold)
    (hy : y ∈ s.entrySectors f c) : s.fatStartSector ≤ y ∧
      y + s.boot.fatSize16 ≤ s.rootStartSector + (s.fatOffset c + 1) / 512 := by
  have hcopy := mul_add_le (k := s.boot.fatSize16) hf
  have hoffset : (s.fatOffset c + 1) / 512 ≤ 255 := by
    unfold eocThreshold at hc
    rw [fatOffset_eq (by split_ifs at hc <;> omega)]
    split_ifs at hc ⊢ <;> omega
  obtain ⟨h₁, h₂, h₃⟩ := And.intro h.root_eq (And.intro h.data_eq h.end_lt)
  have hbounds := Fs.mem_entrySectors hy (by omega)
  omega

/-- The sector of a file that is found. -/
lemma Laid.sector_eq (hx : s.findDirentVal name = some x) :
    s.rootStartSector ≤ x.sector ∧ u32 x.sector = x.sector := by
  obtain ⟨i, hi, hsector, -⟩ := mem_slotsFrom _ _ (mem_rootSlots_of_findDirentVal hx)
  obtain ⟨h₁, h₂, h₃⟩ := And.intro h.root_eq (And.intro h.data_eq h.end_lt)
  exact ⟨by omega, by rw [u32_of_lt (by omega)]⟩

/-- An entry inside the table is cleared inside. -/
lemma Laid.clearsInside (hc : c < s.eocThreshold)
    (hroom : s.fatOffset c + 1 < 512 * s.boot.fatSize16) : s.ClearsInside x c := by
  intro _ f hf y hy _
  have := h.mem_entrySectors hwrap hf hc hy
  omega

/-- **When a deletion writes to the tables and its root sector only**: when every entry that is
cleared is cleared inside. -/
lemma Laid.deleteConfined_iff (name : List UInt8) : s.DeleteConfined name ↔
    ∀ x, s.findDirentVal name = some x → ∀ c ∈ s.freedChain x, s.ClearsInside x c := by
  cases hx : s.findDirentVal name with
  | none =>
    refine iff_of_true (fun w hw => ?_) nofun
    rw [deleteWrites, hx] at hw
    cases hw
  | some x =>
    obtain ⟨hroot, hu32⟩ := h.sector_eq hwrap hx
    -- the sectors written are those of the entries cleared and the root sector
    have hwrites : ∀ y, y ∈ (s.deleteWrites name).map Prod.fst ↔
        (∃ c ∈ s.freedChain x, y ∈ s.entryWrites c) ∨
          y = x.sector ∧ ((s.freeEntry x).read x.sector).isSome := by
      intro y
      rw [deleteWrites, hx, Option.elim_some, map_append, mem_append,
        map_fst_freeWrites h.mounted, mem_flatMap]
      cases (s.freeEntry x).read x.sector <;> simp [freedChain, hu32]
    have hconfined : s.DeleteConfined name ↔ ∀ y ∈ (s.deleteWrites name).map Prod.fst,
        y < s.disk.size → s.fatStartSector ≤ y ∧ y < s.rootStartSector ∨ y = x.sector := by
      simp [DeleteConfined, hx]
    rw [hconfined]
    constructor
    · rintro hall x' hx' c hc hread f hf y hy hsize
      cases hx'
      have hmem : y ∈ s.entryWrites c := by
        rw [entryWrites, if_pos hread, mem_flatMap]
        exact ⟨f, mem_range.2 hf, hy⟩
      exact (hall y ((hwrites y).2 (.inl ⟨c, hc, hmem⟩)) hsize).imp_left And.right
    · intro hall y hy hsize
      obtain ⟨c, hc, hmem⟩ | ⟨rfl, -⟩ := (hwrites y).1 hy
      · unfold entryWrites at hmem
        split_ifs at hmem with hread
        · obtain ⟨f, hf, hmem⟩ := mem_flatMap.1 hmem
          rw [mem_range] at hf
          have hlow := (h.mem_entrySectors hwrap hf (lt_of_mem_freed hc).2 hmem).1
          exact (hall x rfl c hc hread f hf y hmem hsize).imp_left (⟨hlow, ·⟩)
        · cases hmem
      · exact .inr rfl

end Laid

/-- The sectors that are not written keep their contents. -/
lemma DeleteConfined.deleteFramed (h : s.DeleteConfined name) : s.DeleteFramed name := by
  intro y hy hne
  rw [disk_fatDeleteFile]
  by_cases hsize : s.disk.size ≤ y
  · exact Device.block_foldl_write_of_le _ hsize
  · refine Device.block_foldl_write_of_notMem _ fun w hw heq => ?_
    obtain hin | ⟨x, hx, hsector⟩ := h w hw (by omega)
    · omega
    · exact hne x hx (heq ▸ hsector)

end Fs

/-- **When a deletion writes nothing but the tables and one root sector.** On a mounted volume with
any contents `u`, freeing the chain of a file, in `fat_delete_file` and as the first step of
`fat_write_file`, ends after at most `total_clusters + 2` entries. A deletion is confined if and
only if each of the entries that it clears is cleared inside; this is so for the entries that lie in
the table. The sectors that are not written keep their contents.

**Proof sketch.** The loop does what its list of writes does, and the sectors of this list are those
of the entries that are cleared. Sector numbers do not wrap around, so a sector of an entry is
behind the start of the tables, and the question is only whether it is in front of the root
directory. -/
theorem delete_framed_iff {s t u : Fs} {base : ℕ} (hmount : s.mountAtLba base = (true, t))
    (hwrap : base + t.boot.total + 256 ≤ 4294967296) (hu : Fs.Sibling t u) (name : List UInt8) :
    (∀ x, u.freeEntry x = (u.freedChain x).foldl (fun s c => s.setFatEntry c 0) u ∧
      (u.freedChain x).length ≤ u.totalClusters + 2) ∧
    (u.fatDeleteFile name).2.disk =
      (u.deleteWrites name).foldl (fun d w => d.write w.1 w.2) u.disk ∧
    (u.DeleteConfined name ↔
      ∀ x, u.findDirentVal name = some x → ∀ c ∈ u.freedChain x, u.ClearsInside x c) ∧
    (∀ x c, c ∈ u.freedChain x → u.fatOffset c + 1 < 512 * u.boot.fatSize16 →
      u.ClearsInside x c) ∧
    (u.DeleteConfined name → u.DeleteFramed name) := by
  have hlaid := hu.laid (Fs.laid_of_mountAtLba hmount (by omega))
  have hwrap' : base + u.boot.total + 256 ≤ 4294967296 := by rwa [hu.boot]
  refine ⟨fun x => ⟨u.freeEntry_eq_foldl x, Fs.length_freed_le _ _ _⟩, u.disk_fatDeleteFile name,
    hlaid.deleteConfined_iff hwrap' name, fun x c hc hroom => ?_, Fs.DeleteConfined.deleteFramed⟩
  exact hlaid.clearsInside hwrap' (Fs.lt_of_mem_freed hc).2 hroom

/-- A formatted volume of 64 sectors with a file whose chain begins at 704: the deletion writes the
first root sector over the second one. -/
theorem delete_overwrites_root : (forgedFs 704 5).1 = true ∧
    (∀ c < (forgedFs 704 5).2.totalClusters + 2,
      (forgedFs 704 5).2.fatOffset c + 1 < 512 * (forgedFs 704 5).2.boot.fatSize16) ∧
    ¬ (forgedFs 704 5).2.DeleteFramed (ascii "A".toList) := by
  refine ⟨by decide +kernel, by decide +kernel, fun hframed => ?_⟩
  have hsector : ((forgedFs 704 5).2.findDirentVal (ascii "A".toList)).map Slot.sector =
      some 3 := by decide +kernel
  have hsame := hframed 4 (by decide +kernel) (by
    intro x hx
    rw [hx] at hsector
    rw [Option.some.inj hsector]
    decide)
  have hget := congrArg (fun b : Sector => b.get 0) hsame
  revert hget
  decide +kernel

/-- The deletion of a file of two clusters is confined. -/
theorem delete_framed_iff_twoClusters : ∃ u : Fs, Fs.Sibling (forgedFs 0 0).2 u ∧
    (u.findDirentVal (ascii "B".toList)).map u.freedChain = some [2, 3] ∧
    u.DeleteConfined (ascii "B".toList) ∧ u.DeleteFramed (ascii "B".toList) := by
  have hmount : (forgedFs 0 0).1 = true := by decide +kernel
  have heq : forgedFs 0 0 = (true, (forgedFs 0 0).2) := Prod.ext hmount rfl
  have hwrap : 0 + (forgedFs 0 0).2.boot.total + 256 ≤ 4294967296 := by decide +kernel
  have hst : ∀ t : Fs, t.withFile.disk.size = t.disk.size → Fs.Sibling t t.withFile :=
    fun t h => ⟨rfl, h⟩
  have hu := hst (forgedFs 0 0).2 (by decide +kernel)
  have hchain : ((forgedFs 0 0).2.withFile.findDirentVal (ascii "B".toList)).map
      (forgedFs 0 0).2.withFile.freedChain = some [2, 3] := by decide +kernel
  have hroom : ∀ c ∈ [2, 3], (forgedFs 0 0).2.withFile.fatOffset c + 1 <
      512 * (forgedFs 0 0).2.withFile.boot.fatSize16 := by decide +kernel
  obtain ⟨-, -, hconfined, hinside, hframed⟩ := delete_framed_iff heq hwrap hu (ascii "B".toList)
  have h := hconfined.2 fun x hx c hc => hinside x c hc (hroom c (by
    rw [hx, Option.map_some, Option.some_inj] at hchain
    rwa [hchain] at hc))
  exact ⟨_, hu, hchain, h, hframed h⟩

end BengalTiger.Fat
