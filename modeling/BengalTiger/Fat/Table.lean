import BengalTiger.Fat.Mount

set_option autoImplicit false

/-!
# The tables of a mounted volume

`get_fat_entry` reads an entry from the first table. `set_fat_entry` replaces it in the sectors of
the first table that hold it, one or two, and writes these sectors to every table. On a volume whose
tables have room for all entries and whose sectors can be accessed, the entries are then a table of
numbers, whatever their width. Sector numbers are taken modulo `2 ^ 32` as the code computes them,
and nothing is assumed of the contents of the tables: a table that differs from the first one is
overwritten where a sector is written.

## Main definitions

* `Fat.Fs.Tables` — tables with room for all entries, inside the device.
* `Fat.Fs.tableSector`, `Fat.Fs.tableByte` — their sectors and bytes.
* `Fat.Fs.Identical` — the tables are equal.

## Main results

* `Fat.Fs.Tables.tableByte_setFatEntry` — the bytes of the tables after an entry is set.
* `Fat.fat_entry_laws` — the laws of the table.
-/

namespace BengalTiger.Fat

open BlockDevice

namespace Fs

variable {s t : Fs} {c c' v base : ℕ}

/-! ## Tables -/

/-- Sector `i` of table `f`. -/
def tableSector (s : Fs) (f i : ℕ) : ℕ := u32 (s.fatStartSector + f * s.boot.fatSize16 + i)

/-- The byte at an offset of table `f`. -/
def tableByte (s : Fs) (f a : ℕ) : UInt8 := (s.disk.block (s.tableSector f (a / 512))).get (a % 512)

/-- The tables are equal. -/
def Identical (s : Fs) : Prop :=
  ∀ f < s.boot.numFats, ∀ i < s.boot.fatSize16,
    s.disk.block (s.tableSector f i) = s.disk.block (s.tableSector 0 i)

/-- **The tables of a mounted volume** have room for the entries of all clusters, and their sectors
can be accessed. -/
structure Tables (s : Fs) : Prop where
  mounted : s.mounted = true
  fats_pos : 0 < s.boot.numFats
  tables_le : s.boot.numFats * s.boot.fatSize16 ≤ 4294967296
  clusters_lt : s.totalClusters < 65525
  room : ∀ c < s.totalClusters + 2, s.fatOffset c + 1 < 512 * s.boot.fatSize16
  io : ∀ f < s.boot.numFats, ∀ i < s.boot.fatSize16, s.tableSector f i < s.disk.size

/-- Every mounted volume has such tables, if the last entry is in the table and the sectors can be
accessed. -/
lemma Placed.tables (h : s.Placed base)
    (room : s.fatOffset (s.totalClusters + 1) + 1 < 512 * s.boot.fatSize16)
    (io : ∀ f < s.boot.numFats, ∀ i < s.boot.fatSize16, s.tableSector f i < s.disk.size) :
    s.Tables where
  mounted := h.mounted
  fats_pos := h.fats_pos
  tables_le := by
    have h₁ := h.meta_lt
    have h₂ := h.total_lt
    unfold Boot.metaSectors at h₁
    omega
  clusters_lt := h.clusters_lt
  room := by
    intro c hc
    have hlt := h.clusters_lt
    have hle : s.fatOffset c ≤ s.fatOffset (s.totalClusters + 1) :=
      fatOffset_le (by omega) (by omega)
    omega
  io := io

lemma Sibling.tableSector (h : Sibling s t) (f i : ℕ) : t.tableSector f i = s.tableSector f i := by
  unfold Fs.tableSector
  rw [h.boot, h.fatStartSector]

/-- The place of the tables does not depend on the contents. -/
lemma Sibling.tables (h : Sibling s t) (hs : s.Tables) : t.Tables where
  mounted := h.mounted.trans hs.mounted
  fats_pos := by rw [h.boot]; exact hs.fats_pos
  tables_le := by rw [h.boot]; exact hs.tables_le
  clusters_lt := by rw [h.totalClusters]; exact hs.clusters_lt
  room := by
    rw [h.totalClusters, h.boot]
    intro c hc
    rw [h.fatOffset]
    exact hs.room c hc
  io := by
    rw [h.boot, h.2]
    intro f hf i hi
    rw [h.tableSector]
    exact hs.io f hf i hi

lemma tableSector_zero (s : Fs) (i : ℕ) : s.tableSector 0 i = u32 (s.fatStartSector + i) := by
  rw [tableSector, Nat.zero_mul, Nat.add_zero]

/-- The sectors of the tables are different, although their numbers may wrap around. -/
lemma Tables.tableSector_inj (hs : s.Tables) {f g i j : ℕ} (hf : f < s.boot.numFats)
    (hg : g < s.boot.numFats) (hi : i < s.boot.fatSize16) (hj : j < s.boot.fatSize16)
    (h : s.tableSector f i = s.tableSector g j) : f = g ∧ i = j := by
  have h₁ := mul_add_le (k := s.boot.fatSize16) hf
  have h₂ := mul_add_le (k := s.boot.fatSize16) hg
  have h₃ := hs.tables_le
  apply table_index_inj hi hj
  unfold tableSector u32 at h
  omega

/-! ## Reading an entry -/

/-- The sectors of an entry. -/
lemma Tables.readFat_eq (hs : s.Tables) {off : ℕ} (hoff : off + 1 < 512 * s.boot.fatSize16) :
    s.readFat off = some (s.disk.block (s.tableSector 0 (off / 512)),
      if off % 512 = 511 then some (s.disk.block (s.tableSector 0 (off / 512 + 1))) else none) := by
  have hread : ∀ i < s.boot.fatSize16,
      s.read (s.fatStartSector + i) = some (s.disk.block (s.tableSector 0 i)) := by
    intro i hi
    rw [read, ← tableSector_zero, Device.read_of_lt (hs.io 0 hs.fats_pos i hi)]
  unfold readFat
  rw [hread _ (by omega)]
  by_cases h511 : off % 512 = 511
  · simp only [Option.bind_eq_bind, Option.bind_some, h511, if_true]
    rw [Nat.add_assoc, hread _ (by omega)]
    rfl
  · simp only [Option.bind_eq_bind, Option.bind_some, h511, if_false]
    rfl

/-- The two bytes of an entry. -/
lemma rawEntry_eq (s : Fs) (off : ℕ) :
    rawEntry off (s.disk.block (s.tableSector 0 (off / 512)),
      if off % 512 = 511 then some (s.disk.block (s.tableSector 0 (off / 512 + 1))) else none) =
      rdLe16 (s.tableByte 0 off) (s.tableByte 0 (off + 1)) := by
  unfold rawEntry tableByte
  by_cases h511 : off % 512 = 511
  · have h₁ : (off + 1) / 512 = off / 512 + 1 := by omega
    have h₂ : (off + 1) % 512 = 0 := by omega
    rw [if_pos h511, h₁, h₂]
    rfl
  · have h₁ : (off + 1) / 512 = off / 512 := by omega
    have h₂ : (off + 1) % 512 = off % 512 + 1 := by omega
    rw [if_neg h511, h₁, h₂]
    rfl

variable (hc : s.IsCluster c)

include hc

/-- The entry of a cluster is in the two bytes at its offset. -/
lemma Tables.getFatEntry_eq (hs : s.Tables) :
    s.getFatEntry c = s.decodeEntry c
      (rdLe16 (s.tableByte 0 (s.fatOffset c)) (s.tableByte 0 (s.fatOffset c + 1))) := by
  rw [getFatEntry, if_neg (not_rejected hs.mounted hc.1), hs.readFat_eq (hs.room c hc.2),
    Option.elim_some, rawEntry_eq]

/-! ## Setting an entry -/

/-- Sector `i` of the first table after the bytes at `off` are replaced. -/
def newSector (s : Fs) (off raw i : ℕ) : Sector :=
  if i = off / 512 then (s.disk.block (s.tableSector 0 i)).put (off % 512) (wrLe16 raw)
  else (s.disk.block (s.tableSector 0 i)).put 0 [UInt8.ofNat (raw / 256)]

/-- The sectors that hold the two bytes at `off`. -/
def Spans (off i : ℕ) : Prop := i = off / 512 ∨ off % 512 = 511 ∧ i = off / 512 + 1

instance (off i : ℕ) : Decidable (Spans off i) := by
  unfold Spans
  infer_instance

/-- The new raw value of an entry. -/
def newRaw (s : Fs) (c v : ℕ) : ℕ :=
  s.encodeEntry c (rdLe16 (s.tableByte 0 (s.fatOffset c)) (s.tableByte 0 (s.fatOffset c + 1))) v

/-- The writes of `set_fat_entry`. -/
def setWrites (s : Fs) (c v : ℕ) : List (ℕ × Sector) :=
  (List.range s.boot.numFats).flatMap fun f =>
    fatWrites (s.fatOffset c) (s.newRaw c v)
      (s.disk.block (s.tableSector 0 (s.fatOffset c / 512)),
        if s.fatOffset c % 512 = 511 then
          some (s.disk.block (s.tableSector 0 (s.fatOffset c / 512 + 1))) else none)
      (s.fatStartSector + f * s.boot.fatSize16)

lemma Tables.setFatEntry_eq (hs : s.Tables) :
    s.setFatEntry c v =
      { s with disk := (s.setWrites c v).foldl (fun d w => d.write w.1 w.2) s.disk } := by
  rw [setFatEntry, if_neg (not_rejected hs.mounted hc.1), hs.readFat_eq (hs.room c hc.2),
    Option.elim_some, rawEntry_eq]
  rfl

lemma Tables.sibling_setFatEntry (hs : s.Tables) : Sibling s (s.setFatEntry c v) := by
  rw [hs.setFatEntry_eq hc]
  exact sibling_disk (Device.size_foldl_write _)

omit hc in
/-- The writes to one table. -/
lemma mem_fatWrites {off raw f : ℕ} {w : ℕ × Sector} :
    w ∈ fatWrites off raw (s.disk.block (s.tableSector 0 (off / 512)),
        if off % 512 = 511 then some (s.disk.block (s.tableSector 0 (off / 512 + 1))) else none)
        (s.fatStartSector + f * s.boot.fatSize16) ↔
      ∃ i, Spans off i ∧ w = (s.tableSector f i, s.newSector off raw i) := by
  have hfirst : s.newSector off raw (off / 512) =
      (s.disk.block (s.tableSector 0 (off / 512))).put (off % 512) (wrLe16 raw) := if_pos rfl
  have hsecond : s.newSector off raw (off / 512 + 1) =
      (s.disk.block (s.tableSector 0 (off / 512 + 1))).put 0 [UInt8.ofNat (raw / 256)] :=
    if_neg (by omega)
  unfold fatWrites
  -- an entry over the end of a sector is written to two sectors
  by_cases h511 : off % 512 = 511
  · rw [if_pos h511, Option.elim_some, List.mem_cons, List.mem_singleton]
    constructor
    · rintro (rfl | rfl)
      · exact ⟨_, .inl rfl, by rw [hfirst]; rfl⟩
      · exact ⟨_, .inr ⟨h511, rfl⟩, by rw [hsecond]; rfl⟩
    · rintro ⟨i, rfl | ⟨-, rfl⟩, rfl⟩
      · rw [hfirst]
        exact .inl rfl
      · rw [hsecond]
        exact .inr rfl
  · rw [if_neg h511, Option.elim_none, List.mem_singleton]
    constructor
    · rintro rfl
      exact ⟨_, .inl rfl, by rw [hfirst]; rfl⟩
    · rintro ⟨i, rfl | ⟨h, -⟩, rfl⟩
      · rw [hfirst]
        rfl
      · exact absurd h h511

omit hc in
/-- The writes go to the sectors of the entry in each table. -/
lemma mem_setWrites {w : ℕ × Sector} :
    w ∈ s.setWrites c v ↔ ∃ f < s.boot.numFats, ∃ i, Spans (s.fatOffset c) i ∧
      w = (s.tableSector f i, s.newSector (s.fatOffset c) (s.newRaw c v) i) := by
  unfold setWrites
  rw [List.mem_flatMap]
  simp only [List.mem_range, mem_fatWrites]

/-- The sectors of an entry are sectors of the table. -/
lemma Tables.lt_of_spans (hs : s.Tables) {i : ℕ} (hi : Spans (s.fatOffset c) i) :
    i < s.boot.fatSize16 := by
  have hroom := hs.room c hc.2
  obtain rfl | ⟨h511, rfl⟩ := hi
  · omega
  · omega

/-- Sectors outside the tables stay. -/
lemma Tables.block_setFatEntry_of_outside (hs : s.Tables) {x : ℕ}
    (hx : ∀ f < s.boot.numFats, ∀ i < s.boot.fatSize16, s.tableSector f i ≠ x) :
    (s.setFatEntry c v).disk.block x = s.disk.block x := by
  rw [hs.setFatEntry_eq hc]
  apply Device.block_foldl_write_of_notMem
  intro w hw
  obtain ⟨f, hf, i, hi, rfl⟩ := mem_setWrites.1 hw
  exact hx f hf i (hs.lt_of_spans hc hi)

/-- The sectors of an entry, in every table. -/
lemma Tables.block_setFatEntry (hs : s.Tables) {f i : ℕ} (hf : f < s.boot.numFats)
    (hi : Spans (s.fatOffset c) i) :
    (s.setFatEntry c v).disk.block (s.tableSector f i) =
      s.newSector (s.fatOffset c) (s.newRaw c v) i := by
  have hlt := hs.lt_of_spans hc hi
  rw [hs.setFatEntry_eq hc]
  apply Device.block_foldl_write_of_mem
  · exact mem_setWrites.2 ⟨f, hf, i, hi, rfl⟩
  · intro w hw hwx
    obtain ⟨g, hg, j, hj, rfl⟩ := mem_setWrites.1 hw
    rw [(hs.tableSector_inj hg hf (hs.lt_of_spans hc hj) hlt hwx).2]
  · exact hs.io f hf i hlt

/-- The other sectors of the tables stay. -/
lemma Tables.block_setFatEntry_of_not_spans (hs : s.Tables) {f i : ℕ} (hf : f < s.boot.numFats)
    (hi : i < s.boot.fatSize16) (hspans : ¬ Spans (s.fatOffset c) i) :
    (s.setFatEntry c v).disk.block (s.tableSector f i) = s.disk.block (s.tableSector f i) := by
  rw [hs.setFatEntry_eq hc]
  apply Device.block_foldl_write_of_notMem
  intro w hw hwx
  obtain ⟨g, hg, j, hj, rfl⟩ := mem_setWrites.1 hw
  rw [(hs.tableSector_inj hg hf (hs.lt_of_spans hc hj) hi hwx).2] at hj
  exact hspans hj

/-- Equal tables stay equal. -/
lemma Tables.identical_setFatEntry (hs : s.Tables) (h : s.Identical) :
    (s.setFatEntry c v).Identical := by
  have hsib : Sibling s (s.setFatEntry c v) := hs.sibling_setFatEntry hc
  unfold Identical
  rw [hsib.boot]
  intro f hf i hi
  rw [hsib.tableSector, hsib.tableSector]
  by_cases hspans : Spans (s.fatOffset c) i
  · rw [hs.block_setFatEntry hc hf hspans, hs.block_setFatEntry hc hs.fats_pos hspans]
  · rw [hs.block_setFatEntry_of_not_spans hc hf hi hspans,
      hs.block_setFatEntry_of_not_spans hc hs.fats_pos hi hspans, h f hf i hi]

omit hc in
/-- A byte of a sector of the entry. -/
lemma get_newSector {off raw a : ℕ} (h : Spans off (a / 512)) :
    (s.newSector off raw (a / 512)).get (a % 512) =
      if a = off then UInt8.ofNat raw
      else if a = off + 1 then UInt8.ofNat (raw / 256)
      else s.tableByte 0 a := by
  unfold newSector tableByte
  by_cases hfirst : a / 512 = off / 512
  · rw [if_pos hfirst]
    by_cases h₀ : a = off
    · rw [if_pos h₀, show a % 512 = off % 512 + 0 by omega]
      exact Block.get_put_add _ (by simp [wrLe16]) (by omega)
    by_cases h₁ : a = off + 1
    · rw [if_neg h₀, if_pos h₁, show a % 512 = off % 512 + 1 by omega]
      exact Block.get_put_add _ (by simp [wrLe16]) (by omega)
    rw [if_neg h₀, if_neg h₁]
    by_cases hlt : a % 512 < off % 512
    · exact Block.get_put_of_lt _ _ hlt
    · exact Block.get_put_of_le _ _ (show off % 512 + 2 ≤ a % 512 by omega)
  · have hsecond : off % 512 = 511 ∧ a / 512 = off / 512 + 1 := h.resolve_left hfirst
    rw [if_neg hfirst, if_neg (show a ≠ off by omega)]
    by_cases h₁ : a = off + 1
    · rw [if_pos h₁, show a % 512 = 0 + 0 by omega]
      exact Block.get_put_add _ (by simp) (by omega)
    · rw [if_neg h₁]
      exact Block.get_put_of_le _ _ (show 0 + 1 ≤ a % 512 by omega)

/-- **The bytes of every table after an entry is set.** In the sectors that are written they are
those of the first table, apart from the entry. -/
lemma Tables.tableByte_setFatEntry (hs : s.Tables) {f a : ℕ} (hf : f < s.boot.numFats)
    (ha : a < 512 * s.boot.fatSize16) :
    (s.setFatEntry c v).tableByte f a =
      if a = s.fatOffset c then UInt8.ofNat (s.newRaw c v)
      else if a = s.fatOffset c + 1 then UInt8.ofNat (s.newRaw c v / 256)
      else if Spans (s.fatOffset c) (a / 512) then s.tableByte 0 a
      else s.tableByte f a := by
  have hsib : Sibling s (s.setFatEntry c v) := hs.sibling_setFatEntry hc
  have hdef : (s.setFatEntry c v).tableByte f a =
      ((s.setFatEntry c v).disk.block (s.tableSector f (a / 512))).get (a % 512) := by
    rw [tableByte, hsib.tableSector]
  rw [hdef]
  by_cases hspans : Spans (s.fatOffset c) (a / 512)
  · rw [hs.block_setFatEntry hc hf hspans, get_newSector hspans, if_pos hspans]
  · have hout : a ≠ s.fatOffset c ∧ a ≠ s.fatOffset c + 1 := by
      unfold Spans at hspans
      omega
    rw [hs.block_setFatEntry_of_not_spans hc hf (by omega) hspans, if_neg hout.1, if_neg hout.2,
      if_neg hspans]
    rfl

/-- The bytes of the first table. -/
lemma Tables.tableByte_zero_setFatEntry (hs : s.Tables) {a : ℕ} (ha : a < 512 * s.boot.fatSize16) :
    (s.setFatEntry c v).tableByte 0 a =
      if a = s.fatOffset c then UInt8.ofNat (s.newRaw c v)
      else if a = s.fatOffset c + 1 then UInt8.ofNat (s.newRaw c v / 256)
      else s.tableByte 0 a := by
  rw [hs.tableByte_setFatEntry hc hs.fats_pos ha, ite_self]

/-! ## The laws of the table -/

/-- The largest value of an entry. -/
def maxEntry (s : Fs) : ℕ := if s.fatType = .fat12 then 4095 else 65535

omit hc in
lemma newRaw_lt (s : Fs) (c v : ℕ) : s.newRaw c v < 65536 := by
  have h := rdLe16_lt (s.tableByte 0 (s.fatOffset c)) (s.tableByte 0 (s.fatOffset c + 1))
  unfold newRaw encodeEntry
  split_ifs <;> omega

omit hc in
/-- An entry is read back, cut to its width. -/
lemma decodeEntry_encodeEntry (s : Fs) (c raw v : ℕ) :
    s.decodeEntry c (s.encodeEntry c raw v) = v % (s.maxEntry + 1) := by
  unfold decodeEntry encodeEntry maxEntry
  split_ifs <;> omega

omit hc in
/-- The odd entry keeps the upper half of the middle byte. -/
lemma decodeEntry_odd (h12 : s.fatType = .fat12) (hc : c % 2 = 0) (hc' : c' % 2 = 1)
    (lo hi b : UInt8) :
    s.decodeEntry c' (rdLe16 (UInt8.ofNat (s.encodeEntry c (rdLe16 lo hi) v / 256)) b) =
      s.decodeEntry c' (rdLe16 hi b) := by
  have h₁ := lo.toNat_lt
  have h₂ := hi.toNat_lt
  unfold decodeEntry encodeEntry rdLe16
  rw [if_pos h12, if_pos h12, if_pos h12, if_pos hc', if_pos hc', if_neg (by omega),
    UInt8.toNat_ofNat']
  omega

omit hc in
/-- The even entry keeps the lower half of the middle byte. -/
lemma decodeEntry_even (h12 : s.fatType = .fat12) (hc : c % 2 = 1) (hc' : c' % 2 = 0)
    (lo hi b : UInt8) :
    s.decodeEntry c' (rdLe16 b (UInt8.ofNat (s.encodeEntry c (rdLe16 lo hi) v))) =
      s.decodeEntry c' (rdLe16 b lo) := by
  have h₁ := lo.toNat_lt
  have h₂ := b.toNat_lt
  unfold decodeEntry encodeEntry rdLe16
  rw [if_pos h12, if_pos h12, if_pos h12, if_neg (show ¬ c' % 2 = 1 by omega), if_pos hc,
    if_neg (show ¬ c' % 2 = 1 by omega), UInt8.toNat_ofNat']
  omega

/-- **The entries after one of them is set.**

**Proof sketch.** The bytes of two FAT16 entries are disjoint. Those of two FAT12 entries are, too,
unless they are the even and the odd entry of one group of three bytes, which share the middle
byte; each keeps the other's half of it. -/
lemma Tables.getFatEntry_setFatEntry (hs : s.Tables) (hc' : s.IsCluster c') :
    (s.setFatEntry c v).getFatEntry c' =
      if c' = c then v % (s.maxEntry + 1) else s.getFatEntry c' := by
  have hsib : Sibling s (s.setFatEntry c v) := hs.sibling_setFatEntry hc
  have hroom := hs.room c' hc'.2
  have hraw := s.newRaw_lt c v
  rw [(hsib.tables hs).getFatEntry_eq (hsib.isCluster.2 hc'), hs.getFatEntry_eq hc',
    hsib.decodeEntry, hsib.fatOffset, hs.tableByte_zero_setFatEntry hc (by omega),
    hs.tableByte_zero_setFatEntry hc (by omega)]
  by_cases heq : c' = c
  · subst heq
    rw [if_pos rfl, if_pos rfl, if_neg (by omega), if_pos rfl, rdLe16_ofNat hraw]
    exact s.decodeEntry_encodeEntry c' _ v
  rw [if_neg heq]
  have hlt := hs.clusters_lt
  have hoff := fatOffset_eq (s := s) (c := c) (by have := hc.2; omega)
  have hoff' := fatOffset_eq (s := s) (c := c') (by have := hc'.2; omega)
  by_cases h12 : s.fatType = .fat12
  · rw [if_pos h12] at hoff hoff'
    by_cases hup : c % 2 = 0 ∧ c' = c + 1
    · have hnext : s.fatOffset c' = s.fatOffset c + 1 := by omega
      rw [hnext, if_neg (by omega), if_pos rfl, if_neg (by omega), if_neg (by omega)]
      exact decodeEntry_odd h12 hup.1 (by omega) _ _ _
    by_cases hdown : c % 2 = 1 ∧ c = c' + 1
    · have hnext : s.fatOffset c = s.fatOffset c' + 1 := by omega
      rw [hnext, if_neg (by omega), if_neg (by omega), if_pos rfl]
      unfold newRaw
      rw [hnext]
      exact decodeEntry_even h12 hdown.1 (by omega) _ _ _
    rw [if_neg (by omega), if_neg (by omega), if_neg (by omega), if_neg (by omega)]
  · rw [if_neg h12] at hoff hoff'
    rw [if_neg (by omega), if_neg (by omega), if_neg (by omega), if_neg (by omega)]

/-- The bytes in front of the first cluster's entry, in every table: they are those of the first
table if the sector is written. -/
lemma Tables.tableByte_setFatEntry_of_lt (hs : s.Tables) {f a : ℕ} (hf : f < s.boot.numFats)
    (ha : a < s.fatOffset 2) :
    (s.setFatEntry c v).tableByte f a =
      if s.fatOffset c < 512 then s.tableByte 0 a else s.tableByte f a := by
  have hlt := hs.clusters_lt
  have hle : s.fatOffset 2 ≤ s.fatOffset c := by
    have := hc.2
    exact fatOffset_le hc.1 (by omega)
  have hsmall : s.fatOffset 2 ≤ 4 := by
    rw [fatOffset_eq (by decide)]
    split_ifs <;> omega
  have hroom := hs.room c hc.2
  have hspans : Spans (s.fatOffset c) (a / 512) ↔ s.fatOffset c < 512 := by
    unfold Spans
    omega
  rw [hs.tableByte_setFatEntry hc hf (by omega), if_neg (by omega), if_neg (by omega)]
  simp only [hspans]

end Fs

/-- **The laws of the table.** After an entry is set it is read back, cut to the width of an entry,
and the others are as before. The bytes of the entries 0 and 1, which belong to no cluster, stay in
a table if and only if it agrees there with the first one or the sector that holds them is not
written; so they stay in the first table. Sectors outside the tables stay, and equal tables stay
equal. -/
theorem fat_entry_laws {s : Fs} (hs : s.Tables) {c c' : ℕ} (hc : s.IsCluster c)
    (hc' : s.IsCluster c') (hne : c' ≠ c) (v : ℕ) :
    (s.setFatEntry c v).getFatEntry c = v % (s.maxEntry + 1) ∧
    (s.setFatEntry c v).getFatEntry c' = s.getFatEntry c' ∧
    (∀ a < s.fatOffset 2, (s.setFatEntry c v).tableByte 0 a = s.tableByte 0 a) ∧
    (∀ f < s.boot.numFats, ∀ a < s.fatOffset 2,
      ((s.setFatEntry c v).tableByte f a = s.tableByte f a ↔
        512 ≤ s.fatOffset c ∨ s.tableByte f a = s.tableByte 0 a)) ∧
    (∀ x, (∀ f < s.boot.numFats, ∀ i < s.boot.fatSize16, s.tableSector f i ≠ x) →
      (s.setFatEntry c v).disk.block x = s.disk.block x) ∧
    (s.Identical → (s.setFatEntry c v).Identical) := by
  refine ⟨?_, ?_, fun a ha => ?_, fun f hf a ha => ?_, fun x hx => ?_, fun h => ?_⟩
  · rw [hs.getFatEntry_setFatEntry hc hc, if_pos rfl]
  · rw [hs.getFatEntry_setFatEntry hc hc', if_neg hne]
  · rw [hs.tableByte_setFatEntry_of_lt hc hs.fats_pos ha, ite_self]
  · rw [hs.tableByte_setFatEntry_of_lt hc hf ha]
    by_cases hlow : s.fatOffset c < 512
    · rw [if_pos hlow]
      constructor
      · exact fun h => .inr h.symm
      · exact fun h => (h.resolve_left (by omega)).symm
    · rw [if_neg hlow]
      exact iff_of_true rfl (.inl (by omega))
  · exact hs.block_setFatEntry_of_outside hc hx
  · exact hs.identical_setFatEntry hc h

/-- A driver with a blank device of `n` sectors. -/
def blankFs (n : ℕ) : Fs where
  disk := ⟨n, fun _ => .zero 512⟩
  boot := Boot.ofSector (.zero 512)
  volLbaOffset := 0
  fatStartSector := 0
  rootStartSector := 0
  rootSectors := 0
  dataStartSector := 0
  totalClusters := 0
  fatType := .unset
  mounted := false

/-- A mounted volume of 64 sectors with two tables; if the second one was never written it differs
from the first one. -/
def twoTables (written : Bool) : Bool × Fs :=
  let g : Geometry := ⟨64, 1, 112, 7, 1, true⟩
  let disk := ((blankFs 64).disk.write 0 (bootSector g [])).write 1 (firstFatSector g)
  ({ blankFs 64 with
    disk := if written then disk.write 2 (firstFatSector g) else disk } : Fs).mountAtLba 0

lemma tables_twoTables (written : Bool) : (twoTables written).2.Tables := by
  have hmounted : ∀ b, (twoTables b).1 = true := by decide +kernel
  have hmount : twoTables written = (true, (twoTables written).2) :=
    Prod.ext (hmounted written) rfl
  have hroom : ∀ b, (twoTables b).2.fatOffset ((twoTables b).2.totalClusters + 1) + 1 <
      512 * (twoTables b).2.boot.fatSize16 := by decide +kernel
  have hio : ∀ b, ∀ f < (twoTables b).2.boot.numFats, ∀ i < (twoTables b).2.boot.fatSize16,
      (twoTables b).2.tableSector f i < (twoTables b).2.disk.size := by decide +kernel
  exact (Fs.placed_of_mountAtLba hmount).tables (hroom written) (hio written)

lemma isCluster_twoTables (written : Bool) {c : ℕ} (h : 2 ≤ c) (hc : c < 56) :
    (twoTables written).2.IsCluster c := by
  have hclusters : ∀ b, (twoTables b).2.totalClusters = 54 := by decide +kernel
  have := hclusters written
  exact ⟨h, by omega⟩

/-- The two tables of the example are equal at first. -/
lemma identical_twoTables : (twoTables true).2.Identical := by
  have hfats : (twoTables true).2.boot.numFats = 2 := by decide +kernel
  have hsize : (twoTables true).2.boot.fatSize16 = 1 := by decide +kernel
  have hfirst : (twoTables true).2.tableSector 0 0 = 1 := by decide +kernel
  have hsecond : (twoTables true).2.tableSector 1 0 = 2 := by decide +kernel
  intro f hf i hi
  obtain rfl : i = 0 := by omega
  obtain rfl | rfl : f = 0 ∨ f = 1 := by omega
  · rfl
  · rw [hfirst, hsecond]
    rfl

/-- The first byte of a second table that was never written changes when the entry of cluster 2 is
set. -/
theorem mirror_overwritten : (twoTables false).1 = true ∧ (twoTables false).2.Tables ∧
    (twoTables false).2.IsCluster 2 ∧ 1 < (twoTables false).2.boot.numFats ∧
    (twoTables false).2.tableByte 1 0 = 0 ∧
    ((twoTables false).2.setFatEntry 2 5).tableByte 1 0 = 0xF8 := by
  refine ⟨by decide +kernel, tables_twoTables false,
    isCluster_twoTables false (by decide) (by decide), by decide +kernel, by decide +kernel,
    by decide +kernel⟩

/-- An entry of the volume with equal tables is set. -/
theorem fat_entry_laws_twoTables :
    ((twoTables true).2.setFatEntry 2 0x12345).getFatEntry 2 = 0x345 ∧
    ((twoTables true).2.setFatEntry 2 0x12345).getFatEntry 3 = (twoTables true).2.getFatEntry 3 ∧
    ((twoTables true).2.setFatEntry 2 0x12345).tableByte 1 0 = (twoTables true).2.tableByte 1 0 ∧
    ((twoTables true).2.setFatEntry 2 0x12345).disk.block 0 = (twoTables true).2.disk.block 0 ∧
    ((twoTables true).2.setFatEntry 2 0x12345).Identical := by
  obtain ⟨hset, hother, -, hbytes, houtside, hsame⟩ := fat_entry_laws (tables_twoTables true)
    (isCluster_twoTables true (c := 2) (by decide) (by decide))
    (isCluster_twoTables true (c := 3) (by decide) (by decide)) (by decide) 0x12345
  have hmask : 0x12345 % ((twoTables true).2.maxEntry + 1) = 0x345 := by decide +kernel
  refine ⟨hset.trans hmask, hother, ?_, houtside 0 (by decide +kernel), hsame identical_twoTables⟩
  exact (hbytes 1 (by decide +kernel) 0 (by decide +kernel)).2 (.inr (by decide +kernel))

end BengalTiger.Fat
