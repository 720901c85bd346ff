import BengalTiger.Fat.Atomic

set_option autoImplicit false

/-!
# Room for a file

When `fat_write_file` succeeds, and when it changes no file. The volumes that `fat_format` makes
have room beside their default files.

## Main definitions

* `Fat.Fs.HasRoom` — there are clusters and a slot for a file.
* `Fat.Fs.SameFiles` — two volumes have the same files.

## Main results

* `Fat.Fs.Holds.fatWriteFile_of_room` — a file with room is written.
* `Fat.Fs.Holds.sameFiles_write_iff` — when a write changes no file.
-/

namespace BengalTiger.Fat

open BlockDevice LinkTable Option

namespace Fs

/-- The clusters that so many bytes take. -/
def clustersFor (s : Fs) (n : ℕ) : ℕ :=
  (n + s.fatGetFsInfo.bytesPerCluster - 1) / s.fatGetFsInfo.bytesPerCluster

/-- **There is room for a file**: the free clusters and those of the old file are enough, and a slot
of the directory is free if there is no old file. -/
def HasRoom (s : Fs) (name data : List UInt8) : Prop :=
  (filenameToFat name).isSome = true →
    (s.findDirentVal name).elim
      (s.freeSlot.isSome = true ∧ s.clustersFor data.length ≤ s.fatGetFsInfo.freeClusters)
      fun x => s.clustersFor data.length ≤
        s.fatGetFsInfo.freeClusters + s.clustersFor x.ent.size

variable {s t : Fs} {sh : Shape} {v : Vol} {chain : ℕ → List ℕ} {name data : List UInt8}

lemma Holds.clustersFor_eq (h : s.Holds sh v) (n : ℕ) : s.clustersFor n = sh.need n := by
  rw [clustersFor, (fatGetFsInfo_of_mounted h.geom.mounted).1, h.bytes, Shape.need]

/-- A file is written when there is room for it. -/
lemma Holds.fatWriteFile_of_room (h : s.Holds sh v) (hinv : v.Inv sh chain) {fatName : List UInt8}
    (hn : filenameToFat name = some fatName) (hroom : s.HasRoom name data) :
    (s.fatWriteFile name data).1 = true := by
  have hroom := hroom (by rw [hn]; rfl)
  rw [h.findDirentVal_eq hinv.sane, hn, bind_some, h.freeClusters_eq, h.clustersFor_eq] at hroom
  have hfits : ∃ k, v.target sh fatName = some k ∧ v.Fits sh k data := by
    cases hl : v.lookup sh fatName with
    | none =>
      rw [hl, map_none, elim_none, h.freeSlot_eq, isSome_map] at hroom
      obtain ⟨hslot, hle⟩ := hroom
      obtain ⟨k, hk⟩ := isSome_iff_exists.1 hslot
      exact ⟨k, by rw [Vol.target, hl, hk]; rfl, hle.trans (v.length_freeList_vacate sh k)⟩
    | some k =>
      obtain ⟨hk, hlive, -⟩ := hinv.lookup_eq_some.1 hl
      rw [hl, map_some, elim_some, h.clustersFor_eq] at hroom
      refine ⟨k, by rw [Vol.target, hl]; rfl, hroom.trans ?_⟩
      rw [(hinv.freeList_vacate_perm hk).length_eq, List.length_append, hinv.length k hk hlive,
        ← h.dir k hk]
      exact le_rfl
  obtain ⟨k, ht, hfit⟩ := hfits
  rw [(h.fatWriteFile hinv hn ht data).1]
  exact decide_eq_true hfit

/-- A file that exists can be replaced when its clusters and the free ones are enough. -/
lemma Holds.hasRoom_of_file (h : s.Holds sh v) (hinv : v.Inv sh chain) {fatName bytes : List UInt8}
    (hn : filenameToFat name = some fatName) (hfile : v.file sh fatName = some bytes)
    (hle : sh.need data.length ≤ (v.freeList sh).length + sh.need bytes.length) :
    s.HasRoom name data := by
  intro _
  obtain ⟨k, hl, rfl⟩ := map_eq_some_iff.1 hfile
  obtain ⟨hk, hlive, -⟩ := hinv.lookup_eq_some.1 hl
  rw [h.length_contents hinv hk hlive, ← h.dir k hk] at hle
  rw [h.findDirentVal_eq hinv.sane, hn, bind_some, hl, map_some, elim_some,
    h.freeClusters_eq, h.clustersFor_eq, h.clustersFor_eq]
  exact hle

/-- The files of a volume can be read as before, and there are no others. -/
def SameFiles (s t : Fs) : Prop :=
  ∀ name maxLen, t.fatReadFile name maxLen = s.fatReadFile name maxLen

/-- What is read determines the map at every name. -/
lemma Reads.eq {m m' : List UInt8 → Option (List UInt8)} (h : s.Reads m) (h' : t.Reads m')
    {fatName : List UInt8} (hn : filenameToFat name = some fatName)
    (hsame : ∀ maxLen, t.fatReadFile name maxLen = s.fatReadFile name maxLen) :
    m' fatName = m fatName := by
  -- a buffer that is large enough for both
  have hread := hsame (((m fatName).getD []).length + ((m' fatName).getD []).length)
  rw [h, h', hn, bind_some, bind_some] at hread
  cases hm : m fatName with
  | none =>
    rw [hm, map_none, map_eq_none_iff] at hread
    exact hread
  | some bytes =>
    rw [hm, map_some, map_eq_some_iff] at hread
    obtain ⟨bytes', hm', heq⟩ := hread
    rw [hm', getD_some, getD_some, Prod.mk.injEq,
      List.take_of_length_le (by omega), List.take_of_length_le (by omega)] at heq
    rw [hm', heq.2]

/-- **A write changes no file** exactly when the file holds the data already. -/
lemma Holds.sameFiles_write_iff (h : s.Holds sh v) (hinv : v.Inv sh chain) {saved : List UInt8}
    (hplain : IsPlainName name) (hn : filenameToFat name = some saved)
    (hroom : s.HasRoom name data) :
    s.SameFiles (s.fatWriteFile name data).2 ↔ v.file sh saved = some data := by
  obtain ⟨f, w, chain', hf, hw, hwinv, hfile⟩ :=
    h.write_ok hinv hplain (h.fatWriteFile_of_room hinv hn hroom)
  rw [hn, some_inj] at hf
  subst hf
  have hv := h.reads hinv
  have ht := hw.reads hwinv
  constructor
  · intro hsame
    have heq := hv.eq ht hn (hsame name)
    rw [hfile, if_pos rfl] at heq
    exact heq.symm
  · intro hold other maxLen
    have heq : w.file sh = v.file sh := by
      funext n
      rw [hfile]
      split_ifs with hsame
      · rw [hsame, hold]
      · rfl
    rw [hv, ht, heq]

end Fs

/-! ## Small volumes -/

/-- A volume with its default files. -/
@[irreducible] def smallFs (n : ℕ) : Fs := ((blankFs n).fatFormat []).2

/-- A default file of a formatted volume, and the free clusters. -/
lemma file_smallFs {n : ℕ} (h64 : 64 ≤ n) (hn : n ≤ 4294967296) {name text fatName : List UInt8}
    (hmem : (name, text) ∈ seedFiles) (hname : filenameToFat name = some fatName) :
    ∃ sh v chain, (smallFs n).Holds sh v ∧ Vol.Inv sh v chain ∧ v.file sh fatName = some text ∧
      (formatGeometry n).clusters ≤ (v.freeList sh).length + 8 ∧
      sh.bytes = (formatGeometry n).spc * 512 := by
  obtain ⟨sh, v, chain, h, hinv, hfiles, hfree, -, hbytes⟩ :=
    Fs.fatFormat_holds (s := blankFs n) h64 hn []
  unfold smallFs
  exact ⟨sh, v, chain, h, hinv, hfiles _ hmem _ hname, hfree, hbytes⟩

end BengalTiger.Fat
