import BengalTiger.Fat.Run

set_option autoImplicit false

/-!
# Names that are given to files

`filename_to_fat` decides which names a file can get, and the scans of the root directory decide by
the first stored byte which slots are taken. The two do not agree: a name may begin with the byte
that marks a deleted entry. `fat_rename_file` compares the names as strings before it looks for the
file.

## Main definitions

* `Fat.Fs.RenameContract` — what renaming is for.

## Main results

* `Fat.accepted_name_reachable_iff` — which names can be found again.
* `Fat.rename_contract_iff` — when renaming keeps its contract.
-/

namespace BengalTiger.Fat

open BlockDevice Option

namespace Vol

variable {sh : Shape} {v : Vol} {chain : ℕ → List ℕ} {k : ℕ} {name : List UInt8}

lemma dir_renameSlot_self (v : Vol) (k : ℕ) (name : List UInt8) :
    (v.renameSlot k name).dir k = { v.dir k with name := name } := Function.update_self _ _ _

lemma dir_renameSlot_of_ne {j : ℕ} (h : j ≠ k) (v : Vol) (name : List UInt8) :
    (v.renameSlot k name).dir j = v.dir j := Function.update_of_ne h _ _

/-- A volume can be scanned and read after an entry gets any name that `filename_to_fat` makes. -/
lemma Inv.sane_renameSlot (h : v.Inv sh chain) (hk : k < sh.slots)
    (hlive : (v.dir k).isLive = true) (hname : IsName name) : (v.renameSlot k name).Sane sh := by
  have hsane := h.sane
  constructor
  case links => exact hsane.links
  case heads =>
    exact forall_live_update (P := fun _ x => sh.IsCluster x.cluster ∨ sh.Stops x.cluster)
      (fun j hj _ => hsane.heads j hj) fun _ _ => hsane.heads k hk hlive
  case plain =>
    exact forall_live_update (P := fun _ x => x.isPlain = true) (fun j hj _ => hsane.plain j hj)
      fun _ _ => hsane.plain k hk hlive
  case tail =>
    exact tail_update hsane.tail (first_ne_zero_of_isName hname) fun j hj =>
      h.first_ne_zero_of_lt hk hlive hj

/-- Nothing is found when no live entry has the name. -/
lemma lookup_of_forall (h : ∀ j < sh.slots, (v.dir j).isLive = true → (v.dir j).name ≠ name) :
    v.lookup sh name = none := by
  rw [lookup, List.find?_eq_none]
  intro j hj hfound
  rw [Bool.and_eq_true, beq_iff_eq] at hfound
  exact h j (List.mem_range.1 hj) hfound.1 hfound.2

end Vol

namespace Fs

variable {s : Fs} {sh : Shape} {v : Vol} {chain : ℕ → List ℕ} {name fatName : List UInt8}
  {oldName newName : List UInt8} {x : Slot}

/-- An entry that is found has the stored name, and it is not marked as deleted. -/
lemma name_of_findDirentVal (h : s.findDirentVal name = some x) :
    filenameToFat name = some x.ent.name ∧ x.ent.first ≠ 0xE5 := by
  rw [findDirentVal] at h
  split_ifs at h
  obtain ⟨fatName, hn, hfind⟩ := bind_eq_some_iff.1 h
  have hname : x.ent.name = fatName := by simpa using List.find?_some hfind
  have hmem := List.mem_of_find?_eq_some hfind
  rw [listed, List.mem_filter, Bool.and_eq_true, bne_iff_ne] at hmem
  exact ⟨by rw [hn, hname], hmem.2.1⟩

/-- A name that begins with the mark of a deleted entry is never found. -/
lemma findDirentVal_of_mark (hn : filenameToFat name = some fatName)
    (hmark : fatName.headD 0 = 0xE5) (t : Fs) : t.findDirentVal name = none := by
  cases hfind : t.findDirentVal name with
  | none => rfl
  | some y =>
    obtain ⟨hname, hfirst⟩ := name_of_findDirentVal hfind
    rw [hn, some_inj] at hname
    rw [Dirent.first, ← hname] at hfirst
    exact absurd hmark hfirst

/-- Names with one stored name are found alike. -/
lemma findDirentVal_congr {name' : List UInt8} (h : filenameToFat name = filenameToFat name') :
    s.findDirentVal name = s.findDirentVal name' := by
  rw [findDirentVal, findDirentVal, h]

/-- What is known of an entry that is found. -/
lemma Holds.slot_of_findDirentVal (h : s.Holds sh v) (hinv : v.Inv sh chain)
    (hx : s.findDirentVal name = some x) :
    ∃ k < sh.slots, x = s.slotAt k ∧ (v.dir k).isLive = true ∧
      filenameToFat name = some (v.dir k).name := by
  rw [h.findDirentVal_eq hinv.sane] at hx
  obtain ⟨fatName, hn, hx⟩ := bind_eq_some_iff.1 hx
  obtain ⟨k, hl, rfl⟩ := map_eq_some_iff.1 hx
  obtain ⟨hk, hlive, hname⟩ := hinv.lookup_eq_some.1 hl
  exact ⟨k, hk, rfl, hlive, by rw [hn, hname]⟩

/-! ## Renaming -/

/-- The sector of an entry that is found can be written. -/
lemma Holds.modify_rename (h : s.Holds sh v) (hinv : v.Inv sh chain) {new : List UInt8}
    (hnew : filenameToFat newName = some new) (hx : s.findDirentVal oldName = some x) :
    (s.modify x.sector fun b => b.put (32 * x.index) new).1 = true := by
  obtain ⟨k, hk, rfl, -, -⟩ := h.slot_of_findDirentVal hinv hx
  exact (h.renameEntry hk (length_of_filenameToFat hnew)).1

/-- The bytes of the other entries, of the tables and of the files stay. -/
lemma Holds.get_rename (h : s.Holds sh v) (hinv : v.Inv sh chain)
    (hx : s.findDirentVal oldName = some x) {new : List UInt8} (hlen : new.length = 11) {lba i : ℕ}
    (hout : lba ≠ x.sector ∨ i < 32 * x.index ∨ 32 * x.index + 11 ≤ i) :
    ((s.modify x.sector fun b => b.put (32 * x.index) new).2.disk.block lba).get i =
      (s.disk.block lba).get i := by
  obtain ⟨k, hk, rfl, -, -⟩ := h.slot_of_findDirentVal hinv hx
  have hlt : (s.slotAt k).sector < s.disk.size := (h.root_lt (h.slot_lt hk)).2
  rw [Fs.modify, read_of_lt h.geom hlt, elim_some]
  by_cases hlba : lba = (s.slotAt k).sector
  · rw [hlba, block_write_self h.geom hlt]
    obtain hne | hbefore | hafter := hout
    · exact absurd hlba hne
    · exact Block.get_put_of_lt _ _ hbefore
    · exact Block.get_put_of_le _ _ (by omega)
  · rw [block_write_of_ne h.geom hlt hlba]

/-- **The entry gets the name**: it is found under the new name, unless this begins with the mark of
a deleted entry, and not under the old one. -/
lemma Holds.findDirentVal_rename (h : s.Holds sh v) (hinv : v.Inv sh chain) {new : List UInt8}
    (hnew : filenameToFat newName = some new) (habsent : s.findDirentVal newName = none)
    (hx : s.findDirentVal oldName = some x) {t : Fs}
    (ht : t = (s.modify x.sector fun b => b.put (32 * x.index) new).2) :
    t.findDirentVal oldName = none ∧
      (new.headD 0 ≠ 0xE5 →
        t.findDirentVal newName = some ⟨x.sector, x.index, { x.ent with name := new }⟩) := by
  obtain ⟨k, hk, rfl, hlive, hold⟩ := h.slot_of_findDirentVal hinv hx
  obtain ⟨-, hsib, hholds⟩ := h.renameEntry hk (length_of_filenameToFat hnew)
  obtain rfl : t = (s.modify (s.slotAt k).sector fun b => b.put (32 * (k % 16)) new).2 := ht
  generalize (s.modify (s.slotAt k).sector fun b => b.put (32 * (k % 16)) new).2 = t at hsib hholds
  have hnone : v.lookup sh new = none := by
    rw [h.findDirentVal_eq hinv.sane, hnew, bind_some, map_eq_none_iff] at habsent
    exact habsent
  have hne : (v.dir k).name ≠ new := Vol.lookup_eq_none hnone hk hlive
  have hsane := hinv.sane_renameSlot hk hlive ⟨newName, hnew⟩
  constructor
  · rw [hholds.findDirentVal_eq hsane, hold, bind_some, map_eq_none_iff]
    apply Vol.lookup_of_forall
    intro j hj hlivej hname
    by_cases hjk : j = k
    · subst hjk
      rw [Vol.dir_renameSlot_self] at hname
      exact hne hname.symm
    · rw [Vol.dir_renameSlot_of_ne hjk] at hlivej hname
      exact hjk (hinv.names j hj k hk hlivej hlive hname)
  · intro hmark
    have hinv' := hinv.renameSlot hk hlive ⟨newName, hnew⟩ hmark
      fun j hj _ hlivej => Vol.lookup_eq_none hnone hj hlivej
    have hlook : (v.renameSlot k new).lookup sh new = some k := by
      rw [hinv'.lookup_eq_some, Vol.dir_renameSlot_self]
      exact ⟨hk, isLive_of_isName (e := { v.dir k with name := new }) ⟨newName, hnew⟩ hmark, rfl⟩
    rw [hholds.findDirentVal_eq hsane, hnew, bind_some, hlook, map_some, some_inj, slotAt, slotAt,
      hsib.rootStartSector, hholds.dir k hk, Vol.dir_renameSlot_self, h.dir k hk]

/-- **What renaming is for**: a call that returns 0 names an existing file; the new name, unless it
begins with the mark of a deleted entry, then stands for its entry, with the same attributes, size
and first cluster, and the old name for nothing, unless both are stored alike; no byte of the device
but the eleven bytes of the name is changed. A call that fails changes nothing. -/
structure RenameContract (s : Fs) (oldName newName : List UInt8) : Prop where
  named : (s.fatRenameFile oldName newName).1 = true → s.fatFileExists oldName = true
  resolves : (s.fatRenameFile oldName newName).1 = true → ∀ x, s.findDirentVal oldName = some x →
    IsPlainName newName → ∃ y, (s.fatRenameFile oldName newName).2.findDirentVal newName = some y ∧
      y.sector = x.sector ∧ y.index = x.index ∧ y.ent.attr = x.ent.attr ∧ y.ent.size = x.ent.size ∧
      y.ent.cluster = x.ent.cluster
  gone : (s.fatRenameFile oldName newName).1 = true →
    filenameToFat oldName ≠ filenameToFat newName →
      (s.fatRenameFile oldName newName).2.findDirentVal oldName = none
  others : (s.fatRenameFile oldName newName).1 = true → ∀ x, s.findDirentVal oldName = some x →
    ∀ lba i, lba ≠ x.sector ∨ i < 32 * x.index ∨ 32 * x.index + 11 ≤ i →
      ((s.fatRenameFile oldName newName).2.disk.block lba).get i = (s.disk.block lba).get i
  failed : (s.fatRenameFile oldName newName).1 = false → (s.fatRenameFile oldName newName).2 = s

end Fs

/-- **Renaming keeps its contract** exactly when the names differ by more than case or the file
exists: otherwise the call returns 0 without a file. -/
theorem rename_contract_iff {s : Fs} (hs : s.Consistent) (oldName newName : List UInt8) :
    s.RenameContract oldName newName ↔
      (strcasecmp oldName newName = 0 → s.fatFileExists oldName = true) := by
  obtain ⟨sh, v, chain, h, hinv⟩ := hs
  constructor
  · intro hcontract hsame
    apply hcontract.named
    rw [Fs.fatRenameFile, if_pos hsame]
  · intro hexists
    obtain ⟨hsame, hcall⟩ | ⟨-, hcall⟩ | ⟨new, x, -, hnew, habsent, hx, hcall⟩ :=
      s.fatRenameFile_cases oldName newName
    · -- the names are equal but for case, and so is what they are stored as
      have hfat := filenameToFat_congr hsame
      constructor <;> rw [hcall]
      · exact fun _ => hexists hsame
      · intro _ x hx _
        rw [← Fs.findDirentVal_congr hfat]
        exact ⟨x, hx, rfl, rfl, rfl, rfl, rfl⟩
      · exact fun _ hne => absurd hfat hne
      · exact fun _ _ _ _ _ _ => rfl
      · exact fun _ => rfl
    · have hno : ¬ (s.fatRenameFile oldName newName).1 = true := by
        rw [hcall]
        simp
      exact ⟨fun hok => absurd hok hno, fun hok => absurd hok hno, fun hok => absurd hok hno,
        fun hok => absurd hok hno, fun _ => by rw [hcall]⟩
    · obtain ⟨hgone, hfound⟩ := h.findDirentVal_rename hinv hnew habsent hx rfl
      constructor <;> rw [hcall]
      · intro _
        rw [Fs.fatFileExists, hx]
        rfl
      · intro _ y hy hplain
        rw [hx, some_inj] at hy
        subst hy
        exact ⟨_, hfound (hplain new hnew), rfl, rfl, rfl, rfl, rfl⟩
      · exact fun _ _ => hgone
      · intro _ y hy lba i hout
        rw [hx, some_inj] at hy
        subst hy
        exact h.get_rename hinv hx (Fs.length_of_filenameToFat hnew) hout
      · intro hfail
        rw [h.modify_rename hinv hnew hx] at hfail
        cases hfail

/-- A small volume with its default files. -/
def freshFs : Fs := ((blankFs 64).fatFormat []).2

lemma consistent_freshFs : freshFs.Consistent := consistent_of_reachable reachable_small

/-- A default file. -/
lemma exists_hello : ∃ x, freshFs.findDirentVal (ascii "HELLO.TXT".toList) = some x := by
  obtain ⟨sh, v, chain, h, hinv, hfiles, -⟩ :=
    Fs.fatFormat_holds (s := blankFs 64) (by decide) (by decide) []
  have hn : filenameToFat (ascii "HELLO.TXT".toList) = some (ascii "HELLO   TXT".toList) := by
    decide
  have hfile := hfiles _ List.mem_cons_self _ hn
  rw [Vol.file, map_eq_some_iff] at hfile
  obtain ⟨k, hl, -⟩ := hfile
  refine ⟨freshFs.slotAt k, ?_⟩
  rw [freshFs, h.findDirentVal_eq hinv.sane, hn, bind_some, hl, map_some]

/-- The default file keeps its name. -/
theorem rename_contract_iff_hello :
    freshFs.Consistent ∧
      freshFs.RenameContract (ascii "HELLO.TXT".toList) (ascii "hello.txt".toList) := by
  refine ⟨consistent_freshFs, (rename_contract_iff consistent_freshFs _ _).2 fun _ => ?_⟩
  obtain ⟨x, hx⟩ := exists_hello
  rw [Fs.fatFileExists, hx]
  rfl

/-- A file that was deleted is not found. -/
lemma Fs.Consistent.fatDeleteFile {s : Fs} (hs : s.Consistent) {name : List UInt8} {x : Slot}
    (hx : s.findDirentVal name = some x) :
    (s.fatDeleteFile name).2.Consistent ∧ (s.fatDeleteFile name).2.fatFileExists name = false := by
  obtain ⟨sh, v, chain, h, hinv⟩ := hs
  obtain ⟨k, hk, rfl, hlive, hn⟩ := h.slot_of_findDirentVal hinv hx
  have hok := (h.fatDeleteFile hinv hn (hinv.lookup_eq_some.2 ⟨hk, hlive, rfl⟩)).1
  obtain ⟨fatName, w, chain', hn', hw, hwinv, hfile⟩ := h.delete_ok hinv hok
  have hnone : w.lookup sh fatName = none := by
    have hdeleted := (hfile fatName).trans (if_pos rfl)
    rwa [Vol.file, map_eq_none_iff] at hdeleted
  refine ⟨⟨sh, w, chain', hw, hwinv⟩, ?_⟩
  rw [Fs.fatFileExists, hw.findDirentVal_eq hwinv.sane, hn', bind_some, hnone]
  rfl

/-- The volume after a default file was deleted. -/
def deletedFs : Fs := (freshFs.fatDeleteFile (ascii "HELLO.TXT".toList)).2

/-- The two names of the default file are stored alike. -/
lemma fatRenameFile_hello (s : Fs) :
    (s.fatRenameFile (ascii "HELLO.TXT".toList) (ascii "hello.txt".toList)).1 = true := by
  rw [Fs.fatRenameFile, if_pos (by decide)]

/-- **A file that does not exist is renamed**: `HELLO.TXT` after it was deleted, to `hello.txt`. -/
theorem rename_without_file :
    deletedFs.Consistent ∧ deletedFs.fatFileExists (ascii "HELLO.TXT".toList) = false ∧
      (deletedFs.fatRenameFile (ascii "HELLO.TXT".toList) (ascii "hello.txt".toList)).1 = true := by
  obtain ⟨x, hx⟩ := exists_hello
  obtain ⟨hcons, habsent⟩ := consistent_freshFs.fatDeleteFile hx
  exact ⟨hcons, habsent, fatRenameFile_hello deletedFs⟩

/-- **Which names can be found again.** On a consistent volume, after a file is written under an
accepted name, or an existing file gets it, the file is found under the name exactly when the first
stored byte is not the mark of a deleted entry. -/
theorem accepted_name_reachable_iff {s : Fs} (hs : s.Consistent) {name fatName : List UInt8}
    (hn : filenameToFat name = some fatName) :
    (∀ data, (s.fatWriteFile name data).1 = true →
      ((s.fatWriteFile name data).2.fatFileExists name = true ∧
          (∀ maxLen, (s.fatWriteFile name data).2.fatReadFile name maxLen =
            some (data.length, data.take maxLen)) ↔
        fatName.headD 0 ≠ 0xE5)) ∧
    ∀ oldName x, s.findDirentVal oldName = some x → (s.fatRenameFile oldName name).1 = true →
      ((s.fatRenameFile oldName name).2.findDirentVal name =
          some ⟨x.sector, x.index, { x.ent with name := fatName }⟩ ↔
        fatName.headD 0 ≠ 0xE5) := by
  obtain ⟨sh, v, chain, h, hinv⟩ := hs
  constructor
  · intro data hok
    constructor
    · rintro ⟨hexists, -⟩ hmark
      rw [Fs.fatFileExists, Fs.findDirentVal_of_mark hn hmark] at hexists
      cases hexists
    · intro hmark
      have hplain : IsPlainName name := fun f hf => by
        rw [hn, some_inj] at hf
        rwa [← hf]
      obtain ⟨fatName', w, chain', hn', hw, hwinv, hfile⟩ := h.write_ok hinv hplain hok
      rw [hn, some_inj] at hn'
      subst hn'
      have hdata : w.file sh fatName = some data := (hfile fatName).trans (if_pos rfl)
      constructor
      · rw [Vol.file, map_eq_some_iff] at hdata
        obtain ⟨k, hl, -⟩ := hdata
        rw [Fs.fatFileExists, hw.findDirentVal_eq hwinv.sane, hn, bind_some, hl]
        rfl
      · intro maxLen
        rw [hw.reads hwinv name maxLen, hn, bind_some, hdata]
        rfl
  · intro oldName x hx hok
    -- with names that differ in case only, the call changes nothing
    obtain ⟨hsame, hcall⟩ | ⟨-, hcall⟩ | ⟨new, y, -, hnew, habsent, hy, hcall⟩ :=
      s.fatRenameFile_cases oldName name
    · have hfat := filenameToFat_congr hsame
      obtain ⟨hname, hfirst⟩ := Fs.name_of_findDirentVal hx
      rw [hfat, hn, some_inj] at hname
      rw [hcall, ← Fs.findDirentVal_congr hfat, hx, hname]
      exact ⟨fun _ => hfirst, fun _ => rfl⟩
    · rw [hcall] at hok
      cases hok
    · rw [hn, some_inj] at hnew
      subst hnew
      rw [hx, some_inj] at hy
      subst hy
      rw [hcall]
      constructor
      · intro hfound hmark
        rw [Fs.findDirentVal_of_mark hn hmark] at hfound
        cases hfound
      · exact (h.findDirentVal_rename hinv hn habsent hx rfl).2

/-- The default file is found again. -/
theorem accepted_name_reachable_iff_hello :
    freshFs.Consistent ∧
      ∃ x, freshFs.findDirentVal (ascii "HELLO.TXT".toList) = some x ∧
        ((freshFs.fatRenameFile (ascii "HELLO.TXT".toList)
            (ascii "hello.txt".toList)).2.findDirentVal (ascii "hello.txt".toList) =
              some ⟨x.sector, x.index, { x.ent with name := ascii "HELLO   TXT".toList }⟩ ↔
          (ascii "HELLO   TXT".toList).headD 0 ≠ 0xE5) := by
  obtain ⟨x, hx⟩ := exists_hello
  have hn : filenameToFat (ascii "hello.txt".toList) = some (ascii "HELLO   TXT".toList) := by
    decide
  exact ⟨consistent_freshFs, x, hx,
    (accepted_name_reachable_iff consistent_freshFs hn).2 _ x hx (fatRenameFile_hello freshFs)⟩

/-- **A file is lost**: `HELLO.TXT` is renamed to the name of one byte 0xE5. -/
theorem accepted_name_unreachable :
    freshFs.Consistent ∧ (filenameToFat [0xE5]).isSome = true ∧
      (∃ x, freshFs.findDirentVal (ascii "HELLO.TXT".toList) = some x) ∧
      (freshFs.fatRenameFile (ascii "HELLO.TXT".toList) [0xE5]).1 = true ∧
      (freshFs.fatRenameFile (ascii "HELLO.TXT".toList) [0xE5]).2.findDirentVal [0xE5] = none := by
  obtain ⟨sh, v, chain, h, hinv⟩ := consistent_freshFs
  obtain ⟨x, hx⟩ := exists_hello
  have hn : filenameToFat [0xE5] = some (0xE5 :: List.replicate 10 blank) := by decide
  have hlost : ∀ t : Fs, t.findDirentVal [0xE5] = none := Fs.findDirentVal_of_mark hn rfl
  refine ⟨⟨sh, v, chain, h, hinv⟩, by decide, ⟨x, hx⟩, ?_, hlost _⟩
  have hfree : freshFs.fatFileExists [0xE5] = false := by
    rw [Fs.fatFileExists, hlost]
    rfl
  rw [Fs.fatRenameFile, if_neg (by decide), if_neg (by rw [hfree]; decide), hn, elim_some,
    hx, elim_some]
  exact h.modify_rename hinv hn hx

end BengalTiger.Fat
