import BengalTiger.Fat.Directory

set_option autoImplicit false

/-!
# The calls of the driver

What each call does on a device that holds a consistent volume: it returns what the volume, read as
a map from names to byte strings, has for the name, and it changes the volume as the operations on
volumes say. This includes the calls that fail.

## Main definitions

* `Fat.Vol.target` — the slot that a file is written to.

## Main results

* `Fat.Fs.Holds.fatReadFile_eq`, `Fat.Fs.Holds.fatWriteFile`,
  `Fat.Fs.Holds.fatWriteFile_of_full`, `Fat.Fs.Holds.fatAppendFile_cases`,
  `Fat.Fs.Holds.fatCopyFile_cases`, `Fat.Fs.Holds.fatDeleteFile`,
  `Fat.Fs.Holds.renameEntry`, `Fat.Fs.Holds.fatRenameFile_cases`.
-/

namespace BengalTiger.Fat

open BlockDevice LinkTable List Option

namespace Vol

variable {sh : Shape} {v : Vol} {chain : ℕ → List ℕ} {k : ℕ} {name data : List UInt8}

instance (sh : Shape) (v : Vol) (k : ℕ) (data : List UInt8) : Decidable (v.Fits sh k data) :=
  inferInstanceAs (Decidable (_ ≤ _))

variable (sh v) in
/-- The slot that a file is written to: its own, or the first free one. -/
def target (name : List UInt8) : Option ℕ := (v.lookup sh name).or (v.freeSlot sh)

lemma free_nil (v : Vol) : v.free [] = v := by
  have : clear 0 [] v.fat = v.fat := by
    funext c
    exact clear_of_notMem not_mem_nil _
  rw [free, this]

/-- A slot that is not live has no chain. -/
lemma vacate_of_dead (h : (v.dir k).isLive = false) : v.vacate sh k = v := by
  rw [vacate, chainOf, if_neg (by rw [h]; simp), free_nil]

lemma lookup_eq_none (h : v.lookup sh name = none) (hk : k < sh.slots)
    (hlive : (v.dir k).isLive = true) : (v.dir k).name ≠ name := by
  intro hname
  have := find?_eq_none.1 h k (mem_range.2 hk)
  simp [hlive, hname] at this

/-- The first slot that is not live. -/
lemma freeSlot_spec (h : v.freeSlot sh = some k) :
    k < sh.slots ∧ (v.dir k).isLive = false ∧ ∀ j < k, (v.dir j).isLive = true := by
  rw [freeSlot, find?_range_eq_some] at h
  obtain ⟨hdead, hk, hprev⟩ := h
  refine ⟨mem_range.1 hk, by simpa using hdead, fun j hj => by simpa using hprev j hj⟩

/-- What is known of the slot that a file is written to. -/
lemma Inv.target_spec (h : v.Inv sh chain) (ht : v.target sh name = some k) :
    k < sh.slots ∧ (∀ j < k, (v.dir j).first ≠ 0) ∧
      (∀ j < sh.slots, j ≠ k → (v.dir j).isLive = true → (v.dir j).name ≠ name) ∧
      ((v.dir k).isLive = true → (v.dir k).name = name) := by
  unfold target at ht
  cases hl : v.lookup sh name with
  | some j =>
    rw [hl, some_or, some_inj] at ht
    subst ht
    obtain ⟨hj, hlive, hname⟩ := h.lookup_eq_some.1 hl
    refine ⟨hj, fun i hi => h.first_ne_zero_of_lt hj hlive hi, ?_, fun _ => hname⟩
    intro i hi hij hlivei hnamei
    exact hij (h.names i hi j hj hlivei hlive (hnamei.trans hname.symm))
  | none =>
    rw [hl, none_or] at ht
    obtain ⟨hk, hdead, hprev⟩ := freeSlot_spec ht
    refine ⟨hk, fun i hi => first_ne_zero_of_isLive (hprev i hi), ?_, ?_⟩
    · intro i hi _ hlivei
      exact lookup_eq_none hl hi hlivei
    · intro hlive
      rw [hdead] at hlive
      cases hlive

/-- Data that fits has a length of 32 bits, on a volume whose clusters are not too large. -/
lemma Fits.length_lt (h : v.Fits sh k data) (hclusters : sh.clusters < 65525)
    (hbytes : sh.bytes ≤ 65536) : data.length < 4294967296 := by
  have h₁ := sh.le_need_mul data.length
  have h₂ := length_freeList_le sh (v.vacate sh k)
  have h₃ : sh.need data.length ≤ 65524 := by
    unfold Fits at h
    omega
  have h₄ := Nat.mul_le_mul h₃ hbytes
  omega

end Vol

namespace Fs

variable {s t : Fs} {sh : Shape} {v : Vol} {chain : ℕ → List ℕ} {k : ℕ}
  {name fatName data : List UInt8} {heap : Option (ℕ → UInt8)}

/-! ## Reading -/

variable (h : s.Holds sh v)

include h

/-- The clusters of a volume on a device are full. -/
lemma Holds.length_data {c : ℕ} (hc : sh.IsCluster c) : (v.data c).length = sh.bytes := by
  rw [← h.data c hc, clusterBytes, length_flatMap, ← h.bytes]
  simp only [Block.length_toList, map_const', length_range, sum_replicate_nat]

lemma Holds.bytes_le : sh.bytes ≤ 65536 := by
  have := h.geom.spc_le
  have := h.bytes
  omega

lemma Holds.clusters_lt : sh.clusters < 65525 := by
  rw [← h.clusters]
  exact h.geom.clusters_lt

/-- A file has as many bytes as its entry says. -/
lemma Holds.length_contents (hinv : v.Inv sh chain) (hk : k < sh.slots)
    (hlive : (v.dir k).isLive = true) : (v.contents sh k).length = (v.dir k).size := by
  have hlen : ((chain k).flatMap v.data).length = (chain k).length * sh.bytes := by
    have hmap : (chain k).map (fun c => (v.data c).length) = (chain k).map fun _ => sh.bytes :=
      map_congr_left fun c hc => h.length_data (hinv.isCluster k c hc)
    rw [length_flatMap, hmap, map_const', sum_replicate_nat]
  have hle := sh.le_need_mul (v.dir k).size
  rw [hinv.contents_eq hk, length_take, hlen, hinv.length k hk hlive, Nat.min_eq_left hle]

/-- **An entry is read.** -/
lemma Holds.readEntry (hsane : v.Sane sh) (hk : k < sh.slots) (hlive : (v.dir k).isLive = true)
    (maxLen : ℕ) : s.readEntry (s.slotAt k).ent maxLen = some ((v.contents sh k).take maxLen) := by
  have hent : (s.slotAt k).ent = v.dir k := h.dir k hk
  rw [Fs.readEntry, hent]
  by_cases hzero : maxLen = 0 ∨ (v.dir k).size = 0
  · rw [if_pos hzero]
    obtain h0 | h0 := hzero
    · rw [h0, take_zero]
    · rw [Vol.contents, h0, take_zero, take_nil]
  · rw [if_neg hzero, h.readChain _ _ hsane (hsane.heads k hk hlive), Vol.contents, Vol.chainOf,
      if_pos hlive, h.clusters, take_take, Nat.min_comm]

/-- **Reading a file** returns what its entry says. -/
lemma Holds.fatReadFile_of_sane (hsane : v.Sane sh) (name : List UInt8) (maxLen : ℕ) :
    s.fatReadFile name maxLen = (filenameToFat name).bind fun fatName =>
      (v.lookup sh fatName).map fun k => ((v.dir k).size, (v.contents sh k).take maxLen) := by
  rw [fatReadFile, h.findDirentVal_eq hsane]
  cases filenameToFat name with
  | none => rfl
  | some fatName =>
    rw [bind_some, bind_some]
    cases hl : v.lookup sh fatName with
    | none => rfl
    | some k =>
      obtain ⟨hk, hlive, -⟩ := Vol.lookup_spec hl
      have hent : (s.slotAt k).ent = v.dir k := h.dir k hk
      rw [map_some, map_some, bind_some, h.readEntry hsane hk hlive, map_some, hent]

/-- **Reading a file** of a consistent volume returns the beginning of its bytes and their
number. -/
lemma Holds.fatReadFile_eq (hinv : v.Inv sh chain) (maxLen : ℕ) :
    s.fatReadFile name maxLen = (filenameToFat name).bind fun fatName =>
      (v.file sh fatName).map fun bytes => (bytes.length, bytes.take maxLen) := by
  rw [h.fatReadFile_of_sane hinv.sane]
  congr 1
  funext fatName
  rw [Vol.file]
  cases hl : v.lookup sh fatName with
  | none => rfl
  | some k =>
    obtain ⟨hk, hlive, -⟩ := hinv.lookup_eq_some.1 hl
    rw [map_some, map_some, map_some, h.length_contents hinv hk hlive]

/-! ## Writing -/

/-- The chain of a live entry is freed. -/
lemma Holds.freeEntry (hinv : v.Inv sh chain) (hk : k < sh.slots)
    (hlive : (v.dir k).isLive = true) :
    After s (s.freeEntry (s.slotAt k)) sh (v.vacate sh k) := by
  have hent : (s.slotAt k).ent = v.dir k := h.dir k hk
  have hcluster := hinv.cluster k hk hlive
  have hin := hinv.isCluster k
  have hnodup := hinv.nodup k
  have hlinked := hinv.linked k
  rw [Fs.freeEntry, hent, hinv.vacate_eq hk, hcluster]
  cases hchain : chain k with
  | nil =>
    rw [headD_nil, if_neg (by omega), Vol.free_nil]
    exact h.after
  | cons c cs =>
    rw [hchain] at hin hnodup hlinked
    rw [headD_cons, if_pos (hin c mem_cons_self).1]
    exact h.freeClusterChain hlinked hnodup hin

omit h in
/-- The length of a stored name. -/
lemma length_of_filenameToFat (h : filenameToFat name = some fatName) : fatName.length = 11 := by
  obtain ⟨base, ext, hstored⟩ := isStored_of_filenameToFat h
  exact hstored.length

/-- The first cluster of stored data has a number of 32 bits. -/
lemma Holds.headD_place_lt (w : Vol) (data : List UInt8) :
    (w.place sh data).headD 0 < 4294967296 := by
  cases hplace : w.place sh data with
  | nil => simp
  | cons c cs =>
    have hc := (Vol.mem_freeList_of_mem_place (hplace ▸ mem_cons_self)).1.2
    have := h.clusters_lt
    rw [headD_cons]
    omega

omit h in
/-- The data is stored once the old chain is freed, and the entry follows if it was stored. -/
lemma fatWriteFile_eq (hmounted : s.mounted = true) (hn : filenameToFat name = some fatName) :
    s.fatWriteFile name data =
      (((s.findDirentVal name).elim s s.freeEntry).storeData data).1.elim
        (false, (((s.findDirentVal name).elim s s.freeEntry).storeData data).2)
        fun first => (((s.findDirentVal name).elim s s.freeEntry).storeData data).2.writeEntry
          (s.findDirentVal name) fatName first data.length := by
  rw [Fs.fatWriteFile, if_neg (by rw [hmounted]; simp), hn]
  rfl

omit h in
/-- The entry of an existing file is changed. -/
lemma Holds.writeEntry_of_found {w : Vol} (h : t.Holds sh w) (hst : Sibling s t)
    (hk : k < sh.slots) (hname : (w.dir k).name = fatName) {first size : ℕ}
    (hfirst : first < 4294967296) (hsize : size < 4294967296) :
    (t.writeEntry (some (s.slotAt k)) fatName first size).1 = true ∧
      After t (t.writeEntry (some (s.slotAt k)) fatName first size).2 sh
        (w.setEntry k ⟨fatName, attrArchive, first, size⟩) := by
  have hmod := h.modify (f := fun b => updateDirent b (k % 16) first size)
    (e := ⟨fatName, attrArchive, first, size⟩) hk (fun b => keeps_updateDirent b _ _) (by
      intro b hb
      rw [dirent_updateDirent b (Nat.mod_lt k (by omega)) hfirst, Nat.mod_eq_of_lt hsize, hb,
        hname])
  rw [hst.slotAt_sector] at hmod
  exact hmod

omit h in
/-- The entry of a new file is made. -/
lemma Holds.writeEntry_of_new {w : Vol} (h : t.Holds sh w) (hfree : w.freeSlot sh = some k)
    (hname : fatName.length = 11) {first size : ℕ}
    (hfirst : first < 4294967296) (hsize : size < 4294967296) :
    (t.writeEntry none fatName first size).1 = true ∧
      After t (t.writeEntry none fatName first size).2 sh
        (w.setEntry k ⟨fatName, attrArchive, first, size⟩) := by
  have hmod := h.modify (f := fun b => createDirent b (k % 16) fatName first size)
    (e := ⟨fatName, attrArchive, first, size⟩) (Vol.freeSlot_spec hfree).1
    (fun b => keeps_createDirent b hname _ _) (by
      intro b _
      rw [dirent_createDirent b (Nat.mod_lt k (by omega)) hname hfirst, Nat.mod_eq_of_lt hsize])
  rw [writeEntry, elim_none, h.freeSlot_eq, hfree, map_some, elim_some]
  exact hmod

/-- **Writing a file**, to its slot or a free one: it succeeds when there are clusters enough; the
clusters that were taken stay in use when there are not.

**Proof sketch.** The chain of the slot is freed, or there is none. The data is stored, and if it
was, its first cluster and length have 32 bits and the entry holds them. -/
lemma Holds.fatWriteFile (hinv : v.Inv sh chain) (hn : filenameToFat name = some fatName)
    (ht : v.target sh fatName = some k) (data : List UInt8) :
    (s.fatWriteFile name data).1 = decide (v.Fits sh k data) ∧
      After s (s.fatWriteFile name data).2 sh
        (if v.Fits sh k data then v.writeSlot sh k fatName data
        else (v.vacate sh k).store sh data) := by
  have hlt : v.Fits sh k data → data.length < 4294967296 := fun hfits =>
    hfits.length_lt h.clusters_lt h.bytes_le
  have hfind := h.findDirentVal_eq hinv.sane name
  rw [hn, bind_some] at hfind
  rw [fatWriteFile_eq h.geom.mounted hn, hfind]
  cases hl : v.lookup sh fatName with
  | some j =>
    have hjk : j = k := by
      rw [Vol.target, hl, some_or, some_inj] at ht
      exact ht
    subst hjk
    obtain ⟨hj, hlive, hname⟩ := hinv.lookup_eq_some.1 hl
    have hvac := h.freeEntry hinv hj hlive
    obtain ⟨hstore₁, hstore₂⟩ := hvac.2.storeData data
    rw [map_some, elim_some, hstore₁]
    by_cases hfits : v.Fits sh j data
    · have hentry := hstore₂.2.writeEntry_of_found (hvac.1.trans hstore₂.1) hj hname
        (h.headD_place_lt (v.vacate sh j) data) (hlt hfits)
      rw [if_pos hfits, if_pos (show sh.need _ ≤ _ from hfits), elim_some, hentry.1]
      exact ⟨(decide_eq_true hfits).symm, (hvac.trans hstore₂).trans hentry.2⟩
    · rw [if_neg hfits, if_neg (show ¬ sh.need _ ≤ _ from hfits), elim_none]
      exact ⟨(decide_eq_false hfits).symm, hvac.trans hstore₂⟩
  | none =>
    have hfree : v.freeSlot sh = some k := by
      rw [Vol.target, hl, none_or] at ht
      exact ht
    have hvac : v.vacate sh k = v := Vol.vacate_of_dead (Vol.freeSlot_spec hfree).2.1
    obtain ⟨hstore₁, hstore₂⟩ := h.storeData data
    rw [map_none, elim_none, hstore₁]
    by_cases hfits : v.Fits sh k data
    · have hentry := hstore₂.2.writeEntry_of_new (w := v.store sh data) hfree
        (length_of_filenameToFat hn) (h.headD_place_lt v data) (hlt hfits)
      have hfits' := hfits
      unfold Vol.Fits at hfits'
      rw [hvac] at hfits'
      rw [if_pos hfits, if_pos hfits', elim_some, hentry.1, Vol.writeSlot, Vol.fileEntry, hvac]
      exact ⟨(decide_eq_true hfits).symm, hstore₂.trans hentry.2⟩
    · have hfits' := hfits
      unfold Vol.Fits at hfits'
      rw [hvac] at hfits'
      rw [if_neg hfits, if_neg hfits', elim_none, hvac]
      exact ⟨(decide_eq_false hfits).symm, hstore₂⟩

/-- **Writing a new file when no slot is free** fails, with the data stored. -/
lemma Holds.fatWriteFile_of_full (hinv : v.Inv sh chain) (hn : filenameToFat name = some fatName)
    (ht : v.target sh fatName = none) (data : List UInt8) :
    (s.fatWriteFile name data).1 = false ∧
      After s (s.fatWriteFile name data).2 sh (v.store sh data) := by
  rw [Vol.target, or_eq_none_iff] at ht
  have hfind := h.findDirentVal_eq hinv.sane name
  rw [hn, bind_some, ht.1, map_none] at hfind
  obtain ⟨hstore₁, hstore₂⟩ := h.storeData data
  rw [fatWriteFile_eq h.geom.mounted hn, hfind, elim_none, hstore₁]
  have hslot : (s.storeData data).2.freeSlot = none := by
    rw [hstore₂.2.freeSlot_eq]
    exact congrArg (Option.map _) ht.2
  split_ifs with hneed
  · rw [elim_some, writeEntry, elim_none, hslot]
    exact ⟨rfl, hstore₂⟩
  · exact ⟨rfl, hstore₂⟩

omit h in
/-- A name that cannot be stored is refused. -/
lemma fatWriteFile_of_bad (hn : filenameToFat name = none) :
    s.fatWriteFile name data = (false, s) := by
  rw [Fs.fatWriteFile, hn]
  split_ifs <;> rfl

/-! ## Appending and copying -/

omit h in
/-- A buffer that was filled. -/
lemma overlay_of_length {bytes : List UInt8} {n : ℕ} (h : bytes.length = n) (mem : ℕ → UInt8) :
    overlay bytes mem n = bytes := by
  apply ext_getElem?
  intro i
  unfold overlay
  by_cases hi : i < n
  · have hget := getElem?_eq_getElem (l := bytes) (i := i) (by omega)
    rw [getElem?_map, getElem?_range hi, map_some, hget]
    rfl
  · rw [getElem?_eq_none (by simpa using hi), getElem?_eq_none (by omega)]

/-- The entry of a file, and what is read from it as a whole. -/
lemma Holds.entry_of_lookup (hinv : v.Inv sh chain) (hl : v.lookup sh fatName = some k) :
    (s.slotAt k).ent = v.dir k ∧ (v.contents sh k).length = (v.dir k).size ∧
      s.readEntry (v.dir k) (v.dir k).size = some (v.contents sh k) := by
  obtain ⟨hk, hlive, -⟩ := hinv.lookup_eq_some.1 hl
  have hent : (s.slotAt k).ent = v.dir k := h.dir k hk
  have hlen := h.length_contents hinv hk hlive
  have hread := h.readEntry hinv.sane hk hlive (v.dir k).size
  rw [hent, take_of_length_le hlen.le] at hread
  exact ⟨hent, hlen, hread⟩

/-- **Appending** to a file that does not exist writes it. -/
lemma Holds.fatAppendFile_of_absent (hfind : s.findDirentVal name = none) :
    s.fatAppendFile name data heap = some (s.fatWriteFile name data) := by
  rw [fatAppendFile, if_neg (by rw [h.geom.mounted]; simp), hfind]
  rfl

/-- **Appending** to a file: the file would be too large or there is no memory; or the buffer
would be too small, since the sum of the sizes wraps around; or the whole file is written. -/
lemma Holds.fatAppendFile_eq (hinv : v.Inv sh chain) (hn : filenameToFat name = some fatName)
    (hl : v.lookup sh fatName = some k) :
    s.fatAppendFile name data heap =
      if maxFileSize < u32 ((v.dir k).size + data.length) ∨ heap = none then some (false, s)
      else if u32 ((v.dir k).size + data.length) < (v.dir k).size + data.length then none
      else some (s.fatWriteFile name (v.contents sh k ++ data)) := by
  obtain ⟨hent, hlen, hread⟩ := h.entry_of_lookup hinv hl
  rw [fatAppendFile, if_neg (by rw [h.geom.mounted]; simp), h.findDirentVal_eq hinv.sane, hn,
    bind_some, hl, map_some, elim_some, hent]
  by_cases hmax : maxFileSize < u32 ((v.dir k).size + data.length)
  · rw [if_pos hmax, if_pos (.inl hmax)]
  rw [if_neg hmax]
  cases heap with
  | none => rw [if_pos (.inr rfl), elim_none]
  | some mem =>
    rw [if_neg (by simp [hmax]), elim_some]
    split_ifs with hwrap
    · rfl
    · rw [hread, elim_some, overlay_of_length hlen]

/-- **Copying** a file: it is too large or there is no memory, or the whole file is written. -/
lemma Holds.fatCopyFile_eq (hinv : v.Inv sh chain) {src dst : List UInt8}
    (hne : strcasecmp src dst ≠ 0) (hn : filenameToFat src = some fatName)
    (hl : v.lookup sh fatName = some k) :
    s.fatCopyFile src dst heap =
      if maxFileSize < (v.dir k).size ∨ (v.dir k).size ≠ 0 ∧ heap = none then (false, s)
      else s.fatWriteFile dst (v.contents sh k) := by
  obtain ⟨hent, hlen, hread⟩ := h.entry_of_lookup hinv hl
  rw [fatCopyFile, if_neg hne, h.findDirentVal_eq hinv.sane, hn, bind_some, hl,
    map_some, elim_some, hent]
  by_cases hmax : maxFileSize < (v.dir k).size
  · rw [if_pos hmax, if_pos (.inl hmax)]
  rw [if_neg hmax]
  by_cases hzero : (v.dir k).size = 0
  · have hnil : v.contents sh k = [] := eq_nil_of_length_eq_zero (hlen.trans hzero)
    rw [if_pos hzero, if_neg (by simp [hzero]), hnil]
  rw [if_neg hzero]
  cases heap with
  | none => rw [if_pos (.inr ⟨hzero, rfl⟩), elim_none]
  | some mem =>
    rw [if_neg (by simp [hmax]), elim_some, hread, elim_some,
      overlay_of_length hlen]

omit h in
/-- A file that does not exist is not copied. -/
lemma fatCopyFile_of_absent {src dst : List UInt8} (hne : strcasecmp src dst ≠ 0)
    (hfind : s.findDirentVal src = none) : s.fatCopyFile src dst heap = (false, s) := by
  rw [fatCopyFile, if_neg hne, hfind]
  rfl

/-! ## Deleting and renaming -/

/-- **Deleting a file.** -/
lemma Holds.fatDeleteFile (hinv : v.Inv sh chain) (hn : filenameToFat name = some fatName)
    (hl : v.lookup sh fatName = some k) :
    (s.fatDeleteFile name).1 = true ∧
      After s (s.fatDeleteFile name).2 sh (v.eraseSlot sh k) := by
  obtain ⟨hk, hlive, -⟩ := hinv.lookup_eq_some.1 hl
  have hvac := h.freeEntry hinv hk hlive
  have hmod := hvac.2.modify (f := fun b => b.put (32 * (k % 16)) [0xE5])
    (e := Vol.erased (v.dir k)) hk (fun b => keeps_put b (o := 0) (by simp)) (by
      intro b hb
      rw [dirent_put b (Nat.mod_lt k (by omega)) (by simp), hb, length_singleton, drop_one]
      rfl)
  rw [hvac.1.slotAt_sector] at hmod
  rw [Fs.fatDeleteFile, h.findDirentVal_eq hinv.sane, hn, bind_some, hl, map_some, elim_some]
  exact ⟨hmod.1, hvac.trans hmod.2⟩

omit h in
lemma fatDeleteFile_of_absent (hfind : s.findDirentVal name = none) :
    s.fatDeleteFile name = (false, s) := by
  rw [Fs.fatDeleteFile, hfind]
  rfl

/-- **An entry gets another name.** -/
lemma Holds.renameEntry (hk : k < sh.slots) {new : List UInt8} (hlen : new.length = 11) :
    (s.modify (s.slotAt k).sector fun b => b.put (32 * (k % 16)) new).1 = true ∧
      After s (s.modify (s.slotAt k).sector fun b => b.put (32 * (k % 16)) new).2 sh
        (v.renameSlot k new) := by
  apply h.modify (e := { v.dir k with name := new }) hk
  · exact fun b => keeps_put b (o := 0) (by omega)
  · intro b hb
    have hdrop : (dirent b (k % 16)).name.drop new.length = [] :=
      drop_eq_nil_of_le (by simp [dirent, hlen])
    rw [dirent_put b (Nat.mod_lt k (by omega)) hlen.le, hdrop, hb, append_nil]

omit h in
/-- **What can come of a call**: the names are equal but for case and nothing is done, the call
fails and nothing is done, or the entry of a file gets a name that no file has. -/
lemma fatRenameFile_cases (oldName newName : List UInt8) :
    strcasecmp oldName newName = 0 ∧ s.fatRenameFile oldName newName = (true, s) ∨
    strcasecmp oldName newName ≠ 0 ∧ s.fatRenameFile oldName newName = (false, s) ∨
    ∃ new x, strcasecmp oldName newName ≠ 0 ∧ filenameToFat newName = some new ∧
      s.findDirentVal newName = none ∧ s.findDirentVal oldName = some x ∧
      s.fatRenameFile oldName newName = s.modify x.sector fun b => b.put (32 * x.index) new := by
  rw [fatRenameFile]
  by_cases hsame : strcasecmp oldName newName = 0
  · exact .inl ⟨hsame, if_pos hsame⟩
  rw [if_neg hsame]
  right
  by_cases hex : s.fatFileExists newName = true
  · exact .inl ⟨hsame, if_pos hex⟩
  rw [if_neg hex]
  cases hnew : filenameToFat newName with
  | none => exact .inl ⟨hsame, rfl⟩
  | some new =>
    cases hx : s.findDirentVal oldName with
    | none => exact .inl ⟨hsame, rfl⟩
    | some x =>
      refine .inr ⟨new, x, hsame, rfl, ?_, rfl, rfl⟩
      rw [fatFileExists, isSome_iff_ne_none, not_not] at hex
      exact hex

/-- **Renaming a file**: nothing is changed, or the new name was not in use and the entry gets
it. -/
lemma Holds.fatRenameFile_cases (hinv : v.Inv sh chain) (oldName newName : List UInt8) :
    (s.fatRenameFile oldName newName).2 = s ∨
      ∃ old new k, filenameToFat oldName = some old ∧ filenameToFat newName = some new ∧
        v.lookup sh old = some k ∧ v.lookup sh new = none ∧
        (s.fatRenameFile oldName newName).1 = true ∧
        After s (s.fatRenameFile oldName newName).2 sh (v.renameSlot k new) := by
  obtain ⟨-, hcall⟩ | ⟨-, hcall⟩ | ⟨new, x, -, hnew, hfree, hx, hcall⟩ :=
    Fs.fatRenameFile_cases (s := s) oldName newName
  · exact .inl (by rw [hcall])
  · exact .inl (by rw [hcall])
  · right
    rw [h.findDirentVal_eq hinv.sane] at hx hfree
    obtain ⟨old, hold, hx⟩ := bind_eq_some_iff.1 hx
    obtain ⟨k, hl, rfl⟩ := map_eq_some_iff.1 hx
    rw [hnew, bind_some, map_eq_none_iff] at hfree
    obtain ⟨hk, -, -⟩ := hinv.lookup_eq_some.1 hl
    refine ⟨old, new, k, hold, hnew, hl, hfree, ?_⟩
    rw [hcall]
    exact h.renameEntry hk (length_of_filenameToFat hnew)

end Fs

end BengalTiger.Fat
