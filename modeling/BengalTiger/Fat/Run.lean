import BengalTiger.Lib.System
import BengalTiger.Fat.Format

set_option autoImplicit false

/-!
# Runs of the driver

A volume is formatted and then changed by any sequence of calls that succeed. Every call keeps the
volume consistent, and is seen by `fat_read_file` as one change of a map from stored names to byte
strings. Names whose first stored byte is the mark of a deleted entry are left out: a file of such a
name would not be found.

## Main definitions

* `Fat.Op`, `Fat.Fs.apply` — the calls that change a volume.
* `Fat.driver` — the runs from a formatted volume.
* `Fat.Fs.Intact` — the chains, the directory and the tables of a volume.
* `Fat.Fs.Reads` — the map that `fat_read_file` sees.

## Main results

* `Fat.volume_consistent` — every state of a run is intact.
* `Fat.driver_refines_map` — the calls as operations on a map.
-/

namespace BengalTiger.Fat

open BlockDevice LinkTable Function List

/-! ## Calls -/

/-- The calls that change a volume. The memory that `kmalloc` returns is an argument. -/
inductive Op where
  | write (name data : List UInt8)
  | append (name data : List UInt8) (heap : Option (ℕ → UInt8))
  | copy (src dst : List UInt8) (heap : Option (ℕ → UInt8))
  | rename (oldName newName : List UInt8)
  | delete (name : List UInt8)

/-- The names of a call. -/
def Op.names : Op → List (List UInt8)
  | write name _ => [name]
  | append name _ _ => [name]
  | copy src dst _ => [src, dst]
  | rename oldName newName => [oldName, newName]
  | delete name => [name]

/-- The first byte of the stored name is not the mark of a deleted entry. -/
def IsPlainName (name : List UInt8) : Prop :=
  ∀ fatName, filenameToFat name = some fatName → fatName.headD 0 ≠ 0xE5

/-- A call: whether it returns 0, and the state after it. -/
def Fs.apply (s : Fs) : Op → Option (Bool × Fs)
  | .write name data => some (s.fatWriteFile name data)
  | .append name data heap => s.fatAppendFile name data heap
  | .copy src dst heap => some (s.fatCopyFile src dst heap)
  | .rename oldName newName => some (s.fatRenameFile oldName newName)
  | .delete name => some (s.fatDeleteFile name)

/-- The driver: a device is formatted, and calls succeed one after the other. -/
def driver : System Fs Op where
  init t := ∃ s label, s.disk.size < 4294967296 ∧ Fs.fatFormat s label = (true, t)
  step s op t := (∀ name ∈ op.names, IsPlainName name) ∧ s.apply op = some (true, t)

namespace Fs

variable {s t : Fs} {sh : Shape} {v : Vol} {chain : ℕ → List ℕ} {k : ℕ}
  {name fatName data : List UInt8} {heap : Option (ℕ → UInt8)}

variable (h : s.Holds sh v)

include h

variable (hinv : v.Inv sh chain)

include hinv

/-- **A file is written**: what a successful call has done. -/
lemma Holds.write_ok (hplain : IsPlainName name) (hok : (s.fatWriteFile name data).1 = true) :
    ∃ fatName w chain', filenameToFat name = some fatName ∧
      (s.fatWriteFile name data).2.Holds sh w ∧ w.Inv sh chain' ∧
      ∀ other, w.file sh other = if other = fatName then some data else v.file sh other := by
  cases hn : filenameToFat name with
  | none =>
    rw [fatWriteFile_of_bad hn] at hok
    cases hok
  | some fatName =>
    cases ht : v.target sh fatName with
    | none =>
      rw [(h.fatWriteFile_of_full hinv hn ht data).1] at hok
      cases hok
    | some k =>
      obtain ⟨hk, hprev, hnew, hold⟩ := hinv.target_spec ht
      obtain ⟨hres, hafter⟩ := h.fatWriteFile hinv hn ht data
      have hfits : v.Fits sh k data := of_decide_eq_true (hres.symm.trans hok)
      rw [if_pos hfits] at hafter
      have hE5 := hplain fatName hn
      exact ⟨fatName, _, _, rfl, hafter.2,
        hinv.writeSlot hk ⟨_, hn⟩ hE5 hprev hnew hfits,
        hinv.file_writeSlot hk ⟨_, hn⟩ hE5 hprev hnew hfits hold⟩

/-- **Bytes are appended**: what a successful call has done. -/
lemma Holds.append_ok (hplain : IsPlainName name)
    (hok : s.fatAppendFile name data heap = some (true, t)) :
    ∃ fatName w chain', filenameToFat name = some fatName ∧ t.Holds sh w ∧ w.Inv sh chain' ∧
      ∀ other, w.file sh other =
        if other = fatName then some ((v.file sh fatName).getD [] ++ data)
        else v.file sh other := by
  obtain ⟨hfind, habsent⟩ | ⟨fatName, k, hn, hl, -⟩ := h.findDirentVal_cases hinv.sane name
  · rw [h.fatAppendFile_of_absent hfind, Option.some_inj] at hok
    obtain ⟨fatName, w, chain', hn, hw, hwinv, hfile⟩ := h.write_ok hinv hplain
      (show (s.fatWriteFile name data).1 = true by rw [hok])
    rw [hok] at hw
    refine ⟨fatName, w, chain', hn, hw, hwinv, ?_⟩
    rw [Vol.file.eq_def sh v fatName, habsent fatName hn]
    exact hfile
  · rw [h.fatAppendFile_eq hinv hn hl] at hok
    split_ifs at hok with hreject hwrap
    · cases hok
    · rw [Option.some_inj] at hok
      obtain ⟨n, w, chain', hn', hw, hwinv, hfile⟩ := h.write_ok hinv hplain
        (show (s.fatWriteFile name (v.contents sh k ++ data)).1 = true by rw [hok])
      rw [hn, Option.some_inj] at hn'
      subst hn'
      rw [hok] at hw
      refine ⟨fatName, w, chain', hn, hw, hwinv, ?_⟩
      rw [Vol.file.eq_def sh v fatName, hl]
      exact hfile

/-- **A file is copied**: what a successful call has done. -/
lemma Holds.copy_ok {src dst : List UInt8} (hplain : IsPlainName dst)
    (hok : (s.fatCopyFile src dst heap).1 = true) :
    strcasecmp src dst = 0 ∧ (s.fatCopyFile src dst heap).2 = s ∨
    ∃ fatSrc fatDst bytes w chain', filenameToFat src = some fatSrc ∧
      filenameToFat dst = some fatDst ∧ v.file sh fatSrc = some bytes ∧
      (s.fatCopyFile src dst heap).2.Holds sh w ∧ w.Inv sh chain' ∧
      ∀ other, w.file sh other = if other = fatDst then some bytes else v.file sh other := by
  by_cases hsame : strcasecmp src dst = 0
  · left
    refine ⟨hsame, ?_⟩
    rw [fatCopyFile, if_pos hsame]
  right
  obtain ⟨hfind, -⟩ | ⟨fatSrc, k, hn, hl, -⟩ := h.findDirentVal_cases hinv.sane src
  · rw [fatCopyFile_of_absent hsame hfind] at hok
    cases hok
  · rw [h.fatCopyFile_eq hinv hsame hn hl] at hok ⊢
    split_ifs at hok ⊢ with hreject
    obtain ⟨fatDst, w, chain', hn', hw, hwinv, hfile⟩ := h.write_ok hinv hplain hok
    exact ⟨fatSrc, fatDst, v.contents sh k, w, chain', hn, hn', by rw [Vol.file, hl]; rfl, hw,
      hwinv, hfile⟩

/-- **A file is deleted**: what a successful call has done. -/
lemma Holds.delete_ok (hok : (s.fatDeleteFile name).1 = true) :
    ∃ fatName w chain', filenameToFat name = some fatName ∧
      (s.fatDeleteFile name).2.Holds sh w ∧ w.Inv sh chain' ∧
      ∀ other, w.file sh other = if other = fatName then none else v.file sh other := by
  obtain ⟨hfind, -⟩ | ⟨fatName, k, hn, hl, -⟩ := h.findDirentVal_cases hinv.sane name
  · rw [fatDeleteFile_of_absent hfind] at hok
    cases hok
  · obtain ⟨hk, hlive, hname⟩ := hinv.lookup_eq_some.1 hl
    obtain ⟨-, hafter⟩ := h.fatDeleteFile hinv hn hl
    refine ⟨fatName, _, _, hn, hafter.2, hinv.eraseSlot hk hlive, ?_⟩
    rw [← hname]
    exact hinv.file_eraseSlot hk hlive

/-- **A file is renamed**: the volume stays consistent. -/
lemma Holds.rename_ok (oldName : List UInt8) {newName : List UInt8} (hplain : IsPlainName newName) :
    ∃ w, (s.fatRenameFile oldName newName).2.Holds sh w ∧ w.Inv sh chain := by
  obtain hsame | ⟨old, new, k, hold, hnew, hl, habsent, -, hafter⟩ :=
    h.fatRenameFile_cases hinv oldName newName
  · rw [hsame]
    exact ⟨v, h, hinv⟩
  · obtain ⟨hk, hlive, -⟩ := hinv.lookup_eq_some.1 hl
    refine ⟨_, hafter.2, hinv.renameSlot hk hlive ⟨_, hnew⟩ (hplain new hnew) ?_⟩
    intro j hj _ hlivej
    exact Vol.lookup_eq_none habsent hj hlivej

omit h hinv in
/-- **A successful call keeps the volume consistent.** -/
lemma Consistent.apply (hs : s.Consistent) {op : Op} (hplain : ∀ name ∈ op.names, IsPlainName name)
    (hok : s.apply op = some (true, t)) : t.Consistent := by
  obtain ⟨sh, v, chain, h, hinv⟩ := hs
  cases op with
  | write name data =>
    simp only [Fs.apply, Option.some_inj] at hok
    obtain ⟨n, w, chain', -, hw, hwinv, -⟩ := h.write_ok hinv
      (hplain name (by simp [Op.names])) (show (s.fatWriteFile name data).1 = true by rw [hok])
    rw [hok] at hw
    exact ⟨sh, w, chain', hw, hwinv⟩
  | append name data heap =>
    obtain ⟨n, w, chain', -, hw, hwinv, -⟩ := h.append_ok hinv
      (hplain name (by simp [Op.names])) hok
    exact ⟨sh, w, chain', hw, hwinv⟩
  | copy src dst heap =>
    simp only [Fs.apply, Option.some_inj] at hok
    obtain ⟨-, hsame⟩ | ⟨a, b, bytes, w, chain', -, -, -, hw, hwinv, -⟩ :=
      h.copy_ok hinv (hplain dst (by simp [Op.names]))
        (show (s.fatCopyFile src dst heap).1 = true by rw [hok])
    · rw [hok] at hsame
      rw [show t = s from hsame]
      exact ⟨sh, v, chain, h, hinv⟩
    · rw [hok] at hw
      exact ⟨sh, w, chain', hw, hwinv⟩
  | rename oldName newName =>
    simp only [Fs.apply, Option.some_inj] at hok
    obtain ⟨w, hw, hwinv⟩ := h.rename_ok hinv oldName
      (hplain newName (by simp [Op.names]))
    rw [hok] at hw
    exact ⟨sh, w, chain, hw, hwinv⟩
  | delete name =>
    simp only [Fs.apply, Option.some_inj] at hok
    obtain ⟨n, w, chain', -, hw, hwinv, -⟩ := h.delete_ok hinv
      (show (s.fatDeleteFile name).1 = true by rw [hok])
    rw [hok] at hw
    exact ⟨sh, w, chain', hw, hwinv⟩

end Fs

/-- **Every state of a run is consistent.** -/
lemma consistent_of_reachable {t : Fs} (h : driver.Reachable t) : t.Consistent := by
  apply h.invariant Fs.Consistent
  · rintro t ⟨s, label, hsize, hformat⟩
    have hok : (s.fatFormat label).1 = true := by rw [hformat]
    obtain ⟨sh, v, chain, hv, hinv, -⟩ :=
      Fs.fatFormat_holds (Fs.le_size_of_fatFormat hok) hsize.le label
    rw [hformat] at hv
    exact ⟨sh, v, chain, hv, hinv⟩
  · rintro s op t hs ⟨hplain, hok⟩
    exact hs.apply hplain hok

/-! ## The chains, the directory and the tables -/

namespace Fs

/-- The number of slots of the root directory. -/
def slots (s : Fs) : ℕ := s.rootSectors * 16

/-- The live slots of the root directory. -/
def liveSlots (s : Fs) : List ℕ := (List.range s.slots).filter fun k => (s.slotEntry k).isLive

/-- **The volume is intact**; `chain k` is the chain of the entry in slot `k`. -/
structure Intact (s : Fs) (chain : ℕ → List ℕ) : Prop where
  /-- The chain of a live entry has no cycle, it stays among the clusters and ends in a mark, and
  it has as many clusters as the size asks for. -/
  chains : ∀ k ∈ s.liveSlots,
    (chain k).Nodup ∧ (∀ c ∈ chain k, 2 ≤ c ∧ c ≤ s.totalClusters + 1) ∧
      IsChain s.getFatEntry (s.eocThreshold ≤ ·) (chain k) ∧
      (s.slotEntry k).cluster = (chain k).headD 0 ∧
      (chain k).length = ((s.slotEntry k).size + s.fatGetFsInfo.bytesPerCluster - 1) /
        s.fatGetFsInfo.bytesPerCluster
  /-- The chains of different entries have no cluster in common. -/
  disjoint : ∀ j ∈ s.liveSlots, ∀ k ∈ s.liveSlots, j ≠ k → ∀ c ∈ chain j, c ∉ chain k
  /-- A cluster in use is in a chain. -/
  used : ∀ c, 2 ≤ c → c ≤ s.totalClusters + 1 → s.getFatEntry c ≠ 0 →
    ∃ k ∈ s.liveSlots, c ∈ chain k
  /-- The number of clusters in use that is reported. -/
  usedClusters : s.fatGetFsInfo.usedClusters = (s.liveSlots.map fun k => (chain k).length).sum
  /-- Different entries have different names. -/
  names : ∀ j ∈ s.liveSlots, ∀ k ∈ s.liveSlots, (s.slotEntry j).name = (s.slotEntry k).name → j = k
  /-- The slots after the first one that was never used were not used either. -/
  tail : ∀ j k, j ≤ k → k < s.slots → (s.slotEntry j).first = 0 → (s.slotEntry k).first = 0
  /-- The tables are equal. -/
  copies : s.Copies

variable {s : Fs} {sh : Shape} {v : Vol} {chain : ℕ → List ℕ} {k : ℕ}

/-- The live slots are those of the volume. -/
lemma Holds.mem_liveSlots (h : s.Holds sh v) :
    k ∈ s.liveSlots ↔ k < sh.slots ∧ (v.dir k).isLive = true := by
  rw [liveSlots, mem_filter, mem_range, Fs.slots, h.slots]
  constructor
  · rintro ⟨hk, hlive⟩
    rw [h.dir k hk] at hlive
    exact ⟨hk, hlive⟩
  · rintro ⟨hk, hlive⟩
    rw [h.dir k hk]
    exact ⟨hk, hlive⟩

lemma fatGetFsInfo_of_mounted (hs : s.mounted = true) :
    s.fatGetFsInfo.bytesPerCluster = s.boot.sectorsPerCluster * 512 ∧
      s.fatGetFsInfo.usedClusters =
        ((List.range' 2 s.totalClusters).countP fun c => s.getFatEntry c != 0) ∧
      s.fatGetFsInfo.fileCount = s.listed.length := by
  rw [fatGetFsInfo, if_neg (by rw [hs]; simp)]
  exact ⟨rfl, rfl, rfl⟩

/-- A sum without the terms that are zero. -/
lemma sum_map_filter {p : ℕ → Bool} {f : ℕ → ℕ} {l : List ℕ}
    (h : ∀ k ∈ l, p k = false → f k = 0) : ((l.filter p).map f).sum = (l.map f).sum := by
  induction l with
  | nil => rfl
  | cons a l ih =>
    have ih' := ih fun k hk => h k (mem_cons_of_mem _ hk)
    cases ha : p a with
    | true => rw [filter_cons_of_pos ha, map_cons, map_cons, sum_cons, sum_cons, ih']
    | false => rw [filter_cons_of_neg (by simp [ha]), map_cons, sum_cons,
        h a mem_cons_self ha, Nat.zero_add, ih']

/-- The number of clusters in use that is reported. -/
lemma Holds.usedClusters_eq (h : s.Holds sh v) :
    s.fatGetFsInfo.usedClusters =
      (List.range' 2 sh.clusters).countP (fun c => v.fat c ≠ 0) := by
  rw [(fatGetFsInfo_of_mounted h.geom.mounted).2.1, h.clusters]
  apply countP_congr
  intro c hc
  rw [mem_range'_1] at hc
  rw [h.fat c ⟨hc.1, by omega⟩]
  simp

/-- A consistent volume is intact. -/
lemma Holds.intact (h : s.Holds sh v) (hinv : v.Inv sh chain) : s.Intact chain := by
  have hbytes := (fatGetFsInfo_of_mounted h.geom.mounted).1
  have hent : ∀ {k}, k ∈ s.liveSlots → s.slotEntry k = v.dir k := fun hk =>
    h.dir _ (h.mem_liveSlots.1 hk).1
  constructor
  case chains =>
    intro k hk
    have hk' := h.mem_liveSlots.1 hk
    refine ⟨hinv.nodup k, ?_, ?_, ?_, ?_⟩
    · intro c hc
      have hc' := hinv.isCluster k c hc
      rw [h.clusters]
      exact ⟨hc'.1, Nat.le_of_lt_succ hc'.2⟩
    · rw [h.threshold]
      exact (hinv.linked k).congr fun c hc => h.fat c (hinv.isCluster k c hc)
    · rw [hent hk]
      exact hinv.cluster k hk'.1 hk'.2
    · rw [hent hk, hbytes, h.bytes]
      exact hinv.length k hk'.1 hk'.2
  case disjoint => exact fun j _ k _ hjk => hinv.disjoint j k hjk
  case used =>
    intro c h2 hle hne
    have hc : sh.IsCluster c := ⟨h2, by rw [← h.clusters]; omega⟩
    rw [h.fat c hc] at hne
    obtain ⟨k, hk, hck⟩ := hinv.used c hc hne
    refine ⟨k, h.mem_liveSlots.2 ⟨hk, ?_⟩, hck⟩
    by_contra hdead
    rw [hinv.dead k hk (by simpa using hdead)] at hck
    cases hck
  case usedClusters =>
    rw [h.usedClusters_eq, hinv.used_eq, liveSlots, Fs.slots, h.slots]
    symm
    apply sum_map_filter
    intro k hk hdead
    rw [mem_range] at hk
    rw [h.dir k hk] at hdead
    rw [hinv.dead k hk hdead, length_nil]
  case names =>
    intro j hj k hk hname
    have hj' := h.mem_liveSlots.1 hj
    have hk' := h.mem_liveSlots.1 hk
    rw [hent hj, hent hk] at hname
    exact hinv.names j hj'.1 k hk'.1 hj'.2 hk'.2 hname
  case tail =>
    intro j k hjk hk hzero
    rw [Fs.slots, h.slots] at hk
    rw [h.dir j (by omega)] at hzero
    rw [h.dir k hk]
    exact hinv.tail j k hjk hk hzero
  case copies => exact h.copies

end Fs

/-- **Volume consistency.** In every state of a run, the volume is intact. -/
theorem volume_consistent {t : Fs} (h : driver.Reachable t) : ∃ chain, t.Intact chain := by
  obtain ⟨sh, v, chain, hv, hinv⟩ := consistent_of_reachable h
  exact ⟨chain, hv.intact hinv⟩

/-- A small device is formatted and a file is renamed to its own name, in lower case. -/
lemma reachable_small : driver.Reachable ((blankFs 64).fatFormat []).2 := by
  have hinit : driver.Reachable ((blankFs 64).fatFormat []).2 := by
    apply System.Reachable.init
    refine ⟨blankFs 64, [], by decide, ?_⟩
    rw [Fs.fatFormat_eq (s := blankFs 64) (by decide) (by decide)]
  have hstep : driver.step ((blankFs 64).fatFormat []).2
      (.rename (ascii "HELLO.TXT".toList) (ascii "hello.txt".toList))
      ((blankFs 64).fatFormat []).2 := by
    constructor
    · intro name hname fatName hfat
      have hnames : ∀ name ∈ [ascii "HELLO.TXT".toList, ascii "hello.txt".toList],
          ((filenameToFat name).all fun fatName => fatName.headD 0 != 0xE5) = true := by decide
      have := hnames name hname
      rw [hfat] at this
      simpa using this
    · have hcmp : strcasecmp (ascii "HELLO.TXT".toList) (ascii "hello.txt".toList) = 0 := by
        decide
      simp only [Fs.apply, Fs.fatRenameFile]
      rw [if_pos hcmp]
  exact hinit.step hstep

theorem volume_consistent_small : ∃ chain, ((blankFs 64).fatFormat []).2.Intact chain :=
  volume_consistent reachable_small

/-! ## A map from names to byte strings -/

namespace Fs

/-- **The map that `fat_read_file` sees**: it returns the beginning of the bytes of a stored name,
and their number. -/
def Reads (s : Fs) (m : List UInt8 → Option (List UInt8)) : Prop :=
  ∀ name maxLen, s.fatReadFile name maxLen = (filenameToFat name).bind fun fatName =>
    (m fatName).map fun bytes => (bytes.length, bytes.take maxLen)

variable {s : Fs} {sh : Shape} {v : Vol} {chain : ℕ → List ℕ}

lemma Holds.reads (h : s.Holds sh v) (hinv : v.Inv sh chain) : s.Reads (v.file sh) :=
  fun _ maxLen => h.fatReadFile_eq hinv maxLen

/-- The map after a change at one name. -/
lemma Holds.reads_update (h : s.Holds sh v) (hinv : v.Inv sh chain)
    {m : List UInt8 → Option (List UInt8)} {fatName : List UInt8} {bytes : Option (List UInt8)}
    (hfile : ∀ other, v.file sh other = if other = fatName then bytes else m other) :
    s.Consistent ∧ s.Reads (update m fatName bytes) := by
  refine ⟨⟨sh, v, chain, h, hinv⟩, ?_⟩
  have heq : update m fatName bytes = v.file sh := by
    funext other
    rw [hfile, update_apply]
  rw [heq]
  exact h.reads hinv

end Fs

/-- **The driver refines a map from stored names to byte strings.** On a consistent volume there is
the map that `fat_read_file` sees; a successful call leads to a consistent volume with the map
changed at one name. -/
theorem driver_refines_map {s : Fs} (hs : s.Consistent) :
    ∃ m : List UInt8 → Option (List UInt8), s.Reads m ∧
      (∀ name data, IsPlainName name → (s.fatWriteFile name data).1 = true →
        ∃ fatName, filenameToFat name = some fatName ∧ (s.fatWriteFile name data).2.Consistent ∧
          (s.fatWriteFile name data).2.Reads (update m fatName (some data))) ∧
      (∀ name data heap t, IsPlainName name → s.fatAppendFile name data heap = some (true, t) →
        ∃ fatName, filenameToFat name = some fatName ∧ t.Consistent ∧
          t.Reads (update m fatName (some ((m fatName).getD [] ++ data)))) ∧
      (∀ src dst heap, IsPlainName src → IsPlainName dst → filenameToFat src ≠ filenameToFat dst →
        (s.fatCopyFile src dst heap).1 = true →
        ∃ fatSrc fatDst bytes, filenameToFat src = some fatSrc ∧
          filenameToFat dst = some fatDst ∧ m fatSrc = some bytes ∧
          (s.fatCopyFile src dst heap).2.Consistent ∧
          (s.fatCopyFile src dst heap).2.Reads (update m fatDst (some bytes))) ∧
      ∀ name, IsPlainName name → (s.fatDeleteFile name).1 = true →
        ∃ fatName, filenameToFat name = some fatName ∧ (s.fatDeleteFile name).2.Consistent ∧
          (s.fatDeleteFile name).2.Reads (update m fatName none) := by
  obtain ⟨sh, v, chain, h, hinv⟩ := hs
  -- the map is read off the volume on the device
  refine ⟨v.file sh, h.reads hinv, ?_, ?_, ?_, ?_⟩
  · intro name data hplain hok
    obtain ⟨fatName, w, chain', hn, hw, hwinv, hfile⟩ := h.write_ok hinv hplain hok
    exact ⟨fatName, hn, hw.reads_update hwinv hfile⟩
  · intro name data heap t hplain hok
    obtain ⟨fatName, w, chain', hn, hw, hwinv, hfile⟩ := h.append_ok hinv hplain hok
    exact ⟨fatName, hn, hw.reads_update hwinv hfile⟩
  · intro src dst heap _ hplain hne hok
    obtain ⟨hsame, -⟩ | ⟨fatSrc, fatDst, bytes, w, chain', hn, hn', hm, hw, hwinv, hfile⟩ :=
      h.copy_ok hinv hplain hok
    · exact absurd (filenameToFat_congr hsame) hne
    · exact ⟨fatSrc, fatDst, bytes, hn, hn', hm, hw.reads_update hwinv hfile⟩
  · intro name _ hok
    obtain ⟨fatName, w, chain', hn, hw, hwinv, hfile⟩ := h.delete_ok hinv hok
    exact ⟨fatName, hn, hw.reads_update hwinv hfile⟩

theorem driver_refines_map_small : ((blankFs 64).fatFormat []).2.Consistent ∧
    ∃ m, ((blankFs 64).fatFormat []).2.Reads m := by
  have hs := consistent_of_reachable reachable_small
  obtain ⟨m, hm, -⟩ := driver_refines_map hs
  exact ⟨hs, m, hm⟩

end BengalTiger.Fat
