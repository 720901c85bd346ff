import BengalTiger.Fat.Run

set_option autoImplicit false

/-!
# The buffers of the callers

What the driver puts into the buffers it is given, on a volume with any contents. The size of a file
comes from its directory entry and its bytes from its chain, and the two need not agree.

## Main definitions

* `Fat.Fs.walk` — the clusters that a loop over a chain comes by.
* `Fat.Fs.putEntry` — the bytes that `fat_read_file` puts into a buffer, also when it
  fails.
* `Fat.Fs.appendBuffer` — the buffer of `fat_append_file` and the writes to it.

## Main results

* `Fat.read_determined_iff` — when a read leaves nothing of the buffer as it was.
* `Fat.append_in_buffer_iff` — when the writes of `fat_append_file` stay inside.
* `Fat.Fs.readEntry_eq_put`, `Fat.Fs.fatAppendFile_eq_none_iff` — the buffers are those of the
  model: `putEntry` has the bytes that `fatReadFile` returns, and `fatAppendFile` has no result
  exactly when a write of `appendBuffer` is outside.
-/

namespace BengalTiger.Fat

open BlockDevice LinkTable List

namespace Fs

variable {s : Fs} {c left : ℕ} {bytes : List UInt8}

/-! ## What is read -/

/-- A loop over a chain ends at `c`. -/
def Ends (s : Fs) (c : ℕ) : Prop := c < 2 ∨ s.eocThreshold ≤ c

instance (s : Fs) : DecidablePred s.Ends := fun c =>
  inferInstanceAs (Decidable (c < 2 ∨ s.eocThreshold ≤ c))

/-- The clusters that a loop over the chain from `c` on comes by. -/
def walk (s : Fs) (c : ℕ) : List ℕ := follow s.getFatEntry s.Ends (s.totalClusters + 2) c

/-- As many bytes as the sectors have are read. -/
lemma length_readSectors {n sec : ℕ} (h : s.readSectors n sec left = some bytes) :
    bytes.length = min left (n * 512) := by
  induction n generalizing sec left bytes with
  | zero =>
    rw [readSectors, Option.some_inj] at h
    rw [← h, length_nil, Nat.zero_mul, Nat.min_zero]
  | succ n ih =>
    rw [readSectors] at h
    by_cases hleft : left = 0
    · rw [if_pos hleft, Option.some_inj] at h
      rw [← h, length_nil, hleft, Nat.zero_min]
    · rw [if_neg hleft] at h
      cases hread : s.read sec with
      | none =>
        rw [hread] at h
        cases h
      | some b =>
        rw [hread, Option.elim_some, Option.map_eq_some_iff] at h
        obtain ⟨rest, hrest, rfl⟩ := h
        have hlen := ih hrest
        rw [length_append, length_take, Block.length_toList, hlen]
        omega

/-- As many bytes as the clusters have are read. -/
lemma length_readChain {guard : ℕ} (h : s.readChain guard c left = some bytes) :
    bytes.length = min left
      (s.boot.sectorsPerCluster * 512 * (follow s.getFatEntry s.Ends guard c).length) := by
  induction guard generalizing c left bytes with
  | zero =>
    rw [readChain, Option.some_inj] at h
    rw [← h, follow, length_nil, length_nil, Nat.mul_zero, Nat.min_zero]
  | succ guard ih =>
    rw [readChain] at h
    -- the loop goes on as long as the chain does and bytes are left
    by_cases hgo : 2 ≤ c ∧ c < s.eocThreshold ∧ 0 < left
    · have hends : ¬ s.Ends c := by
        unfold Ends
        omega
      rw [if_pos hgo] at h
      cases hread : s.readSectors s.boot.sectorsPerCluster (s.clusterSector c) left with
      | none =>
        rw [hread] at h
        cases h
      | some first =>
        rw [hread, Option.elim_some, Option.map_eq_some_iff] at h
        obtain ⟨rest, hrest, rfl⟩ := h
        have h₁ := length_readSectors hread
        have h₂ := ih hrest
        rw [follow, if_neg hends, length_append, length_cons, h₂, h₁, Nat.mul_add, Nat.mul_one]
        omega
    · rw [if_neg hgo, Option.some_inj] at h
      rw [← h, length_nil, eq_comm, Nat.min_eq_zero_iff]
      by_cases hleft : left = 0
      · exact .inl hleft
      · have hends : s.Ends c := by
          unfold Ends
          omega
        rw [follow, if_pos hends, length_nil, Nat.mul_zero]
        exact .inr rfl

/-- **The number of bytes that a successful read puts into the buffer.** -/
lemma length_of_fatReadFile {name : List UInt8} {maxLen : ℕ} {x : Slot} {r : ℕ × List UInt8}
    (hx : s.findDirentVal name = some x) (hr : s.fatReadFile name maxLen = some r) :
    r.1 = x.ent.size ∧ r.2.length = min (min x.ent.size maxLen)
      (s.boot.sectorsPerCluster * 512 * (s.walk x.ent.cluster).length) := by
  rw [fatReadFile, hx, Option.bind_some, Option.map_eq_some_iff] at hr
  obtain ⟨bytes, hbytes, rfl⟩ := hr
  refine ⟨rfl, ?_⟩
  rw [readEntry] at hbytes
  split_ifs at hbytes with hzero
  · rw [Option.some_inj] at hbytes
    have hmin : min x.ent.size maxLen = 0 := by omega
    rw [← hbytes, length_nil, hmin, Nat.zero_min]
  · exact length_readChain hbytes

/-- Two buffers that were filled in the same way agree where bytes were put. -/
lemma overlay_eq_iff (bytes : List UInt8) (n : ℕ) :
    (∀ mem mem' : ℕ → UInt8, overlay bytes mem n = overlay bytes mem' n) ↔ n ≤ bytes.length := by
  constructor
  · intro h
    by_contra hlt
    -- the byte behind those that were put there is what it was
    have hget := congrArg (fun l => l[bytes.length]?) (h (fun _ => 0) fun _ => 1)
    have hrange : bytes.length < n := by omega
    simp [overlay, hrange] at hget
  · intro hle mem mem'
    unfold overlay
    apply map_congr_left
    intro i hi
    rw [mem_range] at hi
    rw [getElem?_eq_getElem (by omega), Option.getD_some, Option.getD_some]

end Fs

/-- **A read exposes nothing of the buffer** exactly when the chain of the file, as far as the loop
follows it, has as many bytes as are asked for. -/
theorem read_determined_iff {s : Fs} {name : List UInt8} {maxLen : ℕ} {x : Slot}
    {r : ℕ × List UInt8} (hx : s.findDirentVal name = some x)
    (hr : s.fatReadFile name maxLen = some r) :
    (∀ mem mem' : ℕ → UInt8, Fs.overlay r.2 mem (min r.1 maxLen) =
        Fs.overlay r.2 mem' (min r.1 maxLen)) ↔
      min x.ent.size maxLen ≤
        s.boot.sectorsPerCluster * 512 * (s.walk x.ent.cluster).length := by
  obtain ⟨hsize, hlen⟩ := Fs.length_of_fatReadFile hx hr
  rw [Fs.overlay_eq_iff, hsize, hlen]
  omega

/-- A small formatted volume, mounted again after an entry was put into its root directory. -/
def forgedFs (first size : ℕ) : Bool × Fs :=
  ({ blankFs 64 with
    disk := (Fs.formattedDisk (formatGeometry 64) [] (blankFs 64).disk).write 3
      (createDirent (.zero 512) 0 (ascii "A          ".toList) first size) } : Fs).mountAtLba 0

/-- A file of five bytes without a chain: the read succeeds, and the five bytes of the buffer are
what they were. -/
theorem read_exposes_buffer : (forgedFs 0 5).1 = true ∧
    (forgedFs 0 5).2.fatReadFile (ascii "A".toList) 5 = some (5, []) ∧
    ¬ ∀ mem mem' : ℕ → UInt8, Fs.overlay [] mem (min 5 5) = Fs.overlay [] mem' (min 5 5) := by
  refine ⟨by decide +kernel, by decide +kernel, ?_⟩
  rw [Fs.overlay_eq_iff]
  simp

/-- A volume after a file of two clusters was written. -/
def Fs.withFile (t : Fs) : Fs :=
  { t with disk := (t.fatWriteFile (ascii "B".toList) (List.replicate 600 7)).2.disk }

/-- The read of a file of 600 bytes in two clusters of 512. -/
theorem read_determined_iff_twoClusters : ∃ x r,
    (forgedFs 0 0).2.withFile.findDirentVal (ascii "B".toList) = some x ∧
      (forgedFs 0 0).2.withFile.fatReadFile (ascii "B".toList) 600 = some r ∧ min r.1 600 = 600 ∧
      ((forgedFs 0 0).2.withFile.walk x.ent.cluster).length = 2 ∧
      ∀ mem mem' : ℕ → UInt8, Fs.overlay r.2 mem 600 = Fs.overlay r.2 mem' 600 := by
  have hr : (forgedFs 0 0).2.withFile.fatReadFile (ascii "B".toList) 600 =
      some (600, List.replicate 600 7) := by decide +kernel
  have hwalk : ∀ x ∈ (forgedFs 0 0).2.withFile.findDirentVal (ascii "B".toList),
      ((forgedFs 0 0).2.withFile.walk x.ent.cluster).length = 2 := by decide +kernel
  have hspc : (forgedFs 0 0).2.withFile.boot.sectorsPerCluster = 1 := by decide +kernel
  obtain ⟨x, hx, -⟩ := Option.bind_eq_some_iff.1 hr
  refine ⟨x, _, hx, hr, rfl, hwalk x hx, (read_determined_iff hx hr).2 ?_⟩
  rw [hwalk x hx, hspc]
  omega

/-! ## What is written to the buffer of `fat_append_file` -/

namespace Fs

variable (s : Fs)

/-- The bytes that the loop over the sectors of a cluster puts into the buffer, and whether no read
failed. -/
def putSectors : ℕ → ℕ → ℕ → List UInt8 × Bool
  | 0, _, _ => ([], true)
  | n + 1, sec, left =>
    if left = 0 then ([], true)
    else (s.read sec).elim ([], false) fun b =>
      let r := putSectors n (sec + 1) (left - min left 512)
      (b.toList.take (min left 512) ++ r.1, r.2)

/-- The bytes that the loop over the chain puts into the buffer. -/
def putChain : ℕ → ℕ → ℕ → List UInt8 × Bool
  | 0, _, _ => ([], true)
  | guard + 1, c, left =>
    if 2 ≤ c ∧ c < s.eocThreshold ∧ 0 < left then
      let r := s.putSectors s.boot.sectorsPerCluster (s.clusterSector c) left
      if r.2 then
        let q := putChain guard (s.getFatEntry c) (left - r.1.length)
        (r.1 ++ q.1, q.2)
      else r
    else ([], true)

/-- The bytes that `fat_read_file` puts into a buffer, and whether it returns 0. -/
def putEntry (e : Dirent) (maxLen : ℕ) : List UInt8 × Bool :=
  if maxLen = 0 ∨ e.size = 0 then ([], true)
  else s.putChain (s.totalClusters + 2) e.cluster (min e.size maxLen)

variable {s}

/-- The bytes read are those put into the buffer, unless a sector cannot be read. -/
lemma readSectors_eq_put (n sec left : ℕ) :
    s.readSectors n sec left =
      if (s.putSectors n sec left).2 then some (s.putSectors n sec left).1 else none := by
  induction n generalizing sec left with
  | zero => rfl
  | succ n ih =>
    rw [readSectors, putSectors]
    by_cases hleft : left = 0
    · rw [if_pos hleft, if_pos hleft]
      rfl
    · rw [if_neg hleft, if_neg hleft]
      cases s.read sec with
      | none => rfl
      | some b =>
        rw [Option.elim_some, Option.elim_some, ih]
        cases (s.putSectors n (sec + 1) (left - min left 512)).2 <;> rfl

/-- The same for a chain. -/
lemma readChain_eq_put (guard c left : ℕ) :
    s.readChain guard c left =
      if (s.putChain guard c left).2 then some (s.putChain guard c left).1 else none := by
  induction guard generalizing c left with
  | zero => rfl
  | succ guard ih =>
    rw [readChain, putChain]
    by_cases hgo : 2 ≤ c ∧ c < s.eocThreshold ∧ 0 < left
    · rw [if_pos hgo, if_pos hgo, readSectors_eq_put]
      cases hok : (s.putSectors s.boot.sectorsPerCluster (s.clusterSector c) left).2 with
      | false => simp [hok]
      | true =>
        simp only [if_true, Option.elim_some]
        rw [ih]
        split_ifs <;> rfl
    · rw [if_neg hgo, if_neg hgo]
      rfl

/-- **The read of the model**: the bytes put into the buffer, unless a sector could not be read. -/
lemma readEntry_eq_put (e : Dirent) (maxLen : ℕ) :
    s.readEntry e maxLen =
      if (s.putEntry e maxLen).2 then some (s.putEntry e maxLen).1 else none := by
  rw [readEntry, putEntry]
  by_cases hzero : maxLen = 0 ∨ e.size = 0
  · rw [if_pos hzero, if_pos hzero]
    rfl
  · rw [if_neg hzero, if_neg hzero, readChain_eq_put]

/-- Sectors put no more bytes into the buffer than are left to read. -/
lemma length_putSectors_le (n sec left : ℕ) : (s.putSectors n sec left).1.length ≤ left := by
  induction n generalizing sec left with
  | zero => exact Nat.zero_le _
  | succ n ih =>
    rw [putSectors]
    split_ifs
    · exact Nat.zero_le _
    · cases s.read sec with
      | none => exact Nat.zero_le _
      | some b =>
        have hrest := ih (sec + 1) (left - min left 512)
        rw [Option.elim_some, length_append, length_take]
        omega

/-- Nor does a chain. -/
lemma length_putChain_le (guard c left : ℕ) : (s.putChain guard c left).1.length ≤ left := by
  induction guard generalizing c left with
  | zero => exact Nat.zero_le _
  | succ guard ih =>
    rw [putChain]
    have hfirst := s.length_putSectors_le s.boot.sectorsPerCluster (s.clusterSector c) left
    by_cases hgo : 2 ≤ c ∧ c < s.eocThreshold ∧ 0 < left
    · have hrest := ih (s.getFatEntry c) (left -
        (s.putSectors s.boot.sectorsPerCluster (s.clusterSector c) left).1.length)
      simp only [if_pos hgo]
      split_ifs
      · rw [length_append]
        omega
      · exact hfirst
    · rw [if_neg hgo]
      exact Nat.zero_le _

/-- No more bytes are put into the buffer than the file has. -/
lemma length_putEntry_le (e : Dirent) (maxLen : ℕ) : (s.putEntry e maxLen).1.length ≤ e.size := by
  rw [putEntry]
  split_ifs
  · exact Nat.zero_le _
  · exact (length_putChain_le _ _ _).trans (Nat.min_le_left _ _)

/-- A buffer from `kmalloc` and the writes to it, each with its offset and its length. -/
structure Buffer where
  allocated : ℕ
  writes : List (ℕ × ℕ)

/-- **The buffer of `fat_append_file`** for `len` new bytes: the old bytes are read to its
beginning, and unless that fails the new ones are copied behind them. `none` when the call ends
before `kmalloc`. -/
def appendBuffer (s : Fs) (name : List UInt8) (len : ℕ) : Option Buffer :=
  if s.mounted = false then none
  else (s.findDirentVal name).bind fun x =>
    if maxFileSize < u32 (x.ent.size + len) then none
    else
      let total := u32 (x.ent.size + len)
      let r := s.putEntry x.ent x.ent.size
      some {
        allocated := if total = 0 then 1 else total
        writes :=
          (if 0 < x.ent.size then [(0, r.1.length)] else []) ++
            if 0 < len ∧ r.2 = true then [(x.ent.size, len)] else [] }

/-- **The writes of `fat_append_file` stay inside its buffer**: it allocated as many bytes as the
old and the new ones are, and every write falls inside these. -/
def AppendInBuffer (s : Fs) (name : List UInt8) (len : ℕ) : Prop :=
  ∀ x b, s.findDirentVal name = some x → s.appendBuffer name len = some b →
    x.ent.size + len ≤ b.allocated ∧ ∀ w ∈ b.writes, w.1 + w.2 ≤ x.ent.size + len

variable {x : Slot} {name : List UInt8} {len : ℕ}

lemma size_dirent_lt (b : Sector) (i : ℕ) : (dirent b i).size < 4294967296 := by
  have h₁ : le16 b (32 * i + 28) < 65536 := rdLe16_lt _ _
  have h₂ : le16 b (32 * i + 28 + 2) < 65536 := rdLe16_lt _ _
  simp only [dirent, le32]
  omega

/-- A slot holds an entry of a sector. -/
lemma exists_dirent_of_mem {n k : ℕ} (hx : x ∈ s.slotsFrom n k) : ∃ b i, x.ent = dirent b i := by
  induction n generalizing k with
  | zero => cases hx
  | succ n ih =>
    rw [slotsFrom] at hx
    cases hread : s.read (s.rootStartSector + k) with
    | none =>
      rw [hread] at hx
      cases hx
    | some b =>
      rw [hread, Option.elim_some, mem_append] at hx
      obtain hx | hx := hx
      · obtain ⟨i, -, rfl⟩ := mem_map.1 hx
        exact ⟨b, i, rfl⟩
      · exact ih hx

/-- The size in a directory entry has 32 bits. -/
lemma size_lt_of_findDirentVal (hx : s.findDirentVal name = some x) :
    x.ent.size < 4294967296 := by
  obtain ⟨b, i, hent⟩ := exists_dirent_of_mem (mem_rootSlots_of_findDirentVal hx)
  rw [hent]
  exact size_dirent_lt b i

/-- The buffer for a file that is found. -/
lemma appendBuffer_of_found (hs : s.mounted = true) (hx : s.findDirentVal name = some x)
    (hle : ¬ maxFileSize < u32 (x.ent.size + len)) :
    s.appendBuffer name len = some {
      allocated := if u32 (x.ent.size + len) = 0 then 1 else u32 (x.ent.size + len)
      writes := (if 0 < x.ent.size then [(0, (s.putEntry x.ent x.ent.size).1.length)] else []) ++
        if 0 < len ∧ (s.putEntry x.ent x.ent.size).2 = true then [(x.ent.size, len)] else [] } := by
  rw [appendBuffer, if_neg (by rw [hs]; simp), hx, Option.bind_some, if_neg hle]

/-- The writes to the buffer are inside the bytes of the old and the new content. -/
lemma writes_le {w : ℕ × ℕ}
    (hw : w ∈ (if 0 < x.ent.size then [(0, (s.putEntry x.ent x.ent.size).1.length)] else []) ++
      if 0 < len ∧ (s.putEntry x.ent x.ent.size).2 = true then [(x.ent.size, len)] else []) :
    w.1 + w.2 ≤ x.ent.size + len := by
  have hput := s.length_putEntry_le x.ent x.ent.size
  rw [mem_append] at hw
  obtain hw | hw := hw
  · split_ifs at hw
    · rw [mem_singleton] at hw
      rw [hw]
      show 0 + _ ≤ _
      omega
    · cases hw
  · split_ifs at hw
    · rw [mem_singleton] at hw
      rw [hw]
    · cases hw

/-- A sum of the sizes that wraps around. -/
lemma u32_of_wrap (hx : s.findDirentVal name = some x) (hlen : len < 4294967296)
    (hle : 4294967296 ≤ x.ent.size + len) :
    u32 (x.ent.size + len) = x.ent.size + len - 4294967296 := by
  have hlt := size_lt_of_findDirentVal hx
  unfold u32
  omega

/-- There is a buffer only if the limit is kept. -/
lemma not_lt_of_appendBuffer {b : Buffer} (hx : s.findDirentVal name = some x)
    (hb : s.appendBuffer name len = some b) : ¬ maxFileSize < u32 (x.ent.size + len) := by
  intro hmax
  rw [appendBuffer, hx, Option.bind_some, if_pos hmax, ite_self] at hb
  cases hb

/-- **When the writes stay inside the buffer.** -/
lemma appendInBuffer_iff (hs : s.mounted = true) (name : List UInt8) (hlen : len < 4294967296) :
    s.AppendInBuffer name len ↔ ∀ x, s.findDirentVal name = some x →
      x.ent.size + len < 4294967296 ∨ maxFileSize < u32 (x.ent.size + len) := by
  constructor
  · intro h x hx
    by_contra hcon
    rw [not_or, Nat.not_lt] at hcon
    have hall := (h x _ hx (appendBuffer_of_found hs hx hcon.2)).1
    have hlt := size_lt_of_findDirentVal hx
    simp only [u32_of_wrap hx hlen hcon.1] at hall
    split_ifs at hall <;> omega
  · intro h x b hx hb
    have hle := not_lt_of_appendBuffer hx hb
    obtain hlt | hmax := h x hx
    · rw [appendBuffer_of_found hs hx hle, Option.some_inj] at hb
      subst hb
      refine ⟨?_, fun w hw => writes_le hw⟩
      show _ ≤ if u32 (x.ent.size + len) = 0 then 1 else u32 (x.ent.size + len)
      rw [u32_of_lt hlt]
      split_ifs <;> omega
    · exact absurd hmax hle

/-- The call of the model has no result exactly when the writes leave the buffer. -/
lemma fatAppendFile_eq_none_iff (hs : s.mounted = true) (name data : List UInt8)
    (mem : ℕ → UInt8) (hlen : data.length < 4294967296) :
    s.fatAppendFile name data (some mem) = none ↔ ¬ s.AppendInBuffer name data.length := by
  rw [appendInBuffer_iff hs name hlen, fatAppendFile, if_neg (by rw [hs]; simp)]
  cases hx : s.findDirentVal name with
  | none => simp
  | some x =>
    have hlt := size_lt_of_findDirentVal hx
    simp only [Option.elim_some, Option.some.injEq, forall_eq', not_or]
    by_cases hmax : maxFileSize < u32 (x.ent.size + data.length)
    · simp [hmax]
    rw [if_neg hmax]
    by_cases hsum : x.ent.size + data.length < 4294967296
    · rw [if_neg (by rw [u32_of_lt hsum]; omega)]
      cases s.readEntry x.ent x.ent.size <;> simp [hsum]
    · rw [if_pos (by rw [u32_of_wrap hx hlen (by omega)]; omega)]
      simp [hsum, hmax]

end Fs

/-- **When the writes of `fat_append_file` stay inside its buffer**: exactly when there is no such
file, or the two sizes have a sum below `2 ^ 32`, or the sum that wrapped around is above the limit
and the call is refused. Otherwise, unless the old bytes cannot be read, the new bytes are copied
behind the end of the buffer. -/
theorem append_in_buffer_iff {s : Fs} (hs : s.mounted = true) (name : List UInt8) {len : ℕ}
    (hlen : len < 4294967296) :
    (s.AppendInBuffer name len ↔ ∀ x, s.findDirentVal name = some x →
      x.ent.size + len < 4294967296 ∨ Fs.maxFileSize < u32 (x.ent.size + len)) ∧
    ∀ x b, s.findDirentVal name = some x → s.appendBuffer name len = some b →
      4294967296 ≤ x.ent.size + len → (s.putEntry x.ent x.ent.size).2 = true →
      ∃ w ∈ b.writes, 0 < w.2 ∧ b.allocated ≤ w.1 ∧ w.1 < 4294967296 := by
  refine ⟨Fs.appendInBuffer_iff hs name hlen, ?_⟩
  intro x b hx hb hle hread
  have hlt := Fs.size_lt_of_findDirentVal hx
  rw [Fs.appendBuffer_of_found hs hx (Fs.not_lt_of_appendBuffer hx hb), Option.some_inj] at hb
  subst hb
  have hpos : 0 < len := by omega
  refine ⟨(x.ent.size, len), ?_, hpos, ?_, hlt⟩
  · apply mem_append_right
    rw [if_pos ⟨hpos, hread⟩]
    exact mem_singleton.2 rfl
  · show (if u32 (x.ent.size + len) = 0 then 1 else u32 (x.ent.size + len)) ≤ x.ent.size
    rw [Fs.u32_of_wrap hx hlen hle]
    split_ifs <;> omega

/-- A file whose size is the largest number of 32 bits: for two new bytes one byte is allocated, and
they are copied far behind it. -/
theorem append_overruns_buffer : (forgedFs 0 4294967295).1 = true ∧
    ((forgedFs 0 4294967295).2.appendBuffer (ascii "A".toList) 2).map
      (fun b => (b.allocated, b.writes)) = some (1, [(0, 0), (4294967295, 2)]) ∧
    ¬ (forgedFs 0 4294967295).2.AppendInBuffer (ascii "A".toList) 2 := by
  have hbuf : ((forgedFs 0 4294967295).2.appendBuffer (ascii "A".toList) 2).map
      (fun b => (b.allocated, b.writes)) = some (1, [(0, 0), (4294967295, 2)]) := by
    decide +kernel
  refine ⟨by decide +kernel, hbuf, fun h => ?_⟩
  have hsize : ((forgedFs 0 4294967295).2.findDirentVal (ascii "A".toList)).map
      (fun x => x.ent.size) = some 4294967295 := by decide +kernel
  obtain ⟨b, hb, hpair⟩ := Option.map_eq_some_iff.1 hbuf
  obtain ⟨x, hx, hxsize⟩ := Option.map_eq_some_iff.1 hsize
  have hle := (h x b hx hb).1
  rw [Prod.mk.injEq] at hpair
  rw [hxsize, hpair.1] at hle
  omega

/-- A file of five bytes, and two new ones. -/
theorem append_in_buffer_iff_small : (forgedFs 0 5).2.mounted = true ∧
    ((forgedFs 0 5).2.AppendInBuffer (ascii "A".toList) 2 ↔
      ∀ x, (forgedFs 0 5).2.findDirentVal (ascii "A".toList) = some x →
        x.ent.size + 2 < 4294967296 ∨ Fs.maxFileSize < u32 (x.ent.size + 2)) := by
  have hs : (forgedFs 0 5).2.mounted = true := by decide +kernel
  exact ⟨hs, (append_in_buffer_iff hs (ascii "A".toList) (by decide)).1⟩

end BengalTiger.Fat
