import BengalTiger.Lib.BlockDevice
import BengalTiger.Fat.Name

set_option autoImplicit false

/-!
# The FAT file system driver

The functions of `kernel/fat.c` over a block device. Reads and writes of sectors in the range of
the device succeed, others fail, as `ata_read_sector` and `ata_write_sector` report. Sector numbers
are `uint32_t`; sums and products are reduced when a sector is accessed or a global is stored,
differences and table offsets where they are formed.

A loop over the root directory only reads, so it is a function of the list of slots that it comes
by: `rootSlots` ends where a sector cannot be read. A caller's buffer is the list of the bytes put
into it; the memory that `kmalloc` returns is an argument, `none` when there is none.

## Main definitions

* `Fat.Fs` — the device and the globals of the driver.
* `Fat.Fs.getFatEntry`, `Fat.Fs.setFatEntry`,
  `Fat.Fs.freeClusterChain`, `Fat.Fs.allocateCluster` — the table.
* `Fat.Fs.fatReadFile`, `Fat.Fs.fatWriteFile` and the other calls.
* `Fat.Fs.mountAtLba`, `Fat.Fs.fatFormat`.
-/

namespace BengalTiger.Fat

open BlockDevice

/-- A sector of 512 bytes. -/
abbrev Sector := Block 512

/-! ## Byte order -/

/-- `rd_le16`. -/
def rdLe16 (lo hi : UInt8) : ℕ := lo.toNat + 256 * hi.toNat

/-- The two-byte field at an offset. -/
def le16 (b : Sector) (i : ℕ) : ℕ := rdLe16 (b.get i) (b.get (i + 1))

/-- The four-byte field at an offset. -/
def le32 (b : Sector) (i : ℕ) : ℕ := le16 b i + 65536 * le16 b (i + 2)

/-- `wr_le16`: the bytes written. -/
def wrLe16 (v : ℕ) : List UInt8 := [UInt8.ofNat v, UInt8.ofNat (v / 256)]

/-- The bytes of a four-byte field. -/
def wrLe32 (v : ℕ) : List UInt8 := wrLe16 v ++ wrLe16 (v / 65536)

/-! ## The boot sector -/

/-- The fields of `fat_boot_t` that are used after mounting. -/
structure Boot where
  bytesPerSector : ℕ
  sectorsPerCluster : ℕ
  reservedSectors : ℕ
  numFats : ℕ
  rootEntries : ℕ
  totalSectors16 : ℕ
  fatSize16 : ℕ
  totalSectors32 : ℕ
  volLabel : List UInt8

/-- The boot sector read as a `fat_boot_t`. -/
def Boot.ofSector (b : Sector) : Boot where
  bytesPerSector := le16 b 11
  sectorsPerCluster := (b.get 13).toNat
  reservedSectors := le16 b 14
  numFats := (b.get 16).toNat
  rootEntries := le16 b 17
  totalSectors16 := le16 b 19
  fatSize16 := le16 b 22
  totalSectors32 := le32 b 32
  volLabel := (List.range 11).map fun k => b.get (43 + k)

/-- `total_sectors_16 ? total_sectors_16 : total_sectors_32`. -/
def Boot.total (boot : Boot) : ℕ :=
  if boot.totalSectors16 ≠ 0 then boot.totalSectors16 else boot.totalSectors32

/-- The sectors of the root directory. -/
def Boot.rootSectors (boot : Boot) : ℕ := (boot.rootEntries * 32 + 511) / 512

/-- `is_valid_bpb`. -/
def isValidBpb (b : Sector) : Prop :=
  b.get 510 = 0x55 ∧ b.get 511 = 0xAA ∧
    let boot := Boot.ofSector b
    boot.bytesPerSector = 512 ∧
    boot.sectorsPerCluster ≠ 0 ∧ boot.sectorsPerCluster &&& (boot.sectorsPerCluster - 1) = 0 ∧
    boot.reservedSectors ≠ 0 ∧ 1 ≤ boot.numFats ∧ boot.numFats ≤ 4 ∧
    boot.rootEntries ≠ 0 ∧ boot.fatSize16 ≠ 0 ∧
    boot.reservedSectors + boot.numFats * boot.fatSize16 + boot.rootSectors < boot.total

instance (b : Sector) : Decidable (isValidBpb b) := by
  unfold isValidBpb
  infer_instance

/-! ## Directory entries -/

/-- The fields of `fat_dirent_t` that are used. -/
structure Dirent where
  /-- `name` and `ext`. -/
  name : List UInt8
  attr : UInt8
  /-- `cluster_low | (cluster_high << 16)`. -/
  cluster : ℕ
  size : ℕ

/-- The first byte of the name, which marks free slots. -/
def Dirent.first (e : Dirent) : UInt8 := e.name.headD 0

/-- The entry is neither part of a long name nor the volume label. -/
def Dirent.isPlain (e : Dirent) : Bool := e.attr != 0x0F && e.attr &&& 0x08 == 0

/-- The slot is taken. -/
def Dirent.isLive (e : Dirent) : Bool := e.first != 0 && e.first != 0xE5

/-- Entry `i` of a sector of the root directory. -/
def dirent (b : Sector) (i : ℕ) : Dirent where
  name := (List.range 11).map fun k => b.get (32 * i + k)
  attr := b.get (32 * i + 11)
  cluster := le16 b (32 * i + 26) + 65536 * le16 b (32 * i + 20)
  size := le32 b (32 * i + 28)

/-- `FAT_ATTR_ARCHIVE`. -/
def attrArchive : UInt8 := 0x20

/-- A sector after an existing entry gets a new chain. -/
def updateDirent (b : Sector) (i first size : ℕ) : Sector :=
  (((b.put (32 * i + 26) (wrLe16 first)).put (32 * i + 20) (wrLe16 (first / 65536))).put
    (32 * i + 28) (wrLe32 size)).put (32 * i + 11) [attrArchive]

/-- A sector after a new entry is made. -/
def createDirent (b : Sector) (i : ℕ) (name : List UInt8) (first size : ℕ) : Sector :=
  b.put (32 * i) (name ++ [attrArchive] ++ List.replicate 8 0 ++ wrLe16 (first / 65536) ++
    List.replicate 4 0 ++ wrLe16 first ++ wrLe32 size)

/-! ## State -/

/-- `fat_type`. -/
inductive FatType where
  | unset
  | fat12
  | fat16
  deriving DecidableEq

/-- The device and the globals of the driver. -/
structure Fs where
  disk : Device 512
  boot : Boot
  volLbaOffset : ℕ
  fatStartSector : ℕ
  rootStartSector : ℕ
  rootSectors : ℕ
  dataStartSector : ℕ
  totalClusters : ℕ
  fatType : FatType
  mounted : Bool

/-- A slot of the root directory: its sector, its index there and its content. -/
structure Slot where
  sector : ℕ
  index : ℕ
  ent : Dirent

namespace Fs

variable (s : Fs)

/-- `ata_read_sector`. -/
def read (lba : ℕ) : Option Sector := s.disk.read (u32 lba)

/-- `ata_write_sector`: the state after it. -/
def write (lba : ℕ) (b : Sector) : Fs := { s with disk := s.disk.write (u32 lba) b }

/-- `ata_write_sector` returns 0. -/
def canWrite (lba : ℕ) : Bool := decide (u32 lba < s.disk.size)

/-- A sector is read, changed and written back; `false` when one of the two fails. -/
def modify (lba : ℕ) (f : Sector → Sector) : Bool × Fs :=
  (s.read lba).elim (false, s) fun b => (s.canWrite lba, s.write lba (f b))

/-! ## The table -/

/-- `eoc_threshold`. -/
def eocThreshold : ℕ := if s.fatType = .fat12 then 0x0FF8 else 0xFFF8

/-- `eoc_marker`. -/
def eocMarker : ℕ := if s.fatType = .fat12 then 0x0FFF else 0xFFFF

/-- `fat_offset`. -/
def fatOffset (cluster : ℕ) : ℕ :=
  if s.fatType = .fat12 then u32 (cluster + cluster / 2) else u32 (cluster * 2)

/-- The value of an entry in the two bytes at its offset: an odd entry of a FAT12 table has the
upper twelve bits, an even one the lower twelve. -/
def decodeEntry (cluster raw : ℕ) : ℕ :=
  if s.fatType = .fat12 then if cluster % 2 = 1 then raw / 16 else raw % 4096 else raw

/-- The two bytes at the offset of an entry after a value is put there. -/
def encodeEntry (cluster raw value : ℕ) : ℕ :=
  if s.fatType = .fat12 then
    if cluster % 2 = 1 then raw % 16 + value % 4096 * 16 else raw / 4096 * 4096 + value % 4096
  else value % 65536

/-- The sectors that hold the two bytes at a table offset: the second one is read only when the
bytes lie in different sectors. -/
def readFat (offset : ℕ) : Option (Sector × Option Sector) := do
  let b ← s.read (s.fatStartSector + offset / 512)
  if offset % 512 = 511 then
    let b' ← s.read (s.fatStartSector + offset / 512 + 1)
    return (b, some b')
  else return (b, none)

/-- The two bytes at a table offset. -/
def rawEntry (offset : ℕ) (bs : Sector × Option Sector) : ℕ :=
  rdLe16 (bs.1.get (offset % 512))
    (bs.2.elim (bs.1.get (offset % 512 + 1)) fun b' => b'.get 0)

/-- `get_fat_entry`. -/
def getFatEntry (cluster : ℕ) : ℕ :=
  if s.mounted = false ∨ cluster < 2 then s.eocMarker
  else (s.readFat (s.fatOffset cluster)).elim s.eocMarker fun bs =>
    s.decodeEntry cluster (rawEntry (s.fatOffset cluster) bs)

/-- The sectors of a table copy that begins at `start`, after the two bytes at an offset are
replaced. -/
def fatWrites (offset value : ℕ) (bs : Sector × Option Sector) (start : ℕ) :
    List (ℕ × Sector) :=
  (u32 (start + offset / 512), bs.1.put (offset % 512) (wrLe16 value)) ::
    bs.2.elim [] fun b' =>
      [(u32 (start + offset / 512 + 1), b'.put 0 [UInt8.ofNat (value / 256)])]

/-- `set_fat_entry`: the sectors of the first copy, with the entry replaced, are written to every
copy. -/
def setFatEntry (cluster value : ℕ) : Fs :=
  if s.mounted = false ∨ cluster < 2 then s
  else (s.readFat (s.fatOffset cluster)).elim s fun bs =>
    let raw := s.encodeEntry cluster (rawEntry (s.fatOffset cluster) bs) value
    let writes := (List.range s.boot.numFats).flatMap fun f =>
      fatWrites (s.fatOffset cluster) raw bs (s.fatStartSector + f * s.boot.fatSize16)
    { s with disk := writes.foldl (fun d w => d.write w.1 w.2) s.disk }

/-- The loop of `free_cluster_chain`. -/
def freeLoop : ℕ → ℕ → Fs → Fs
  | 0, _, s => s
  | guard + 1, c, s =>
    if 2 ≤ c ∧ c < s.eocThreshold then
      freeLoop guard (s.getFatEntry c) (s.setFatEntry c 0)
    else s

/-- `free_cluster_chain`. -/
def freeClusterChain (start : ℕ) : Fs := freeLoop (s.totalClusters + 2) start s

/-- The first sector of a cluster. -/
def clusterSector (c : ℕ) : ℕ := s.dataStartSector + (c - 2) * s.boot.sectorsPerCluster

/-- The sectors of a cluster are filled with zeros. -/
def zeroCluster (c : ℕ) : Fs :=
  (List.range s.boot.sectorsPerCluster).foldl
    (fun t k => t.write (s.clusterSector c + k) (.zero 512)) s

/-- `allocate_cluster`; 0 when no cluster is free. -/
def allocateCluster : ℕ × Fs :=
  ((List.range' 2 s.totalClusters).find? fun c => s.getFatEntry c == 0).elim (0, s) fun c =>
    (c, (s.setFatEntry c s.eocMarker).zeroCluster c)

/-! ## The directory -/

/-- The slots of `n` sectors of the root directory from sector `k` on, up to the first that cannot
be read. -/
def slotsFrom : ℕ → ℕ → List Slot
  | 0, _ => []
  | n + 1, k => (s.read (s.rootStartSector + k)).elim [] fun b =>
    (List.range 16).map (fun i => ⟨s.rootStartSector + k, i, dirent b i⟩) ++ slotsFrom n (k + 1)

/-- The slots of the root directory. -/
def rootSlots : List Slot := s.slotsFrom s.rootSectors 0

/-- The entries that a scan finds: those before the first free slot at the end, without deleted
ones, long names and labels. -/
def listed : List Slot :=
  (s.rootSlots.takeWhile fun x => x.ent.first != 0).filter fun x =>
    x.ent.first != 0xE5 && x.ent.isPlain

/-- `find_dirent_val`. -/
def findDirentVal (name : List UInt8) : Option Slot :=
  if s.mounted = false then none
  else (filenameToFat name).bind fun fatName => s.listed.find? fun x => x.ent.name == fatName

/-- `fat_file_exists`. -/
def fatFileExists (name : List UInt8) : Bool := (s.findDirentVal name).isSome

/-- `fat_stat_file`: name, attributes, size and first cluster. -/
def fatStatFile (name : List UInt8) : Option (List UInt8 × UInt8 × ℕ × ℕ) :=
  (s.findDirentVal name).map fun x =>
    (fatNameToStr x.ent.name, x.ent.attr, x.ent.size, x.ent.cluster)

/-- `fat_enumerate_files`: the names written to the caller's array. -/
def fatEnumerateFiles (maxFiles : ℕ) : List (List UInt8) :=
  if s.mounted = false then [] else (s.listed.take maxFiles).map fun x => fatNameToStr x.ent.name

/-- `fat_fs_info_t`, but for `is_ramdisk`. -/
structure Info where
  mounted : Bool
  fatType : FatType
  volumeStartLba : ℕ
  bytesPerCluster : ℕ
  totalClusters : ℕ
  usedClusters : ℕ
  freeClusters : ℕ
  totalBytes : ℕ
  usedBytes : ℕ
  freeBytes : ℕ
  fileCount : ℕ
  label : List UInt8

/-- `fat_get_fs_info`. -/
def fatGetFsInfo : Info :=
  if s.mounted = false then ⟨false, .unset, 0, 0, 0, 0, 0, 0, 0, 0, 0, []⟩
  else
    let bytesPerCluster := s.boot.sectorsPerCluster * 512
    let used := (List.range' 2 s.totalClusters).countP fun c => s.getFatEntry c != 0
    let free := if used ≤ s.totalClusters then s.totalClusters - used else 0
    { mounted := true
      fatType := s.fatType
      volumeStartLba := s.volLbaOffset
      bytesPerCluster := bytesPerCluster
      totalClusters := s.totalClusters
      usedClusters := used
      freeClusters := free
      totalBytes := u32 (s.totalClusters * bytesPerCluster)
      usedBytes := u32 (used * bytesPerCluster)
      freeBytes := u32 (free * bytesPerCluster)
      fileCount := s.listed.length
      label := (s.boot.volLabel.reverse.dropWhile (· = blank)).reverse }

/-! ## Reading and writing files -/

/-- The sectors of a cluster are read from `sec` on while bytes are wanted; `none` when a read
fails. -/
def readSectors : ℕ → ℕ → ℕ → Option (List UInt8)
  | 0, _, _ => some []
  | n + 1, sec, left =>
    if left = 0 then some []
    else (s.read sec).elim none fun b =>
      (readSectors n (sec + 1) (left - min left 512)).map (b.toList.take (min left 512) ++ ·)

/-- The loop of `fat_read_file` over the chain. -/
def readChain : ℕ → ℕ → ℕ → Option (List UInt8)
  | 0, _, _ => some []
  | guard + 1, c, left =>
    if 2 ≤ c ∧ c < s.eocThreshold ∧ 0 < left then
      (s.readSectors s.boot.sectorsPerCluster (s.clusterSector c) left).elim none fun bytes =>
        (readChain guard (s.getFatEntry c) (left - bytes.length)).map (bytes ++ ·)
    else some []

/-- The loop of `fat_read_file` for an entry: the bytes put into the caller's buffer. -/
def readEntry (e : Dirent) (maxLen : ℕ) : Option (List UInt8) :=
  if maxLen = 0 ∨ e.size = 0 then some []
  else s.readChain (s.totalClusters + 2) e.cluster (min e.size maxLen)

/-- `fat_read_file`: the size reported and the bytes put into the caller's buffer, `none` for the
result -1. -/
def fatReadFile (name : List UInt8) (maxLen : ℕ) : Option (ℕ × List UInt8) :=
  (s.findDirentVal name).bind fun x => (s.readEntry x.ent maxLen).map fun bytes =>
    (x.ent.size, bytes)

/-- The sectors of a cluster are written from `sec` on while bytes are left; the rest, `none` when
a write fails. -/
def writeSectors : ℕ → ℕ → List UInt8 → Fs → Option (List UInt8) × Fs
  | 0, _, rest, s => (some rest, s)
  | n + 1, sec, rest, s =>
    if rest = [] then (some [], s)
    else if s.canWrite sec then
      writeSectors n (sec + 1) (rest.drop 512) (s.write sec (.ofList (rest.take 512)))
    else (none, s)

/-- The loop of `fat_write_file` over the clusters, with the first one allocated. Each round writes
at least one byte, so the length of the data bounds the rounds. -/
def writeChain : ℕ → ℕ → List UInt8 → Fs → Bool × Fs
  | 0, _, _, s => (false, s)
  | fuel + 1, c, rest, s =>
    let r := writeSectors s.boot.sectorsPerCluster (s.clusterSector c) rest s
    r.1.elim (false, r.2) fun rest =>
      if rest = [] then (true, r.2.setFatEntry c r.2.eocMarker)
      else
        let a := r.2.allocateCluster
        if a.1 < 2 then (false, a.2)
        else writeChain fuel a.1 rest (a.2.setFatEntry c a.1)

/-- The data is stored in a new chain: its first cluster, 0 when there is no data, `none` when the
clusters run out. -/
def storeData (data : List UInt8) : Option ℕ × Fs :=
  if data = [] then (some 0, s)
  else
    let a := s.allocateCluster
    if a.1 < 2 then (none, a.2)
    else
      let r := writeChain data.length a.1 data a.2
      (if r.1 then some a.1 else none, r.2)

/-- The slot for a new entry. -/
def freeSlot : Option Slot :=
  s.rootSlots.find? fun x => x.ent.first == 0 || x.ent.first == 0xE5

/-- The end of `fat_write_file`: the entry of the file is changed or made. -/
def writeEntry (found : Option Slot) (fatName : List UInt8) (first size : ℕ) : Bool × Fs :=
  found.elim
    (s.freeSlot.elim (false, s) fun x =>
      s.modify x.sector fun b => createDirent b x.index fatName first size)
    (fun x => s.modify x.sector fun b => updateDirent b x.index first size)

/-- The chain of an existing entry is freed. -/
def freeEntry (x : Slot) : Fs :=
  if 2 ≤ x.ent.cluster then s.freeClusterChain x.ent.cluster else s

/-- `fat_write_file`. -/
def fatWriteFile (name data : List UInt8) : Bool × Fs :=
  if s.mounted = false then (false, s)
  else (filenameToFat name).elim (false, s) fun fatName =>
    let found := s.findDirentVal name
    let r := (found.elim s s.freeEntry).storeData data
    r.1.elim (false, r.2) fun first => r.2.writeEntry found fatName first data.length

/-- `FAT_MAX_FILE_SIZE`. -/
def maxFileSize : ℕ := 262144

/-- The first `n` bytes of a buffer that held `mem` after `bytes` were put into it. -/
def overlay (bytes : List UInt8) (mem : ℕ → UInt8) (n : ℕ) : List UInt8 :=
  (List.range n).map fun i => bytes[i]?.getD (mem i)

/-- `fat_append_file`; `heap` is the memory that `kmalloc` returns. The result is `none` when the
sum of the sizes wraps around and the buffer is too small for what is copied into it. -/
def fatAppendFile (name data : List UInt8) (heap : Option (ℕ → UInt8)) : Option (Bool × Fs) :=
  if s.mounted = false then some (false, s)
  else (s.findDirentVal name).elim (some (s.fatWriteFile name data)) fun x =>
    if maxFileSize < u32 (x.ent.size + data.length) then some (false, s)
    else heap.elim (some (false, s)) fun mem =>
      if u32 (x.ent.size + data.length) < x.ent.size + data.length then none
      else (s.readEntry x.ent x.ent.size).elim (some (false, s)) fun bytes =>
        some (s.fatWriteFile name (overlay bytes mem x.ent.size ++ data))

/-- `fat_delete_file`. -/
def fatDeleteFile (name : List UInt8) : Bool × Fs :=
  (s.findDirentVal name).elim (false, s) fun x =>
    (s.freeEntry x).modify x.sector fun b => b.put (32 * x.index) [0xE5]

/-- `fat_copy_file`; `heap` is the memory that `kmalloc` returns. -/
def fatCopyFile (src dst : List UInt8) (heap : Option (ℕ → UInt8)) : Bool × Fs :=
  if strcasecmp src dst = 0 then (true, s)
  else (s.findDirentVal src).elim (false, s) fun x =>
    if maxFileSize < x.ent.size then (false, s)
    else if x.ent.size = 0 then s.fatWriteFile dst []
    else heap.elim (false, s) fun mem =>
      (s.readEntry x.ent x.ent.size).elim (false, s) fun bytes =>
        s.fatWriteFile dst (overlay bytes mem x.ent.size)

/-- `fat_rename_file`. -/
def fatRenameFile (oldName newName : List UInt8) : Bool × Fs :=
  if strcasecmp oldName newName = 0 then (true, s)
  else if s.fatFileExists newName = true then (false, s)
  else (filenameToFat newName).elim (false, s) fun newFat =>
    (s.findDirentVal oldName).elim (false, s) fun x =>
      s.modify x.sector fun b => b.put (32 * x.index) newFat

/-! ## Mounting and formatting -/

/-- The assignments of `mount_at_lba` before the last check. -/
def withBoot (base : ℕ) (b : Sector) : Fs :=
  let boot := Boot.ofSector b
  let fatStart := u32 (base + boot.reservedSectors)
  let rootStart := u32 (fatStart + boot.numFats * boot.fatSize16)
  let dataStart := u32 (rootStart + boot.rootSectors)
  { s with
    boot := boot
    volLbaOffset := base
    fatStartSector := fatStart
    rootStartSector := rootStart
    rootSectors := boot.rootSectors
    dataStartSector := dataStart
    totalClusters := sub32 boot.total (sub32 dataStart base) / boot.sectorsPerCluster }

/-- `mount_at_lba`. -/
def mountAtLba (base : ℕ) : Bool × Fs :=
  (s.read base).elim (false, s) fun b =>
    if isValidBpb b then
      let t := s.withBoot base b
      if t.totalClusters = 0 ∨ 65525 ≤ t.totalClusters then (false, t)
      else (true, { t with
        fatType := if t.totalClusters < 4085 then .fat12 else .fat16
        mounted := true })
    else (false, s)

/-- Sectors are written in order until a write fails. -/
def writeAll : List (ℕ × Sector) → Fs → Bool × Fs
  | [], s => (true, s)
  | w :: ws, s => if s.canWrite w.1 then writeAll ws (s.write w.1 w.2) else (false, s)

end Fs

/-- The geometry that `fat_format` chooses for a device. -/
structure Geometry where
  diskSecs : ℕ
  spc : ℕ
  rootEnts : ℕ
  rSecs : ℕ
  fatSecs : ℕ
  fat12 : Bool

/-- The reserved sectors and the number of tables. -/
def reserved : ℕ := 1

@[inherit_doc reserved]
def numFats : ℕ := 2

/-- The computation at the beginning of `fat_format`. -/
def formatGeometry (sectors : ℕ) : Geometry :=
  let diskSecs := if 1048576 < sectors then 1048576 else sectors
  let spc := if 524288 ≤ diskSecs then 16 else if 262144 ≤ diskSecs then 8
    else if 16384 ≤ diskSecs then 4 else if 8192 ≤ diskSecs then 2 else 1
  let rootEnts := if diskSecs ≤ 2048 then 112 else 512
  let rSecs := (rootEnts * 32 + 511) / 512
  let approxClusters := sub32 (sub32 diskSecs reserved) rSecs / spc
  let fatBytes := if approxClusters < 4085 then u32 ((approxClusters + 2) * 3 + 1) / 2
    else u32 ((approxClusters + 2) * 2)
  let fatSecs := u16 (u32 (fatBytes + 511) / 512)
  let fatSecs := if fatSecs = 0 then 1 else fatSecs
  let dataSecs := sub32 (sub32 (sub32 diskSecs reserved) (numFats * fatSecs)) rSecs
  { diskSecs := diskSecs
    spc := spc
    rootEnts := rootEnts
    rSecs := rSecs
    fatSecs := fatSecs
    fat12 := decide (approxClusters < 4085 ∨ dataSecs / spc < 4085) }

/-- The volume label: the argument in upper case, or a default. -/
def volLabel (label : List UInt8) : List UInt8 :=
  if cstr label = [] then ascii "BENGAL OS  ".toList
  else padded 11 (((cstr label).take 11).map toUpper)

/-- The boot sector that `fat_format` writes. -/
def bootSector (g : Geometry) (label : List UInt8) : Sector :=
  ((Block.zero 512).put 0
    ([0xEB, 0x3C, 0x90] ++ ascii "BENGALOS".toList ++ wrLe16 512 ++ [UInt8.ofNat g.spc] ++
      wrLe16 reserved ++ [UInt8.ofNat numFats] ++ wrLe16 g.rootEnts ++
      wrLe16 (if g.diskSecs < 65536 then g.diskSecs else 0) ++ [0xF8] ++ wrLe16 g.fatSecs ++
      wrLe16 32 ++ wrLe16 64 ++ wrLe32 0 ++
      wrLe32 (if g.diskSecs < 65536 then 0 else g.diskSecs) ++
      [0x80, 0, 0x29] ++ wrLe32 0x20261031 ++ volLabel label ++
      ascii (if g.fat12 then "FAT12   " else "FAT16   ").toList)).put 510 [0x55, 0xAA]

/-- The first sector of an empty table. -/
def firstFatSector (g : Geometry) : Sector :=
  (Block.zero 512).put 0 (if g.fat12 then [0xF8, 0xFF, 0xFF] else [0xF8, 0xFF, 0xFF, 0xFF])

/-- The sectors that `fat_format` writes, in order. -/
def formatWrites (g : Geometry) (label : List UInt8) : List (ℕ × Sector) :=
  (0, bootSector g label) ::
    ((List.range numFats).flatMap fun f => (List.range g.fatSecs).map fun k =>
      (reserved + f * g.fatSecs + k, if k = 0 then firstFatSector g else .zero 512)) ++
    (List.range g.rSecs).map fun k => (reserved + numFats * g.fatSecs + k, .zero 512)

/-- `hello` of `seed_default_files`. -/
def helloText : List UInt8 :=
  ascii ("Welcome to Bengal Tiger OS v1.0.0 (Royal Bengal)!\n" ++
    "A real-world 32-bit x86 operating system built in C & Assembly.\n").toList

/-- `readme` of `seed_default_files`. -/
def readmeText : List UInt8 :=
  ascii ("=== Bengal Tiger OS v1.0.0 Quick Start ===\n" ++
    "  help              - Show all available shell commands\n" ++
    "  edit notes.txt    - Open full-screen text editor (^S Save, ^Q Quit)\n" ++
    "  sh demo.sh        - Execute a shell script from the filesystem\n" ++
    "  df / disk / mkfs  - View storage or format an ATA hard disk\n" ++
    "  ifconfig / dhcp   - Configure Intel E1000 / RTL8139 network\n" ++
    "  ping 10.0.2.2     - Send real ARP + ICMP Echo Requests\n" ++
    "  spawn / ps / top  - Test preemptive multitasking & task monitor\n" ++
    "  gui               - Launch graphical VBE desktop workspace\n").toList

/-- `demo_sh` of `seed_default_files`. -/
def demoText : List UInt8 :=
  ascii ("# Bengal Tiger OS Demo Script\n" ++
    "echo Running Bengal Tiger OS automated demo...\n" ++
    "info\n" ++ "uptime\n" ++ "calc (21 * 2) + 8\n" ++ "df\n").toList

/-- The files of `seed_default_files`. -/
def seedFiles : List (List UInt8 × List UInt8) :=
  [(ascii "HELLO.TXT".toList, helloText), (ascii "README.TXT".toList, readmeText),
    (ascii "DEMO.SH".toList, demoText), (ascii "CONFIG.CFG".toList, ascii "tiger".toList)]

namespace Fs

/-- `seed_default_files`; the results of the calls are ignored. -/
def seedDefaultFiles (s : Fs) : Fs := seedFiles.foldl (fun t f => (t.fatWriteFile f.1 f.2).2) s

/-- `fat_format` on the selected device. -/
def fatFormat (s : Fs) (label : List UInt8) : Bool × Fs :=
  let s := { s with mounted := false }
  if s.disk.size < 64 then (false, s)
  else
    let r := writeAll (formatWrites (formatGeometry s.disk.size) label) s
    if r.1 then
      let m := r.2.mountAtLba 0
      if m.1 then (true, m.2.seedDefaultFiles) else (false, m.2)
    else (false, r.2)

end Fs

end BengalTiger.Fat
