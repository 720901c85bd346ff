import BengalTiger.Common
import BengalTiger.Lib.ByteMem

set_option autoImplicit false

/-!
# The disk driver

`ata_read_sector` and `ata_write_sector` of `kernel/disk.c` on a hard disk or on the RAM disk. A
sector of the hard disk is selected by four register writes that hold 28 bits of its number; the
code does not look at the other four. The ports are an arbitrary environment: a port that is read
may show anything, and what is written is kept in a list, from which the registers of the drive are
read.

The list of drives, the identification and the capacity are left out.

## Main definitions

* `Disk.Io` — the ports; `Disk.address` — the address in the registers.
* `Disk.ataSetupLba28`, `Disk.ataReadSector`,
  `Disk.ataWriteSector` — the code.

## Main results

* `Disk.address_ataReadSector`, `Disk.address_ataWriteSector` — a successful
  access is to the sector modulo `2 ^ 28`.
* `Disk.ataReadSector_ready`, `Disk.ataWriteSector_ready` — on a drive that
  is ready an access succeeds.
-/

namespace BengalTiger.Disk

open ByteMem

/-! ## Ports -/

/-- The ports: the values that reads will return, how many there were, and the writes, the latest
first. -/
structure Io where
  input : ℕ → ℕ → UInt8
  word : ℕ → UInt16
  reads : ℕ
  words : ℕ
  writes : List (ℕ × ℕ)

/-- `inb`. -/
def Io.inb (io : Io) (port : ℕ) : UInt8 × Io :=
  (io.input io.reads port, { io with reads := io.reads + 1 })

/-- `inw` from the data port. -/
def Io.inw (io : Io) : UInt16 × Io := (io.word io.words, { io with words := io.words + 1 })

/-- `outb` and `outw`. -/
def Io.out (io : Io) (port value : ℕ) : Io := { io with writes := (port, value) :: io.writes }

/-! ## The code -/

/-- The fields of `ata_drive_t` that an access uses. -/
structure Drive where
  channel : ℕ
  isMaster : Bool
  present : Bool

/-- `ramdisk_active`, `ramdisk_buf` and `active_hdd`. -/
structure Disks where
  ramdiskActive : Bool
  ramdiskBuf : Option Mem
  activeHdd : Option Drive

/-- `SECTOR_SIZE`. -/
def sectorSize : ℕ := 512

/-- `RAMDISK_SECTORS`. -/
def ramdiskSectors : ℕ := 1024

/-- `ATA_TIMEOUT`. -/
def ataTimeout : ℕ := 200000

/-- `ATA_MAX_RETRIES`. -/
def ataMaxRetries : ℕ := 3

/-- `ata_base_port`. -/
def ataBasePort (channel : ℕ) : ℕ := if channel = 0 then 0x1F0 else 0x170

/-- `ata_ctrl_port`. -/
def ataCtrlPort (channel : ℕ) : ℕ := if channel = 0 then 0x3F6 else 0x376

/-- `ata_delay_ch`. -/
def ataDelayCh (channel : ℕ) (io : Io) : Io :=
  (List.range 4).foldl (fun io _ => (io.inb (ataCtrlPort channel)).2) io

/-- A loop that reads the status until it has a verdict, at most as often as the first number
says. -/
def wait (verdict : UInt8 → Option Bool) (base : ℕ) : ℕ → Io → Bool × Io
  | 0, io => (false, io)
  | n + 1, io =>
    let r := io.inb (base + 7)
    (verdict r.1).elim (wait verdict base n r.2) fun ok => (ok, r.2)

/-- `ata_wait_not_bsy`. -/
def ataWaitNotBsy (base : ℕ) : Io → Bool × Io :=
  wait (fun status =>
    if status = 0xFF then some false
    else if status &&& 0x80 = 0 then some true
    else none) base (ataTimeout - 1)

/-- `ata_wait_ready`. -/
def ataWaitReady (activeHdd : Option Drive) : Io → Bool × Io :=
  wait (fun status =>
    if status = 0xFF then some false
    else if status &&& (0x01 ||| 0x20) ≠ 0 then some false
    else if status &&& 0x80 = 0 ∧ status &&& 0x40 ≠ 0 then some true
    else none) (ataBasePort (activeHdd.elim 0 Drive.channel)) (ataTimeout - 1)

/-- `ata_wait_drq_ch`. -/
def ataWaitDrqCh (base : ℕ) : Io → Bool × Io :=
  wait (fun status =>
    if status &&& (0x01 ||| 0x20) ≠ 0 then some false
    else if status &&& 0x80 = 0 ∧ status &&& 0x08 ≠ 0 then some true
    else none) base (ataTimeout - 1)

/-- `ata_soft_reset`. -/
def ataSoftReset (channel : ℕ) (io : Io) : Io :=
  ataDelayCh channel
    ((ataDelayCh channel (io.out (ataCtrlPort channel) 0x04)).out (ataCtrlPort channel) 0x00)

/-- The value for the device-select register. -/
def deviceSelect (drv : Drive) (lba : ℕ) : ℕ :=
  (if drv.isMaster then 0xA0 else 0xB0) ||| 0x40 ||| ((lba >>> 24) &&& 0x0F)

/-- `ata_setup_lba28` for the active drive. -/
def ataSetupLba28 (drv : Drive) (lba : ℕ) (io : Io) : Bool × Io :=
  let base := ataBasePort drv.channel
  let r := ataWaitNotBsy base io
  if r.1 = false then (false, r.2)
  else
    let w := ataWaitReady (some drv)
      (ataDelayCh drv.channel (r.2.out (base + 6) (deviceSelect drv lba)))
    if w.1 = false then (false, w.2)
    else (true, (((w.2.out (base + 2) 1).out (base + 3) (lba &&& 0xFF)).out (base + 4)
      ((lba >>> 8) &&& 0xFF)).out (base + 5) ((lba >>> 16) &&& 0xFF))

/-- The loop of an access: after a failed attempt the channel is reset. -/
def ataCommand {α : Type} (drv : Drive) (lba cmd : ℕ) (transfer : Io → α × Io) :
    ℕ → Io → Option α × Io
  | 0, io => (none, io)
  | retries + 1, io =>
    let base := ataBasePort drv.channel
    let r := ataSetupLba28 drv lba io
    if r.1 = false then ataCommand drv lba cmd transfer retries (ataSoftReset drv.channel r.2)
    else
      let w := ataWaitDrqCh base (r.2.out (base + 7) cmd)
      if w.1 = false then ataCommand drv lba cmd transfer retries (ataSoftReset drv.channel w.2)
      else (some (transfer w.2).1, (transfer w.2).2)

/-- The words of a sector are read from the data port. -/
def readWords : ℕ → Io → List UInt8 × Io
  | 0, io => ([], io)
  | n + 1, io =>
    let r := readWords n io.inw.2
    (io.inw.1.toUInt8 :: (io.inw.1 >>> 8).toUInt8 :: r.1, r.2)

/-- The words of a sector are written to the data port, and then to the medium. -/
def writeWords (base : ℕ) (buf : List UInt8) (io : Io) : Unit × Io :=
  let io := (List.range 256).foldl (fun io i =>
    io.out base ((buf.getD (2 * i) 0).toNat + 256 * (buf.getD (2 * i + 1) 0).toNat)) io
  ((), (ataWaitNotBsy base (io.out (base + 7) 0xE7)).2)

/-- `ata_read_sector`: whether it returns 0, and the contents of the buffer. -/
def ataReadSector (d : Disks) (lba : ℕ) (io : Io) : (Bool × List UInt8) × Io :=
  let failed := List.replicate sectorSize 0
  if d.ramdiskActive then
    (d.ramdiskBuf.elim (false, failed) fun m =>
      if lba ≥ ramdiskSectors then (false, failed)
      else (true, read m (lba * sectorSize) sectorSize), io)
  else d.activeHdd.elim ((false, failed), io) fun drv =>
    if drv.present = false then ((false, failed), io)
    else
      let r := ataCommand drv lba 0x20 (readWords 256) ataMaxRetries io
      (r.1.elim (false, failed) fun bytes => (true, bytes), r.2)

/-- `ata_write_sector`: whether it returns 0, and the disks afterwards. -/
def ataWriteSector (d : Disks) (lba : ℕ) (buf : List UInt8) (io : Io) : (Bool × Disks) × Io :=
  if d.ramdiskActive then
    (d.ramdiskBuf.elim (false, d) fun m =>
      if lba ≥ ramdiskSectors then (false, d)
      else (true, { d with ramdiskBuf := some (write m (lba * sectorSize) (buf.take sectorSize)) }),
      io)
  else d.activeHdd.elim ((false, d), io) fun drv =>
    if drv.present = false then ((false, d), io)
    else
      let r := ataCommand drv lba 0x30 (writeWords (ataBasePort drv.channel) buf) ataMaxRetries io
      ((r.1.isSome, d), r.2)

/-! ## The registers of the drive -/

/-- The last value written to a port. -/
def reg (writes : List (ℕ × ℕ)) (port : ℕ) : ℕ :=
  ((writes.find? fun w => w.1 = port).map Prod.snd).getD 0

/-- **The address in the registers**: four bits of the device-select register and the three LBA
registers. -/
def address (writes : List (ℕ × ℕ)) (base : ℕ) : ℕ :=
  (reg writes (base + 6) &&& 0x0F) <<< 24 ||| reg writes (base + 5) <<< 16 |||
    reg writes (base + 4) <<< 8 ||| reg writes (base + 3)

variable {writes : List (ℕ × ℕ)} {base port value lba : ℕ} {io : Io} {drv : Drive}

lemma reg_cons_self : reg ((port, value) :: writes) port = value := by
  simp [reg]

lemma reg_cons_of_ne {p : ℕ} (h : port ≠ p) : reg ((port, value) :: writes) p = reg writes p := by
  simp [reg, h]

/-- Writes to other ports leave the address. -/
lemma address_cons (h : port < base + 3 ∨ base + 6 < port) :
    address ((port, value) :: writes) base = address writes base := by
  simp only [address, reg_cons_of_ne (show port ≠ base + 6 by omega),
    reg_cons_of_ne (show port ≠ base + 5 by omega), reg_cons_of_ne (show port ≠ base + 4 by omega),
    reg_cons_of_ne (show port ≠ base + 3 by omega)]

lemma writes_ataDelayCh (channel : ℕ) (io : Io) : (ataDelayCh channel io).writes = io.writes := rfl

/-- A wait writes nothing. -/
lemma writes_wait (verdict : UInt8 → Option Bool) (base n : ℕ) (io : Io) :
    (wait verdict base n io).2.writes = io.writes := by
  induction n generalizing io with
  | zero => rfl
  | succ n ih =>
    rw [wait]
    cases verdict (io.inb (base + 7)).1 with
    | none => exact ih _
    | some ok => rfl

lemma writes_readWords (n : ℕ) (io : Io) : (readWords n io).2.writes = io.writes := by
  induction n generalizing io with
  | zero => rfl
  | succ n ih => exact ih _

/-- The words go to the data port and the command register. -/
lemma address_writeWords (base : ℕ) (buf : List UInt8) (io : Io) :
    address (writeWords base buf io).2.writes base = address io.writes base := by
  have hdata : ∀ (l : List ℕ) (io : Io), address (l.foldl (fun io i =>
      io.out base ((buf.getD (2 * i) 0).toNat + 256 * (buf.getD (2 * i + 1) 0).toNat)) io).writes
        base = address io.writes base := by
    intro l
    induction l with
    | nil => exact fun io => rfl
    | cons i l ih =>
      intro io
      rw [List.foldl_cons, ih]
      exact address_cons (by omega)
  rw [writeWords, ataWaitNotBsy, writes_wait]
  refine (address_cons (by omega)).trans (hdata _ io)

/-- The low bits of the device-select register. -/
lemma deviceSelect_and (drv : Drive) (lba : ℕ) :
    deviceSelect drv lba &&& 0x0F = lba / 16777216 % 16 := by
  have hlow : (lba >>> 24) &&& 0x0F = lba / 16777216 % 16 := by
    rw [Nat.shiftRight_eq_div_pow, Nat.and_two_pow_sub_one_eq_mod _ 4]
  have hlt : lba / 16777216 % 16 < 16 := Nat.mod_lt _ (by decide)
  have hall : ∀ n < 16, (0xA0 ||| 0x40 ||| n) &&& 0x0F = n ∧
      (0xB0 ||| 0x40 ||| n) &&& 0x0F = n := by
    decide
  unfold deviceSelect
  rw [hlow]
  split_ifs
  · exact (hall _ hlt).1
  · exact (hall _ hlt).2

/-- The four parts of the address. -/
lemma address_parts (lba : ℕ) : (lba / 16777216 % 16) <<< 24 ||| ((lba >>> 16) &&& 0xFF) <<< 16 |||
    ((lba >>> 8) &&& 0xFF) <<< 8 ||| (lba &&& 0xFF) = lba % 268435456 := by
  have hlow : lba % 2 ^ 8 < 2 ^ 8 := Nat.mod_lt _ (by decide)
  have hmid : (lba / 2 ^ 8 % 2 ^ 8) <<< 8 + lba % 2 ^ 8 < 2 ^ 16 := by
    rw [Nat.shiftLeft_eq]
    omega
  have hhigh : (lba / 2 ^ 16 % 2 ^ 8) <<< 16 + ((lba / 2 ^ 8 % 2 ^ 8) <<< 8 + lba % 2 ^ 8) <
      2 ^ 24 := by
    rw [Nat.shiftLeft_eq, Nat.shiftLeft_eq]
    omega
  simp only [Nat.and_two_pow_sub_one_eq_mod _ 8, Nat.shiftRight_eq_div_pow]
  rw [Nat.or_assoc, Nat.or_assoc, ← Nat.shiftLeft_add_eq_or_of_lt hlow,
    ← Nat.shiftLeft_add_eq_or_of_lt hmid, ← Nat.shiftLeft_add_eq_or_of_lt hhigh]
  simp only [Nat.shiftLeft_eq]
  omega

/-- **The registers after `ata_setup_lba28`** hold the low 28 bits of the sector number. -/
lemma address_ataSetupLba28 (h : (ataSetupLba28 drv lba io).1 = true) :
    address (ataSetupLba28 drv lba io).2.writes (ataBasePort drv.channel) = lba % 268435456 := by
  unfold ataSetupLba28 at h ⊢
  simp only at h ⊢
  split_ifs at h ⊢
  have hne : ∀ i j : ℕ, i ≠ j → ataBasePort drv.channel + i ≠ ataBasePort drv.channel + j := by
    omega
  simp only [Io.out, ataWaitReady, writes_wait, writes_ataDelayCh, address]
  rw [reg_cons_of_ne (hne 5 6 (by decide)), reg_cons_of_ne (hne 4 6 (by decide)),
    reg_cons_of_ne (hne 3 6 (by decide)), reg_cons_of_ne (hne 2 6 (by decide)), reg_cons_self,
    reg_cons_self, reg_cons_of_ne (hne 5 4 (by decide)), reg_cons_self,
    reg_cons_of_ne (hne 5 3 (by decide)), reg_cons_of_ne (hne 4 3 (by decide)), reg_cons_self,
    deviceSelect_and, address_parts]

/-- **A successful access** is to the sector modulo `2 ^ 28`, if the transfer leaves the address.

**Proof sketch.** Induction on the attempts. Whatever the failed ones wrote, the successful one
begins with `ata_setup_lba28`, and only the command register and the data port are written after
it. -/
lemma address_ataCommand {α : Type} {cmd : ℕ} {transfer : Io → α × Io}
    (htransfer : ∀ io, address (transfer io).2.writes (ataBasePort drv.channel) =
      address io.writes (ataBasePort drv.channel))
    {retries : ℕ} (h : (ataCommand drv lba cmd transfer retries io).1.isSome) :
    address (ataCommand drv lba cmd transfer retries io).2.writes (ataBasePort drv.channel) =
      lba % 268435456 := by
  induction retries generalizing io with
  | zero => cases h
  | succ retries ih =>
    rw [ataCommand] at h ⊢
    simp only at h ⊢
    by_cases hsetup : (ataSetupLba28 drv lba io).1 = false
    · rw [if_pos hsetup] at h ⊢
      exact ih h
    · rw [if_neg hsetup] at h ⊢
      split_ifs at h ⊢
      · exact ih h
      · rw [htransfer, ataWaitDrqCh, writes_wait]
        refine (address_cons (by omega)).trans (address_ataSetupLba28 ?_)
        simpa using hsetup

/-! ## Accesses -/

variable {d : Disks}

/-- **A successful read** from the hard disk is from the sector modulo `2 ^ 28`. -/
theorem address_ataReadSector (hram : d.ramdiskActive = false) (hdrv : d.activeHdd = some drv)
    (h : (ataReadSector d lba io).1.1 = true) :
    address (ataReadSector d lba io).2.writes (ataBasePort drv.channel) = lba % 268435456 := by
  unfold ataReadSector at h ⊢
  simp only [hram, hdrv, Bool.false_eq_true, if_false, Option.elim_some] at h ⊢
  split_ifs at h ⊢
  refine address_ataCommand (fun io => ?_) ?_
  · rw [writes_readWords]
  · cases hres : (ataCommand drv lba 0x20 (readWords 256) ataMaxRetries io).1 with
    | none =>
      rw [hres] at h
      cases h
    | some bytes => rfl

/-- **A successful write** to the hard disk is to the sector modulo `2 ^ 28`. -/
theorem address_ataWriteSector {buf : List UInt8} (hram : d.ramdiskActive = false)
    (hdrv : d.activeHdd = some drv) (h : (ataWriteSector d lba buf io).1.1 = true) :
    address (ataWriteSector d lba buf io).2.writes (ataBasePort drv.channel) =
      lba % 268435456 := by
  unfold ataWriteSector at h ⊢
  simp only [hram, hdrv, Bool.false_eq_true, if_false, Option.elim_some] at h ⊢
  split_ifs at h ⊢
  exact address_ataCommand (fun io => address_writeWords _ buf io) h

/-- Ports that show a drive which is ready for every transfer. -/
def readyIo : Io := ⟨fun _ _ => 0x58, fun _ => 0, 0, 0, []⟩

@[simp]
lemma input_out (io : Io) (port value : ℕ) : (io.out port value).input = io.input := rfl

lemma wait_ready {verdict : UInt8 → Option Bool} (h : verdict 0x58 = some true) (base : ℕ)
    (hio : io.input = readyIo.input) : (wait verdict base (ataTimeout - 1) io).1 = true ∧
      (wait verdict base (ataTimeout - 1) io).2.input = readyIo.input := by
  have hstatus : (io.inb (base + 7)).1 = 0x58 := by
    rw [Io.inb, hio]
    rfl
  have htimeout : ataTimeout - 1 = 199998 + 1 := rfl
  rw [htimeout, wait]
  simp only [hstatus, h, Option.elim_some, true_and]
  exact hio

/-- A drive that is ready stays so while the address is set up. -/
lemma ataSetupLba28_ready (drv : Drive) (lba : ℕ) (hio : io.input = readyIo.input) :
    (ataSetupLba28 drv lba io).1 = true ∧
      (ataSetupLba28 drv lba io).2.input = readyIo.input := by
  have hbsy : (ataWaitNotBsy (ataBasePort drv.channel) io).1 = true ∧
      (ataWaitNotBsy (ataBasePort drv.channel) io).2.input = readyIo.input :=
    wait_ready (by decide) _ hio
  have hready : ∀ {io : Io}, io.input = readyIo.input → (ataWaitReady (some drv) io).1 = true ∧
      (ataWaitReady (some drv) io).2.input = readyIo.input := fun hio =>
    wait_ready (by decide) _ hio
  obtain ⟨hok, hinput⟩ := @hready (ataDelayCh drv.channel
    ((ataWaitNotBsy (ataBasePort drv.channel) io).2.out (ataBasePort drv.channel + 6)
      (deviceSelect drv lba))) hbsy.2
  unfold ataSetupLba28
  simp only [hbsy.1, hok, hinput, input_out, Bool.true_eq_false, if_false, and_self]

/-- **On a drive that is ready an access succeeds**, whatever the sector number. -/
lemma ataCommand_ready {α : Type} (drv : Drive) (lba cmd : ℕ) (transfer : Io → α × Io) :
    (ataCommand drv lba cmd transfer ataMaxRetries readyIo).1.isSome := by
  have hretries : ataMaxRetries = 2 + 1 := rfl
  obtain ⟨hok, hinput⟩ := @ataSetupLba28_ready readyIo drv lba rfl
  have hdrq : (ataWaitDrqCh (ataBasePort drv.channel) ((ataSetupLba28 drv lba readyIo).2.out
      (ataBasePort drv.channel + 7) cmd)).1 = true := by
    rw [ataWaitDrqCh]
    refine (wait_ready ?_ _ ?_).1
    · decide
    · rw [input_out, hinput]
  rw [hretries, ataCommand]
  simp only [hok, hdrq, Bool.true_eq_false, if_false, Option.isSome_some]

/-- A drive that is ready is read. -/
lemma ataReadSector_ready (hram : d.ramdiskActive = false) (hdrv : d.activeHdd = some drv)
    (hpresent : drv.present = true) (lba : ℕ) : (ataReadSector d lba readyIo).1.1 = true := by
  have hsome := ataCommand_ready drv lba 0x20 (readWords 256)
  rw [Option.isSome_iff_exists] at hsome
  obtain ⟨bytes, hbytes⟩ := hsome
  unfold ataReadSector
  simp only [hram, hdrv, hpresent, hbytes, Bool.false_eq_true, Bool.true_eq_false, if_false,
    Option.elim_some]

lemma ataWriteSector_ready (hram : d.ramdiskActive = false) (hdrv : d.activeHdd = some drv)
    (hpresent : drv.present = true) (lba : ℕ) (buf : List UInt8) :
    (ataWriteSector d lba buf readyIo).1.1 = true := by
  unfold ataWriteSector
  simp only [hram, hdrv, hpresent, ataCommand_ready, Bool.false_eq_true, Bool.true_eq_false,
    if_false, Option.elim_some]

end BengalTiger.Disk
