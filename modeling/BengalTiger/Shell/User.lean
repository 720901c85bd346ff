import Mathlib.Data.List.TakeDrop
import BengalTiger.Fat.Room
import BengalTiger.Shell.Command

set_option autoImplicit false

/-!
# The user name

The command `user` of `kernel/shell.c` sets the name of the active user and stores it in the file
`CONFIG.CFG`; `shell_init` reads the name from there when the system starts. The array for the name
has 32 bytes. The command keeps up to 31 characters, `shell_init` takes up to 30.

## Main definitions

* `Shell.cmdUser` — the command.
* `Shell.initUser` — the part of `shell_init` that reads the name.

## Main results

* `Shell.user_restored_iff` — when the name survives a restart.
-/

namespace BengalTiger.Shell

open Fat List

/-! ## The code -/

/-- The name of the file. -/
def configName : List UInt8 := ascii "CONFIG.CFG".toList

/-- `sizeof(username) - 1`. -/
def nameMax : ℕ := 31

/-- The name that the command `user` takes from its arguments: `strncpy`, cut at the first blank. -/
def userName (args : List UInt8) : List UInt8 := (args.take nameMax).takeWhile (· ≠ blank)

/-- The command `user`: the active name and the file system; what `fat_write_file` returns is not
looked at. -/
def cmdUser (s : Fs) (username args : List UInt8) : List UInt8 × Fs :=
  if args = [] then (username, s)
  else (userName args, (s.fatWriteFile configName (userName args)).2)

/-- The characters that end the name in the file. -/
def endsName (c : UInt8) : Bool := c = newline ∨ c = 13 ∨ c = blank

/-- The part of `shell_init` that reads the name; `username` is the name before it. -/
def initUser (s : Fs) (username : List UInt8) : List UInt8 :=
  match s.fatReadFile configName nameMax with
  | none => username
  | some r =>
    let cfg := cstr r.2
    if cfg = [] then username
    else
      let name := (copyUntil endsName 30 cfg).1
      if name = [] then ascii "tiger".toList else name

/-! ## The name after a restart -/

lemma cmdUser_of_ne_nil {args : List UInt8} (h : args ≠ []) (s : Fs) (username : List UInt8) :
    (cmdUser s username args).1 = userName args ∧
      (cmdUser s username args).2 = (s.fatWriteFile configName (userName args)).2 := by
  rw [cmdUser, if_neg h]
  exact ⟨rfl, rfl⟩

lemma filenameToFat_configName :
    filenameToFat configName = some (ascii "CONFIG  CFG".toList) := by
  decide

lemma isPlainName_configName : IsPlainName configName := by
  intro f hf
  rw [filenameToFat_configName, Option.some_inj] at hf
  rw [← hf]
  decide

/-- A printable character ends no name but for the blank, and is no terminator. -/
lemma printable_spec {c : UInt8} (h : 0x20 ≤ c ∧ c ≤ 0x7E) (hc : c ≠ blank) :
    endsName c = false ∧ c ≠ 0 := by
  have hne : ∀ x : UInt8, ¬0x20 ≤ x → c ≠ x := by
    rintro x hx rfl
    exact hx h.1
  refine ⟨?_, hne 0 (by decide)⟩
  rw [endsName, decide_eq_false_iff_not]
  simp only [not_or]
  exact ⟨hne _ (by decide), hne _ (by decide), hc⟩

/-- The longest beginning of a shortened list. -/
lemma takeWhile_take {α : Type} (p : α → Bool) (n : ℕ) (l : List α) :
    (l.take n).takeWhile p = (l.takeWhile p).take n := by
  induction l generalizing n with
  | nil => simp
  | cons a l ih =>
    cases n with
    | zero => simp
    | succ n =>
      rw [take_succ_cons, takeWhile_cons, takeWhile_cons]
      split_ifs
      · rw [ih, take_succ_cons]
      · rfl

/-- What is read back after a successful write. -/
lemma fatReadFile_configName {s : Fs} (hs : s.Consistent) {data : List UInt8} (maxLen : ℕ)
    (hok : (s.fatWriteFile configName data).1 = true) :
    (s.fatWriteFile configName data).2.fatReadFile configName maxLen =
      some (data.length, data.take maxLen) := by
  obtain ⟨sh, v, chain, h, hinv⟩ := hs
  obtain ⟨fatName, w, chain', hname, hw, hwinv, hfile⟩ := h.write_ok hinv isPlainName_configName hok
  rw [hw.fatReadFile_eq hwinv, hname, Option.bind_some, hfile, if_pos rfl, Option.map_some]

/-- What `shell_init` takes from a file that holds a name.

**Proof sketch.** The name is not empty and has neither a terminator nor a character that ends it,
so the loop copies it up to its own limit. -/
lemma initUser_of_read {s : Fs} {name : List UInt8} {len : ℕ}
    (hread : s.fatReadFile configName nameMax = some (len, name)) (hne : name ≠ [])
    (hname : ∀ c ∈ name, endsName c = false ∧ c ≠ 0) (username : List UInt8) :
    initUser s username = name.take 30 := by
  have hzero : 0 ∉ name := fun hmem => (hname 0 hmem).2 rfl
  have hall : name.takeWhile (!endsName ·) = name :=
    takeWhile_eq_self_iff.2 fun c hc => by rw [(hname c hc).1]; rfl
  have hcut : name.take 30 ≠ [] := by
    rw [Ne, take_eq_nil_iff]
    simp [hne]
  rw [initUser, hread]
  simp only [cstr_eq_self hzero, copyUntil_eq, hall]
  rw [if_neg hne, if_neg hcut]

/-- **When the name survives a restart.** After a command `user` whose write to `CONFIG.CFG`
succeeded, `shell_init` restores the active name exactly when the first word of the arguments has at
most 30 characters.

**Proof sketch.** The command keeps the first 31 characters of the word, which the file then holds;
`shell_init` takes the first 30 of these. -/
theorem user_restored_iff {s : Fs} (hs : s.Consistent) {args : List UInt8}
    (hprint : ∀ c ∈ args, 0x20 ≤ c ∧ c ≤ 0x7E) (hlead : args.headD blank ≠ blank)
    (username boot : List UInt8)
    (hok : (s.fatWriteFile configName (cmdUser s username args).1).1 = true) :
    initUser (cmdUser s username args).2 boot = (cmdUser s username args).1 ↔
      (args.takeWhile (· ≠ blank)).length ≤ 30 := by
  cases args with
  | nil => exact absurd rfl hlead
  | cons c args =>
    obtain ⟨hcmd, hcmd'⟩ := cmdUser_of_ne_nil (cons_ne_nil c args) s username
    have hword : userName (c :: args) = ((c :: args).takeWhile (· ≠ blank)).take nameMax :=
      takeWhile_take _ _ _
    have hc : c ≠ blank := hlead
    have hne : userName (c :: args) ≠ [] := by
      rw [hword, takeWhile_cons_of_pos (by simpa using hc)]
      exact cons_ne_nil _ _
    have hname : ∀ x ∈ userName (c :: args), endsName x = false ∧ x ≠ 0 := by
      intro x hx
      rw [hword] at hx
      have hmem := mem_of_mem_take hx
      refine printable_spec (hprint x ((takeWhile_sublist _).subset hmem)) ?_
      simpa using mem_takeWhile_imp hmem
    have hlen : (userName (c :: args)).length =
        min nameMax ((c :: args).takeWhile (· ≠ blank)).length := by
      rw [hword, length_take]
    rw [hcmd] at hok ⊢
    rw [hcmd']
    have hread := fatReadFile_configName hs nameMax hok
    rw [take_of_length_le (by rw [hlen]; exact Nat.min_le_left _ _)] at hread
    rw [initUser_of_read hread hne hname, take_eq_self_iff, hlen, nameMax]
    omega

/-- A small formatted volume has the file and a free cluster. -/
lemma file_configName_small : ∃ sh v chain text, (smallFs 64).Holds sh v ∧
    Vol.Inv sh v chain ∧ v.file sh (ascii "CONFIG  CFG".toList) = some text ∧
      1 ≤ (v.freeList sh).length ∧ sh.bytes = 512 := by
  obtain ⟨text, hmem⟩ : ∃ text, (configName, text) ∈ seedFiles :=
    ⟨_, .tail _ (.tail _ (.tail _ (.head _)))⟩
  obtain ⟨sh, v, chain, h, hinv, hfile, hfree, hbytes⟩ :=
    file_smallFs (n := 64) (by decide) (by decide) hmem filenameToFat_configName
  have hC : (formatGeometry 64).clusters = 54 := by decide
  have hS : (formatGeometry 64).spc = 1 := by decide
  rw [hC] at hfree
  rw [hS] at hbytes
  exact ⟨sh, v, chain, text, h, hinv, hfile, by omega, hbytes⟩

/-- On that volume a name can be stored. -/
lemma write_configName_small (name : List UInt8) (hname : name.length ≤ 512) :
    (smallFs 64).Consistent ∧
      ((smallFs 64).fatWriteFile configName name).1 = true := by
  obtain ⟨sh, v, chain, text, h, hinv, hfile, hfree, hbytes⟩ := file_configName_small
  have hneed : sh.need name.length ≤ 1 := by
    refine Shape.need_le_iff.2 ?_
    rw [hbytes]
    omega
  have hle : sh.need name.length ≤ (v.freeList sh).length + sh.need text.length :=
    (hneed.trans hfree).trans (Nat.le_add_right _ _)
  exact ⟨⟨sh, v, chain, h, hinv⟩, h.fatWriteFile_of_room hinv filenameToFat_configName
    (h.hasRoom_of_file hinv filenameToFat_configName hfile hle)⟩

/-- The volume after the command `user` with a word of so many characters. -/
def afterUser (n : ℕ) : List UInt8 × Fs :=
  cmdUser (smallFs 64) (ascii "tiger".toList) (List.replicate n 'a'.toUInt8)

/-- A name of 31 characters comes back with 30. -/
theorem long_name_cut : (smallFs 64).Consistent ∧
    ((smallFs 64).fatWriteFile configName (afterUser 31).1).1 = true ∧
    initUser (afterUser 31).2 (ascii "tiger".toList) ≠ (afterUser 31).1 := by
  have hword : userName (List.replicate 31 'a'.toUInt8) = List.replicate 31 'a'.toUInt8 := by
    decide
  have hne : List.replicate 31 'a'.toUInt8 ≠ [] := by decide
  obtain ⟨hcmd, hcmd'⟩ :=
    cmdUser_of_ne_nil hne (smallFs 64) (ascii "tiger".toList)
  rw [hword] at hcmd hcmd'
  obtain ⟨hs, hok⟩ := write_configName_small (List.replicate 31 'a'.toUInt8) (by decide)
  have hread := fatReadFile_configName hs nameMax hok
  have hplain : ∀ c ∈ List.replicate 31 'a'.toUInt8, endsName c = false ∧ c ≠ 0 := by
    intro c hc
    rw [eq_of_mem_replicate hc]
    decide
  rw [afterUser, hcmd, hcmd', initUser_of_read hread (by decide) hplain]
  exact ⟨hs, hok, by decide⟩

/-- A name of 30 characters comes back whole. -/
theorem user_restored_iff_thirty :
    initUser (afterUser 30).2 (ascii "tiger".toList) = (afterUser 30).1 := by
  have hprint : ∀ c ∈ List.replicate 30 'a'.toUInt8, 0x20 ≤ c ∧ c ≤ 0x7E := fun c hc => by
    rw [eq_of_mem_replicate hc]
    decide
  rw [afterUser]
  exact (user_restored_iff (write_configName_small [] (by decide)).1 hprint (by decide) _ _
    (write_configName_small _ (by decide)).2).2 (by decide)

end BengalTiger.Shell
