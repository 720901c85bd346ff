import BengalTiger.Fat.Room
import BengalTiger.Keyboard

set_option autoImplicit false

/-!
# The text editor

`editor_open` of `kernel/editor.c`: a file is read into a buffer of 32 KB, keys change the text, and
Ctrl+S writes it back under the name kept in the editor's state. The buffer holds at most 32767
bytes and the name at most 31 characters; neither limit is checked when a file is opened.

The text is the list of the bytes `buf[0..len)`. The screen and the texts of the status line are
left out: no key looks at them.

## Main definitions

* `Editor.State` — the text, the cursor and the two flags.
* `Editor.State.key` — what a key does, `Editor.editorOpen` — the editor.
* `Editor.State.Valid` — the cursor is in the text and the text in the buffer.

## Main results

* `Editor.valid_of_editing` — every run of keys stays in the buffer.
* `Editor.save_identity_iff` — when opening and saving a file changes nothing.
-/

namespace BengalTiger.Editor

open Fat List

/-! ## Lines of the text -/

/-- `editor_get_line_col`: the line and the column of a position. -/
def getLineCol (text : List UInt8) (pos : ℕ) : ℕ × ℕ :=
  (text.take pos).foldl (fun r b => if b = newline then (r.1 + 1, 0) else (r.1, r.2 + 1)) (0, 0)

/-- `editor_total_lines`. -/
def totalLines (text : List UInt8) : ℕ :=
  text.foldl (fun lines b => if b = newline then lines + 1 else lines) 1

/-- The loop of `editor_line_start` over the bytes from `i` on. -/
def lineStartLoop (target : ℕ) : List UInt8 → ℕ → ℕ → ℕ
  | [], i, _ => i
  | b :: rest, i, line =>
    if b = newline then
      if line + 1 = target then i + 1 else lineStartLoop target rest (i + 1) (line + 1)
    else lineStartLoop target rest (i + 1) line

/-- `editor_line_start`. -/
def lineStart (text : List UInt8) (target : ℕ) : ℕ :=
  if target = 0 then 0 else lineStartLoop target text 0 0

/-- `editor_line_end`. -/
def lineEnd (text : List UInt8) (start : ℕ) : ℕ :=
  start + ((text.drop start).takeWhile (· ≠ newline)).length

/-! ## The state -/

/-- `EDITOR_MAX_BUF`. -/
def maxBuf : ℕ := 32768

/-- The room for characters in `filename`. -/
def maxName : ℕ := 31

/-- `editor_state_t`; `text` are the first `len` bytes of `buf`. -/
structure State where
  filename : List UInt8
  text : List UInt8
  cursor : ℕ
  dirty : Bool
  quitConfirm : Bool

namespace State

variable (ed : State)

/-- `editor_move_vertical`. -/
def moveVertical (delta : ℤ) : State :=
  let pos := getLineCol ed.text ed.cursor
  let total : ℤ := totalLines ed.text
  let target : ℤ := pos.1 + delta
  let target := if target < 0 then 0 else target
  let target := if target ≥ total then total - 1 else target
  let start := lineStart ed.text target.toNat
  let len := lineEnd ed.text start - start
  { ed with cursor := start + if pos.2 < len then pos.2 else len }

/-- `editor_insert_char`. -/
def insertChar (c : UInt8) : State :=
  if ed.text.length + 1 ≥ maxBuf then ed
  else
    { ed with
      text := ed.text.take ed.cursor ++ c :: ed.text.drop ed.cursor
      cursor := ed.cursor + 1
      dirty := true
      quitConfirm := false }

/-- `editor_backspace`. -/
def backspace : State :=
  if ed.cursor = 0 then ed
  else
    { ed with
      text := ed.text.take (ed.cursor - 1) ++ ed.text.drop ed.cursor
      cursor := ed.cursor - 1
      dirty := true
      quitConfirm := false }

/-- `editor_delete`. -/
def delete : State :=
  if ed.cursor ≥ ed.text.length then ed
  else
    { ed with
      text := ed.text.take ed.cursor ++ ed.text.drop (ed.cursor + 1)
      dirty := true
      quitConfirm := false }

/-- The keys that change the text or the cursor only; `rows` is `console_rows()`. -/
def edit (rows key : ℤ) : State :=
  if key = keyLeft then if ed.cursor > 0 then { ed with cursor := ed.cursor - 1 } else ed
  else if key = keyRight then
    if ed.cursor < ed.text.length then { ed with cursor := ed.cursor + 1 } else ed
  else if key = keyUp then ed.moveVertical (-1)
  else if key = keyDown then ed.moveVertical 1
  else if key = keyPgUp then ed.moveVertical (-(rows - 3))
  else if key = keyPgDn then ed.moveVertical (rows - 3)
  else if key = keyHome then
    { ed with cursor := lineStart ed.text (getLineCol ed.text ed.cursor).1 }
  else if key = keyEnd then
    { ed with
      cursor := lineEnd ed.text (lineStart ed.text (getLineCol ed.text ed.cursor).1) }
  else if key = 8 then ed.backspace
  else if key = keyDelete then ed.delete
  else if key = 10 then ed.insertChar newline
  else if key = 9 then (((ed.insertChar blank).insertChar blank).insertChar blank).insertChar blank
  else if 32 ≤ key ∧ key ≤ 126 then ed.insertChar (UInt8.ofNat key.toNat)
  else ed

/-- A round of the loop of `editor_open`: whether it goes on, and the states after it. -/
def key (rows : ℤ) (s : Fs) (key : ℤ) : Bool × State × Fs :=
  if key = ctrlKey 0x73 then
    let r := s.fatWriteFile ed.filename ed.text
    (true, if r.1 then { ed with dirty := false, quitConfirm := false } else ed, r.2)
  else if key = ctrlKey 0x71 ∨ key = 27 then
    if ed.dirty = true ∧ ed.quitConfirm = false then (true, { ed with quitConfirm := true }, s)
    else (false, ed, s)
  else (true, ed.edit rows key, s)

/-- The loop of `editor_open`: the file system when it ends, `none` while it waits for a key. -/
def loop (rows : ℤ) : List ℤ → State → Fs → Option Fs
  | [], _, _ => none
  | k :: keys, ed, s =>
    let r := ed.key rows s k
    if r.1 then loop rows keys r.2.1 r.2.2 else some r.2.2

end State

/-- The text of a file in the buffer that was set to zero. -/
def load (s : Fs) (filename : List UInt8) : List UInt8 :=
  if s.fatFileExists filename then
    (s.fatReadFile filename (maxBuf - 1)).elim [] fun r =>
      Fs.overlay r.2 (fun _ => 0) (if r.1 < maxBuf - 1 then r.1 else maxBuf - 1)
  else []

/-- The state when `editor_open` begins its loop. -/
def opened (s : Fs) (filename : List UInt8) : State where
  filename := (cstr filename).take maxName
  text := load s filename
  cursor := 0
  dirty := false
  quitConfirm := false

/-- `editor_open`: whether it returns 0, and the file system after it; `heap` tells whether
`kmalloc` returns a buffer. -/
def editorOpen (s : Fs) (filename : List UInt8) (heap : Bool) (rows : ℤ) (keys : List ℤ) :
    Option (Bool × Fs) :=
  if cstr filename = [] ∨ s.mounted = false ∨ heap = false then some (false, s)
  else ((opened s filename).loop rows keys s).map fun t => (true, t)

/-! ## Every run stays in the buffer -/

lemma lineStartLoop_le (target : ℕ) (rest : List UInt8) (i line : ℕ) :
    lineStartLoop target rest i line ≤ i + rest.length := by
  induction rest generalizing i line with
  | nil => exact Nat.le_add_right _ _
  | cons b rest ih =>
    have h₁ := ih (i + 1) (line + 1)
    have h₂ := ih (i + 1) line
    rw [lineStartLoop, length_cons]
    split_ifs <;> omega

lemma lineStart_le (text : List UInt8) (target : ℕ) : lineStart text target ≤ text.length := by
  have := lineStartLoop_le target text 0 0
  unfold lineStart
  split_ifs <;> omega

lemma lineEnd_le {text : List UInt8} {start : ℕ} (h : start ≤ text.length) :
    lineEnd text start ≤ text.length := by
  have hle := (takeWhile_sublist (· ≠ newline) (l := text.drop start)).length_le
  rw [length_drop] at hle
  unfold lineEnd
  omega

namespace State

/-- **The cursor is in the text and the text in the buffer**, with a byte left for the
terminator. -/
structure Valid (ed : State) : Prop where
  cursor : ed.cursor ≤ ed.text.length
  length : ed.text.length < maxBuf

variable {ed : State}

/-- Moving by lines keeps the cursor in the text. -/
lemma Valid.moveVertical (h : ed.Valid) (delta : ℤ) : (ed.moveVertical delta).Valid := by
  refine ⟨?_, h.length⟩
  unfold State.moveVertical
  dsimp only
  generalize Int.toNat _ = target
  have hstart := lineStart_le ed.text target
  have hend := lineEnd_le hstart
  have hle : lineStart ed.text target ≤ lineEnd ed.text (lineStart ed.text target) :=
    Nat.le_add_right _ _
  split_ifs <;> omega

lemma Valid.insertChar (h : ed.Valid) (c : UInt8) : (ed.insertChar c).Valid := by
  unfold State.insertChar
  split_ifs with hfull
  · exact h
  · have hcursor := h.cursor
    constructor
    · simp only [length_append, length_take, length_cons, length_drop]
      omega
    · simp only [length_append, length_take, length_cons, length_drop]
      omega

/-- Backspace keeps the cursor in the text. -/
lemma Valid.backspace (h : ed.Valid) : ed.backspace.Valid := by
  have hcursor := h.cursor
  have hlength := h.length
  unfold State.backspace
  split_ifs with h0
  · exact h
  · constructor
    · simp only [length_append, length_take, length_drop]
      omega
    · simp only [length_append, length_take, length_drop]
      omega

/-- So does delete. -/
lemma Valid.delete (h : ed.Valid) : ed.delete.Valid := by
  have hcursor := h.cursor
  have hlength := h.length
  unfold State.delete
  split_ifs with hend
  · exact h
  · constructor
    · simp only [length_append, length_take, length_drop]
      omega
    · simp only [length_append, length_take, length_drop]
      omega

lemma Valid.ite {p : Prop} [Decidable p] {ed' : State} (h : p → ed.Valid) (h' : ed'.Valid) :
    (if p then ed else ed').Valid := by
  split_ifs with hp
  · exact h hp
  · exact h'

/-- **A key that edits keeps the cursor in the text and the text in the buffer.** -/
lemma Valid.edit (h : ed.Valid) (rows key : ℤ) : (ed.edit rows key).Valid := by
  have hcursor := h.cursor
  have hline := lineStart_le ed.text (getLineCol ed.text ed.cursor).1
  refine .ite (fun _ => .ite (fun _ => ⟨by dsimp only; omega, h.length⟩) h) ?_
  refine .ite (fun _ => .ite (fun hlt => ⟨hlt, h.length⟩) h) ?_
  refine .ite (fun _ => h.moveVertical _) (.ite (fun _ => h.moveVertical _) ?_)
  refine .ite (fun _ => h.moveVertical _) (.ite (fun _ => h.moveVertical _) ?_)
  refine .ite (fun _ => ⟨hline, h.length⟩) (.ite (fun _ => ⟨lineEnd_le hline, h.length⟩) ?_)
  refine .ite (fun _ => h.backspace) (.ite (fun _ => h.delete) ?_)
  refine .ite (fun _ => h.insertChar _) (.ite (fun _ => ?_) (.ite (fun _ => h.insertChar _) h))
  exact (((h.insertChar _).insertChar _).insertChar _).insertChar _

/-- **A key keeps the cursor in the text and the text in the buffer.** -/
lemma Valid.key (h : ed.Valid) (rows : ℤ) (s : Fs) (key : ℤ) : (ed.key rows s key).2.1.Valid := by
  unfold State.key
  split_ifs with hsave hquit hdirty
  · exact .ite (fun _ => ⟨h.cursor, h.length⟩) h
  · exact ⟨h.cursor, h.length⟩
  · exact h
  · exact h.edit rows key

end State

/-- A file is loaded with one byte to spare. -/
lemma length_load (s : Fs) (filename : List UInt8) : (load s filename).length < maxBuf := by
  unfold load
  split_ifs with hex
  · cases s.fatReadFile filename (maxBuf - 1) with
    | none => decide
    | some r =>
      have hle : (if r.1 < maxBuf - 1 then r.1 else maxBuf - 1) ≤ maxBuf - 1 := by
        split_ifs <;> omega
      rw [Option.elim_some, Fs.overlay, length_map, length_range]
      exact Nat.lt_of_le_of_lt hle (by decide)
  · decide

lemma valid_opened (s : Fs) (filename : List UInt8) : (opened s filename).Valid :=
  ⟨Nat.zero_le _, length_load s filename⟩

/-- The runs of the editor on a file: a key is a step as long as the loop goes on. -/
def editing (s : Fs) (filename : List UInt8) (rows : ℤ) : System (State × Fs) ℤ where
  init x := x = (opened s filename, s)
  step x key y := x.1.key rows x.2 key = (true, y)

/-- **In every run of the editor the cursor is in the text and the text in the buffer.** -/
theorem valid_of_editing {s : Fs} {filename : List UInt8} {rows : ℤ} {x : State × Fs}
    (h : (editing s filename rows).Reachable x) : x.1.Valid := by
  refine h.invariant (fun x => x.1.Valid) ?_ ?_
  · rintro x rfl
    exact valid_opened s filename
  · rintro x key y hx hstep
    have hkey := hx.key rows x.2 key
    rw [hstep] at hkey
    exact hkey

/-! ## Opening and saving a file -/

variable {s : Fs} {m : List UInt8 → Option (List UInt8)} {filename fatName bytes : List UInt8}

/-- The first 32767 bytes of a file are loaded. -/
lemma load_eq (hm : s.Reads m) (hname : filenameToFat filename = some fatName)
    (hfile : m fatName = some bytes) : load s filename = bytes.take (maxBuf - 1) := by
  have hread : s.fatReadFile filename (maxBuf - 1) =
      some (bytes.length, bytes.take (maxBuf - 1)) := by
    rw [hm, hname, Option.bind_some, hfile, Option.map_some]
  have hexists : s.fatFileExists filename = true := by
    obtain ⟨x, hx, -⟩ := Option.bind_eq_some_iff.1 hread
    rw [Fs.fatFileExists, hx]
    rfl
  rw [load, if_pos hexists, hread, Option.elim_some]
  apply Fs.overlay_of_length
  rw [length_take]
  split_ifs <;> omega

/-- Ctrl+S writes the loaded text to the file of the kept name. -/
lemma key_save (s : Fs) (filename : List UInt8) (rows : ℤ) :
    (opened s filename).key rows s (ctrlKey 0x73) = (true, opened s filename,
      (s.fatWriteFile ((cstr filename).take maxName) (load s filename)).2) := by
  rw [State.key, if_pos rfl]
  refine Prod.ext rfl (Prod.ext ?_ rfl)
  dsimp only
  split_ifs <;> rfl

/-- Ctrl+Q ends the editor when nothing was edited. -/
lemma key_quit (s t : Fs) (filename : List UInt8) (rows : ℤ) :
    (opened s filename).key rows t (ctrlKey 0x71) = (false, opened s filename, t) := by
  rw [State.key, if_neg (by decide), if_pos (.inl rfl), if_neg (by simp [opened])]

lemma editorOpen_save (hmounted : s.mounted = true) (hne : cstr filename ≠ []) (rows : ℤ) :
    editorOpen s filename true rows [ctrlKey 0x73, ctrlKey 0x71] =
      some (true, (s.fatWriteFile ((cstr filename).take maxName) (load s filename)).2) := by
  rw [editorOpen, if_neg (by simp [hmounted, hne])]
  simp only [State.loop, key_save, key_quit, if_true, Bool.false_eq_true, if_false, Option.map_some]

/-- **Opening a file and saving it.** On every consistent volume, for every file and every name that
resolves to it, with room for what is saved: Ctrl+S and Ctrl+Q leave every file as it was and make
none, if and only if the first 31 characters of the name do not name a file at all, or name one that
holds the first 32767 bytes of the file that was opened. -/
theorem save_identity_iff (hs : s.Consistent) (hm : s.Reads m)
    (hname : filenameToFat filename = some fatName) (hfile : m fatName = some bytes)
    (hroom : s.HasRoom ((cstr filename).take maxName) (bytes.take (maxBuf - 1))) (rows : ℤ) :
    ∃ t, editorOpen s filename true rows [ctrlKey 0x73, ctrlKey 0x71] = some (true, t) ∧
      (s.SameFiles t ↔ ∀ saved, filenameToFat ((cstr filename).take maxName) = some saved →
        m saved = some (bytes.take (maxBuf - 1))) := by
  obtain ⟨sh, v, chain, h, hinv⟩ := hs
  obtain ⟨c, rest, hc, hhead⟩ := headD_of_filenameToFat hname
  have hne : cstr filename ≠ [] := by
    intro hnil
    rw [hnil] at hc
    cases hc
  refine ⟨_, editorOpen_save h.geom.mounted hne rows, ?_⟩
  rw [load_eq hm hname hfile]
  cases hcut : filenameToFat ((cstr filename).take maxName) with
  | none =>
    rw [Fs.fatWriteFile_of_bad hcut]
    exact iff_of_true (fun _ _ => rfl) fun saved hsaved => by cases hsaved
  | some saved =>
    -- the name of a live entry does not begin with the mark of a deleted one
    have hplain : IsPlainName ((cstr filename).take maxName) := by
      intro f hf
      rw [headD_of_take hname hf]
      have hv := (h.reads hinv).eq hm hname fun _ => rfl
      rw [hfile, Vol.file, eq_comm, Option.map_eq_some_iff] at hv
      obtain ⟨k, hl, -⟩ := hv
      obtain ⟨-, hlive, hdir⟩ := hinv.lookup_eq_some.1 hl
      rw [Dirent.isLive, Bool.and_eq_true, bne_iff_ne, bne_iff_ne] at hlive
      rw [← hdir]
      exact hlive.2
    have hsaved : v.file sh saved = m saved := hm.eq (h.reads hinv) hcut fun _ => rfl
    rw [h.sameFiles_write_iff hinv hplain hcut hroom, hsaved]
    exact ⟨fun heq f hf => by rwa [← Option.some_inj.1 hf], fun hall => hall saved rfl⟩

/-- The name of a default file. -/
def helloName : List UInt8 := ascii "HELLO.TXT".toList

/-- The name as it is stored. -/
def helloFat : List UInt8 := ascii "HELLO   TXT".toList

lemma filenameToFat_helloName : filenameToFat helloName = some helloFat := by
  decide

lemma cut_helloName : (cstr helloName).take maxName = helloName := by
  decide

lemma isPlainName_helloName : IsPlainName helloName := by
  intro f hf
  rw [filenameToFat_helloName, Option.some_inj] at hf
  rw [← hf]
  decide

/-- The default file of a formatted volume. -/
lemma file_hello {n : ℕ} (h64 : 64 ≤ n) (hn : n ≤ 4294967296) : ∃ sh v chain bytes,
    (smallFs n).Holds sh v ∧ Vol.Inv sh v chain ∧ v.file sh helloFat = some bytes ∧
      (formatGeometry n).clusters ≤ (v.freeList sh).length + 8 ∧
      sh.bytes = (formatGeometry n).spc * 512 ∧ bytes.length ≤ 1024 := by
  obtain ⟨text, hmem⟩ : ∃ text, (helloName, text) ∈ seedFiles := ⟨_, mem_cons_self⟩
  obtain ⟨sh, v, chain, h, hinv, hfile, hfree, hbytes⟩ :=
    file_smallFs h64 hn hmem filenameToFat_helloName
  exact ⟨sh, v, chain, text, h, hinv, hfile, hfree, hbytes, (Fs.seedFiles_spec _ hmem).1⟩

lemma need_take_le (sh : Shape) (bytes : List UInt8) (n : ℕ) :
    sh.need (bytes.take n).length ≤ sh.need bytes.length := by
  have hle := length_take_le' n bytes
  exact Nat.div_le_div_right (by omega)

/-- The default file is saved under its own name. -/
theorem save_identity_iff_small : (smallFs 64).Consistent ∧
    ∃ (m : List UInt8 → Option (List UInt8)) (bytes : List UInt8), (smallFs 64).Reads m ∧
      m helloFat = some bytes ∧
      ∃ t, editorOpen (smallFs 64) helloName true 25 [ctrlKey 0x73, ctrlKey 0x71] =
          some (true, t) ∧
        ((smallFs 64).SameFiles t ↔ ∀ saved,
          filenameToFat ((cstr helloName).take maxName) = some saved →
            m saved = some (bytes.take (maxBuf - 1))) := by
  obtain ⟨sh, v, chain, bytes, h, hinv, hfile, -⟩ := file_hello (n := 64) (by decide) (by decide)
  have hs : (smallFs 64).Consistent := ⟨sh, v, chain, h, hinv⟩
  have hle : sh.need (bytes.take (maxBuf - 1)).length ≤
      (v.freeList sh).length + sh.need bytes.length :=
    (need_take_le sh bytes _).trans (Nat.le_add_left _ _)
  have hroom : (smallFs 64).HasRoom ((cstr helloName).take maxName) (bytes.take (maxBuf - 1)) := by
    rw [cut_helloName]
    exact h.hasRoom_of_file hinv filenameToFat_helloName hfile hle
  exact ⟨hs, v.file sh, bytes, h.reads hinv, hfile,
    save_identity_iff hs (h.reads hinv) filenameToFat_helloName hfile hroom 25⟩

/-- The volume after the default file was replaced. -/
def replaced (s : Fs) (data : List UInt8) : Fs := (s.fatWriteFile helloName data).2

/-- The default file can be replaced when there is room. -/
lemma file_replaced {sh : Shape} {v : Vol} {chain : ℕ → List ℕ} {data : List UInt8}
    (h : s.Holds sh v) (hinv : v.Inv sh chain) (hfile : v.file sh helloFat = some bytes)
    (hle : sh.need data.length ≤ (v.freeList sh).length + sh.need bytes.length) :
    ∃ w chain', (replaced s data).Holds sh w ∧ Vol.Inv sh w chain' ∧
      w.file sh helloFat = some data := by
  have hok := h.fatWriteFile_of_room hinv filenameToFat_helloName
    (h.hasRoom_of_file hinv filenameToFat_helloName hfile hle)
  obtain ⟨f, w, chain', hf, hw, hwinv, hwfile⟩ := h.write_ok hinv isPlainName_helloName hok
  rw [filenameToFat_helloName, Option.some_inj] at hf
  rw [← hf] at hwfile
  exact ⟨w, chain', hw, hwinv, (hwfile helloFat).trans (if_pos rfl)⟩

/-- On a device of 128 sectors it can be replaced by one of 32 KB. -/
lemma file_replaced_small {data : List UInt8} (hdata : data.length = 32768) : ∃ sh v chain,
    (replaced (smallFs 128) data).Holds sh v ∧ Vol.Inv sh v chain ∧
      v.file sh helloFat = some data := by
  obtain ⟨sh, v, chain, bytes, h, hinv, hfile, hfree, hbytes, -⟩ :=
    file_hello (n := 128) (by decide) (by decide)
  have hC : (formatGeometry 128).clusters = 118 := by decide
  have hS : (formatGeometry 128).spc = 1 := by decide
  have hle : sh.need data.length ≤ (v.freeList sh).length + sh.need bytes.length := by
    refine (Shape.need_le_iff.2 ?_).trans (Nat.le_add_right _ _)
    rw [hbytes, hS, hdata]
    omega
  exact ⟨sh, file_replaced h hinv hfile hle⟩

/-- A file of 32 KB is cut when it is opened and saved. -/
lemma not_sameFiles_replaced {data : List UInt8} (hdata : data.length = 32768) :
    (replaced (smallFs 128) data).Consistent ∧
      (replaced (smallFs 128) data).fatReadFile helloName 32768 = some (32768, data) ∧
      ∃ t, editorOpen (replaced (smallFs 128) data) helloName true 25
          [ctrlKey 0x73, ctrlKey 0x71] = some (true, t) ∧
        ¬ (replaced (smallFs 128) data).SameFiles t := by
  obtain ⟨sh, v, chain, h, hinv, hfile⟩ := file_replaced_small hdata
  have hm := h.reads hinv
  refine ⟨⟨sh, v, chain, h, hinv⟩, ?_, _, editorOpen_save h.geom.mounted (by decide) 25, ?_⟩
  · rw [hm, filenameToFat_helloName, Option.bind_some, hfile, Option.map_some, hdata,
      take_of_length_le hdata.le]
  · have hle : sh.need (data.take (maxBuf - 1)).length ≤
        (v.freeList sh).length + sh.need data.length :=
      (need_take_le sh data _).trans (Nat.le_add_left _ _)
    rw [cut_helloName, load_eq hm filenameToFat_helloName hfile,
      h.sameFiles_write_iff hinv isPlainName_helloName filenameToFat_helloName
        (h.hasRoom_of_file hinv filenameToFat_helloName hfile hle), hfile, Option.some_inj]
    intro heq
    have hlen := congrArg List.length heq
    rw [length_take, hdata, maxBuf] at hlen
    omega

/-- **A file of 32 KB loses its last byte** when it is opened and saved. -/
theorem save_cuts_file : (replaced (smallFs 128) (List.replicate 32768 0)).Consistent ∧
    (replaced (smallFs 128) (List.replicate 32768 0)).fatReadFile helloName 32768 =
      some (32768, List.replicate 32768 0) ∧
    ∃ t, editorOpen (replaced (smallFs 128) (List.replicate 32768 0)) helloName true 25
        [ctrlKey 0x73, ctrlKey 0x71] = some (true, t) ∧
      ¬ (replaced (smallFs 128) (List.replicate 32768 0)).SameFiles t :=
  not_sameFiles_replaced length_replicate

/-- A letter is typed at the beginning of the default file, the file is saved, and the cursor is
moved down by a page. -/
theorem valid_of_editing_small : ∃ typed saved moved : State × Fs,
    (opened (smallFs 64) helloName).key 25 (smallFs 64) 65 = (true, typed) ∧
    typed.1.key 25 typed.2 (ctrlKey 0x73) = (true, saved) ∧
    saved.1.key 25 saved.2 keyPgDn = (true, moved) ∧
    typed.1.text = 65 :: load (smallFs 64) helloName ∧ typed.1.dirty = true ∧
    saved.1.dirty = false ∧ moved.1.Valid := by
  obtain ⟨sh, v, chain, bytes, h, hinv, hfile, hfree, hbytes, hlen⟩ :=
    file_hello (n := 64) (by decide) (by decide)
  -- nothing but these facts is needed of the volume
  generalize smallFs 64 = s at h ⊢
  have hload : load s helloName = bytes := by
    rw [load_eq (h.reads hinv) filenameToFat_helloName hfile, take_of_length_le]
    exact hlen.trans (by decide)
  have htext : ¬ (opened s helloName).text.length + 1 ≥ maxBuf := by
    simp only [opened, hload, maxBuf]
    omega
  have htyped : (opened s helloName).key 25 s 65 =
      (true, ⟨helloName, 65 :: bytes, 1, true, false⟩, s) := by
    have hedit : ∀ ed : State, ed.edit 25 65 = ed.insertChar 65 := fun _ => rfl
    rw [State.key, if_neg (by decide), if_neg (by decide), hedit, State.insertChar, if_neg htext]
    simp only [opened, hload, cut_helloName, take_zero, nil_append, drop_zero]
  have hsave : (s.fatWriteFile helloName (65 :: bytes)).1 = true := by
    refine h.fatWriteFile_of_room hinv filenameToFat_helloName
      (h.hasRoom_of_file hinv filenameToFat_helloName hfile ?_)
    have hC : (formatGeometry 64).clusters = 54 := by decide
    have hS : (formatGeometry 64).spc = 1 := by decide
    refine (Shape.need_le_iff.2 ?_).trans (Nat.le_add_right _ _)
    rw [hbytes, hS, length_cons]
    omega
  have hsaved : (State.mk helloName (65 :: bytes) 1 true false).key 25 s (ctrlKey 0x73) =
      (true, ⟨helloName, 65 :: bytes, 1, false, false⟩,
        (s.fatWriteFile helloName (65 :: bytes)).2) := by
    rw [State.key, if_pos rfl]
    simp only [hsave, if_true]
  have hmoved : ∀ (ed : State) (t : Fs), ed.key 25 t keyPgDn = (true, ed.edit 25 keyPgDn, t) := by
    intro ed t
    rw [State.key, if_neg (by decide), if_neg (by decide)]
  exact ⟨_, _, _, htyped, hsaved, hmoved _ _, by rw [hload], rfl, rfl,
    valid_of_editing (.step (.step (.step (.init rfl) htyped) hsaved) (hmoved _ _))⟩

end BengalTiger.Editor
