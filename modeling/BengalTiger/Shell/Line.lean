import BengalTiger.Fat.Buffers
import BengalTiger.Fat.Run
import BengalTiger.Keyboard
import BengalTiger.Lib.ByteMem
import BengalTiger.Lib.System
import BengalTiger.Lib.Zipper

set_option autoImplicit false

/-!
# The line editor of the shell

`shell_handle_event` of `kernel/shell.c` keeps the command line in an array of 256 bytes, with its
length and the position of the cursor, and moves ranges of the array about. Here the array is a
memory, so that a write behind its end would show; what is drawn on the screen and what the executed
commands do is left out, since neither touches the line. The directory that the completion reads may
be another one at every key.

## Main definitions

* `Shell.Line` — the array, the length, the cursor and the history.
* `Shell.Line.handleTabCompletion`, `Shell.Line.handleEvent` — the code.
* `Shell.Line.zipper` — the line as two strings.
* `Shell.Line.Shows` — the array holds two strings and a terminator.

## Main results

* `Shell.Line.Inv.handleEvent` — every event keeps the line in the array.
* `Shell.line_refines_zipper` — the keys as operations on two strings.
-/

namespace BengalTiger.Shell

open ByteMem Fat Function List

/-! ## The code -/

/-- `CMD_BUF_MAX`. -/
def cmdBufMax : ℕ := 256

/-- `HISTORY_MAX`. -/
def historyMax : ℕ := 16

/-- The most matches that are kept. -/
def matchMax : ℕ := 48

/-- The characters of a match that are kept. -/
def matchLen : ℕ := 15

/-- The size of the array for the text to complete. -/
def tokenMax : ℕ := 64

/-- `builtin_cmds`. -/
def builtinCmds : List (List UInt8) :=
  ["help", "info", "neofetch", "ver", "cpu", "date", "uptime", "dmesg", "user", "history", "echo",
    "calc", "beep", "gui", "clear", "reboot", "shutdown", "poweroff", "mem", "ps", "top", "spawn",
    "kill", "ls", "dir", "cat", "write", "append", "edit", "cp", "mv", "rm", "touch", "stat",
    "hexdump", "sh", "df", "disk", "mkfs", "lspci", "ifconfig", "dhcp", "ping", "arp",
    "netstat"].map fun s => ascii s.toList

/-- `strncasecmp` on C strings. -/
def strncasecmp : ℕ → List UInt8 → List UInt8 → ℤ
  | 0, _, _ => 0
  | _ + 1, [], t => -(toLowerCh (t.headD 0)).toNat
  | n + 1, a :: s, t =>
    if toLowerCh a = toLowerCh (t.headD 0) then strncasecmp n s t.tail
    else (toLowerCh a).toNat - (toLowerCh (t.headD 0)).toNat

/-- The number of characters in which two strings agree. -/
def agree : List UInt8 → List UInt8 → ℕ
  | a :: s, b :: t => if a = b then agree s t + 1 else 0
  | _, _ => 0

/-- `strlen` of a string in the array. -/
def strlen (m : Mem) : ℕ := (cstr (read m 0 cmdBufMax)).length

/-- `history_push`; `history_count` is the length of the list. -/
def historyPush (history : List (List UInt8)) (line : List UInt8) : List (List UInt8) :=
  if line = [] then history
  else if history.getLast? = some line then history
  else if history.length < historyMax then history ++ [line]
  else history.tail ++ [line]

/-- The beginning of the token that ends at a position. -/
def tokStart (m : Mem) : ℕ → ℕ
  | 0 => 0
  | n + 1 => if m n = blank then n + 1 else tokStart m n

/-- The state of the line editor. -/
structure Line where
  cmdBuf : Mem
  cmdLen : ℤ
  cmdCursor : ℤ
  history : List (List UInt8)
  historyNav : ℤ

namespace Line

variable (s : Line)

/-- The matches for a text: built-in commands for the first token, file names for the others. -/
def candidates (fs : Fs) (tok : ℕ) (pre : List UInt8) : List (List UInt8) :=
  if ∀ i < tok, s.cmdBuf i = blank then
    ((builtinCmds.filter fun c => strncasecmp pre.length c pre = 0).take matchMax).map
      (List.take matchLen)
  else
    ((((fs.fatEnumerateFiles matchMax).map cstr).filter fun f =>
      strncasecmp pre.length f pre = 0).take matchMax).map fun f => (f.take matchLen).map toLowerCh

/-- The end of the line moves by `add` and the token at `tok` is replaced. -/
def splice (tok : ℕ) (m : List UInt8) (add : ℤ) : Line :=
  { s with
    cmdBuf := write (copy s.cmdBuf (s.cmdCursor + add).toNat s.cmdCursor.toNat
      (s.cmdLen - s.cmdCursor + 1).toNat) tok m
    cmdLen := s.cmdLen + add
    cmdCursor := s.cmdCursor + add }

/-- A blank is put at the end of the line. -/
def appendBlank : Line :=
  { s with
    cmdBuf := update (update s.cmdBuf s.cmdLen.toNat blank) (s.cmdLen + 1).toNat 0
    cmdLen := s.cmdLen + 1
    cmdCursor := s.cmdCursor + 1 }

/-- `handle_tab_completion`. -/
def handleTabCompletion (fs : Fs) : Line :=
  let tok := tokStart s.cmdBuf s.cmdCursor.toNat
  let preLen : ℤ := s.cmdCursor - tok
  if preLen ≥ tokenMax then s
  else
    match s.candidates fs tok (read s.cmdBuf tok preLen.toNat) with
    | [] => s
    | [m] =>
      let add : ℤ := m.length - preLen
      if s.cmdLen + add + 2 < cmdBufMax then
        let t := s.splice tok m add
        if t.cmdCursor = t.cmdLen ∧ t.cmdLen + 1 < cmdBufMax then t.appendBlank else t
      else s
    | m :: ms =>
      let common := ms.foldl (fun common m' => min common (agree m m')) m.length
      if common > preLen ∧ s.cmdLen + (common - preLen) + 1 < cmdBufMax then
        s.splice tok (m.take common) (common - preLen)
      else s

/-- An empty line. -/
def clear : Line :=
  { s with cmdBuf := update s.cmdBuf 0 0, cmdLen := 0, cmdCursor := 0, historyNav := -1 }

/-- An entry of the history is copied to the line. -/
def recallEntry (nav : ℤ) : Line :=
  let buf := write s.cmdBuf 0 (s.history.getD nav.toNat [] ++ [0])
  { s with cmdBuf := buf, cmdLen := strlen buf, cmdCursor := strlen buf, historyNav := nav }

/-- The key Enter. -/
def enter : Line :=
  let buf := update s.cmdBuf s.cmdLen.toNat 0
  { ({ s with cmdBuf := buf } : Line).clear with
    history := historyPush s.history (cstr (read buf 0 cmdBufMax)) }

/-- The key Backspace. -/
def backspace : Line :=
  if s.cmdCursor > 0 then
    { s with
      cmdBuf := copy s.cmdBuf (s.cmdCursor - 1).toNat s.cmdCursor.toNat
        (s.cmdLen - s.cmdCursor + 1).toNat
      cmdCursor := s.cmdCursor - 1
      cmdLen := s.cmdLen - 1 }
  else s

/-- The key Delete. -/
def delete : Line :=
  if s.cmdCursor < s.cmdLen then
    { s with
      cmdBuf := copy s.cmdBuf s.cmdCursor.toNat (s.cmdCursor + 1).toNat
        (s.cmdLen - s.cmdCursor).toNat
      cmdLen := s.cmdLen - 1 }
  else s

/-- A printable key. -/
def insert (c : UInt8) : Line :=
  if s.cmdLen < cmdBufMax - 1 then
    { s with
      cmdBuf := update (copy s.cmdBuf (s.cmdCursor + 1).toNat s.cmdCursor.toNat
        (s.cmdLen - s.cmdCursor + 1).toNat) s.cmdCursor.toNat c
      cmdCursor := s.cmdCursor + 1
      cmdLen := s.cmdLen + 1 }
  else s

/-- The key Up. -/
def up : Line :=
  if s.history.length > 0 then
    s.recallEntry (if s.historyNav < 0 then s.history.length - 1
      else if s.historyNav > 0 then s.historyNav - 1 else s.historyNav)
  else s

/-- The key Down. -/
def down : Line :=
  if s.historyNav ≥ 0 then
    if s.historyNav + 1 ≥ s.history.length then s.clear else s.recallEntry (s.historyNav + 1)
  else s

/-- `shell_handle_event`, with the directory that a completion would read. -/
def handleEvent (fs : Fs) (ev : ℤ) : Line :=
  if ev ≤ 0 then s
  else if ev = 10 then s.enter
  else if ev = ctrlKey 0x63 then s.clear
  else if ev = ctrlKey 0x6C then s
  else if ev = 8 then s.backspace
  else if ev = keyDelete then s.delete
  else if ev = keyLeft then if s.cmdCursor > 0 then { s with cmdCursor := s.cmdCursor - 1 } else s
  else if ev = keyRight then
    if s.cmdCursor < s.cmdLen then { s with cmdCursor := s.cmdCursor + 1 } else s
  else if ev = keyHome ∨ ev = ctrlKey 0x61 then { s with cmdCursor := 0 }
  else if ev = keyEnd ∨ ev = ctrlKey 0x65 then { s with cmdCursor := s.cmdLen }
  else if ev = keyUp then s.up
  else if ev = keyDown then s.down
  else if ev = 9 then s.handleTabCompletion fs
  else if ev = keyF1 ∨ ev = keyF2 then s
  else if 32 ≤ ev ∧ ev ≤ 126 then s.insert (UInt8.ofNat ev.toNat)
  else s

end Line

/-! ## Strings -/

lemma toLowerCh_ne_zero {c : UInt8} (hc : c ≠ 0) : (toLowerCh c).toNat ≠ 0 := by
  have hpos : c.toNat ≠ 0 := fun h => hc (UInt8.toNat_inj.1 h)
  unfold toLowerCh
  split_ifs with hupper
  · have hle : c.toNat ≤ 90 := UInt8.le_iff_toNat_le.1 hupper.2
    rw [UInt8.toNat_add, show (0x20 : UInt8).toNat = 32 from rfl]
    omega
  · exact hpos

lemma tokStart_le (m : Mem) (n : ℕ) : tokStart m n ≤ n := by
  induction n with
  | zero => exact le_rfl
  | succ n ih =>
    rw [tokStart]
    split_ifs <;> omega

/-- A printable character is no terminator. -/
lemma ofNat_ne_zero_of_printable {ev : ℤ} (hlow : 32 ≤ ev) (hhigh : ev ≤ 126) :
    UInt8.ofNat ev.toNat ≠ 0 := by
  intro h0
  have hval := congrArg UInt8.toNat h0
  rw [UInt8.toNat_ofNat_of_lt' (by show ev.toNat < 256; omega)] at hval
  have hzero : (0 : UInt8).toNat = 0 := rfl
  omega

/-- The numbers up to a running minimum. -/
lemma le_foldl_min_iff {α : Type} (f : α → ℕ) (xs : List α) (n c : ℕ) :
    n ≤ xs.foldl (fun m x => min m (f x)) c ↔ n ≤ c ∧ ∀ x ∈ xs, n ≤ f x := by
  induction xs generalizing c with
  | nil => simp
  | cons x xs ih =>
    rw [foldl_cons, ih, le_min_iff, forall_mem_cons, and_assoc]

/-! ## The array holds two strings -/

namespace Line

/-- **The array shows a line**: the two strings with a terminator after them. -/
structure Shows (s : Line) (l r : List UInt8) : Prop where
  cursor : s.cmdCursor = l.length
  len : s.cmdLen = (l ++ r).length
  stored : Stores s.cmdBuf 0 (l ++ (r ++ [0]))
  noZero : 0 ∉ l ++ r
  room : (l ++ r).length < cmdBufMax

/-- Nothing behind the array was written. -/
def Within (s t : Line) : Prop := ∀ i, cmdBufMax ≤ i → t.cmdBuf i = s.cmdBuf i

variable {s t : Line} {z : Zipper UInt8} {l r : List UInt8} {c : UInt8}

lemma Within.refl (s : Line) : Within s s := fun _ _ => rfl

lemma Within.trans {u : Line} (h : Within s t) (h' : Within t u) : Within s u := fun i hi =>
  (h' i hi).trans (h i hi)

lemma shows_mk {buf : Mem} {len cursor nav : ℤ} {history : List (List UInt8)}
    (hcursor : cursor = l.length) (hlen : len = (l ++ r).length)
    (hstored : Stores buf 0 (l ++ (r ++ [0]))) (hzero : 0 ∉ l ++ r)
    (hroom : (l ++ r).length < cmdBufMax) : Shows ⟨buf, len, cursor, history, nav⟩ l r :=
  ⟨hcursor, hlen, hstored, hzero, hroom⟩

/-- The cursor moves within the line. -/
lemma Shows.move {l' r' : List UInt8} (h : Shows s l r) (htext : l' ++ r' = l ++ r) {n : ℤ}
    (hn : n = l'.length) : Shows { s with cmdCursor := n } l' r' := by
  obtain ⟨-, hlen, hstored, hzero, hroom⟩ := h
  refine shows_mk hn ?_ ?_ ?_ ?_
  · rw [htext, hlen]
  · rwa [← append_assoc, htext, append_assoc]
  · rwa [htext]
  · rwa [htext]

/-- **A token before the cursor is replaced by another text.** The other changes of the line are of
this kind. -/
lemma Shows.splice {pre m : List UInt8} {add : ℤ} (h : Shows s (l ++ pre) r) (h0 : 0 ∉ m)
    (hadd : add = m.length - pre.length) (hroom : s.cmdLen + add < cmdBufMax) :
    Shows (s.splice l.length m add) (l ++ m) r ∧ Within s (s.splice l.length m add) := by
  obtain ⟨hcursor, hlen, hstored, hzero, -⟩ := h
  simp only [length_append, cmdBufMax] at hcursor hlen hroom
  have hr : (r ++ [(0 : UInt8)]).length = r.length + 1 := by simp
  rw [append_assoc] at hstored
  have hstored := hstored.splice m
  rw [Nat.zero_add, ← append_assoc] at hstored
  rw [Line.splice, show s.cmdCursor.toNat = l.length + pre.length by omega,
    show (s.cmdCursor + add).toNat = l.length + m.length by omega,
    show (s.cmdLen - s.cmdCursor + 1).toNat = (r ++ [0]).length by omega]
  refine ⟨shows_mk ?_ ?_ hstored ?_ ?_, fun i hi => ?_⟩
  · rw [length_append]
    omega
  · rw [length_append, length_append]
    omega
  · simp only [mem_append, not_or] at hzero ⊢
    exact ⟨⟨hzero.1.1, h0⟩, hzero.2⟩
  · simp only [length_append, cmdBufMax]
    omega
  · simp only [cmdBufMax] at hi
    show write _ _ _ i = _
    rw [write_apply_of_outside _ (.inr (by omega)), copy_apply_of_outside _ (.inr (by omega))]

/-- A printable key. -/
lemma Shows.insert (h : Shows s l r) (hc : c ≠ 0) (hroom : s.cmdLen < cmdBufMax - 1) :
    Shows (s.insert c) (l ++ [c]) r ∧ Within s (s.insert c) := by
  have heq : s.insert c = s.splice l.length [c] 1 := by
    rw [Line.insert, if_pos hroom, Line.splice, write_singleton, h.cursor, Int.toNat_natCast]
  rw [← append_nil l] at h
  rw [heq]
  exact h.splice (by simpa using hc.symm) rfl (by omega)

/-- Backspace after a character. -/
lemma Shows.backspace (h : Shows s (l ++ [c]) r) :
    Shows s.backspace l r ∧ Within s s.backspace := by
  have hcursor := h.cursor
  rw [length_append, length_singleton] at hcursor
  have heq : s.backspace = s.splice l.length [] (-1) := by
    rw [Line.backspace, if_pos (by omega), Line.splice, write_nil]
    rfl
  have hroom := h.room
  have hlen := h.len
  rw [heq]
  simpa using h.splice not_mem_nil (show (-1 : ℤ) = _ by simp) (by omega)

/-- Delete before a character is Backspace after it. -/
lemma Shows.delete (h : Shows s l (c :: r)) : Shows s.delete l r ∧ Within s s.delete := by
  have hcursor := h.cursor
  have hlen := h.len
  rw [length_append, length_cons] at hlen
  have hmove : Shows { s with cmdCursor := s.cmdCursor + 1 } (l ++ [c]) r :=
    h.move (by simp) (by simp [hcursor])
  have heq : s.delete = ({ s with cmdCursor := s.cmdCursor + 1 } : Line).backspace := by
    rw [Line.delete, if_pos (by omega), Line.backspace, if_pos (by dsimp only; omega)]
    dsimp only
    rw [Int.add_sub_cancel, show s.cmdLen - (s.cmdCursor + 1) + 1 = s.cmdLen - s.cmdCursor by omega]
  rw [heq]
  exact hmove.backspace

/-- A blank at the end of the line. -/
lemma Shows.appendBlank (h : Shows s l []) (hroom : s.cmdLen + 1 < cmdBufMax) :
    Shows s.appendBlank (l ++ [blank]) [] ∧ Within s s.appendBlank := by
  have hcursor := h.cursor
  have hlen := h.len
  rw [append_nil] at hlen
  have hend : s.cmdBuf l.length = 0 := by
    simpa using (stores_cons.1 (stores_append.1 h.stored).2).1
  have heq : s.appendBlank = s.splice l.length [blank] 1 := by
    have hone : (s.cmdLen - s.cmdCursor + 1).toNat = 1 := by omega
    rw [Line.appendBlank, Line.splice, write_singleton, hone, copy_one, hcursor, hlen,
      Int.toNat_natCast, hend, update_comm (by omega)]
  rw [← append_nil l] at h
  rw [heq]
  exact h.splice (by decide) rfl (by omega)

/-- The empty line. -/
lemma shows_clear (s : Line) : Shows s.clear [] [] ∧ Within s s.clear := by
  refine ⟨shows_mk rfl rfl ?_ not_mem_nil (by decide), fun i hi => ?_⟩
  · exact stores_cons.2 ⟨update_self .., stores_nil _ _⟩
  · simp only [cmdBufMax] at hi
    exact update_of_ne (by omega) _ _

/-- The string in the array is what stands before the first terminator. -/
lemma cstr_read {m : Mem} {text : List UInt8} (h : Stores m 0 (text ++ [0])) (h0 : 0 ∉ text)
    (hlen : text.length < cmdBufMax) : cstr (read m 0 cmdBufMax) = text := by
  have hsplit : read m 0 cmdBufMax =
      text ++ ([0] ++ read m (text.length + 1) (cmdBufMax - (text.length + 1))) := by
    have hread := h.read_eq
    rw [length_append, length_singleton] at hread
    have hadd := read_add m 0 (text.length + 1) (cmdBufMax - (text.length + 1))
    rw [Nat.add_sub_cancel' (Nat.succ_le_of_lt hlen), Nat.zero_add, hread] at hadd
    rw [hadd, append_assoc]
  rw [hsplit, cstr, takeWhile_append_of_pos]
  · simp
  · intro c hc
    simpa using ne_of_mem_of_not_mem hc h0

/-- An entry of the history. -/
lemma shows_recall {nav : ℤ} {entry : List UInt8} (hnav : s.history[nav.toNat]? = some entry)
    (h0 : 0 ∉ entry) (hlen : entry.length < cmdBufMax) :
    Shows (s.recallEntry nav) entry [] ∧ Within s (s.recallEntry nav) := by
  have hget : s.history.getD nav.toNat [] = entry := by
    rw [getD_eq_getElem?_getD, hnav]
    rfl
  have hstored := stores_write s.cmdBuf 0 (entry ++ [0])
  have hstrlen : strlen (write s.cmdBuf 0 (entry ++ [0])) = entry.length := by
    rw [strlen, cstr_read hstored h0 hlen]
  rw [Line.recallEntry, hget]
  simp only [hstrlen]
  refine ⟨shows_mk rfl ?_ hstored ?_ ?_, fun i hi => ?_⟩
  · simp only [append_nil]
  · simpa using h0
  · simpa using hlen
  · simp only [cmdBufMax] at hi hlen
    refine write_apply_of_outside _ (.inr ?_)
    simp only [length_append, length_singleton]
    omega

/-- The line before and after the cursor, as two strings. -/
def zipper (s : Line) : Zipper UInt8 :=
  ⟨read s.cmdBuf 0 s.cmdCursor.toNat,
    read s.cmdBuf s.cmdCursor.toNat (s.cmdLen - s.cmdCursor).toNat⟩

/-- The zipper of a line that is shown. -/
lemma Shows.zipper_eq (h : Shows s l r) : s.zipper = ⟨l, r⟩ := by
  obtain ⟨hcursor, hlen, hstored, -, -⟩ := h
  rw [length_append] at hlen
  obtain ⟨hl, hr⟩ := stores_append.1 hstored
  rw [Nat.zero_add] at hr
  have hleft := hl.read_eq
  have hright := (stores_append.1 hr).1.read_eq
  rw [zipper, show s.cmdCursor.toNat = l.length by omega,
    show (s.cmdLen - s.cmdCursor).toNat = r.length by omega, hleft, hright]

/-- The cursor is in the line and the line in the array. -/
lemma Shows.bounds (h : Shows s l r) :
    0 ≤ s.cmdCursor ∧ s.cmdCursor ≤ s.cmdLen ∧ s.cmdLen ≤ 255 := by
  obtain ⟨hcursor, hlen, -, -, hroom⟩ := h
  simp only [length_append, cmdBufMax] at hlen hroom
  omega

/-- The terminator stands behind the line and nowhere in it. -/
lemma Shows.terminated (h : Shows s l r) :
    s.cmdBuf s.cmdLen.toNat = 0 ∧ ∀ i < s.cmdLen.toNat, s.cmdBuf i ≠ 0 := by
  obtain ⟨-, hlen, hstored, hzero, -⟩ := h
  rw [← append_assoc] at hstored
  obtain ⟨htext, hend⟩ := stores_append.1 hstored
  have hlen' : (l ++ r).length = s.cmdLen.toNat := by omega
  rw [Nat.zero_add, hlen', stores_cons] at hend
  refine ⟨hend.1, fun i hi h0 => hzero ?_⟩
  have hlt : i < (l ++ r).length := by omega
  have hget := htext i _ (getElem?_eq_getElem hlt)
  rw [Nat.zero_add, h0] at hget
  exact hget ▸ getElem_mem hlt

/-! ## The completion -/

/-- No match holds a terminator. -/
lemma not_mem_of_mem_candidates {fs : Fs} {tok : ℕ} {pre m : List UInt8}
    (hm : m ∈ s.candidates fs tok pre) : 0 ∉ m := by
  unfold candidates at hm
  split_ifs at hm with hfirst
  · obtain ⟨c, hc, rfl⟩ := mem_map.1 hm
    have hbuiltin : ∀ c ∈ builtinCmds, 0 ∉ c := by decide
    exact fun h0 => hbuiltin c (mem_of_mem_filter (mem_of_mem_take hc))
      (mem_of_mem_take h0)
  · obtain ⟨f, hf, rfl⟩ := mem_map.1 hm
    obtain ⟨name, -, rfl⟩ := mem_map.1 (mem_of_mem_filter (mem_of_mem_take hf))
    intro h0
    obtain ⟨c, hc, hlow⟩ := mem_map.1 h0
    have hc0 : c ≠ 0 := by
      simpa [cstr] using mem_takeWhile_imp (mem_of_mem_take hc)
    exact toLowerCh_ne_zero hc0 (by rw [hlow]; rfl)

/-- The part of the line that the completion replaces. -/
lemma Shows.split_token (h : Shows s l r) {tok : ℕ} (htok : tok ≤ s.cmdCursor.toNat) :
    ∃ l₀ pre, l = l₀ ++ pre ∧ tok = l₀.length ∧ s.cmdCursor - tok = pre.length := by
  have hcursor := h.cursor
  have hlen : (l.take tok).length = tok := length_take_of_le (by omega)
  refine ⟨l.take tok, l.drop tok, (take_append_drop tok l).symm, hlen.symm, ?_⟩
  rw [length_drop]
  omega

/-- **Tab** leaves a line in the array. -/
lemma Shows.handleTabCompletion (h : Shows s l r) (fs : Fs) :
    ∃ l' r', Shows (s.handleTabCompletion fs) l' r' ∧ Within s (s.handleTabCompletion fs) ∧
      (s.handleTabCompletion fs).history = s.history ∧
      (s.handleTabCompletion fs).historyNav = s.historyNav := by
  have hsame : ∃ l' r', Shows s l' r' ∧ Within s s ∧ s.history = s.history ∧
      s.historyNav = s.historyNav := ⟨l, r, h, .refl s, rfl, rfl⟩
  unfold Line.handleTabCompletion
  obtain ⟨l₀, pre, rfl, htok, hpre⟩ := h.split_token (tokStart_le s.cmdBuf s.cmdCursor.toNat)
  rw [htok] at hpre
  simp only [htok, hpre]
  split_ifs with hlong
  · exact hsame
  -- no candidate has a zero byte, so what is put into the line is text
  have hzero : ∀ m ∈ s.candidates fs l₀.length
      (read s.cmdBuf l₀.length (pre.length : ℤ).toNat), 0 ∉ m :=
    fun _ => not_mem_of_mem_candidates
  revert hzero
  generalize s.candidates fs l₀.length (read s.cmdBuf l₀.length (pre.length : ℤ).toNat) = ms
  intro hzero
  match ms with
  | [] => exact hsame
  | [m] =>
    dsimp only
    split_ifs with hfit hend
    · obtain ⟨h', hw⟩ := h.splice (hzero m mem_cons_self) rfl (by omega)
      have hr : r = [] := by
        have hcursor := h'.cursor
        have hlen := h'.len
        rw [length_append] at hlen
        exact length_eq_zero_iff.1 (by omega)
      subst hr
      obtain ⟨h'', hw'⟩ := h'.appendBlank hend.2
      exact ⟨_, _, h'', hw.trans hw', rfl, rfl⟩
    · obtain ⟨h', hw⟩ := h.splice (hzero m mem_cons_self) rfl (by omega)
      exact ⟨_, _, h', hw, rfl, rfl⟩
    · exact hsame
  | m :: m' :: ms =>
    dsimp only
    have hle := ((le_foldl_min_iff (agree m) (m' :: ms) _ m.length).1 le_rfl).1
    revert hle
    generalize (m' :: ms).foldl (fun common x => min common (agree m x)) m.length = common
    intro hle
    split_ifs with hfit
    · have h0 : 0 ∉ m.take common := fun h0 =>
        hzero m mem_cons_self (mem_of_mem_take h0)
      have hadd : (common : ℤ) - pre.length = (m.take common).length - pre.length := by
        rw [length_take_of_le hle]
      obtain ⟨h', hw⟩ := h.splice h0 hadd (by omega)
      exact ⟨_, _, h', hw, rfl, rfl⟩
    · exact hsame

/-! ## Every event -/

/-- **The invariant of the line editor**: the array shows a line, and so does every entry of the
history. -/
structure Inv (s : Line) : Prop where
  line : ∃ l r, Shows s l r
  entries : ∀ e ∈ s.history, 0 ∉ e ∧ e.length < cmdBufMax
  count : s.history.length ≤ historyMax
  navLow : -1 ≤ s.historyNav
  navHigh : s.historyNav < max s.history.length 1

variable (h : Inv s)

include h

/-- What changes the line only. -/
lemma Inv.of_shows (hline : Shows t l r) (hhistory : t.history = s.history)
    (hnav : t.historyNav = s.historyNav) : Inv t := by
  obtain ⟨-, hentries, hcount, hlow, hhigh⟩ := h
  rw [← hhistory] at hentries hcount hhigh
  rw [← hnav] at hlow hhigh
  exact ⟨⟨l, r, hline⟩, hentries, hcount, hlow, hhigh⟩

/-- A line that is pushed to the history. -/
lemma Inv.historyPush {line : List UInt8} (h0 : 0 ∉ line) (hlen : line.length < cmdBufMax) :
    (∀ e ∈ Shell.historyPush s.history line, 0 ∉ e ∧ e.length < cmdBufMax) ∧
      (Shell.historyPush s.history line).length ≤ historyMax := by
  have hentries := h.entries
  have hcount := h.count
  unfold Shell.historyPush
  split_ifs with hempty hlast hfull
  · exact ⟨hentries, hcount⟩
  · exact ⟨hentries, hcount⟩
  · refine ⟨fun e he => ?_, ?_⟩
    · rcases mem_append.1 he with he | he
      · exact hentries e he
      · exact mem_singleton.1 he ▸ ⟨h0, hlen⟩
    · rw [length_append, length_singleton]
      omega
  · refine ⟨fun e he => ?_, ?_⟩
    · rcases mem_append.1 he with he | he
      · exact hentries e (mem_of_mem_tail he)
      · exact mem_singleton.1 he ▸ ⟨h0, hlen⟩
    · rw [length_append, length_tail, length_singleton]
      simp only [historyMax] at hcount hfull ⊢
      omega

lemma Inv.clear : Inv s.clear ∧ Within s s.clear := by
  obtain ⟨hline, hw⟩ := shows_clear s
  refine ⟨⟨⟨_, _, hline⟩, h.entries, h.count, le_rfl, ?_⟩, hw⟩
  show (-1 : ℤ) < (max s.history.length 1 : ℕ)
  omega

omit h in
/-- The line that Enter pushes is the text of the line. -/
lemma Shows.cstr_enter (h : Shows s l r) :
    cstr (read (update s.cmdBuf s.cmdLen.toNat 0) 0 cmdBufMax) = l ++ r := by
  have hstored := h.stored
  rw [← append_assoc] at hstored
  have hend := h.terminated.1
  rw [show update s.cmdBuf s.cmdLen.toNat 0 = s.cmdBuf by
    rw [← hend, update_eq_self]]
  exact cstr_read hstored h.noZero h.room

/-- Enter ends the line inside the buffer. -/
lemma Inv.enter : Inv s.enter ∧ Within s s.enter := by
  obtain ⟨l, r, hline⟩ := h.line
  have hpush := h.historyPush hline.noZero hline.room
  have hcstr := hline.cstr_enter
  obtain ⟨hclear, hw⟩ := shows_clear { s with cmdBuf := update s.cmdBuf s.cmdLen.toNat 0 }
  have hroom := hline.room
  have hlen := hline.len
  refine ⟨⟨⟨[], [], ⟨hclear.cursor, hclear.len, hclear.stored, hclear.noZero, hclear.room⟩⟩, ?_, ?_,
    le_rfl, ?_⟩, fun i hi => ?_⟩
  · show ∀ e ∈ Shell.historyPush s.history _, _
    rw [hcstr]
    exact hpush.1
  · show (Shell.historyPush s.history _).length ≤ _
    rw [hcstr]
    exact hpush.2
  · show (-1 : ℤ) < (max (Shell.historyPush s.history _).length 1 : ℕ)
    omega
  · refine (hw i hi).trans (update_of_ne ?_ _ _)
    omega

/-- A recalled entry becomes the line. -/
lemma Inv.recallEntry {nav : ℤ} (hlow : 0 ≤ nav) (hhigh : nav < s.history.length) :
    ∃ entry, s.history[nav.toNat]? = some entry ∧ Shows (s.recallEntry nav) entry [] ∧
      Inv (s.recallEntry nav) ∧ Within s (s.recallEntry nav) := by
  have hlt : nav.toNat < s.history.length := by omega
  have hentry : s.history[nav.toNat]? = some s.history[nav.toNat] := getElem?_eq_getElem hlt
  obtain ⟨h0, hlen⟩ := h.entries _ (getElem_mem hlt)
  obtain ⟨hline, hw⟩ := shows_recall hentry h0 hlen
  refine ⟨_, hentry, hline, ⟨⟨_, _, hline⟩, h.entries, h.count, ?_, ?_⟩, hw⟩
  · show -1 ≤ nav
    omega
  · show nav < (max s.history.length 1 : ℕ)
    omega

/-- What an event has to do to the line editor: keep the invariant, write inside the array, and
turn the two strings into `z`. -/
structure Becomes (s t : Line) (z : Zipper UInt8) : Prop where
  inv : Inv t
  within : Within s t
  zipper_eq : t.zipper = z

lemma Inv.becomes_self : Becomes s s s.zipper := ⟨h, .refl s, rfl⟩

lemma Inv.becomes (hline : Shows t l r) (hw : Within s t) (hhistory : t.history = s.history)
    (hnav : t.historyNav = s.historyNav) : Becomes s t ⟨l, r⟩ :=
  ⟨h.of_shows hline hhistory hnav, hw, hline.zipper_eq⟩

/-- A character is inserted while there is room. -/
lemma Inv.insert (hc : c ≠ 0) : Becomes s (s.insert c)
    (if s.zipper.text.length < cmdBufMax - 1 then s.zipper.insert c else s.zipper) := by
  obtain ⟨l, r, hline⟩ := h.line
  have hlen := hline.len
  have hroom : s.cmdLen < cmdBufMax - 1 ↔ s.zipper.text.length < cmdBufMax - 1 := by
    rw [hline.zipper_eq, Zipper.text_mk]
    simp only [cmdBufMax]
    omega
  split_ifs with hlt
  · obtain ⟨hline', hw⟩ := hline.insert hc (hroom.2 hlt)
    rw [hline.zipper_eq]
    refine h.becomes hline' hw ?_ ?_
    · rw [Line.insert, if_pos (hroom.2 hlt)]
    · rw [Line.insert, if_pos (hroom.2 hlt)]
  · rw [Line.insert, if_neg fun hlt' => hlt (hroom.1 hlt')]
    exact h.becomes_self

/-- Backspace deletes the character before the cursor. -/
lemma Inv.backspace : Becomes s s.backspace s.zipper.backspace := by
  obtain ⟨l, r, hline⟩ := h.line
  have hcursor := hline.cursor
  rw [hline.zipper_eq]
  rcases eq_nil_or_concat l with rfl | ⟨l, c, rfl⟩
  · rw [Line.backspace, if_neg (by simp [hcursor])]
    exact h.becomes hline (.refl s) rfl rfl
  · rw [concat_eq_append] at hline hcursor ⊢
    obtain ⟨hline', hw⟩ := hline.backspace
    rw [Zipper.backspace, dropLast_concat]
    refine h.becomes hline' hw ?_ ?_
    · rw [Line.backspace]
      split_ifs <;> rfl
    · rw [Line.backspace]
      split_ifs <;> rfl

/-- Delete deletes the character at the cursor. -/
lemma Inv.delete : Becomes s s.delete s.zipper.delete := by
  obtain ⟨l, r, hline⟩ := h.line
  have hcursor := hline.cursor
  have hlen := hline.len
  rw [hline.zipper_eq]
  cases r with
  | nil =>
    rw [Line.delete, if_neg (by rw [hcursor, hlen, append_nil]; omega)]
    exact h.becomes hline (.refl s) rfl rfl
  | cons c r =>
    obtain ⟨hline', hw⟩ := hline.delete
    refine h.becomes hline' hw ?_ ?_
    · rw [Line.delete]
      split_ifs <;> rfl
    · rw [Line.delete]
      split_ifs <;> rfl

/-- The cursor moves to the left. -/
lemma Inv.left :
    Becomes s (if s.cmdCursor > 0 then { s with cmdCursor := s.cmdCursor - 1 } else s)
      s.zipper.moveLeft := by
  obtain ⟨l, r, hline⟩ := h.line
  have hcursor := hline.cursor
  rw [hline.zipper_eq]
  rcases eq_nil_or_concat l with rfl | ⟨l, c, rfl⟩
  · rw [if_neg (by simp [hcursor])]
    exact h.becomes hline (.refl s) rfl rfl
  · rw [concat_eq_append] at hline hcursor ⊢
    rw [length_append, length_singleton] at hcursor
    rw [if_pos (by omega), Zipper.moveLeft, dropLast_concat, getLast?_concat]
    exact h.becomes (hline.move (by simp) (by omega)) (.refl s) rfl rfl

/-- The cursor moves to the right. -/
lemma Inv.right :
    Becomes s (if s.cmdCursor < s.cmdLen then { s with cmdCursor := s.cmdCursor + 1 } else s)
      s.zipper.moveRight := by
  obtain ⟨l, r, hline⟩ := h.line
  have hcursor := hline.cursor
  have hlen := hline.len
  rw [hline.zipper_eq]
  cases r with
  | nil =>
    rw [if_neg (by rw [hcursor, hlen, append_nil]; omega), Zipper.moveRight]
    exact h.becomes (hline.move (by simp) (by simp [hcursor])) (.refl s) rfl rfl
  | cons c r =>
    rw [length_append, length_cons] at hlen
    rw [if_pos (by omega), Zipper.moveRight]
    refine h.becomes (hline.move (by simp) ?_) (.refl s) rfl rfl
    simp [hcursor]

lemma Inv.home : Becomes s { s with cmdCursor := 0 } s.zipper.home := by
  obtain ⟨l, r, hline⟩ := h.line
  rw [hline.zipper_eq]
  have hmove : Shows { s with cmdCursor := 0 } [] (l ++ r) := hline.move (nil_append _) rfl
  exact h.becomes hmove (.refl s) rfl rfl

lemma Inv.toEnd : Becomes s { s with cmdCursor := s.cmdLen } s.zipper.toEnd := by
  obtain ⟨l, r, hline⟩ := h.line
  rw [hline.zipper_eq]
  exact h.becomes (hline.move (append_nil _) hline.len) (.refl s) rfl rfl

/-- **Up** keeps the line where there is no history and else shows the selected entry. -/
lemma Inv.up : s.history = [] ∧ s.up = s ∨
    ∃ entry, 0 ≤ s.up.historyNav ∧ s.history[s.up.historyNav.toNat]? = some entry ∧
      Becomes s s.up (.ofText entry) := by
  unfold Line.up
  by_cases hcount : s.history.length > 0
  · rw [if_pos hcount]
    refine .inr ?_
    have hlow := h.navLow
    have hhigh := h.navHigh
    generalize hnav : (if s.historyNav < 0 then (s.history.length : ℤ) - 1
      else if s.historyNav > 0 then s.historyNav - 1 else s.historyNav) = nav
    have hbounds : 0 ≤ nav ∧ nav < s.history.length := by
      subst hnav
      split_ifs <;> omega
    obtain ⟨entry, hentry, hline, hinv, hw⟩ := h.recallEntry hbounds.1 hbounds.2
    exact ⟨entry, hbounds.1, hentry, hinv, hw, hline.zipper_eq⟩
  · rw [if_neg hcount]
    exact .inl ⟨length_eq_zero_iff.1 (by omega), rfl⟩

/-- **Down** keeps the line where no entry is selected and else shows the next entry, or an empty
line after the last one. -/
lemma Inv.down : s.historyNav = -1 ∧ s.down = s ∨
    s.down.historyNav = -1 ∧ Becomes s s.down (.ofText []) ∨
    ∃ entry, 0 ≤ s.down.historyNav ∧ s.history[s.down.historyNav.toNat]? = some entry ∧
      Becomes s s.down (.ofText entry) := by
  have hlow := h.navLow
  unfold Line.down
  split_ifs with hnav hlast
  · obtain ⟨hinv, hw⟩ := h.clear
    exact .inr (.inl ⟨rfl, hinv, hw, (shows_clear s).1.zipper_eq⟩)
  · have hnext : 0 ≤ s.historyNav + 1 := by omega
    obtain ⟨entry, hentry, hline, hinv, hw⟩ := h.recallEntry hnext (by omega)
    exact .inr (.inr ⟨entry, hnext, hentry, hinv, hw, hline.zipper_eq⟩)
  · exact .inl ⟨by omega, rfl⟩

omit h in
/-- The two branches of a test. -/
lemma inv_within_ite {p : Prop} [Decidable p] {t u : Line} (ht : p → Inv t ∧ Within s t)
    (hu : ¬p → Inv u ∧ Within s u) :
    Inv (if p then t else u) ∧ Within s (if p then t else u) := by
  split_ifs with hp
  · exact ht hp
  · exact hu hp

omit h in
lemma Becomes.inv_within (h : Becomes s t z) : Inv t ∧ Within s t := ⟨h.inv, h.within⟩

/-- **Every event** keeps the line in the array and writes nothing behind it. -/
lemma Inv.handleEvent (fs : Fs) (ev : ℤ) :
    Inv (s.handleEvent fs ev) ∧ Within s (s.handleEvent fs ev) := by
  have hself : Inv s ∧ Within s s := ⟨h, .refl s⟩
  unfold Line.handleEvent
  refine inv_within_ite (fun _ => hself) fun _ => ?_
  refine inv_within_ite (fun _ => h.enter) fun _ => ?_
  refine inv_within_ite (fun _ => h.clear) fun _ => ?_
  refine inv_within_ite (fun _ => hself) fun _ => ?_
  refine inv_within_ite (fun _ => h.backspace.inv_within) fun _ => ?_
  refine inv_within_ite (fun _ => h.delete.inv_within) fun _ => ?_
  refine inv_within_ite (fun _ => h.left.inv_within) fun _ => ?_
  refine inv_within_ite (fun _ => h.right.inv_within) fun _ => ?_
  refine inv_within_ite (fun _ => h.home.inv_within) fun _ => ?_
  refine inv_within_ite (fun _ => h.toEnd.inv_within) fun _ => ?_
  refine inv_within_ite (fun _ => ?_) fun _ => ?_
  · rcases h.up with ⟨-, hsame⟩ | ⟨entry, -, -, hup⟩
    · rwa [hsame]
    · exact hup.inv_within
  refine inv_within_ite (fun _ => ?_) fun _ => ?_
  · rcases h.down with ⟨-, hsame⟩ | ⟨-, hdown⟩ | ⟨entry, -, -, hdown⟩
    · rwa [hsame]
    · exact hdown.inv_within
    · exact hdown.inv_within
  refine inv_within_ite (fun _ => ?_) fun _ => ?_
  · obtain ⟨l, r, hline⟩ := h.line
    obtain ⟨l', r', hline', hw, hhistory, hnav⟩ := hline.handleTabCompletion fs
    exact ⟨h.of_shows hline' hhistory hnav, hw⟩
  refine inv_within_ite (fun _ => hself) fun _ => ?_
  refine inv_within_ite (fun hprint => ?_) fun _ => hself
  exact (h.insert (ofNat_ne_zero_of_printable hprint.1 hprint.2)).inv_within

omit h in
/-- A printable key is inserted. -/
lemma handleEvent_of_printable (fs : Fs) {ev : ℤ} (hlow : 32 ≤ ev) (hhigh : ev ≤ 126) :
    s.handleEvent fs ev = s.insert (UInt8.ofNat ev.toNat) := by
  have hne : ∀ k : ℤ, k < 32 ∨ 126 < k → ev ≠ k := fun k hk h => by omega
  rw [Line.handleEvent, if_neg (by omega), if_neg (hne 10 (by decide)),
    if_neg (hne (ctrlKey 0x63) (by decide)), if_neg (hne (ctrlKey 0x6C) (by decide)),
    if_neg (hne 8 (by decide)), if_neg (hne keyDelete (by decide)),
    if_neg (hne keyLeft (by decide)), if_neg (hne keyRight (by decide)),
    if_neg (not_or.2 ⟨hne keyHome (by decide), hne (ctrlKey 0x61) (by decide)⟩),
    if_neg (not_or.2 ⟨hne keyEnd (by decide), hne (ctrlKey 0x65) (by decide)⟩),
    if_neg (hne keyUp (by decide)), if_neg (hne keyDown (by decide)), if_neg (hne 9 (by decide)),
    if_neg (not_or.2 ⟨hne keyF1 (by decide), hne keyF2 (by decide)⟩), if_pos ⟨hlow, hhigh⟩]

end Line

/-! ## Runs -/

/-- The runs of the line editor: `shell_init`, then any events, each with the directory at that
time. -/
def events : System Line (Fs × ℤ) where
  init s := s.cmdBuf 0 = 0 ∧ s.cmdLen = 0 ∧ s.cmdCursor = 0 ∧ s.history = [] ∧ s.historyNav = -1
  step s ev t := t = s.handleEvent ev.1 ev.2

/-- The invariant holds in every run. -/
lemma inv_of_reachable {s : Line} (hs : events.Reachable s) : s.Inv := by
  refine hs.invariant Line.Inv ?_ ?_
  · rintro s ⟨hbuf, hlen, hcursor, hhistory, hnav⟩
    refine ⟨⟨[], [], hcursor, hlen, ?_, not_mem_nil, by decide⟩, ?_, ?_, ?_, ?_⟩
    · exact stores_cons.2 ⟨hbuf, stores_nil _ _⟩
    · rw [hhistory]
      exact fun e he => absurd he not_mem_nil
    · rw [hhistory]
      exact Nat.zero_le _
    · rw [hnav]
    · rw [hnav]
      omega
  · rintro s ⟨fs, ev⟩ t hs rfl
    exact (hs.handleEvent fs ev).1

/-- **The line editor refines a text with a position**: after any events the array holds a line with
the cursor in it and the history position is in range; a printable key, Backspace and Delete change
the two strings where they meet, the arrows, Home and End move the position and keep the text, and
Up and Down show the selected entry of the history, or an empty line, with the position at its end.
No event writes behind the array. -/
theorem line_refines_zipper {s : Line} (hs : events.Reachable s) :
    (0 ≤ s.cmdCursor ∧ s.cmdCursor ≤ s.cmdLen ∧ s.cmdLen ≤ 255) ∧
    s.cmdBuf s.cmdLen.toNat = 0 ∧ (∀ i < s.cmdLen.toNat, s.cmdBuf i ≠ 0) ∧
    (-1 ≤ s.historyNav ∧ s.historyNav < max s.history.length 1) ∧
    ∀ fs : Fs,
      (∀ ev i, 256 ≤ i → (s.handleEvent fs ev).cmdBuf i = s.cmdBuf i) ∧
      (∀ ev, 32 ≤ ev → ev ≤ 126 → (s.handleEvent fs ev).zipper =
        if s.zipper.text.length < 255 then s.zipper.insert (UInt8.ofNat ev.toNat) else s.zipper) ∧
      (s.handleEvent fs 8).zipper = s.zipper.backspace ∧
      (s.handleEvent fs keyDelete).zipper = s.zipper.delete ∧
      (s.handleEvent fs keyLeft).zipper = s.zipper.moveLeft ∧
      (s.handleEvent fs keyRight).zipper = s.zipper.moveRight ∧
      (∀ ev, ev = keyHome ∨ ev = ctrlKey 0x61 → (s.handleEvent fs ev).zipper = s.zipper.home) ∧
      (∀ ev, ev = keyEnd ∨ ev = ctrlKey 0x65 → (s.handleEvent fs ev).zipper = s.zipper.toEnd) ∧
      (∀ ev ∈ [keyLeft, keyRight, keyHome, ctrlKey 0x61, keyEnd, ctrlKey 0x65],
        (s.handleEvent fs ev).zipper.text = s.zipper.text) ∧
      (s.history = [] ∧ (s.handleEvent fs keyUp).zipper = s.zipper ∨
        ∃ entry, 0 ≤ (s.handleEvent fs keyUp).historyNav ∧
          s.history[(s.handleEvent fs keyUp).historyNav.toNat]? = some entry ∧
          (s.handleEvent fs keyUp).zipper = .ofText entry) ∧
      (s.historyNav = -1 ∧ (s.handleEvent fs keyDown).zipper = s.zipper ∨
        (s.handleEvent fs keyDown).historyNav = -1 ∧
          (s.handleEvent fs keyDown).zipper = .ofText [] ∨
        ∃ entry, 0 ≤ (s.handleEvent fs keyDown).historyNav ∧
          s.history[(s.handleEvent fs keyDown).historyNav.toNat]? = some entry ∧
          (s.handleEvent fs keyDown).zipper = .ofText entry) := by
  have h := inv_of_reachable hs
  have hleft : ∀ fs, (s.handleEvent fs keyLeft).zipper = s.zipper.moveLeft := fun _ =>
    h.left.zipper_eq
  have hright : ∀ fs, (s.handleEvent fs keyRight).zipper = s.zipper.moveRight := fun _ =>
    h.right.zipper_eq
  have hhome : ∀ fs ev, ev = keyHome ∨ ev = ctrlKey 0x61 →
      (s.handleEvent fs ev).zipper = s.zipper.home := by
    rintro fs ev (rfl | rfl)
    · exact h.home.zipper_eq
    · exact h.home.zipper_eq
  have hend : ∀ fs ev, ev = keyEnd ∨ ev = ctrlKey 0x65 →
      (s.handleEvent fs ev).zipper = s.zipper.toEnd := by
    rintro fs ev (rfl | rfl)
    · exact h.toEnd.zipper_eq
    · exact h.toEnd.zipper_eq
  obtain ⟨l, r, hline⟩ := h.line
  refine ⟨hline.bounds, hline.terminated.1, hline.terminated.2, ⟨h.navLow, h.navHigh⟩, fun fs => ?_⟩
  -- every key has its lemma; the moves of a zipper keep its text
  refine ⟨fun ev => (h.handleEvent fs ev).2, fun ev hlow hhigh => ?_, h.backspace.zipper_eq,
    h.delete.zipper_eq, hleft fs, hright fs, hhome fs, hend fs, fun ev hev => ?_, ?_, ?_⟩
  · rw [Line.handleEvent_of_printable fs hlow hhigh]
    exact (h.insert (ofNat_ne_zero_of_printable hlow hhigh)).zipper_eq
  · simp only [mem_cons, not_mem_nil, or_false] at hev
    rcases hev with rfl | rfl | hev | hev | hev | hev
    · rw [hleft, Zipper.text_moveLeft]
    · rw [hright, Zipper.text_moveRight]
    · rw [hhome fs ev (.inl hev), Zipper.text_home]
    · rw [hhome fs ev (.inr hev), Zipper.text_home]
    · rw [hend fs ev (.inl hev), Zipper.text_toEnd]
    · rw [hend fs ev (.inr hev), Zipper.text_toEnd]
  · show s.history = [] ∧ s.up.zipper = _ ∨ ∃ entry, 0 ≤ s.up.historyNav ∧
      s.history[s.up.historyNav.toNat]? = some entry ∧ s.up.zipper = _
    rcases h.up with ⟨hnone, hsame⟩ | ⟨entry, hnav, hentry, hup⟩
    · exact .inl ⟨hnone, congrArg _ hsame⟩
    · exact .inr ⟨entry, hnav, hentry, hup.zipper_eq⟩
  · show s.historyNav = -1 ∧ s.down.zipper = _ ∨ s.down.historyNav = -1 ∧ s.down.zipper = _ ∨
      ∃ entry, 0 ≤ s.down.historyNav ∧ s.history[s.down.historyNav.toNat]? = some entry ∧
        s.down.zipper = _
    rcases h.down with ⟨hnone, hsame⟩ | ⟨hnav, hdown⟩ | ⟨entry, hnav, hentry, hdown⟩
    · exact .inl ⟨hnone, congrArg _ hsame⟩
    · exact .inr (.inl ⟨hnav, hdown.zipper_eq⟩)
    · exact .inr (.inr ⟨entry, hnav, hentry, hdown.zipper_eq⟩)

/-- The line after `shell_init`. -/
def emptyLine : Line := ⟨fun _ => 0, 0, 0, [], -1⟩

/-- The line after two letters. -/
def typedLine (fs : Fs) : Line := (emptyLine.handleEvent fs 0x6C).handleEvent fs 0x73

/-- The refinement at work: after two letters an arrow moves the position between them. -/
theorem line_refines_zipper_typed :
    events.Reachable (typedLine (blankFs 0)) ∧
      ((typedLine (blankFs 0)).handleEvent (blankFs 0) keyLeft).zipper = ⟨[0x6C], [0x73]⟩ := by
  have hstep : ∀ (s : Line) (ev : ℤ), events.Reachable s →
      events.Reachable (s.handleEvent (blankFs 0) ev) := fun s ev h =>
    .step h (show events.step s (blankFs 0, ev) _ from rfl)
  have hs : events.Reachable (typedLine (blankFs 0)) :=
    hstep _ _ (hstep emptyLine _ (.init ⟨rfl, rfl, rfl, rfl, rfl⟩))
  obtain ⟨-, -, -, -, hkeys⟩ := line_refines_zipper hs
  obtain ⟨-, -, -, -, hleft, -⟩ := hkeys (blankFs 0)
  exact ⟨hs, hleft⟩

end BengalTiger.Shell
