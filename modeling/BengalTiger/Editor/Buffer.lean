import BengalTiger.Lib.Lines
import BengalTiger.Lib.Zipper
import BengalTiger.Editor
import BengalTiger.Memcpy

set_option autoImplicit false

/-!
# The buffer of the text editor

The editor of `kernel/editor.c` keeps its text in 32768 bytes of memory and shifts the bytes behind
the cursor when it changes the text. The functions that change the buffer or move the cursor are
modelled on the memory; they refine the editor on a list of bytes, which in turn acts on the text
before the cursor and the text after it.

`editor_move_vertical` adds the number of lines to the number of the line in an `int`. A sum beyond
`2 ^ 31 - 1` is negative, so the cursor goes to the first line instead of the last.

## Main definitions

* `Editor.Buffer` — the buffer in memory; `Editor.Buffer.step` — what an
  operation does to it; `Editor.Buffer.state` — the editor on a list.
* `Editor.Buffer.Refines` — an operation does what it is for.

## Main results

* `Editor.getLineCol_of_isLine`, `Editor.lineStart_of_isLine`,
  `Editor.lineEnd_of_isLine` — the scans are inverse to each other.
* `Editor.Buffer.Valid.step` — every operation refines the editor on a list.
* `Editor.buffer_refines_iff` — in every run, when an operation does what it is for.
* `Editor.mem_foldl_step` — no run writes outside the buffer.
-/

namespace BengalTiger.Editor

open ByteMem Lines Function List

/-! ## Lines and columns -/

/-- The round of the loop of `editor_get_line_col`. -/
def advance (r : ℕ × ℕ) (b : UInt8) : ℕ × ℕ := if b = newline then (r.1 + 1, 0) else (r.1, r.2 + 1)

lemma getLineCol_eq (text : List UInt8) (pos : ℕ) :
    getLineCol text pos = (text.take pos).foldl advance (0, 0) := rfl

/-- The row counts the line ends. -/
lemma fst_foldl_advance (text : List UInt8) (r : ℕ × ℕ) :
    (text.foldl advance r).1 = r.1 + text.count newline := by
  induction text generalizing r with
  | nil => rfl
  | cons b text ih =>
    rw [foldl_cons, ih, advance, count_cons]
    by_cases hb : b = newline
    · rw [if_pos hb, if_pos (beq_iff_eq.2 hb)]
      dsimp only
      omega
    · rw [if_neg hb, if_neg (by rwa [beq_iff_eq])]
      rfl

lemma foldl_advance_of_notMem {text : List UInt8} (h : newline ∉ text) (r : ℕ × ℕ) :
    text.foldl advance r = (r.1, r.2 + text.length) := by
  induction text generalizing r with
  | nil => rfl
  | cons b text ih =>
    rw [mem_cons, not_or] at h
    rw [foldl_cons, ih h.2, advance, if_neg (Ne.symm h.1), length_cons]
    dsimp only
    rw [Nat.add_assoc, Nat.add_comm 1]

lemma foldl_advance_of_atLineStart {pre : List UInt8} (h : AtLineStart newline pre) :
    pre.foldl advance (0, 0) = (pre.count newline, 0) := by
  have hfst := fst_foldl_advance pre (0, 0)
  rcases eq_nil_or_concat pre with rfl | ⟨l, b, rfl⟩
  · rfl
  · rw [concat_eq_append] at *
    have hb : b = newline := h b getLast?_concat
    rw [Prod.ext_iff]
    refine ⟨by rw [hfst]; exact Nat.zero_add _, ?_⟩
    rw [foldl_append, foldl_cons, foldl_nil, advance, if_pos hb]

section Line

variable {pre line post : List UInt8}

/-- **The line and the column of a place in a line.** -/
lemma getLineCol_of_isLine (h : IsLine newline pre line post) {c : ℕ} (hc : c ≤ line.length) :
    getLineCol (pre ++ (line ++ post)) (pre.length + c) = (pre.count newline, c) := by
  have hnot : newline ∉ line.take c := fun hmem => h.notMem (mem_of_mem_take hmem)
  rw [getLineCol_eq, take_length_add_append, take_append_of_le_length hc,
    foldl_append, foldl_advance_of_atLineStart h.start, foldl_advance_of_notMem hnot,
    length_take_of_le hc, Nat.zero_add]

/-- The loop finds the line behind a given number of line ends. -/
lemma lineStartLoop_append (pre rest : List UInt8) (i n : ℕ) :
    lineStartLoop (n + pre.count newline + 1) (pre ++ newline :: rest) i n =
      i + pre.length + 1 := by
  induction pre generalizing i n with
  | nil =>
    rw [nil_append, lineStartLoop, if_pos rfl, count_nil, Nat.add_zero, if_pos rfl,
      length_nil, Nat.add_zero]
  | cons b pre ih =>
    rw [cons_append, lineStartLoop, count_cons, length_cons]
    by_cases hb : b = newline
    · have hmore := ih (i + 1) (n + 1)
      rw [if_pos hb, if_neg (by rw [if_pos (beq_iff_eq.2 hb)]; omega), if_pos (beq_iff_eq.2 hb),
        show n + (pre.count newline + 1) + 1 = n + 1 + pre.count newline + 1 by omega, hmore]
      omega
    · rw [if_neg hb, if_neg (by rwa [beq_iff_eq]), Nat.add_zero (pre.count newline), ih]
      omega

/-- **The beginning of a line.** -/
lemma lineStart_of_isLine (h : IsLine newline pre line post) :
    lineStart (pre ++ (line ++ post)) (pre.count newline) = pre.length := by
  rcases eq_nil_or_concat pre with rfl | ⟨l, b, rfl⟩
  · rfl
  · have hb : b = newline := h.start b (by rw [concat_eq_append, getLast?_concat])
    have hloop := lineStartLoop_append l (line ++ post) 0 0
    rw [Nat.zero_add, Nat.zero_add] at hloop
    rw [concat_eq_append, hb, count_append, count_singleton_self, lineStart,
      if_neg (Nat.succ_ne_zero _), append_assoc, singleton_append, hloop,
      length_append, length_singleton]

/-- **The end of a line.** -/
lemma lineEnd_of_isLine (h : IsLine newline pre line post) :
    lineEnd (pre ++ (line ++ post)) pre.length = pre.length + line.length := by
  have hline : ∀ b ∈ line, decide (b ≠ newline) = true := fun b hb =>
    decide_eq_true fun heq => h.notMem (heq ▸ hb)
  have hpost : post.takeWhile (· ≠ newline) = [] := by
    cases post with
    | nil => rfl
    | cons b post =>
      have hb : b = newline := h.stop b rfl
      rw [takeWhile_cons_of_neg (by rw [hb]; decide)]
  rw [lineEnd, drop_left, takeWhile_append_of_pos hline, hpost, append_nil]

end Line

/-- The number of characters in a line. -/
def lineLength (text : List UInt8) (n : ℕ) : ℕ := ((text.splitOn newline).getD n []).length

/-- The lines are counted as the text is split. -/
lemma totalLines_eq (text : List UInt8) : totalLines text = (text.splitOn newline).length := by
  have hfold : ∀ (text : List UInt8) (n : ℕ),
      text.foldl (fun lines b => if b = newline then lines + 1 else lines) n =
        n + text.count newline := by
    intro text
    induction text with
    | nil => exact fun n => rfl
    | cons b text ih =>
      intro n
      rw [foldl_cons, ih, count_cons]
      by_cases hb : b = newline
      · rw [if_pos hb, if_pos (beq_iff_eq.2 hb)]
        omega
      · rw [if_neg hb, if_neg (by rwa [beq_iff_eq]), Nat.add_zero]
  rw [length_splitOn, totalLines, hfold, Nat.add_comm]

/-- The cursor is in one of the lines. -/
lemma line_lt_totalLines (text : List UInt8) (pos : ℕ) :
    (getLineCol text pos).1 < totalLines text := by
  have hle := (take_sublist pos text).count_le newline
  rw [totalLines_eq, length_splitOn, getLineCol_eq, fst_foldl_advance, Nat.zero_add]
  omega

/-- **The scans are inverse to each other.** The place in line `n` where `editor_move_vertical` puts
the cursor is reported in line `n`. -/
lemma getLineCol_lineStart {text : List UInt8} {n : ℕ} (hn : n < totalLines text) (col : ℕ) :
    lineEnd text (lineStart text n) - lineStart text n = lineLength text n ∧
      getLineCol text (lineStart text n + min col (lineLength text n)) =
        (n, min col (lineLength text n)) := by
  rw [totalLines_eq] at hn
  have hget : (text.splitOn newline)[n]? = some ((text.splitOn newline).getD n []) := by
    rw [getD_eq_getElem?_getD, getElem?_eq_getElem hn, Option.getD_some]
  rw [lineLength]
  generalize (text.splitOn newline).getD n [] = line at hget
  obtain ⟨pre, post, rfl, hline, rfl⟩ := exists_isLine hget
  rw [lineStart_of_isLine hline, lineEnd_of_isLine hline, Nat.add_sub_cancel_left]
  exact ⟨rfl, getLineCol_of_isLine hline (Nat.min_le_right _ _)⟩

/-- Line `target`, or the first or the last one when there is no such line. -/
def clampLine (text : List UInt8) (target : ℤ) : ℕ :=
  (max 0 (min target (totalLines text - 1))).toNat

lemma clampLine_lt (text : List UInt8) (target : ℤ) : clampLine text target < totalLines text := by
  have hpos : 0 < totalLines text := Nat.zero_lt_of_lt (line_lt_totalLines text 0)
  unfold clampLine
  omega

/-- `editor_move_vertical` from the number of the line on. -/
def moveTo (text : List UInt8) (target : ℤ) (col : ℕ) : ℕ :=
  let total : ℤ := totalLines text
  let target := if target < 0 then 0 else target
  let target := if target ≥ total then total - 1 else target
  let start := lineStart text target.toNat
  let len := lineEnd text start - start
  start + if col < len then col else len

/-- **The place to which the cursor moves.** -/
lemma getLineCol_moveTo (text : List UInt8) (target : ℤ) (col : ℕ) :
    getLineCol text (moveTo text target col) = (clampLine text target,
      min col (lineLength text (clampLine text target))) := by
  have hlt := clampLine_lt text target
  obtain ⟨hlen, hplace⟩ := getLineCol_lineStart hlt col
  have htarget : (if (if target < 0 then 0 else target) ≥ (totalLines text : ℤ)
      then (totalLines text : ℤ) - 1 else if target < 0 then 0 else target).toNat =
      clampLine text target := by
    unfold clampLine at hlt ⊢
    split_ifs <;> omega
  unfold moveTo
  dsimp only
  rw [htarget, hlen, ← hplace]
  congr 2
  split_ifs <;> omega

/-! ## The editor on a list -/

/-- The functions that change the text or move the cursor, and the four keys that `editor_open`
handles itself. -/
inductive Op
  | insertChar (c : UInt8)
  | backspace
  | delete
  | left
  | right
  | home
  | toEnd
  | moveVertical (deltaLines : Int32)

namespace State

variable {ed : State}

/-- The text before the cursor and the text after it. -/
def zipper (ed : State) : Zipper UInt8 := ⟨ed.text.take ed.cursor, ed.text.drop ed.cursor⟩

/-- A character is inserted unless the text is full. -/
lemma zipper_insertChar (h : ed.Valid) (c : UInt8) : (ed.insertChar c).zipper =
    if ed.text.length = 32767 then ed.zipper else ed.zipper.insert c := by
  have hcursor := h.cursor
  have hlength := h.length
  rw [maxBuf] at hlength
  by_cases hfull : ed.text.length = 32767
  · rw [if_pos hfull, insertChar, if_pos (by rw [maxBuf]; omega)]
  · have hlen : (ed.text.take ed.cursor).length = ed.cursor := length_take_of_le hcursor
    rw [if_neg hfull, insertChar, if_neg (by rw [maxBuf]; omega), zipper, zipper, Zipper.insert,
      Zipper.mk.injEq]
    dsimp only
    constructor
    · rw [← singleton_append, ← append_assoc, take_left']
      rw [length_append, hlen, length_singleton]
    · rw [← singleton_append, ← append_assoc, drop_left']
      rw [length_append, hlen, length_singleton]

lemma zipper_backspace (h : ed.Valid) : ed.backspace.zipper = ed.zipper.backspace := by
  have hcursor := h.cursor
  rw [backspace, zipper, zipper, Zipper.backspace]
  split_ifs with h0
  · rw [h0, take_zero, dropLast_nil]
  · have hlen : (ed.text.take (ed.cursor - 1)).length = ed.cursor - 1 :=
      length_take_of_le (by omega)
    dsimp only
    rw [take_left' hlen, drop_left' hlen, dropLast_eq_take,
      length_take_of_le hcursor, take_take, Nat.min_eq_left (Nat.sub_le _ _)]

lemma zipper_delete (h : ed.Valid) : ed.delete.zipper = ed.zipper.delete := by
  have hcursor := h.cursor
  rw [delete, zipper, zipper, Zipper.delete]
  split_ifs with hend
  · rw [drop_eq_nil_of_le hend, tail_nil]
  · have hlen : (ed.text.take ed.cursor).length = ed.cursor := length_take_of_le hcursor
    dsimp only
    rw [take_left' hlen, drop_left' hlen, tail_drop]

/-- An operation on a list. -/
def step (ed : State) : Op → State
  | .insertChar c => ed.insertChar c
  | .backspace => ed.backspace
  | .delete => ed.delete
  | .left => if ed.cursor > 0 then { ed with cursor := ed.cursor - 1 } else ed
  | .right => if ed.cursor < ed.text.length then { ed with cursor := ed.cursor + 1 } else ed
  | .home => { ed with cursor := lineStart ed.text (getLineCol ed.text ed.cursor).1 }
  | .toEnd =>
    { ed with cursor := lineEnd ed.text (lineStart ed.text (getLineCol ed.text ed.cursor).1) }
  | .moveVertical deltaLines => ed.moveVertical deltaLines.toInt

lemma moveVertical_eq (ed : State) (delta : ℤ) :
    ed.moveVertical delta =
      { ed with
        cursor := moveTo ed.text ((getLineCol ed.text ed.cursor).1 + delta)
          (getLineCol ed.text ed.cursor).2 } := rfl

end State

/-! ## The buffer in memory -/

/-- The fields of `editor_state_t` that the operations use; `buf` is an address in `mem`. -/
structure Buffer where
  mem : Mem
  filename : List UInt8
  buf : ℕ
  len : ℕ
  cursor : ℕ
  dirty : Bool
  quitConfirm : Bool

namespace Buffer

variable (b : Buffer)

/-- The bytes of the text, which the scans go over. -/
def text : List UInt8 := read b.mem b.buf b.len

/-- `editor_insert_char`. -/
def insertChar (c : UInt8) : Buffer :=
  if b.len + 1 ≥ maxBuf then b
  else
    let mem := memcpy b.mem (b.buf + b.cursor + 1) (b.buf + b.cursor) (sub32 b.len b.cursor)
    let mem := update mem (b.buf + b.cursor) c
    { b with
      mem := update mem (b.buf + (b.len + 1)) 0
      cursor := b.cursor + 1
      len := b.len + 1
      dirty := true
      quitConfirm := false }

/-- `editor_backspace`. -/
def backspace : Buffer :=
  if b.cursor = 0 then b
  else
    let mem := memcpy b.mem (b.buf + b.cursor - 1) (b.buf + b.cursor) (sub32 b.len b.cursor)
    { b with
      mem := update mem (b.buf + sub32 b.len 1) 0
      cursor := b.cursor - 1
      len := sub32 b.len 1
      dirty := true
      quitConfirm := false }

/-- `editor_delete`. -/
def delete : Buffer :=
  if b.cursor ≥ b.len then b
  else
    let mem := memcpy b.mem (b.buf + b.cursor) (b.buf + b.cursor + 1)
      (sub32 (sub32 b.len b.cursor) 1)
    { b with
      mem := update mem (b.buf + (b.len - 1)) 0
      len := b.len - 1
      dirty := true
      quitConfirm := false }

/-- `editor_move_vertical`. The sum is an `int`. -/
def moveVertical (deltaLines : Int32) : Buffer :=
  let pos := getLineCol b.text b.cursor
  let target : ℤ := (pos.1 + deltaLines.toInt).bmod 4294967296
  { b with cursor := moveTo b.text target pos.2 }

/-- An operation. -/
def step : Op → Buffer
  | .insertChar c => b.insertChar c
  | .backspace => b.backspace
  | .delete => b.delete
  | .left => if b.cursor > 0 then { b with cursor := b.cursor - 1 } else b
  | .right => if b.cursor < b.len then { b with cursor := b.cursor + 1 } else b
  | .home => { b with cursor := lineStart b.text (getLineCol b.text b.cursor).1 }
  | .toEnd =>
    { b with cursor := lineEnd b.text (lineStart b.text (getLineCol b.text b.cursor).1) }
  | .moveVertical deltaLines => b.moveVertical deltaLines

/-- The editor on a list. -/
def state : State := ⟨b.filename, b.text, b.cursor, b.dirty, b.quitConfirm⟩

/-- **The cursor is in the text, the text in the buffer, and a terminator follows.** -/
structure Valid : Prop where
  cursor : b.cursor ≤ b.len
  length : b.len ≤ 32767
  terminated : b.mem (b.buf + b.len) = 0

end Buffer

/-! ## Shifting bytes -/

section Shift

variable {m : Mem} {a : ℕ} {l r : List UInt8}

/-- The bytes behind a place move up, and a byte is put there. -/
lemma stores_openGap (h : Stores m a (l ++ (r ++ [0]))) (c : UInt8) :
    Stores (update (update (copy m (a + l.length + 1) (a + l.length) r.length)
      (a + l.length) c) (a + (l.length + r.length + 1)) 0) a ((l ++ [c]) ++ (r ++ [0])) := by
  rw [← append_assoc, ← nil_append r] at h
  have hstored := ((stores_append.1 h).1.splice [c]).concat 0
  rw [write_singleton] at hstored
  simpa [Nat.add_assoc] using hstored

/-- The bytes behind a byte move down. -/
lemma stores_closeGap {c : UInt8} (h : Stores m a (l ++ (c :: r ++ [0]))) :
    Stores (update (copy m (a + l.length) (a + l.length + 1) r.length)
      (a + (l.length + r.length)) 0) a (l ++ (r ++ [0])) := by
  rw [← append_assoc, ← singleton_append] at h
  have hstored := ((stores_append.1 h).1.splice []).concat 0
  rw [write_nil] at hstored
  simpa using hstored

end Shift

namespace Buffer

variable {b : Buffer} {l r : List UInt8}

@[simp] lemma length_text (b : Buffer) : b.text.length = b.len := length_read _ _ _

/-- **The buffer shows two strings**, the text before the cursor and the text after it. -/
structure Shows (b : Buffer) (l r : List UInt8) : Prop where
  cursor : b.cursor = l.length
  len : b.len = l.length + r.length
  stored : Stores b.mem b.buf (l ++ (r ++ [0]))
  room : l.length + r.length ≤ 32767

lemma Shows.text_eq (h : b.Shows l r) : b.text = l ++ r := by
  have hstored := h.stored
  rw [← append_assoc] at hstored
  have hread := (stores_append.1 hstored).1.read_eq
  rwa [length_append, ← h.len] at hread

/-- A buffer that shows a text is valid. -/
lemma Shows.valid (h : b.Shows l r) : b.Valid := by
  have hlen := h.len
  have hcursor := h.cursor
  have hroom := h.room
  have hstored := h.stored
  rw [← append_assoc] at hstored
  have hend := (stores_cons.1 (stores_append.1 hstored).2).1
  rw [length_append, ← hlen] at hend
  exact ⟨by omega, by omega, hend⟩

/-- A valid buffer shows the two parts of its text. -/
lemma Valid.shows (h : b.Valid) : b.Shows (b.text.take b.cursor) (b.text.drop b.cursor) := by
  have hcursor := h.cursor
  have hlength := h.length
  have hlen : (b.text.take b.cursor).length = b.cursor := by
    rw [length_take, length_text]
    omega
  have hdrop : (b.text.drop b.cursor).length = b.len - b.cursor := by
    rw [length_drop, length_text]
  refine ⟨hlen.symm, by omega, ?_, by omega⟩
  rw [← append_assoc, take_append_drop]
  refine stores_append.2 ⟨fun i c hc => ?_, stores_cons.2 ⟨?_, stores_nil _ _⟩⟩
  · have hi := (List.getElem?_eq_some_iff.1 hc).1
    rw [length_text] at hi
    rw [text, getElem?_read hi, Option.some_inj] at hc
    exact hc
  · rw [length_text]
    exact h.terminated

lemma Shows.state_eq (h : b.Shows l r) :
    b.state = ⟨b.filename, l ++ r, l.length, b.dirty, b.quitConfirm⟩ := by
  rw [state, h.text_eq, h.cursor]

/-- `insert_char` on a buffer with room moves the rest up by one byte. -/
lemma Shows.insertChar (h : b.Shows l r) (hroom : l.length + r.length < 32767) (c : UInt8) :
    (b.insertChar c).Shows (l ++ [c]) r := by
  have hlen := h.len
  have hcursor := h.cursor
  have hsub : sub32 b.len b.cursor = r.length := by
    rw [sub32_of_le (by omega) (by omega)]
    omega
  have hstored := stores_openGap h.stored c
  rw [Buffer.insertChar, if_neg (by rw [maxBuf]; omega)]
  dsimp only
  rw [memcpy_eq_copy, hsub, hcursor, hlen]
  refine ⟨?_, ?_, hstored, ?_⟩
  · rw [length_append, length_singleton]
  · rw [length_append, length_singleton]
    dsimp only
    omega
  · rw [length_append, length_singleton]
    omega

/-- `backspace` moves the rest over the byte before the cursor. -/
lemma Shows.backspace {c : UInt8} (h : b.Shows (l ++ [c]) r) : b.backspace.Shows l r := by
  have hlen := h.len
  have hcursor := h.cursor
  have hroom := h.room
  rw [length_append, length_singleton] at hlen hcursor hroom
  have hsub : sub32 b.len b.cursor = r.length := by
    rw [sub32_of_le (by omega) (by omega)]
    omega
  have hone : sub32 b.len 1 = l.length + r.length := by
    rw [sub32_of_le (by omega) (by omega)]
    omega
  have hstored := h.stored
  rw [append_assoc, singleton_append] at hstored
  have hstored := stores_closeGap hstored
  rw [Buffer.backspace, if_neg (by omega)]
  dsimp only
  rw [memcpy_eq_copy, hsub, hone, hcursor]
  exact ⟨Nat.add_sub_cancel _ _, rfl, hstored, by omega⟩

/-- `delete_at_cursor` moves the rest over the byte at the cursor. -/
lemma Shows.delete {c : UInt8} (h : b.Shows l (c :: r)) : b.delete.Shows l r := by
  have hlen := h.len
  have hcursor := h.cursor
  have hroom := h.room
  rw [length_cons] at hlen hroom
  have hsub : sub32 (sub32 b.len b.cursor) 1 = r.length := by
    rw [sub32_of_le (y := b.cursor) (by omega) (by omega), sub32_of_le (by omega) (by omega)]
    omega
  have hstored := stores_closeGap h.stored
  rw [Buffer.delete, if_neg (by omega)]
  dsimp only
  rw [memcpy_eq_copy, hsub, hcursor, hlen]
  exact ⟨rfl, rfl, hstored, by omega⟩

/-! ## Every operation -/

/-- The number of the line does not overflow. -/
def InRange (b : Buffer) : Op → Prop
  | .moveVertical deltaLines =>
    (getLineCol b.text b.cursor).1 + deltaLines.toInt ≤ 2147483647
  | _ => True

lemma bmod_of_inRange {d : Int32} (h : b.InRange (.moveVertical d)) :
    ((getLineCol b.text b.cursor).1 + d.toInt).bmod 4294967296 =
      (getLineCol b.text b.cursor).1 + d.toInt := by
  have hlow := d.le_toInt
  unfold InRange at h
  rw [Int.bmod_eq_of_le] <;> omega

variable (h : b.Valid)

include h

/-- `insert_char` on the bytes is `insert_char` on the text. -/
lemma Valid.insertChar (c : UInt8) :
    (b.insertChar c).Valid ∧ (b.insertChar c).state = b.state.insertChar c := by
  have hlength := h.length
  have htext : b.state.text.length = b.len := length_text b
  by_cases hfull : b.len + 1 ≥ maxBuf
  · rw [Buffer.insertChar, if_pos hfull, State.insertChar, if_pos (by rwa [htext])]
    exact ⟨h, rfl⟩
  · have hlen := h.shows.len
    have hshows := h.shows.insertChar (by rw [maxBuf] at hfull; omega) c
    refine ⟨hshows.valid, ?_⟩
    rw [State.insertChar, if_neg (by rwa [htext]), hshows.state_eq, append_assoc]
    rw [Buffer.insertChar, if_neg hfull]
    congr 1
    rw [length_append, ← h.shows.cursor]
    rfl

/-- The same for `backspace`. -/
lemma Valid.backspace : b.backspace.Valid ∧ b.backspace.state = b.state.backspace := by
  have hstate : b.state.cursor = b.cursor := rfl
  by_cases h0 : b.cursor = 0
  · rw [Buffer.backspace, if_pos h0, State.backspace, hstate, if_pos h0]
    exact ⟨h, rfl⟩
  · have hcursor := h.cursor
    have hshows := h.shows
    have hlen : b.cursor - 1 < b.text.length := by
      rw [length_text]
      omega
    have hlast : b.text.take b.cursor = b.text.take (b.cursor - 1) ++ [b.text[b.cursor - 1]] := by
      rw [← take_succ_eq_append_getElem hlen, Nat.sub_add_cancel (by omega)]
    rw [hlast] at hshows
    have hshows := hshows.backspace
    refine ⟨hshows.valid, ?_⟩
    rw [State.backspace, hstate, if_neg h0, hshows.state_eq, Buffer.backspace, if_neg h0]
    congr 1
    rw [length_take_of_le (by omega)]

/-- The same for `delete_at_cursor`. -/
lemma Valid.delete : b.delete.Valid ∧ b.delete.state = b.state.delete := by
  have htext : b.state.text.length = b.len := length_text b
  by_cases hend : b.cursor ≥ b.len
  · rw [Buffer.delete, if_pos hend, State.delete, if_pos (by rwa [htext])]
    exact ⟨h, rfl⟩
  · have hcursor := h.cursor
    have hshows := h.shows
    have hlt : b.cursor < b.text.length := by
      rw [length_text]
      omega
    rw [drop_eq_getElem_cons hlt] at hshows
    have hshows := hshows.delete
    refine ⟨hshows.valid, ?_⟩
    rw [State.delete, if_neg (by rwa [htext]), hshows.state_eq, Buffer.delete, if_neg hend]
    congr 1
    rw [length_take_of_le hlt.le]
    rfl

/-- The cursor moves to a place in the text. -/
lemma Valid.move {n : ℕ} (hn : n ≤ b.len) : ({ b with cursor := n } : Buffer).Valid :=
  ⟨hn, h.length, h.terminated⟩

omit h in
/-- A move ends in the text. -/
lemma moveTo_le (text : List UInt8) (target : ℤ) (col : ℕ) :
    moveTo text target col ≤ text.length := by
  unfold moveTo
  dsimp only
  generalize Int.toNat _ = n
  have hstart := lineStart_le text n
  have hend := lineEnd_le hstart
  split_ifs <;> omega

/-- **Every operation refines the editor on a list**, as long as the number of the line does not
overflow, and keeps the buffer valid in any case. -/
lemma Valid.step (op : Op) :
    (b.step op).Valid ∧ (b.InRange op → (b.step op).state = b.state.step op) := by
  have hcursor := h.cursor
  have hline := lineStart_le b.text (getLineCol b.text b.cursor).1
  cases op with
  | insertChar c => exact ⟨(h.insertChar c).1, fun _ => (h.insertChar c).2⟩
  | backspace => exact ⟨h.backspace.1, fun _ => h.backspace.2⟩
  | delete => exact ⟨h.delete.1, fun _ => h.delete.2⟩
  | left =>
    unfold Buffer.step State.step
    dsimp only
    by_cases hpos : b.cursor > 0
    · rw [if_pos hpos, if_pos (show b.state.cursor > 0 from hpos)]
      exact ⟨h.move (by omega), fun _ => rfl⟩
    · rw [if_neg hpos, if_neg (show ¬b.state.cursor > 0 from hpos)]
      exact ⟨h, fun _ => rfl⟩
  | right =>
    have htext : b.state.text.length = b.len := length_text b
    unfold Buffer.step State.step
    dsimp only
    rw [htext]
    by_cases hlt : b.cursor < b.len
    · rw [if_pos hlt, if_pos (show b.state.cursor < b.len from hlt)]
      exact ⟨h.move hlt, fun _ => rfl⟩
    · rw [if_neg hlt, if_neg (show ¬b.state.cursor < b.len from hlt)]
      exact ⟨h, fun _ => rfl⟩
  | home => exact ⟨h.move (by rwa [length_text] at hline), fun _ => rfl⟩
  | toEnd =>
    have hend := lineEnd_le hline
    exact ⟨h.move (by rwa [length_text] at hend), fun _ => rfl⟩
  | moveVertical d =>
    have hle := moveTo_le b.text (((getLineCol b.text b.cursor).1 + d.toInt).bmod 4294967296)
      (getLineCol b.text b.cursor).2
    rw [length_text] at hle
    refine ⟨h.move hle, fun hrange => ?_⟩
    show ({ b with cursor := moveTo b.text _ _ } : Buffer).state = b.state.moveVertical d.toInt
    rw [bmod_of_inRange hrange, State.moveVertical_eq]
    rfl

/-- **Only the buffer is written.** -/
lemma Valid.mem_step (op : Op) {x : ℕ} (hx : x < b.buf ∨ b.buf + maxBuf ≤ x) :
    (b.step op).mem x = b.mem x ∧ (b.step op).buf = b.buf := by
  have hcursor := h.cursor
  have hlength := h.length
  have hmax : maxBuf = 32768 := rfl
  have hsub := sub32_of_le hcursor (by omega)
  cases op with
  | insertChar c =>
    dsimp only [Buffer.step, Buffer.insertChar]
    split_ifs with hfull
    · exact ⟨rfl, rfl⟩
    · refine ⟨?_, rfl⟩
      dsimp only
      rw [memcpy_eq_copy, hsub, update_of_ne (by omega), update_of_ne (by omega),
        copy_apply_of_outside _ (by omega)]
  | backspace =>
    dsimp only [Buffer.step, Buffer.backspace]
    split_ifs with h0
    · exact ⟨rfl, rfl⟩
    · refine ⟨?_, rfl⟩
      dsimp only
      rw [memcpy_eq_copy, hsub, sub32_of_le (y := 1) (by omega) (by omega),
        update_of_ne (by omega), copy_apply_of_outside _ (by omega)]
  | delete =>
    dsimp only [Buffer.step, Buffer.delete]
    split_ifs with hend
    · exact ⟨rfl, rfl⟩
    · refine ⟨?_, rfl⟩
      dsimp only
      rw [memcpy_eq_copy, hsub, sub32_of_le (y := 1) (by omega) (by omega),
        update_of_ne (by omega), copy_apply_of_outside _ (by omega)]
  | left =>
    dsimp only [Buffer.step]
    split_ifs <;> exact ⟨rfl, rfl⟩
  | right =>
    dsimp only [Buffer.step]
    split_ifs <;> exact ⟨rfl, rfl⟩
  | home => exact ⟨rfl, rfl⟩
  | toEnd => exact ⟨rfl, rfl⟩
  | moveVertical d => exact ⟨rfl, rfl⟩

/-- The text before the cursor and the text after it. -/
def zipper (b : Buffer) : Zipper UInt8 := ⟨b.text.take b.cursor, b.text.drop b.cursor⟩

/-- **An operation does what it is for.** The changes act on the two parts of the text; a move does
not change the text. Vertically, the cursor goes to the line that many lines away, or to the first
or the last one, and to its own column or the end of the line. -/
def Refines (b : Buffer) : Op → Prop
  | .insertChar c =>
    (b.step (.insertChar c)).zipper = if b.len = 32767 then b.zipper else b.zipper.insert c
  | .backspace => (b.step .backspace).zipper = b.zipper.backspace
  | .delete => (b.step .delete).zipper = b.zipper.delete
  | .left => (b.step .left).text = b.text ∧ (b.step .left).cursor = b.cursor - 1
  | .right => (b.step .right).text = b.text ∧ (b.step .right).cursor = min (b.cursor + 1) b.len
  | .home => (b.step .home).text = b.text ∧
    getLineCol b.text (b.step .home).cursor = ((getLineCol b.text b.cursor).1, 0)
  | .toEnd => (b.step .toEnd).text = b.text ∧
    getLineCol b.text (b.step .toEnd).cursor = ((getLineCol b.text b.cursor).1,
      lineLength b.text (getLineCol b.text b.cursor).1)
  | .moveVertical deltaLines => (b.step (.moveVertical deltaLines)).text = b.text ∧
    getLineCol b.text (b.step (.moveVertical deltaLines)).cursor =
      (clampLine b.text ((getLineCol b.text b.cursor).1 + deltaLines.toInt),
        min (getLineCol b.text b.cursor).2 (lineLength b.text
          (clampLine b.text ((getLineCol b.text b.cursor).1 + deltaLines.toInt))))

/-- The text of a valid buffer. -/
lemma Valid.state : b.state.Valid := by
  have htext : b.state.text.length = b.len := length_text b
  have hlength := h.length
  refine ⟨?_, ?_⟩
  · rw [htext]
    exact h.cursor
  · rw [htext, maxBuf]
    omega

/-- The cursor is in a line whose number is small. -/
lemma Valid.line_le : (getLineCol b.text b.cursor).1 ≤ 32767 := by
  have hlt := line_lt_totalLines b.text b.cursor
  have hcount := count_le_length (a := newline) (l := b.text)
  have hlength := h.length
  rw [totalLines_eq, length_splitOn] at hlt
  rw [length_text] at hcount
  omega

/-- A number of lines that overflows takes the cursor to the first line. -/
lemma Valid.clampLine_of_overflow {d : Int32} (hover : ¬b.InRange (.moveVertical d)) :
    clampLine b.text (((getLineCol b.text b.cursor).1 + d.toInt).bmod 4294967296) = 0 ∧
      0 < clampLine b.text ((getLineCol b.text b.cursor).1 + d.toInt) := by
  have hline := h.line_le
  have hlt := line_lt_totalLines b.text b.cursor
  have hle := d.toInt_lt
  have hlow := d.le_toInt
  unfold InRange at hover
  have hwrap : ((getLineCol b.text b.cursor).1 + d.toInt).bmod 4294967296 =
      (getLineCol b.text b.cursor).1 + d.toInt - 4294967296 := by
    rw [Int.bmod_def]
    omega
  rw [hwrap]
  unfold clampLine
  omega

/-- **When an operation does what it is for.** -/
lemma Valid.refines_iff (op : Op) : b.Refines op ↔ b.InRange op := by
  have hline := line_lt_totalLines b.text b.cursor
  have htext : b.state.text.length = b.len := length_text b
  cases op with
  | insertChar c =>
    refine iff_of_true ?_ trivial
    have hz := State.zipper_insertChar h.state c
    rw [← (h.insertChar c).2, htext] at hz
    exact hz
  | backspace =>
    refine iff_of_true ?_ trivial
    have hz := State.zipper_backspace h.state
    rw [← h.backspace.2] at hz
    exact hz
  | delete =>
    refine iff_of_true ?_ trivial
    have hz := State.zipper_delete h.state
    rw [← h.delete.2] at hz
    exact hz
  | left =>
    refine iff_of_true ?_ trivial
    dsimp only [Refines, Buffer.step]
    split_ifs with hpos
    · exact ⟨rfl, rfl⟩
    · exact ⟨rfl, by omega⟩
  | right =>
    have hcursor := h.cursor
    refine iff_of_true ?_ trivial
    dsimp only [Refines, Buffer.step]
    split_ifs with hlt
    · exact ⟨rfl, (Nat.min_eq_left hlt).symm⟩
    · exact ⟨rfl, by omega⟩
  | home =>
    refine iff_of_true ⟨rfl, ?_⟩ trivial
    have hplace := (getLineCol_lineStart hline 0).2
    rw [Nat.zero_min, Nat.add_zero] at hplace
    exact hplace
  | toEnd =>
    refine iff_of_true ⟨rfl, ?_⟩ trivial
    obtain ⟨hlen, hplace⟩ := getLineCol_lineStart hline
      (lineLength b.text (getLineCol b.text b.cursor).1)
    have hend : lineEnd b.text (lineStart b.text (getLineCol b.text b.cursor).1) =
        lineStart b.text (getLineCol b.text b.cursor).1 +
          lineLength b.text (getLineCol b.text b.cursor).1 := by
      rw [← hlen, lineEnd, Nat.add_sub_cancel_left]
    rw [Nat.min_self, ← hend] at hplace
    exact hplace
  | moveVertical d =>
    have hplace := getLineCol_moveTo b.text
      (((getLineCol b.text b.cursor).1 + d.toInt).bmod 4294967296) (getLineCol b.text b.cursor).2
    constructor
    · intro hrefines
      by_contra hover
      -- a sum out of range wraps around to a line that is clamped to the wrong end
      obtain ⟨hzero, hpos⟩ := h.clampLine_of_overflow hover
      have hfst := congrArg Prod.fst (hplace.symm.trans hrefines.2)
      dsimp only at hfst
      omega
    · intro hrange
      rw [bmod_of_inRange hrange] at hplace
      refine ⟨rfl, ?_⟩
      show getLineCol b.text (moveTo b.text _ _) = _
      rw [bmod_of_inRange hrange]
      exact hplace

end Buffer

/-! ## Runs -/

/-- The buffer of a text when `editor_open` begins its loop. -/
structure Opened (text : List UInt8) (b : Buffer) : Prop where
  len : b.len = text.length
  cursor : b.cursor = 0
  stored : ByteMem.Stores b.mem b.buf (text ++ [0])

/-- The runs of the editor on a text. -/
def edits (text : List UInt8) : System Buffer Op where
  init := Opened text
  step b op b' := b' = b.step op

lemma Opened.valid {text : List UInt8} {b : Buffer} (h : Opened text b)
    (htext : text.length ≤ 32767) : b.Valid := by
  have hend := (stores_cons.1 (stores_append.1 h.stored).2).1
  have hlen := h.len
  have hcursor := h.cursor
  exact ⟨by omega, by omega, hlen ▸ hend⟩

/-- **The editor keeps a text with a cursor.** In every run on a text of at most 32767 bytes, the
cursor is in the text, the text in the buffer and a terminator follows; every operation does what it
is for, unless the number of a line overflows. -/
theorem buffer_refines_iff {text : List UInt8} (htext : text.length ≤ 32767) {b : Buffer}
    (h : (edits text).Reachable b) :
    (b.cursor ≤ b.len ∧ b.len ≤ 32767 ∧ b.mem (b.buf + b.len) = 0) ∧
      ∀ op, b.Refines op ↔ b.InRange op := by
  have hvalid : b.Valid := by
    refine h.invariant Buffer.Valid (fun b hb => hb.valid htext) ?_
    rintro b op b' hb rfl
    exact (hb.step op).1
  exact ⟨⟨hvalid.cursor, hvalid.length, hvalid.terminated⟩, hvalid.refines_iff⟩

/-- **No run writes outside the buffer.** -/
theorem mem_foldl_step (ops : List Op) {b : Buffer} (h : b.Valid) {x : ℕ}
    (hx : x < b.buf ∨ b.buf + maxBuf ≤ x) : (ops.foldl Buffer.step b).mem x = b.mem x := by
  induction ops generalizing b with
  | nil => rfl
  | cons op ops ih =>
    obtain ⟨hmem, hbuf⟩ := h.mem_step op hx
    rw [foldl_cons, ih (h.step op).1 (by rwa [hbuf]), hmem]

/-- A buffer with a single newline, at an address. -/
def newlineBuffer : Buffer where
  mem := write (fun _ => 0) 4096 [newline, 0]
  filename := []
  buf := 4096
  len := 1
  cursor := 0
  dirty := false
  quitConfirm := false

lemma opened_newlineBuffer : Opened [newline] newlineBuffer := ⟨rfl, rfl, stores_write _ _ _⟩

/-- In the last of two lines. -/
lemma reachable_secondLine : (edits [newline]).Reachable (newlineBuffer.step .right) :=
  .step (.init opened_newlineBuffer) rfl

/-- **The number of a line overflows.** From the second of two lines, `2 ^ 31 - 1` lines down is the
first line. -/
theorem moveVertical_overflows : (edits [newline]).Reachable (newlineBuffer.step .right) ∧
    getLineCol (newlineBuffer.step .right).text (newlineBuffer.step .right).cursor = (1, 0) ∧
    totalLines (newlineBuffer.step .right).text = 2 ∧
    getLineCol (newlineBuffer.step .right).text
      ((newlineBuffer.step .right).step (.moveVertical 2147483647)).cursor = (0, 0) ∧
    ¬(newlineBuffer.step .right).Refines (.moveVertical 2147483647) := by
  refine ⟨reachable_secondLine, by decide, by decide, by decide, fun h => ?_⟩
  have hline := congrArg Prod.fst h.2
  revert hline
  decide

/-- From the second of two lines, five lines up is the first line. -/
theorem buffer_refines_iff_up : [newline].length ≤ 32767 ∧
    (edits [newline]).Reachable (newlineBuffer.step .right) ∧
    (newlineBuffer.step .right).Refines (.moveVertical (-5)) :=
  ⟨by decide, reachable_secondLine,
    ((buffer_refines_iff (by decide) reachable_secondLine).2 (.moveVertical (-5))).2
      (by unfold Buffer.InRange; decide)⟩

/-- Typing a character leaves the memory below the buffer alone. -/
theorem mem_foldl_step_newline :
    ([.insertChar 97].foldl Buffer.step newlineBuffer).mem 0 = newlineBuffer.mem 0 :=
  mem_foldl_step [.insertChar 97] (opened_newlineBuffer.valid (by decide)) (.inl (by decide))

end BengalTiger.Editor
