import BengalTiger.CString
import BengalTiger.Lib.ByteMem
import BengalTiger.Lib.Lines

set_option autoImplicit false

/-!
# The kernel log

`kernel/klog.c`: a text buffer of 8 KiB. A character that finds the buffer full first pushes out
the oldest line, found by a search of the first half of the buffer, or 256 bytes when the search
fails. The serial port, to which `klog_writeln` copies its text, is left out, and so are the
interrupt flags.

## Main definitions

* `Klog.State` — `klog_buf` and `klog_len`; `Klog.contents` — the text.
* `Klog.klogAppendChar`, `Klog.klogWrite`, `Klog.klogWriteln`.
* `Klog.Call`, `Klog.run`, `Klog.written`.

## Main results

* `Klog.klog_suffix` — after any calls the buffer holds a long suffix of the text
  written, terminated, and beginning at a line when the lines are short.
-/

namespace BengalTiger.Klog

open Lines List

/-! ## The code -/

/-- `KLOG_BUFFER_SIZE`. -/
def bufferSize : ℕ := 8192

/-- The static variables `klog_buf` and `klog_len`. -/
structure State where
  buf : ByteMem.Mem
  len : ℕ

/-- `klog_buf[klog_len++] = c; klog_buf[klog_len] = '\0'`. -/
def State.push (s : State) (c : UInt8) : State where
  buf := Function.update (Function.update s.buf s.len c) (s.len + 1) 0
  len := s.len + 1

/-- The newline search of `klog_append_char`: how many bytes a full buffer drops. -/
def dropLen (buf : ByteMem.Mem) : ℕ :=
  ((List.range (bufferSize / 2)).find? fun i => buf i = newline).elim 256 (· + 1)

/-- `memmove(klog_buf, klog_buf + drop, remain); klog_len = remain`. -/
def State.dropFront (s : State) (drop : ℕ) : State where
  buf := ByteMem.copy s.buf 0 drop (s.len - drop)
  len := s.len - drop

/-- `klog_append_char`. -/
def klogAppendChar (s : State) (c : UInt8) : State :=
  if s.len < bufferSize - 1 then s.push c
  else (s.dropFront (dropLen s.buf)).push c

/-- `klog_init`. -/
def klogInit (s : State) : State where
  buf := ByteMem.fill s.buf 0 0 bufferSize
  len := 0

/-- `klog_write`; `none` is the null pointer. -/
def klogWrite (s : State) (msg : Option (List UInt8)) : State :=
  msg.elim s fun m => (cstr m).foldl klogAppendChar s

/-- The digit loop of `klog_write_hex`: the eight digits of `val`, the first one highest. -/
def hexDigits (val : ℕ) : List UInt8 :=
  (List.range 8).map fun i => digits.getD (val / 16 ^ (7 - i) % 16) 0

/-- `klog_write_hex`. -/
def klogWriteHex (s : State) (val : ℕ) : State :=
  klogWrite s (some (ascii ['0', 'x'] ++ hexDigits val))

/-- `klog_write_int`. -/
def klogWriteInt (s : State) (val : ℤ) : State := klogWrite s (some (kItoa val 10))

/-- The time stamp that `klog_writeln` builds in `prefix` for a clock at `ms` milliseconds: the
seconds, padded to four places, and the hundredths. -/
def timePrefix (ms : ℕ) : List UInt8 :=
  let sbuf := kUtoa (ms / 1000) 10
  let rem := ms % 1000 / 10
  ascii ['['] ++ List.replicate (4 - sbuf.length) ' '.toUInt8 ++ sbuf ++ ascii ['.'] ++
    [UInt8.ofNat (48 + rem / 10 % 10), UInt8.ofNat (48 + rem % 10)] ++ ascii [']', ' ']

/-- The subsystem part of `klog_writeln`, absent for a null pointer and for an empty name. -/
def klogSubsys (s : State) (subsys : Option (List UInt8)) : State :=
  subsys.elim s fun n =>
    if cstr n = [] then s else klogWrite (klogWrite s (some n)) (some (ascii [':', ' ']))

/-- `klog_writeln`, with the value of `timer_get_ms` as an argument. -/
def klogWriteln (s : State) (ms : ℕ) (subsys msg : Option (List UInt8)) : State :=
  klogWrite (klogWrite (klogSubsys (klogWrite s (some (timePrefix ms))) subsys) msg)
    (some [newline])

/-- The text that `klog_get_buffer` hands out. -/
def contents (s : State) : List UInt8 := (List.range s.len).map s.buf

/-! ## Runs -/

/-- The calls that write to the log. -/
inductive Call where
  | write (msg : Option (List UInt8))
  | writeHex (val : ℕ)
  | writeInt (val : ℤ)
  | writeln (ms : ℕ) (subsys msg : Option (List UInt8))

/-- One call. -/
def Call.exec (s : State) : Call → State
  | .write msg => klogWrite s msg
  | .writeHex val => klogWriteHex s val
  | .writeInt val => klogWriteInt s val
  | .writeln ms subsys msg => klogWriteln s ms subsys msg

/-- A sequence of calls. -/
def run (s : State) (calls : List Call) : State := calls.foldl Call.exec s

/-- The text of a string argument. -/
def argText (msg : Option (List UInt8)) : List UInt8 := cstr (msg.getD [])

/-- The subsystem name with its colon. -/
def subsysText (subsys : Option (List UInt8)) : List UInt8 :=
  if argText subsys = [] then [] else argText subsys ++ ascii [':', ' ']

/-- The characters that a call writes. -/
def Call.text : Call → List UInt8
  | .write msg => argText msg
  | .writeHex val => ascii ['0', 'x'] ++ hexDigits val
  | .writeInt val => kItoa val 10
  | .writeln ms subsys msg => timePrefix ms ++ subsysText subsys ++ argText msg ++ [newline]

/-- The concatenation of all characters written. -/
def written (calls : List Call) : List UInt8 := calls.flatMap Call.text

/-! ## Calls as character sequences -/

/-- The hexadecimal digits are characters. -/
lemma zero_not_mem_hexDigits (val : ℕ) : 0 ∉ hexDigits val := by
  intro h
  obtain ⟨i, -, hi⟩ := mem_map.1 h
  exact digits_getD_ne_zero (Nat.mod_lt _ (by norm_num)) hi

/-- The time stamp holds no NUL. -/
lemma zero_not_mem_timePrefix (ms : ℕ) : 0 ∉ timePrefix ms := by
  have hdigit : ∀ d < 10, (0 : UInt8) ≠ UInt8.ofNat (48 + d) := by decide
  have hs := zero_not_mem_kUtoa (ms / 1000) 10
  simp only [timePrefix, mem_append, not_or]
  refine ⟨⟨⟨⟨⟨by decide, ?_⟩, hs⟩, by decide⟩, ?_⟩, by decide⟩
  · intro h
    exact absurd (eq_of_mem_replicate h) (by decide)
  · simp only [mem_cons, not_mem_nil, or_false, not_or]
    exact ⟨hdigit _ (Nat.mod_lt _ (by norm_num)), hdigit _ (Nat.mod_lt _ (by norm_num))⟩

/-- `klog_write` appends its argument character by character. -/
lemma klogWrite_eq (s : State) (msg : Option (List UInt8)) :
    klogWrite s msg = (argText msg).foldl klogAppendChar s := by
  cases msg with
  | none => rfl
  | some m => rfl

/-- A text without NUL is written whole. -/
lemma klogWrite_some {m : List UInt8} (h : 0 ∉ m) (s : State) :
    klogWrite s (some m) = m.foldl klogAppendChar s := by
  rw [klogWrite_eq, argText, Option.getD_some, cstr_eq_self h]

/-- The subsystem part of a line. -/
lemma klogSubsys_eq (s : State) (subsys : Option (List UInt8)) :
    klogSubsys s subsys = (subsysText subsys).foldl klogAppendChar s := by
  cases subsys with
  | none => rfl
  | some n =>
    show (if cstr n = [] then s else _) = _
    have harg : argText (some n) = cstr n := rfl
    rw [subsysText, harg]
    split_ifs with h
    · rfl
    · rw [klogWrite_some (by decide), klogWrite_eq, harg, foldl_append]

/-- A call appends its text character by character. -/
lemma Call.exec_eq (s : State) (c : Call) : c.exec s = c.text.foldl klogAppendChar s := by
  cases c with
  | write msg => exact klogWrite_eq s msg
  | writeHex val =>
    apply klogWrite_some
    rw [mem_append, not_or]
    exact ⟨by decide, zero_not_mem_hexDigits val⟩
  | writeInt val => exact klogWrite_some (zero_not_mem_kItoa val 10) s
  | writeln ms subsys msg =>
    show klogWriteln s ms subsys msg = _
    rw [klogWriteln, klogWrite_some (by decide), klogWrite_eq, klogSubsys_eq,
      klogWrite_some (zero_not_mem_timePrefix ms), Call.text, foldl_append,
      foldl_append, foldl_append]

/-- A run appends the characters written one by one. -/
lemma run_eq (s : State) (calls : List Call) :
    run s calls = (written calls).foldl klogAppendChar s := by
  induction calls generalizing s with
  | nil => rfl
  | cons c calls ih =>
    have hw : written (c :: calls) = c.text ++ written calls := flatMap_cons
    show run (c.exec s) calls = _
    rw [ih, Call.exec_eq, hw, foldl_append]

/-! ## The contents of the buffer -/

@[simp] lemma length_contents (s : State) : (contents s).length = s.len := by
  simp [contents]

/-- The bytes of the text. -/
lemma getElem?_contents {s : State} {i : ℕ} (h : i < s.len) :
    (contents s)[i]? = some (s.buf i) := by
  simp [contents, h]

/-- A pushed character extends the text. -/
lemma contents_push (s : State) (c : UInt8) : contents (s.push c) = contents s ++ [c] := by
  unfold contents
  show (List.range (s.len + 1)).map (s.push c).buf = _
  rw [range_succ, map_append]
  congr 1
  · apply map_congr_left
    intro i hi
    have hlt : i < s.len := mem_range.1 hi
    simp only [State.push]
    rw [Function.update_of_ne (by omega), Function.update_of_ne (by omega)]
  · simp [State.push]

/-- The move drops the front of the text. -/
lemma contents_dropFront (s : State) (d : ℕ) :
    contents (s.dropFront d) = (contents s).drop d := by
  apply ext_getElem?
  intro i
  rw [getElem?_drop]
  by_cases hi : i < s.len - d
  · rw [getElem?_contents (by exact hi), getElem?_contents (by omega)]
    simp [State.dropFront, ByteMem.copy, hi]
  · rw [getElem?_eq_none, getElem?_eq_none]
    · rw [length_contents]
      omega
    · rw [length_contents]
      exact not_lt.1 hi

/-- The newline search finds the first newline of the first half, or there is none. -/
lemma dropLen_cases (buf : ByteMem.Mem) :
    (∃ i < 4096, buf i = newline ∧ dropLen buf = i + 1) ∨
      (∀ i < 4096, buf i ≠ newline) ∧ dropLen buf = 256 := by
  have e : bufferSize / 2 = 4096 := rfl
  unfold dropLen
  rw [e]
  cases hf : (List.range 4096).find? fun i => buf i = newline with
  | none =>
    right
    refine ⟨fun i hi hbuf => ?_, rfl⟩
    have := find?_eq_none.1 hf i (mem_range.2 hi)
    simp [hbuf] at this
  | some i =>
    left
    have hmem := mem_range.1 (mem_of_find?_eq_some hf)
    have hbuf := find?_some hf
    exact ⟨i, hmem, by simpa using hbuf, rfl⟩

/-- At least one character and at most half of the buffer is dropped. -/
lemma dropLen_bounds (buf : ByteMem.Mem) : 1 ≤ dropLen buf ∧ dropLen buf ≤ 4096 := by
  obtain ⟨i, hi, -, h⟩ | ⟨-, h⟩ := dropLen_cases buf <;> omega

/-! ## The suffix invariant -/

/-- What holds of the buffer after the characters `T` have been written. -/
structure Inv (T : List UInt8) (s : State) : Prop where
  suffix : contents s <:+ T
  len_le : s.len ≤ 8191
  terminated : s.buf s.len = 0
  len_ge : min T.length 4096 ≤ s.len

/-- A pushed character is followed by the terminator. -/
lemma push_terminated (s : State) (c : UInt8) : (s.push c).buf (s.push c).len = 0 := by
  simp [State.push]

/-- A suffix stays one when both texts get the same character. -/
lemma suffix_concat {xs T : List UInt8} (h : xs <:+ T) (c : UInt8) : xs ++ [c] <:+ T ++ [c] := by
  obtain ⟨pre, hpre⟩ := h
  exact ⟨pre, by rw [← hpre, append_assoc]⟩

/-- One character keeps the invariant. -/
lemma Inv.klogAppendChar {T : List UInt8} {s : State} (h : Inv T s) (c : UInt8) :
    Inv (T ++ [c]) (klogAppendChar s c) := by
  have hb := dropLen_bounds s.buf
  have hlen := h.len_le
  have hge := h.len_ge
  unfold Klog.klogAppendChar bufferSize
  split_ifs with hfull
  · refine ⟨?_, ?_, push_terminated s c, ?_⟩
    · rw [contents_push]
      exact suffix_concat h.suffix c
    · show s.len + 1 ≤ 8191
      omega
    · show min (T ++ [c]).length 4096 ≤ s.len + 1
      rw [length_append, length_singleton]
      omega
  · refine ⟨?_, ?_, push_terminated _ c, ?_⟩
    · rw [contents_push, contents_dropFront]
      exact suffix_concat ((drop_suffix _ _).trans h.suffix) c
    · show s.len - dropLen s.buf + 1 ≤ 8191
      omega
    · -- a full buffer holds 8191 characters, of which at most 4096 go
      show _ ≤ s.len - dropLen s.buf + 1
      omega

/-- The empty log. -/
lemma inv_klogInit (s : State) : Inv [] (klogInit s) where
  suffix := suffix_refl _
  len_le := Nat.zero_le _
  terminated := by simp [klogInit, ByteMem.fill, bufferSize]
  len_ge := Nat.zero_le _

/-- The invariant holds after any characters. -/
lemma inv_foldl (s : State) (T : List UInt8) : Inv T (T.foldl klogAppendChar (klogInit s)) := by
  induction T using List.reverseRecOn with
  | nil => exact inv_klogInit s
  | append_singleton T c ih =>
    rw [foldl_append]
    exact ih.klogAppendChar c

/-! ## Lines -/

/-- The buffer begins at the beginning of a line of the characters `T` written. -/
def StartsLine (T : List UInt8) (s : State) : Prop :=
  ∃ pre, T = pre ++ contents s ∧ AtLineStart newline pre

/-- A full buffer whose lines are short, whatever is written later, begins at a line again after
its first line has been dropped. -/
lemma StartsLine.dropFront {T rest : List UInt8} {s : State} (h : StartsLine T s)
    (hlen : s.len = 8191) (hshort : ∀ l ∈ lines newline (T ++ rest), l.length ≤ 4096) :
    StartsLine T (s.dropFront (dropLen s.buf)) := by
  obtain ⟨pre, hT, hpre⟩ := h
  -- the first line of the buffer is a line of the text, so its newline is found
  have hlines : ∀ l ∈ lines newline (contents s ++ rest), l.length ≤ 4096 := by
    intro l hl
    apply hshort
    rw [hT, append_assoc, lines_append hpre]
    exact mem_append_right _ hl
  have hlong : 4096 < (contents s ++ rest).length := by
    rw [length_append, length_contents]
    omega
  obtain ⟨i, hi, hnl⟩ := exists_separator hlines hlong
  rw [getElem?_append_left (by rw [length_contents]; omega),
    getElem?_contents (by omega), Option.some_inj] at hnl
  obtain ⟨j, hj, hbuf, hdrop⟩ | ⟨hno, -⟩ := dropLen_cases s.buf
  · refine ⟨pre ++ (contents s).take (dropLen s.buf), ?_, ?_⟩
    · rw [contents_dropFront, append_assoc, take_append_drop, hT]
    · have hsplit : (contents s).take (j + 1) = (contents s).take j ++ [newline] := by
        rw [take_add_one, getElem?_contents (by omega), hbuf]
        rfl
      rw [hdrop, hsplit, ← append_assoc]
      exact atLineStart_concat _
  · exact absurd hnl (hno i hi)

/-- A pushed character leaves the beginning of the buffer. -/
lemma StartsLine.push {T : List UInt8} {s : State} (h : StartsLine T s) (c : UInt8) :
    StartsLine (T ++ [c]) (s.push c) := by
  obtain ⟨pre, hT, hpre⟩ := h
  exact ⟨pre, by rw [contents_push, hT, append_assoc], hpre⟩

/-- One character keeps the buffer at the beginning of a line. -/
lemma StartsLine.klogAppendChar {T rest : List UInt8} {s : State} (h : StartsLine T s) (c : UInt8)
    (hlen : s.len ≤ 8191) (hshort : ∀ l ∈ lines newline (T ++ rest), l.length ≤ 4096) :
    StartsLine (T ++ [c]) (klogAppendChar s c) := by
  unfold Klog.klogAppendChar bufferSize
  split_ifs with hfull
  · exact h.push c
  · exact (h.dropFront (by omega) hshort).push c

/-- With short lines the buffer always begins at a line.

**Proof sketch.** Induction on the characters written so far, with the whole text, of which they
are the front, fixed: a line may still be incomplete when the buffer overflows, and it is the
bound on the complete line that makes the newline search succeed. -/
lemma startsLine_foldl (s : State) (T rest : List UInt8)
    (hshort : ∀ l ∈ lines newline (T ++ rest), l.length ≤ 4096) :
    StartsLine T (T.foldl klogAppendChar (klogInit s)) := by
  induction T using List.reverseRecOn generalizing rest with
  | nil => exact ⟨[], rfl, atLineStart_nil⟩
  | append_singleton T c ih =>
    rw [append_assoc] at hshort
    have hstart := ih ([c] ++ rest) hshort
    have hlen := (inv_foldl s T).len_le
    rw [foldl_append]
    exact hstart.klogAppendChar c hlen hshort

/-- **The kernel log keeps a clean suffix.** After any calls the buffer holds a suffix of the
characters written, it is within its bounds and terminated, it holds at least the last 4096
characters when that many were written, and it begins at the beginning of a line when no line
is longer than 4096 characters. -/
theorem klog_suffix (s : State) (calls : List Call) :
    contents (run (klogInit s) calls) <:+ written calls ∧
      (run (klogInit s) calls).len ≤ 8191 ∧
      (run (klogInit s) calls).buf (run (klogInit s) calls).len = 0 ∧
      min (written calls).length 4096 ≤ (run (klogInit s) calls).len ∧
      ((∀ l ∈ lines newline (written calls), l.length ≤ 4096) →
        StartsLine (written calls) (run (klogInit s) calls)) := by
  rw [run_eq]
  have hinv := inv_foldl s (written calls)
  refine ⟨hinv.suffix, hinv.len_le, hinv.terminated, hinv.len_ge, ?_⟩
  intro hshort
  apply startsLine_foldl s (written calls) []
  rwa [append_nil]

/-- A message that is written 3000 times. -/
def manyCalls : List Call := .replicate 3000 (.write (some (ascii "up.".toList ++ [newline])))

/-- The buffer has lost some of these lines, and begins at a line. -/
theorem klog_suffix_manyCalls :
    (run (klogInit ⟨fun _ => 7, 3⟩) manyCalls).len < (written manyCalls).length ∧
      StartsLine (written manyCalls) (run (klogInit ⟨fun _ => 7, 3⟩) manyCalls) := by
  obtain ⟨-, hle, -, -, hstart⟩ := klog_suffix ⟨fun _ => 7, 3⟩ manyCalls
  have hlen : (written manyCalls).length = 12000 := by decide +kernel
  exact ⟨by omega, hstart (by decide +kernel)⟩

end BengalTiger.Klog
