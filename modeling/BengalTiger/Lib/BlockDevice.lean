import Mathlib.Data.List.Range
import Mathlib.Logic.Function.Basic
import Mathlib.Tactic.SplitIfs

set_option autoImplicit false

/-!
# Block devices

A device is an array of blocks of `n` bytes. Blocks are read and written whole; inside a block,
bytes are read at an offset and replaced by a list of bytes.

## Main definitions

* `BlockDevice.Block` — a block, with `Block.get`, `Block.put`, `Block.toList`, `Block.ofList`.
* `BlockDevice.Device` — a device, with `Device.read`, `Device.write`.
* `BlockDevice.Device.patch` — a device with the blocks of another one put into it.

## Main results

* `BlockDevice.Block.get_put` — the bytes of a block after a replacement.
* `BlockDevice.Block.toList_ofList` — a block made of a list, padded with zeros.
* `BlockDevice.Device.block_foldl_write_of_mem` — a list of writes.
* `BlockDevice.Device.write_patch` — a write to the image inside another device.
-/

namespace BlockDevice

open List

variable {n : ℕ}

/-- A block of `n` bytes. -/
def Block (n : ℕ) : Type := Fin n → UInt8

namespace Block

/-- The byte at an offset, zero beyond the end. -/
def get (b : Block n) (i : ℕ) : UInt8 := if h : i < n then b ⟨i, h⟩ else 0

/-- The block of zeros. -/
def zero (n : ℕ) : Block n := fun _ => 0

/-- The block with the bytes from `off` on replaced by `bytes`. -/
def put (b : Block n) (off : ℕ) (bytes : List UInt8) : Block n := fun i =>
  if off ≤ i.1 then bytes[i.1 - off]?.getD (b i) else b i

/-- The bytes of a block. -/
def toList (b : Block n) : List UInt8 := List.ofFn fun i => b i

/-- The block that begins with `bytes`, followed by zeros. -/
def ofList (bytes : List UInt8) : Block n := fun i => bytes[i.1]?.getD 0

@[ext] lemma ext {b b' : Block n} (h : ∀ i < n, b.get i = b'.get i) : b = b' := by
  funext i
  have := h i.1 i.2
  simpa [get, i.2] using this

@[simp] lemma get_zero (i : ℕ) : (zero n).get i = 0 := by
  simp [get, zero]

/-- The bytes of a block after a replacement. -/
lemma get_put (b : Block n) (off : ℕ) (bytes : List UInt8) {i : ℕ} (hi : i < n) :
    (b.put off bytes).get i = if off ≤ i then bytes[i - off]?.getD (b.get i) else b.get i := by
  simp [get, put, hi]

/-- Bytes before the replaced ones stay. -/
lemma get_put_of_lt (b : Block n) {off : ℕ} (bytes : List UInt8) {i : ℕ} (h : i < off) :
    (b.put off bytes).get i = b.get i := by
  unfold get put
  split_ifs with hi hoff
  · simp only at hoff
    omega
  · rfl
  · rfl

/-- Bytes after the replaced ones stay. -/
lemma get_put_of_le (b : Block n) {off : ℕ} (bytes : List UInt8) {i : ℕ}
    (h : off + bytes.length ≤ i) : (b.put off bytes).get i = b.get i := by
  by_cases hi : i < n
  · rw [get_put b off bytes hi, getElem?_eq_none (by omega)]
    split_ifs <;> rfl
  · simp only [get, dif_neg hi]

/-- The replaced bytes. -/
lemma get_put_add (b : Block n) {off : ℕ} {bytes : List UInt8} {k : ℕ} (hk : k < bytes.length)
    (h : off + k < n) : (b.put off bytes).get (off + k) = bytes[k] := by
  rw [get_put b off bytes h, if_pos (Nat.le_add_right _ _), Nat.add_sub_cancel_left,
    getElem?_eq_getElem hk]
  rfl

@[simp] lemma length_toList (b : Block n) : b.toList.length = n := length_ofFn

lemma getElem?_toList (b : Block n) {i : ℕ} (h : i < n) : b.toList[i]? = some (b.get i) := by
  rw [toList, List.getElem?_ofFn, dif_pos h, get, dif_pos h]

lemma get_ofList (bytes : List UInt8) {i : ℕ} (h : i < n) :
    (ofList bytes : Block n).get i = bytes[i]?.getD 0 := by
  simp [get, ofList, h]

/-- The bytes of a block made of a list. -/
lemma toList_ofList {bytes : List UInt8} (h : bytes.length ≤ n) :
    (ofList bytes : Block n).toList = bytes ++ List.replicate (n - bytes.length) 0 := by
  apply ext_getElem?
  intro i
  by_cases hi : i < n
  · rw [getElem?_toList _ hi, get_ofList _ hi]
    by_cases hb : i < bytes.length
    · rw [getElem?_append_left hb, getElem?_eq_getElem hb]
      rfl
    · rw [getElem?_append_right (by omega), getElem?_eq_none (by omega),
        getElem?_replicate_of_lt (by omega)]
      rfl
  · rw [getElem?_eq_none (by simpa using hi), getElem?_eq_none]
    simp only [length_append, length_replicate]
    omega

lemma toList_zero : (zero n).toList = List.replicate n 0 := by
  rw [eq_replicate_iff]
  refine ⟨length_toList _, fun c hc => ?_⟩
  obtain ⟨i, rfl⟩ := mem_ofFn.1 hc
  rfl

end Block

/-- A device of `size` blocks. -/
structure Device (n : ℕ) where
  size : ℕ
  block : ℕ → Block n

namespace Device

/-- The block at `i`, unless it is beyond the end. -/
def read (d : Device n) (i : ℕ) : Option (Block n) := if i < d.size then some (d.block i) else none

/-- The device after a write, which has no effect beyond the end. -/
def write (d : Device n) (i : ℕ) (b : Block n) : Device n :=
  if i < d.size then { d with block := Function.update d.block i b } else d

variable {d : Device n} {i j : ℕ} {b : Block n}

lemma read_of_lt (h : i < d.size) : d.read i = some (d.block i) := if_pos h

lemma eq_block_of_read (h : d.read i = some b) : b = d.block i := by
  unfold read at h
  split_ifs at h
  exact (Option.some.inj h).symm

@[simp] lemma size_write : (d.write i b).size = d.size := by
  unfold write
  split_ifs <;> rfl

lemma block_write_self (h : i < d.size) : (d.write i b).block i = b := by
  rw [write, if_pos h]
  exact Function.update_self _ _ _

lemma block_write_of_ne (h : j ≠ i) : (d.write i b).block j = d.block j := by
  unfold write
  split_ifs
  · exact Function.update_of_ne h _ _
  · rfl

/-- Blocks that no write of a list is about stay. -/
lemma block_foldl_write_of_notMem (ws : List (ℕ × Block n)) (h : ∀ w ∈ ws, w.1 ≠ j) :
    (ws.foldl (fun d w => d.write w.1 w.2) d).block j = d.block j := by
  induction ws generalizing d with
  | nil => rfl
  | cons w ws ih =>
    rw [foldl_cons, ih fun v hv => h v (mem_cons_of_mem _ hv)]
    exact block_write_of_ne (h w mem_cons_self).symm

/-- Blocks beyond the end stay. -/
lemma block_foldl_write_of_le (ws : List (ℕ × Block n)) (h : d.size ≤ j) :
    (ws.foldl (fun d w => d.write w.1 w.2) d).block j = d.block j := by
  induction ws generalizing d with
  | nil => rfl
  | cons w ws ih =>
    rw [foldl_cons, ih (by rwa [size_write])]
    by_cases hw : j = w.1
    · rw [write, if_neg (by omega)]
    · exact block_write_of_ne hw

lemma size_foldl_write (ws : List (ℕ × Block n)) :
    (ws.foldl (fun d w => d.write w.1 w.2) d).size = d.size := by
  induction ws generalizing d with
  | nil => rfl
  | cons w ws ih => rw [foldl_cons, ih, size_write]

/-- A block that a list of writes is about, always with the same content. -/
lemma block_foldl_write_of_mem {ws : List (ℕ × Block n)} (hmem : (j, b) ∈ ws)
    (hsame : ∀ w ∈ ws, w.1 = j → w.2 = b) (hj : j < d.size) :
    (ws.foldl (fun d w => d.write w.1 w.2) d).block j = b := by
  induction ws using List.reverseRecOn with
  | nil => cases hmem
  | append_singleton ws w ih =>
    rw [foldl_append, foldl_cons, foldl_nil]
    by_cases hw : w.1 = j
    · have hb : w.2 = b := hsame w (by simp) hw
      rw [hw, hb]
      exact block_write_self (by rwa [size_foldl_write])
    · rw [block_write_of_ne (Ne.symm hw)]
      apply ih
      · obtain h | h := mem_append.1 hmem
        · exact h
        · rw [mem_singleton] at h
          exact absurd (by rw [← h]) hw
      · intro v hv
        exact hsame v (mem_append_left _ hv)

/-! ## A device inside another one -/

/-- The device with the blocks of `img` in place of its own from `base` on. -/
def patch (d : Device n) (base : ℕ) (img : Device n) : Device n where
  size := d.size
  block x := if base ≤ x ∧ x < base + img.size then img.block (x - base) else d.block x

variable {base : ℕ} {img : Device n}

lemma block_patch_add (h : i < img.size) : (d.patch base img).block (base + i) = img.block i := by
  have hin : base ≤ base + i ∧ base + i < base + img.size := by omega
  refine (if_pos hin).trans ?_
  rw [Nat.add_sub_cancel_left]

lemma block_patch_of_outside (h : j < base ∨ base + img.size ≤ j) :
    (d.patch base img).block j = d.block j := if_neg (by omega)

/-- A device that has the image already. -/
lemma patch_eq_self (h : ∀ i < img.size, d.block (base + i) = img.block i) :
    d.patch base img = d := by
  have hblock : (d.patch base img).block = d.block := by
    funext x
    by_cases hx : base ≤ x ∧ x < base + img.size
    · obtain ⟨i, rfl⟩ := Nat.exists_eq_add_of_le hx.1
      rw [block_patch_add (by omega), h i (by omega)]
    · exact if_neg hx
  cases d
  exact congrArg (Device.mk _) hblock

/-- A block of the image is read. -/
lemma read_patch (h : i < img.size) (hd : base + img.size ≤ d.size) :
    (d.patch base img).read (base + i) = img.read i := by
  have hlt : base + i < (d.patch base img).size := show base + i < d.size by omega
  rw [read_of_lt hlt, read_of_lt h, block_patch_add h]

/-- **A block of the image is written.** -/
lemma write_patch (h : i < img.size) (hd : base + img.size ≤ d.size) :
    (d.patch base img).write (base + i) b = d.patch base (img.write i b) := by
  have hlt : base + i < (d.patch base img).size := show base + i < d.size by omega
  rw [write, write, if_pos hlt, if_pos h, patch, patch, Device.mk.injEq]
  refine ⟨rfl, funext fun x => ?_⟩
  simp only [Function.update_apply]
  split_ifs <;> first | rfl | omega

/-- A list of writes to the image. -/
lemma foldl_write_patch (ws : List (ℕ × Block n)) (h : ∀ w ∈ ws, w.1 < img.size)
    (hd : base + img.size ≤ d.size) :
    (ws.map fun w => (base + w.1, w.2)).foldl (fun d w => d.write w.1 w.2) (d.patch base img) =
      d.patch base (ws.foldl (fun d w => d.write w.1 w.2) img) := by
  induction ws generalizing img with
  | nil => rfl
  | cons w ws ih =>
    rw [map_cons, foldl_cons, foldl_cons, write_patch (h w mem_cons_self) hd]
    apply ih
    · intro v hv
      rw [size_write]
      exact h v (mem_cons_of_mem _ hv)
    · rwa [size_write]

end Device

end BlockDevice
