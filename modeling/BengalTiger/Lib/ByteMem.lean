import Mathlib.Data.Nat.Basic
import Mathlib.Logic.Function.Basic
import Mathlib.Tactic.Ring

set_option autoImplicit false

/-!
# Byte-addressed memory

A memory is a function from addresses to bytes. Words of 32 bits are stored little-endian in
four consecutive bytes. The lemmas say what a load sees after a store at the same place and at
a disjoint place, and what the block operations leave unchanged.

## Main definitions

* `ByteMem.Mem` — memories; `ByteMem.load32`, `ByteMem.store32` — word access.
* `ByteMem.fill`, `ByteMem.copy` — the block operations `memset` and `memmove`.
* `ByteMem.write`, `ByteMem.read` — the bytes of a list put into and taken from a memory.
* `ByteMem.Stores` — the bytes of a list stand at an address.

## Main results

* `ByteMem.load32_store32`, `ByteMem.load32_store32_of_disjoint`.
* `ByteMem.load32_congr` — a load depends on four bytes only.
* `ByteMem.stores_append`, `ByteMem.Stores.copy`, `ByteMem.stores_write`, `ByteMem.Stores.splice` —
  what is stored after a copy or a write.
-/

namespace ByteMem

open Function List

/-- A memory: a byte for every address. -/
abbrev Mem := ℕ → UInt8

/-- The little-endian 32-bit word at address `a`. -/
def load32 (m : Mem) (a : ℕ) : ℕ :=
  (m a).toNat + 256 * (m (a + 1)).toNat + 65536 * (m (a + 2)).toNat +
    16777216 * (m (a + 3)).toNat

/-- Store the low 32 bits of `v` little-endian at address `a`. -/
def store32 (m : Mem) (a v : ℕ) : Mem := fun x =>
  if x = a then UInt8.ofNat v
  else if x = a + 1 then UInt8.ofNat (v / 256)
  else if x = a + 2 then UInt8.ofNat (v / 65536)
  else if x = a + 3 then UInt8.ofNat (v / 16777216)
  else m x

/-- Set the `n` bytes from address `a` to `b`. -/
def fill (m : Mem) (a : ℕ) (b : UInt8) (n : ℕ) : Mem := fun x =>
  if a ≤ x ∧ x < a + n then b else m x

/-- Copy the `n` bytes from address `src` to address `dst`; the ranges may overlap. -/
def copy (m : Mem) (dst src n : ℕ) : Mem := fun x =>
  if dst ≤ x ∧ x < dst + n then m (src + (x - dst)) else m x

/-- A load depends on four bytes only. -/
lemma load32_congr {m m' : Mem} {a : ℕ} (h : ∀ i < 4, m' (a + i) = m (a + i)) :
    load32 m' a = load32 m a := by
  have h0 := h 0 (by omega)
  rw [Nat.add_zero] at h0
  unfold load32
  rw [h0, h 1 (by omega), h 2 (by omega), h 3 (by omega)]

/-- A load is below `2 ^ 32`. -/
lemma load32_lt (m : Mem) (a : ℕ) : load32 m a < 4294967296 := by
  have h0 := (m a).toNat_lt
  have h1 := (m (a + 1)).toNat_lt
  have h2 := (m (a + 2)).toNat_lt
  have h3 := (m (a + 3)).toNat_lt
  unfold load32
  omega

/-- A load at the place of a store reads the low 32 bits of the stored value. -/
lemma load32_store32 (m : Mem) (a v : ℕ) : load32 (store32 m a v) a = v % 4294967296 := by
  have e1 : a + 1 ≠ a := by omega
  have e2 : a + 2 ≠ a ∧ a + 2 ≠ a + 1 := by omega
  have e3 : a + 3 ≠ a ∧ a + 3 ≠ a + 1 ∧ a + 3 ≠ a + 2 := by omega
  simp only [load32, store32, e1, e2.1, e2.2, e3.1, e3.2.1, e3.2.2, if_true, if_false,
    UInt8.toNat_ofNat']
  omega

/-- A store of a 32-bit value is read back. -/
lemma load32_store32_of_lt (m : Mem) (a : ℕ) {v : ℕ} (h : v < 4294967296) :
    load32 (store32 m a v) a = v := by
  rw [load32_store32, Nat.mod_eq_of_lt h]

/-- A store changes only its four bytes. -/
lemma store32_apply_of_outside (m : Mem) {a x : ℕ} (v : ℕ) (h : x < a ∨ a + 4 ≤ x) :
    store32 m a v x = m x := by
  unfold store32
  rw [if_neg (by omega), if_neg (by omega), if_neg (by omega), if_neg (by omega)]

/-- A load at a place disjoint from a store is unchanged. -/
lemma load32_store32_of_disjoint (m : Mem) {a b : ℕ} (v : ℕ) (h : a + 4 ≤ b ∨ b + 4 ≤ a) :
    load32 (store32 m a v) b = load32 m b :=
  load32_congr fun i hi => store32_apply_of_outside m v (by omega)

/-- A fill changes only its range. -/
lemma fill_apply_of_outside (m : Mem) {a n x : ℕ} (b : UInt8) (h : x < a ∨ a + n ≤ x) :
    fill m a b n x = m x := by
  unfold fill
  rw [if_neg (by omega)]

/-- A copy changes only its destination. -/
lemma copy_apply_of_outside (m : Mem) {dst src n x : ℕ} (h : x < dst ∨ dst + n ≤ x) :
    copy m dst src n x = m x := by
  unfold copy
  rw [if_neg (by omega)]

/-- Put the bytes of a list at address `a`. -/
def write (m : Mem) (a : ℕ) (bs : List UInt8) : Mem := fun x =>
  if a ≤ x ∧ x < a + bs.length then bs.getD (x - a) 0 else m x

/-- The `n` bytes from address `a`. -/
def read (m : Mem) (a n : ℕ) : List UInt8 := (List.range n).map fun i => m (a + i)

@[simp] lemma length_read (m : Mem) (a n : ℕ) : (read m a n).length = n := by
  simp [read]

/-- The bytes read one by one. -/
lemma getElem?_read {m : Mem} {a n i : ℕ} (h : i < n) : (read m a n)[i]? = some (m (a + i)) := by
  simp [read, h]

/-- Reading on. -/
lemma read_add (m : Mem) (a n k : ℕ) : read m a (n + k) = read m a n ++ read m (a + n) k := by
  unfold read
  rw [range_add, map_append, map_map]
  refine congrArg _ (map_congr_left fun i _ => ?_)
  rw [comp_apply, Nat.add_assoc]

/-- What is read depends on the bytes of the range only. -/
lemma read_congr {m m' : Mem} {a n : ℕ} (h : ∀ i < n, m' (a + i) = m (a + i)) :
    read m' a n = read m a n := by
  apply map_congr_left
  intro i hi
  exact h i (mem_range.1 hi)

/-- A write changes only its range. -/
lemma write_apply_of_outside (m : Mem) {a x : ℕ} {bs : List UInt8}
    (h : x < a ∨ a + bs.length ≤ x) : write m a bs x = m x := by
  unfold write
  rw [if_neg (by omega)]

/-- A byte of a write. -/
lemma write_apply (m : Mem) {a i : ℕ} {bs : List UInt8} (h : i < bs.length) :
    write m a bs (a + i) = bs.getD i 0 := by
  unfold write
  rw [if_pos (by omega), Nat.add_sub_cancel_left]

lemma write_nil (m : Mem) (a : ℕ) : write m a [] = m :=
  funext fun _ => write_apply_of_outside m (Nat.lt_or_ge _ _)

/-- A write of one byte. -/
lemma write_singleton (m : Mem) (a : ℕ) (c : UInt8) : write m a [c] = update m a c := by
  funext x
  by_cases hx : x = a
  · rw [hx, update_self]
    exact write_apply m (i := 0) Nat.one_pos
  · rw [update_of_ne hx, write_apply_of_outside m]
    rw [length_singleton]
    omega

/-- A copy of one byte. -/
lemma copy_one (m : Mem) (dst src : ℕ) : copy m dst src 1 = update m dst (m src) := by
  funext x
  by_cases hx : x = dst
  · rw [hx, update_self, copy, if_pos (by omega), Nat.sub_self, Nat.add_zero]
  · rw [update_of_ne hx, copy_apply_of_outside m (by omega)]

/-- The bytes of a list stand at address `a`. -/
def Stores (m : Mem) (a : ℕ) (bs : List UInt8) : Prop := ∀ i c, bs[i]? = some c → m (a + i) = c

lemma stores_nil (m : Mem) (a : ℕ) : Stores m a [] := fun i c hc => by simp at hc

/-- A memory stores a concatenation if it stores the parts one after the other. -/
lemma stores_append {m : Mem} {a : ℕ} {bs cs : List UInt8} :
    Stores m a (bs ++ cs) ↔ Stores m a bs ∧ Stores m (a + bs.length) cs := by
  constructor
  · intro h
    refine ⟨fun i c hc => h i c ?_, fun i c hc => ?_⟩
    · rw [getElem?_append_left (List.getElem?_eq_some_iff.1 hc).1, hc]
    · rw [Nat.add_assoc]
      refine h _ c ?_
      rw [getElem?_append_right (Nat.le_add_right _ _), Nat.add_sub_cancel_left, hc]
  · rintro ⟨h₁, h₂⟩ i c hc
    by_cases hi : i < bs.length
    · rw [getElem?_append_left hi] at hc
      exact h₁ i c hc
    · rw [getElem?_append_right (by omega)] at hc
      have := h₂ (i - bs.length) c hc
      rwa [Nat.add_assoc, Nat.add_sub_cancel' (by omega)] at this

lemma stores_cons {m : Mem} {a : ℕ} {b : UInt8} {bs : List UInt8} :
    Stores m a (b :: bs) ↔ m a = b ∧ Stores m (a + 1) bs := by
  rw [← singleton_append, stores_append]
  refine and_congr_left fun _ => ⟨fun h => h 0 b rfl, fun h i c hc => ?_⟩
  cases i with
  | zero => cases hc; exact h
  | succ i => cases hc

/-- What is stored depends on the bytes of the range only. -/
lemma Stores.congr {m m' : Mem} {a : ℕ} {bs : List UInt8} (h : Stores m a bs)
    (hm : ∀ x, a ≤ x → x < a + bs.length → m' x = m x) : Stores m' a bs := by
  intro i c hc
  have hi := (List.getElem?_eq_some_iff.1 hc).1
  rw [hm _ (by omega) (by omega)]
  exact h i c hc

/-- A copy stores what stood at the source. -/
lemma Stores.copy {m : Mem} {src : ℕ} {bs : List UInt8} (h : Stores m src bs) (dst : ℕ) :
    Stores (copy m dst src bs.length) dst bs := by
  intro i c hc
  have hi := (List.getElem?_eq_some_iff.1 hc).1
  rw [ByteMem.copy, if_pos (by omega), Nat.add_sub_cancel_left]
  exact h i c hc

/-- A write stores its bytes. -/
lemma stores_write (m : Mem) (a : ℕ) (bs : List UInt8) : Stores (write m a bs) a bs := by
  intro i c hc
  rw [write_apply m (List.getElem?_eq_some_iff.1 hc).1, getD_eq_getElem?_getD, hc]
  rfl

/-- One more byte. -/
lemma Stores.concat {m : Mem} {a : ℕ} {bs : List UInt8} (h : Stores m a bs) (c : UInt8) :
    Stores (update m (a + bs.length) c) a (bs ++ [c]) := by
  refine stores_append.2 ⟨h.congr fun x _ hx => ?_, stores_cons.2 ⟨?_, stores_nil _ _⟩⟩
  · exact update_of_ne (by omega) _ _
  · exact update_self _ _ _

/-- **A text is replaced** by another one: the bytes behind it are moved and the new one is put in
its place. -/
lemma Stores.splice {m : Mem} {a : ℕ} {l old r : List UInt8} (h : Stores m a (l ++ (old ++ r)))
    (new : List UInt8) :
    Stores (write (ByteMem.copy m (a + l.length + new.length) (a + l.length + old.length) r.length)
      (a + l.length) new) a (l ++ (new ++ r)) := by
  obtain ⟨hl, hr⟩ := stores_append.1 h
  refine stores_append.2 ⟨?_, stores_append.2 ⟨stores_write _ _ _, ?_⟩⟩
  · refine hl.congr fun x _ hx => ?_
    rw [write_apply_of_outside _ (.inl hx), copy_apply_of_outside _ (.inl (by omega))]
  · refine ((stores_append.1 hr).2.copy _).congr fun x hx _ => ?_
    rw [write_apply_of_outside _ (.inr hx)]

/-- The bytes that stand at an address are read. -/
lemma Stores.read_eq {m : Mem} {a : ℕ} {bs : List UInt8} (h : Stores m a bs) :
    read m a bs.length = bs := by
  apply ext_getElem?
  intro i
  by_cases hi : i < bs.length
  · rw [getElem?_read hi, getElem?_eq_getElem hi, h i _ (getElem?_eq_getElem hi)]
  · rw [getElem?_eq_none (by rw [length_read]; omega), getElem?_eq_none (by omega)]

/-- A byte string written over zeros is read back followed by zeros. -/
lemma read_write_fill (m : Mem) (a : ℕ) {n : ℕ} {bs : List UInt8} (h : bs.length ≤ n) :
    read (write (fill m a 0 n) a bs) a n = bs ++ List.replicate (n - bs.length) 0 := by
  apply ext_getElem?
  intro i
  by_cases hi : i < n
  · rw [getElem?_read hi]
    by_cases hb : i < bs.length
    · rw [write_apply _ hb, getElem?_append_left hb, getD_eq_getElem?_getD]
      simp [hb]
    · rw [write_apply_of_outside _ (by omega), getElem?_append_right (by omega)]
      simp [fill, hi, getElem?_replicate]
      omega
  · rw [getElem?_eq_none, getElem?_eq_none]
    · simp only [length_append, length_replicate]
      omega
    · rw [length_read]
      omega

end ByteMem
