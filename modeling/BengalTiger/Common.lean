import Mathlib.Data.List.Range
import Mathlib.Tactic.Ring

set_option autoImplicit false

/-!
# Machine arithmetic and counted loops

The macros and conversions of `kernel/common.h` that the other modules use, on natural numbers
with the reduction modulo `2 ^ 32` written out, and the memory-map constants of
`kernel/heap.h` and `kernel/paging.h`.

## Main definitions

* `u32`, `u16` — the conversions to `uint32_t` and `uint16_t`.
* `alignUp`, `alignDown` — `ALIGN_UP`, `ALIGN_DOWN`.
* `forRange` — `for (f = lo; f < hi; f++) body(f)`.

## Main results

* `forRange_induct` — the invariant rule of a counted loop.
-/

namespace BengalTiger

/-- The conversion to `uint32_t`. -/
def u32 (x : ℕ) : ℕ := x % 4294967296

/-- The conversion to `uint16_t`. -/
def u16 (x : ℕ) : ℕ := x % 65536

/-- The difference of two `uint32_t` values. -/
def sub32 (x y : ℕ) : ℕ := u32 (x + 4294967296 - u32 y)

/-- A value below `2 ^ 32` is unchanged by the conversion. -/
lemma u32_of_lt {x : ℕ} (h : x < 4294967296) : u32 x = x := Nat.mod_eq_of_lt h

/-- Converted values are below `2 ^ 32`. -/
lemma u32_lt (x : ℕ) : u32 x < 4294967296 := Nat.mod_lt _ (by norm_num)

/-- The difference of two 32-bit values without a borrow. -/
lemma sub32_of_le {x y : ℕ} (h : y ≤ x) (hx : x < 4294967296) : sub32 x y = x - y := by
  simp only [sub32, u32]
  omega

/-- `ALIGN_UP` for a power of two `a` in `uint32_t` arithmetic. -/
def alignUp (v a : ℕ) : ℕ := u32 (v + a - 1) / a * a

/-- `ALIGN_DOWN` for a power of two `a`. -/
def alignDown (v a : ℕ) : ℕ := v / a * a

/-- `PAGE_SIZE`. -/
def pageSize : ℕ := 4096

/-- `HEAP_START`, 4 MB. -/
def heapStart : ℕ := 0x00400000

/-- `HEAP_INITIAL_SIZE`, 2 MB. -/
def heapInitialSize : ℕ := 0x00200000

/-- `HEAP_MAX_SIZE`, 16 MB. -/
def heapMaxSize : ℕ := 0x01000000

/-! ## Counted loops -/

/-- `for (f = lo; f < hi; f++) s = body(s, f)`. -/
def forRange {σ : Type} (lo hi : ℕ) (body : σ → ℕ → σ) (s : σ) : σ :=
  (List.range' lo (hi - lo)).foldl body s

/-- A loop whose range is empty does nothing. -/
lemma forRange_of_le {σ : Type} {lo hi : ℕ} (h : hi ≤ lo) (body : σ → ℕ → σ) (s : σ) :
    forRange lo hi body s = s := by
  simp [forRange, Nat.sub_eq_zero_of_le h]

/-- The last iteration of a loop. -/
lemma forRange_succ {σ : Type} {lo hi : ℕ} (h : lo ≤ hi) (body : σ → ℕ → σ) (s : σ) :
    forRange lo (hi + 1) body s = body (forRange lo hi body s) hi := by
  have he : hi + 1 - lo = hi - lo + 1 := by omega
  unfold forRange
  rw [he, List.range'_1_concat, List.foldl_append, Nat.add_sub_cancel' h]
  rfl

/-- **The invariant rule of a counted loop**: if `P lo` holds at entry and iteration `k` takes
`P k` to `P (k + 1)`, then `P hi` holds at exit. -/
lemma forRange_induct {σ : Type} {lo hi : ℕ} (hle : lo ≤ hi) {body : σ → ℕ → σ} {s : σ}
    (P : ℕ → σ → Prop) (h0 : P lo s)
    (hstep : ∀ k t, lo ≤ k → k < hi → P k t → P (k + 1) (body t k)) :
    P hi (forRange lo hi body s) := by
  induction hi, hle using Nat.le_induction with
  | base => rw [forRange_of_le le_rfl]; exact h0
  | succ m hm ih =>
    rw [forRange_succ hm]
    exact hstep m _ hm (by omega) (ih fun k t h1 h2 h3 => hstep k t h1 (by omega) h3)

end BengalTiger
