import Mathlib.Data.List.Basic
import BengalTiger.Lib.ByteMem

set_option autoImplicit false

/-!
# A raster of pixels in memory

A linear raster stores its rows one after the other, `pitch` bytes apart, and the pixels of a row
side by side, `depth` bytes each. Since a row is at least as wide as its pixels, two pixels never
share a byte, so that a program that pokes pixels can be described pixel by pixel.

## Main definitions

* `Raster` — the layout; `Raster.pixel`, `Raster.poke` — one pixel is read or written.
* `Raster.paintRect` — the two loops that write a rectangle.

## Main results

* `Raster.pixel_poke_self`, `Raster.pixel_poke_of_ne` — what a pixel shows after a poke.
* `Raster.pixel_paintRect` — what a pixel shows after a rectangle was written.
* `Raster.pixel_copy_rows` — what a pixel shows after rows were moved up.
-/

open ByteMem

/-- The layout of a raster. -/
structure Raster where
  width : ℕ
  height : ℕ
  pitch : ℕ
  depth : ℕ
  width_le : width * depth ≤ pitch

namespace Raster

variable (R : Raster)

/-- The first byte of a pixel. -/
def offset (x y : ℕ) : ℕ := y * R.pitch + x * R.depth

/-- The bytes of a pixel. -/
def pixel (m : Mem) (x y : ℕ) : List UInt8 := read m (R.offset x y) R.depth

/-- A pixel is written. -/
def poke (m : Mem) (x y : ℕ) (bs : List UInt8) : Mem := write m (R.offset x y) bs

/-- The pixels of a row from `x` on are written. -/
def paintRow (m : Mem) (x y n : ℕ) (v : ℕ → List UInt8) : Mem :=
  (List.range n).foldl (fun m i => R.poke m (x + i) y (v i)) m

/-- The pixels of a rectangle are written. -/
def paintRect (m : Mem) (x y n h : ℕ) (v : ℕ → ℕ → List UInt8) : Mem :=
  (List.range h).foldl (fun m j => R.paintRow m x (y + j) n fun i => v i j) m

variable {R} {m : Mem} {x y a b n h : ℕ}

/-- A pixel ends inside its row. -/
lemma offset_add_le_row (hx : x < R.width) : R.offset x y + R.depth ≤ (y + 1) * R.pitch := by
  have hrow : (x + 1) * R.depth ≤ R.pitch :=
    (Nat.mul_le_mul_right _ hx).trans R.width_le
  rw [offset]
  rw [Nat.add_mul, Nat.one_mul] at hrow ⊢
  omega

/-- A pixel ends inside the raster. -/
lemma offset_add_le (hx : x < R.width) (hy : y < R.height) :
    R.offset x y + R.depth ≤ R.pitch * R.height := by
  refine (offset_add_le_row hx).trans ?_
  rw [Nat.mul_comm R.pitch]
  exact Nat.mul_le_mul_right _ hy

/-- Pixels of an earlier row end before the pixels of a later row. -/
lemma offset_add_le_of_lt (hx : x < R.width) (h : y < b) :
    R.offset x y + R.depth ≤ R.offset a b := by
  refine (offset_add_le_row hx).trans ?_
  rw [offset]
  exact (Nat.mul_le_mul_right _ h).trans (Nat.le_add_right _ _)

/-- Pixels of one row stand side by side. -/
lemma offset_add_le_of_left (h : x < a) : R.offset x y + R.depth ≤ R.offset a y := by
  have hstep : (x + 1) * R.depth ≤ a * R.depth := Nat.mul_le_mul_right _ h
  rw [Nat.add_mul, Nat.one_mul] at hstep
  simp only [offset]
  omega

/-- **Two pixels share no byte.** -/
lemma offset_disjoint (hx : x < R.width) (ha : a < R.width) (h : x ≠ a ∨ y ≠ b) :
    R.offset x y + R.depth ≤ R.offset a b ∨ R.offset a b + R.depth ≤ R.offset x y := by
  rcases Nat.lt_trichotomy y b with hlt | rfl | hgt
  · exact .inl (offset_add_le_of_lt hx hlt)
  · have hne : x ≠ a := h.resolve_right fun hy => hy rfl
    rcases Nat.lt_or_gt_of_ne hne with hlt | hgt
    · exact .inl (offset_add_le_of_left hlt)
    · exact .inr (offset_add_le_of_left hgt)
  · exact .inr (offset_add_le_of_lt ha hgt)

/-- The pixel that was written. -/
lemma pixel_poke_self {bs : List UInt8} (hbs : bs.length = R.depth) :
    R.pixel (R.poke m x y bs) x y = bs := by
  rw [pixel, poke, ← hbs]
  exact (stores_write m (R.offset x y) bs).read_eq

/-- The other pixels. -/
lemma pixel_poke_of_ne {bs : List UInt8} (hbs : bs.length = R.depth) (hx : x < R.width)
    (ha : a < R.width) (h : x ≠ a ∨ y ≠ b) : R.pixel (R.poke m x y bs) a b = R.pixel m a b := by
  refine read_congr fun i hi => write_apply_of_outside m ?_
  rw [hbs]
  rcases offset_disjoint hx ha h with hle | hle
  · exact .inr (by omega)
  · exact .inl (by omega)

/-- A pixel after a row was written. -/
lemma pixel_paintRow {v : ℕ → List UInt8} (hv : ∀ i, (v i).length = R.depth)
    (hn : x + n ≤ R.width) (ha : a < R.width) : R.pixel (R.paintRow m x y n v) a b =
      if b = y ∧ x ≤ a ∧ a < x + n then v (a - x) else R.pixel m a b := by
  induction n with
  | zero => rw [if_neg (by omega), paintRow, List.range_zero, List.foldl_nil]
  | succ n ih =>
    have hstep : R.paintRow m x y (n + 1) v =
        R.poke (R.paintRow m x y n v) (x + n) y (v n) := by
      rw [paintRow, List.range_succ, List.foldl_append]
      rfl
    rw [hstep]
    by_cases hlast : a = x + n ∧ b = y
    · obtain ⟨rfl, rfl⟩ := hlast
      rw [pixel_poke_self (hv n), if_pos (by omega), Nat.add_sub_cancel_left]
    · rw [pixel_poke_of_ne (hv n) (by omega) ha (by omega), ih (by omega)]
      split_ifs
      · rfl
      · omega
      · omega
      · rfl

/-- **A pixel after a rectangle was written**: those of the rectangle show it, the others are
unchanged.

**Proof sketch.** Induction on the rows; the pixels of the last row come from it, the others from
the rows before. -/
lemma pixel_paintRect {v : ℕ → ℕ → List UInt8} (hv : ∀ i j, (v i j).length = R.depth)
    (hn : x + n ≤ R.width) (ha : a < R.width) : R.pixel (R.paintRect m x y n h v) a b =
      if y ≤ b ∧ b < y + h ∧ x ≤ a ∧ a < x + n then v (a - x) (b - y) else R.pixel m a b := by
  induction h with
  | zero => rw [if_neg (by omega), paintRect, List.range_zero, List.foldl_nil]
  | succ h ih =>
    have hstep : R.paintRect m x y n (h + 1) v =
        R.paintRow (R.paintRect m x y n h v) x (y + h) n fun i => v i h := by
      rw [paintRect, List.range_succ, List.foldl_append]
      rfl
    rw [hstep, pixel_paintRow (fun i => hv i h) hn ha, ih]
    by_cases hrow : b = y + h ∧ x ≤ a ∧ a < x + n
    · obtain ⟨rfl, hcol⟩ := hrow
      rw [if_pos ⟨rfl, hcol⟩, if_pos (by omega), Nat.add_sub_cancel_left]
    · rw [if_neg hrow]
      split_ifs
      · rfl
      · omega
      · omega
      · rfl

/-- **A pixel after rows were moved up** by `k` rows: `n` rows from row `y` on show what stood `k`
rows below. -/
lemma pixel_copy_rows {k : ℕ} (ha : a < R.width) :
    R.pixel (copy m (y * R.pitch) ((y + k) * R.pitch) (n * R.pitch)) a b =
      if y ≤ b ∧ b < y + n then R.pixel m a (b + k) else R.pixel m a b := by
  have hend := offset_add_le_row (y := b) ha
  split_ifs with hrow
  · obtain ⟨j, rfl⟩ := Nat.exists_eq_add_of_le hrow.1
    have hlast : (j + 1) * R.pitch ≤ n * R.pitch := Nat.mul_le_mul_right _ (by omega)
    rw [pixel, pixel]
    refine List.map_congr_left fun i hi => ?_
    have hi := List.mem_range.1 hi
    simp only [offset, Nat.add_mul, Nat.one_mul] at hend hlast ⊢
    rw [copy, if_pos (by omega)]
    refine congrArg m ?_
    omega
  · refine read_congr fun i hi => copy_apply_of_outside m ?_
    rcases Nat.lt_or_ge b y with hlt | hge
    · have hfirst : (b + 1) * R.pitch ≤ y * R.pitch := Nat.mul_le_mul_right _ hlt
      exact .inl (by omega)
    · have hfirst : (y + n) * R.pitch ≤ b * R.pitch := Nat.mul_le_mul_right _ (by omega)
      rw [Nat.add_mul] at hfirst
      rw [offset]
      exact .inr (by omega)

end Raster
