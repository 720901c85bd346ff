import BengalTiger.Vbe

set_option autoImplicit false

/-!
# The fast paths of the framebuffer driver

With 32 bits for a pixel `vbe_fill_rect` clips its rectangle once and then stores words row by row,
and `vbe_draw_char` stores the eight words of every row of a glyph. Both leave the memory that
`vbe_putpixel` leaves when it is called for every pixel in the same order and drops those that are
not on the screen. Nothing is assumed of the geometry: a row may be longer than the distance to the
next one, and addresses may wrap around.

## Main definitions

* `Vbe.Mode.Visible` — the bytes of the rows of the screen.

## Main results

* `Vbe.fast_paths` — the fast paths and the pixels.
-/

namespace BengalTiger.Vbe

open ByteMem

namespace Mode

/-- The bytes of the rows of the screen, with 32 bits for a pixel. -/
def Visible (fb : Mode) (a : ℕ) : Prop :=
  ∃ y < fb.height, ∃ j < 4 * fb.width, a = u32 (y * fb.pitch + j)

variable {fb : Mode} {m : Mem} {x y w h : ℕ}

/-! ## Clipping -/

/-- A loop whose last iterations do nothing can be cut short. -/
lemma foldl_range_of_le {α : Type} {f : α → ℕ → α} {k n : ℕ} (hle : k ≤ n)
    (hf : ∀ a, ∀ i < n, k ≤ i → f a i = a) (a : α) :
    (List.range n).foldl f a = (List.range k).foldl f a := by
  induction n with
  | zero => rw [Nat.le_zero.1 hle]
  | succ n ih =>
    rcases Nat.lt_or_ge n k with hlt | hge
    · rw [show k = n + 1 by omega]
    · rw [List.range_succ, List.foldl_append, List.foldl_cons, List.foldl_nil,
        hf _ n (by omega) hge]
      exact ih hge fun a i hi => hf a i (by omega)

lemma vbePutpixel_of_outside (hout : fb.width ≤ x ∨ fb.height ≤ y) (m : Mem) (color : ℕ) :
    fb.vbePutpixel m x y color = m := if_pos hout

/-- A rectangle may be clipped to the screen before it is plotted. -/
lemma plotRect_clip {w' h' : ℕ} (hw : w' ≤ w) (hh : h' ≤ h) (hx : w' = w ∨ fb.width ≤ x + w')
    (hy : h' = h ∨ fb.height ≤ y + h') (color : ℕ → ℕ → ℕ) :
    fb.plotRect m x y w h color = fb.plotRect m x y w' h' color := by
  have hrow : ∀ m j, (List.range w).foldl (fun m i =>
      fb.vbePutpixel m (x + i) (y + j) (color i j)) m = (List.range w').foldl (fun m i =>
        fb.vbePutpixel m (x + i) (y + j) (color i j)) m := by
    intro m j
    refine foldl_range_of_le hw (fun m i hi hge => ?_) m
    exact vbePutpixel_of_outside (.inl (by omega)) m _
  unfold plotRect
  simp only [hrow]
  refine foldl_range_of_le hh (fun m j hj hge => ?_) m
  refine foldl_range_of_le (Nat.zero_le w') (fun m i hi _ => ?_) m
  exact vbePutpixel_of_outside (.inr (by omega)) m _

lemma plotRect_of_empty (hempty : w = 0 ∨ h = 0) (color : ℕ → ℕ → ℕ) :
    fb.plotRect m x y w h color = m := by
  rcases hempty with rfl | rfl
  · exact foldl_range_of_le (Nat.zero_le h) (fun m j hj _ => rfl) m
  · rfl

/-- **A filled rectangle** is plotted: the size to which it is clipped is at most its own, and the
pixels that are cut off are not on the screen. -/
lemma vbeFillRect_eq_plotRect (hbpp : fb.bpp = 32) (hx : x + w < 4294967296)
    (hy : y + h < 4294967296) (color : ℕ) :
    fb.vbeFillRect m x y w h color = fb.plotRect m x y w h fun _ _ => color := by
  unfold vbeFillRect
  by_cases hempty : w = 0 ∨ h = 0
  · rw [if_pos hempty, plotRect_of_empty hempty]
  rw [if_neg hempty]
  by_cases hout : x ≥ fb.width ∨ y ≥ fb.height
  · rw [if_pos hout]
    rcases hout with hright | hbelow
    · rw [plotRect_clip (Nat.zero_le w) le_rfl (.inr hright) (.inl rfl),
        plotRect_of_empty (.inl rfl)]
    · rw [plotRect_clip le_rfl (Nat.zero_le h) (.inl rfl) (.inr hbelow),
        plotRect_of_empty (.inr rfl)]
  rw [if_neg hout, u32_of_lt hx, u32_of_lt hy]
  simp only [hbpp, if_true]
  have hclip : ∀ a n size : ℕ, a < size →
      (if a + n > size then size - a else n) ≤ n ∧
      a + (if a + n > size then size - a else n) ≤ size ∧
      ((if a + n > size then size - a else n) = n ∨
        size ≤ a + (if a + n > size then size - a else n)) := by
    intro a n size ha
    split_ifs <;> omega
  rw [not_or] at hout
  obtain ⟨hw, hright, hcols⟩ := hclip x w fb.width (by omega)
  obtain ⟨hh, hbelow, hrows⟩ := hclip y h fb.height (by omega)
  rw [foldl_storeWord hbpp hright hbelow (by omega) fun _ _ => color]
  exact (plotRect_clip hw hh hcols hrows _).symm

/-- **A character** that fits on the screen is plotted; another one is not drawn. -/
lemma vbeDrawChar_eq_plotRect (fb : Mode) (hx : x + 8 < 4294967296)
    (hy : y + 16 < 4294967296) (c : UInt8) (fg bg : ℕ) :
    fb.vbeDrawChar m x y c fg bg =
      if x + 8 ≤ fb.width ∧ y + 16 ≤ fb.height then
        fb.plotRect m x y 8 16 fun i j => if glyphBit c i j then fg else bg
      else m := by
  by_cases hfits : x + 8 ≤ fb.width ∧ y + 16 ≤ fb.height
  · rw [if_pos hfits, vbeDrawChar_of_fits hx hy hfits.1 hfits.2]
  · rw [vbeDrawChar, fontWidth, fontHeight, u32_of_lt hx, u32_of_lt hy, if_pos (by omega),
      if_neg hfits]

/-! ## Bytes outside the screen -/

/-- A loop whose steps leave a byte leaves it. -/
lemma foldl_apply {a : ℕ} {f : Mem → ℕ → Mem} (hf : ∀ m i, f m i a = m a) (l : List ℕ) (m : Mem) :
    l.foldl f m a = m a := by
  induction l generalizing m with
  | nil => rfl
  | cons i l ih => rw [List.foldl_cons, ih, hf]

/-- A pixel changes bytes of its row. -/
lemma vbePutpixel_of_not_visible (hbpp : fb.bpp = 32) {a : ℕ} (ha : ¬ fb.Visible a) (m : Mem)
    (x y color : ℕ) : fb.vbePutpixel m x y color a = m a := by
  by_cases hout : x ≥ fb.width ∨ y ≥ fb.height
  · rw [vbePutpixel_of_outside hout]
  rw [vbePutpixel, if_neg hout, if_pos hbpp, storeWord, store]
  split_ifs with hlt
  · have hoff : 4 ≤ sub32 a (u32 (u32 (y * fb.pitch) + 4 * x)) := by
      by_contra hin
      refine ha ⟨y, by omega, 4 * x + sub32 a (u32 (u32 (y * fb.pitch) + 4 * x)), by omega, ?_⟩
      unfold sub32 u32
      omega
    rw [List.getElem?_eq_none (by rw [length_leBytes]; exact hoff), Option.getD_none]
  · rfl

lemma plotRect_of_not_visible (hbpp : fb.bpp = 32) {a : ℕ} (ha : ¬ fb.Visible a)
    (color : ℕ → ℕ → ℕ) : fb.plotRect m x y w h color a = m a :=
  foldl_apply (fun m j => foldl_apply (fun m i =>
    vbePutpixel_of_not_visible hbpp ha m (x + i) (y + j) (color i j)) _ m) _ m

end Mode

/-- **The fast paths and the pixels.** With 32 bits for a pixel a filled rectangle is what
`vbe_putpixel` makes of its pixels, and so is a character that fits on the screen, while another one
is not drawn. Bytes outside the rows of the screen stay. -/
theorem fast_paths (fb : Mode) (hbpp : fb.bpp = 32) (m : Mem) (x y : ℕ) :
    (∀ w h color, x + w < 4294967296 → y + h < 4294967296 →
      fb.vbeFillRect m x y w h color = fb.plotRect m x y w h (fun _ _ => color) ∧
      ∀ a, ¬ fb.Visible a → fb.vbeFillRect m x y w h color a = m a) ∧
    (x + 8 < 4294967296 → y + 16 < 4294967296 → ∀ c fg bg,
      (fb.vbeDrawChar m x y c fg bg =
        if x + 8 ≤ fb.width ∧ y + 16 ≤ fb.height then
          fb.plotRect m x y 8 16 fun i j => if glyphBit c i j then fg else bg
        else m) ∧
      ∀ a, ¬ fb.Visible a → fb.vbeDrawChar m x y c fg bg a = m a) := by
  constructor
  · intro w h color hx hy
    have hfill := Mode.vbeFillRect_eq_plotRect (m := m) hbpp hx hy color
    refine ⟨hfill, fun a ha => ?_⟩
    rw [hfill]
    exact Mode.plotRect_of_not_visible hbpp ha _
  · intro hx hy c fg bg
    have hdraw := fb.vbeDrawChar_eq_plotRect (m := m) hx hy c fg bg
    refine ⟨hdraw, fun a ha => ?_⟩
    rw [hdraw]
    split_ifs
    · exact Mode.plotRect_of_not_visible hbpp ha _
    · rfl

/-- A screen of 20 by 20 pixels. -/
def squareMode : Mode := ⟨20, 20, 80, 32, 16, 8, 0⟩

/-- A rectangle that is cut off at two sides, a character that fits and one that does not. -/
theorem fast_paths_square :
    squareMode.vbeFillRect (fun _ => 7) 15 12 10 10 0xAA5500 =
      squareMode.plotRect (fun _ => 7) 15 12 10 10 (fun _ _ => 0xAA5500) ∧
    squareMode.vbeFillRect (fun _ => 7) 15 12 10 10 0xAA5500 1600 = 7 ∧
    squareMode.vbeDrawChar (fun _ => 7) 12 4 0x41 0xFFFFFF 0 =
      squareMode.plotRect (fun _ => 7) 12 4 8 16
        (fun i j => if glyphBit 0x41 i j then 0xFFFFFF else 0) ∧
    squareMode.vbeDrawChar (fun _ => 7) 13 4 0x41 0xFFFFFF 0 = fun _ => 7 := by
  have hout : ¬ squareMode.Visible 1600 := by
    rintro ⟨y, hy, j, hj, h⟩
    simp only [squareMode] at hy hj h
    rw [u32_of_lt (by omega)] at h
    omega
  have hrect := (fast_paths squareMode rfl (fun _ => 7) 15 12).1 10 10 0xAA5500 (by decide)
    (by decide)
  have hin := ((fast_paths squareMode rfl (fun _ => 7) 12 4).2 (by decide) (by decide) 0x41
    0xFFFFFF 0).1
  have hcut := ((fast_paths squareMode rfl (fun _ => 7) 13 4).2 (by decide) (by decide) 0x41
    0xFFFFFF 0).1
  rw [if_pos (by decide)] at hin
  rw [if_neg (by decide)] at hcut
  exact ⟨hrect.1, hrect.2 1600 hout, hin, hcut⟩

end BengalTiger.Vbe
