import Mathlib.Data.Int.Notation
import Mathlib.Data.List.GetD
import Mathlib.Data.Nat.Notation

set_option autoImplicit false

/-!
# The console font

The table of `kernel/font.c`: the glyphs of the characters 32 to 126, 16 rows of 8 pixels each, the
leftmost pixel in the highest bit. A blank has no pixel.

## Main definitions

* `Vbe.font8x16` — the table; `Vbe.glyph` — the glyph of a character.
* `Vbe.glyphBit` — one pixel of a glyph.

## Main results

* `Vbe.glyphBit_blank` — a blank is background only.
-/

namespace BengalTiger.Vbe

/-- `FONT_WIDTH`. -/
def fontWidth : ℕ := 8

/-- `FONT_HEIGHT`. -/
def fontHeight : ℕ := 16

/-- `FONT_FIRST_CHAR`. -/
def fontFirstChar : ℕ := 32

/-- `FONT_NUM_CHARS`. -/
def fontNumChars : ℕ := 95

/-- `font_8x16`. -/
def font8x16 : List (List UInt8) :=
  [[0, 0, 0, 0, 0, 0, 0, 0, 0, 0, 0, 0, 0, 0, 0, 0],
   [0, 0, 0x18, 0x3C, 0x3C, 0x3C, 0x18, 0x18, 0x18, 0, 0x18, 0x18, 0, 0, 0, 0],
   [0, 0x66, 0x66, 0x66, 0x24, 0, 0, 0, 0, 0, 0, 0, 0, 0, 0, 0],
   [0, 0, 0, 0x24, 0x24, 0x7E, 0x24, 0x24, 0x24, 0x7E, 0x24, 0x24, 0, 0, 0, 0],
   [0, 0x08, 0x3E, 0x49, 0x48, 0x38, 0x0E, 0x09, 0x49, 0x3E, 0x08, 0x08, 0, 0, 0, 0],
   [0, 0, 0x31, 0x4A, 0x4A, 0x34, 0x08, 0x08, 0x16, 0x29, 0x29, 0x46, 0, 0, 0, 0],
   [0, 0, 0x1C, 0x22, 0x22, 0x14, 0x18, 0x29, 0x45, 0x42, 0x46, 0x39, 0, 0, 0, 0],
   [0, 0x18, 0x18, 0x18, 0x08, 0, 0, 0, 0, 0, 0, 0, 0, 0, 0, 0],
   [0, 0, 0x04, 0x08, 0x10, 0x10, 0x10, 0x10, 0x10, 0x10, 0x08, 0x04, 0, 0, 0, 0],
   [0, 0, 0x20, 0x10, 0x08, 0x08, 0x08, 0x08, 0x08, 0x08, 0x10, 0x20, 0, 0, 0, 0],
   [0, 0, 0, 0x08, 0x49, 0x2A, 0x1C, 0x77, 0x1C, 0x2A, 0x49, 0x08, 0, 0, 0, 0],
   [0, 0, 0, 0x08, 0x08, 0x08, 0x7F, 0x08, 0x08, 0x08, 0, 0, 0, 0, 0, 0],
   [0, 0, 0, 0, 0, 0, 0, 0, 0, 0x18, 0x18, 0x18, 0x08, 0x10, 0, 0],
   [0, 0, 0, 0, 0, 0, 0x7E, 0, 0, 0, 0, 0, 0, 0, 0, 0],
   [0, 0, 0, 0, 0, 0, 0, 0, 0, 0x18, 0x18, 0x18, 0, 0, 0, 0],
   [0, 0, 0x02, 0x02, 0x04, 0x04, 0x08, 0x08, 0x10, 0x10, 0x20, 0x20, 0, 0, 0, 0],
   [0, 0, 0x3C, 0x42, 0x46, 0x4A, 0x52, 0x62, 0x42, 0x42, 0x42, 0x3C, 0, 0, 0, 0],
   [0, 0, 0x18, 0x38, 0x18, 0x18, 0x18, 0x18, 0x18, 0x18, 0x18, 0x7E, 0, 0, 0, 0],
   [0, 0, 0x3C, 0x42, 0x42, 0x02, 0x04, 0x08, 0x10, 0x20, 0x40, 0x7E, 0, 0, 0, 0],
   [0, 0, 0x3C, 0x42, 0x42, 0x02, 0x1C, 0x02, 0x02, 0x42, 0x42, 0x3C, 0, 0, 0, 0],
   [0, 0, 0x04, 0x0C, 0x14, 0x24, 0x44, 0x44, 0x7E, 0x04, 0x04, 0x04, 0, 0, 0, 0],
   [0, 0, 0x7E, 0x40, 0x40, 0x40, 0x7C, 0x02, 0x02, 0x02, 0x42, 0x3C, 0, 0, 0, 0],
   [0, 0, 0x1C, 0x20, 0x40, 0x40, 0x7C, 0x42, 0x42, 0x42, 0x42, 0x3C, 0, 0, 0, 0],
   [0, 0, 0x7E, 0x02, 0x02, 0x04, 0x04, 0x08, 0x08, 0x10, 0x10, 0x10, 0, 0, 0, 0],
   [0, 0, 0x3C, 0x42, 0x42, 0x42, 0x3C, 0x42, 0x42, 0x42, 0x42, 0x3C, 0, 0, 0, 0],
   [0, 0, 0x3C, 0x42, 0x42, 0x42, 0x42, 0x3E, 0x02, 0x02, 0x04, 0x38, 0, 0, 0, 0],
   [0, 0, 0, 0x18, 0x18, 0, 0, 0, 0, 0x18, 0x18, 0, 0, 0, 0, 0],
   [0, 0, 0, 0x18, 0x18, 0, 0, 0, 0, 0x18, 0x18, 0x08, 0x10, 0, 0, 0],
   [0, 0, 0, 0x02, 0x04, 0x08, 0x10, 0x20, 0x10, 0x08, 0x04, 0x02, 0, 0, 0, 0],
   [0, 0, 0, 0, 0, 0x7E, 0, 0, 0, 0x7E, 0, 0, 0, 0, 0, 0],
   [0, 0, 0, 0x40, 0x20, 0x10, 0x08, 0x04, 0x08, 0x10, 0x20, 0x40, 0, 0, 0, 0],
   [0, 0, 0x3C, 0x42, 0x42, 0x02, 0x04, 0x08, 0x08, 0, 0x08, 0x08, 0, 0, 0, 0],
   [0, 0, 0x3C, 0x42, 0x42, 0x4E, 0x52, 0x56, 0x4A, 0x4E, 0x40, 0x3C, 0, 0, 0, 0],
   [0, 0, 0x18, 0x24, 0x42, 0x42, 0x42, 0x7E, 0x42, 0x42, 0x42, 0x42, 0, 0, 0, 0],
   [0, 0, 0x7C, 0x42, 0x42, 0x42, 0x7C, 0x42, 0x42, 0x42, 0x42, 0x7C, 0, 0, 0, 0],
   [0, 0, 0x1C, 0x22, 0x40, 0x40, 0x40, 0x40, 0x40, 0x40, 0x22, 0x1C, 0, 0, 0, 0],
   [0, 0, 0x78, 0x44, 0x42, 0x42, 0x42, 0x42, 0x42, 0x42, 0x44, 0x78, 0, 0, 0, 0],
   [0, 0, 0x7E, 0x40, 0x40, 0x40, 0x7C, 0x40, 0x40, 0x40, 0x40, 0x7E, 0, 0, 0, 0],
   [0, 0, 0x7E, 0x40, 0x40, 0x40, 0x7C, 0x40, 0x40, 0x40, 0x40, 0x40, 0, 0, 0, 0],
   [0, 0, 0x1C, 0x22, 0x40, 0x40, 0x40, 0x4E, 0x42, 0x42, 0x22, 0x1E, 0, 0, 0, 0],
   [0, 0, 0x42, 0x42, 0x42, 0x42, 0x7E, 0x42, 0x42, 0x42, 0x42, 0x42, 0, 0, 0, 0],
   [0, 0, 0x7E, 0x18, 0x18, 0x18, 0x18, 0x18, 0x18, 0x18, 0x18, 0x7E, 0, 0, 0, 0],
   [0, 0, 0x06, 0x02, 0x02, 0x02, 0x02, 0x02, 0x02, 0x42, 0x42, 0x3C, 0, 0, 0, 0],
   [0, 0, 0x42, 0x44, 0x48, 0x50, 0x60, 0x50, 0x48, 0x44, 0x42, 0x42, 0, 0, 0, 0],
   [0, 0, 0x40, 0x40, 0x40, 0x40, 0x40, 0x40, 0x40, 0x40, 0x40, 0x7E, 0, 0, 0, 0],
   [0, 0, 0x42, 0x66, 0x5A, 0x5A, 0x42, 0x42, 0x42, 0x42, 0x42, 0x42, 0, 0, 0, 0],
   [0, 0, 0x42, 0x42, 0x62, 0x52, 0x4A, 0x46, 0x42, 0x42, 0x42, 0x42, 0, 0, 0, 0],
   [0, 0, 0x3C, 0x42, 0x42, 0x42, 0x42, 0x42, 0x42, 0x42, 0x42, 0x3C, 0, 0, 0, 0],
   [0, 0, 0x7C, 0x42, 0x42, 0x42, 0x7C, 0x40, 0x40, 0x40, 0x40, 0x40, 0, 0, 0, 0],
   [0, 0, 0x3C, 0x42, 0x42, 0x42, 0x42, 0x42, 0x42, 0x4A, 0x44, 0x3A, 0, 0, 0, 0],
   [0, 0, 0x7C, 0x42, 0x42, 0x42, 0x7C, 0x48, 0x44, 0x42, 0x42, 0x42, 0, 0, 0, 0],
   [0, 0, 0x3C, 0x42, 0x40, 0x20, 0x18, 0x04, 0x02, 0x42, 0x42, 0x3C, 0, 0, 0, 0],
   [0, 0, 0xFF, 0x18, 0x18, 0x18, 0x18, 0x18, 0x18, 0x18, 0x18, 0x18, 0, 0, 0, 0],
   [0, 0, 0x42, 0x42, 0x42, 0x42, 0x42, 0x42, 0x42, 0x42, 0x42, 0x3C, 0, 0, 0, 0],
   [0, 0, 0x42, 0x42, 0x42, 0x42, 0x24, 0x24, 0x24, 0x18, 0x18, 0x18, 0, 0, 0, 0],
   [0, 0, 0x42, 0x42, 0x42, 0x42, 0x42, 0x42, 0x5A, 0x5A, 0x66, 0x42, 0, 0, 0, 0],
   [0, 0, 0x42, 0x42, 0x24, 0x24, 0x18, 0x18, 0x24, 0x24, 0x42, 0x42, 0, 0, 0, 0],
   [0, 0, 0x81, 0x42, 0x24, 0x18, 0x18, 0x18, 0x18, 0x18, 0x18, 0x18, 0, 0, 0, 0],
   [0, 0, 0x7E, 0x02, 0x04, 0x08, 0x10, 0x20, 0x40, 0x40, 0x40, 0x7E, 0, 0, 0, 0],
   [0, 0, 0x1E, 0x10, 0x10, 0x10, 0x10, 0x10, 0x10, 0x10, 0x10, 0x1E, 0, 0, 0, 0],
   [0, 0, 0x40, 0x40, 0x20, 0x20, 0x10, 0x10, 0x08, 0x08, 0x04, 0x04, 0, 0, 0, 0],
   [0, 0, 0x78, 0x08, 0x08, 0x08, 0x08, 0x08, 0x08, 0x08, 0x08, 0x78, 0, 0, 0, 0],
   [0, 0x18, 0x24, 0x42, 0, 0, 0, 0, 0, 0, 0, 0, 0, 0, 0, 0],
   [0, 0, 0, 0, 0, 0, 0, 0, 0, 0, 0, 0, 0, 0xFF, 0, 0],
   [0, 0x10, 0x08, 0x04, 0, 0, 0, 0, 0, 0, 0, 0, 0, 0, 0, 0],
   [0, 0, 0, 0, 0, 0x3C, 0x02, 0x3E, 0x42, 0x42, 0x42, 0x3E, 0, 0, 0, 0],
   [0, 0, 0x40, 0x40, 0x40, 0x5C, 0x62, 0x42, 0x42, 0x42, 0x62, 0x5C, 0, 0, 0, 0],
   [0, 0, 0, 0, 0, 0x3C, 0x42, 0x40, 0x40, 0x40, 0x42, 0x3C, 0, 0, 0, 0],
   [0, 0, 0x02, 0x02, 0x02, 0x3E, 0x42, 0x42, 0x42, 0x42, 0x46, 0x3A, 0, 0, 0, 0],
   [0, 0, 0, 0, 0, 0x3C, 0x42, 0x7E, 0x40, 0x40, 0x42, 0x3C, 0, 0, 0, 0],
   [0, 0, 0x0C, 0x12, 0x10, 0x10, 0x7C, 0x10, 0x10, 0x10, 0x10, 0x10, 0, 0, 0, 0],
   [0, 0, 0, 0, 0, 0x3A, 0x44, 0x44, 0x44, 0x38, 0x40, 0x3C, 0x42, 0x42, 0x3C, 0],
   [0, 0, 0x40, 0x40, 0x40, 0x5C, 0x62, 0x42, 0x42, 0x42, 0x42, 0x42, 0, 0, 0, 0],
   [0, 0, 0x18, 0x18, 0, 0x38, 0x18, 0x18, 0x18, 0x18, 0x18, 0x3C, 0, 0, 0, 0],
   [0, 0, 0x06, 0x06, 0, 0x0E, 0x06, 0x06, 0x06, 0x06, 0x06, 0x06, 0x46, 0x46, 0x3C, 0],
   [0, 0, 0x40, 0x40, 0x40, 0x44, 0x48, 0x50, 0x60, 0x50, 0x48, 0x44, 0, 0, 0, 0],
   [0, 0, 0x38, 0x18, 0x18, 0x18, 0x18, 0x18, 0x18, 0x18, 0x18, 0x3C, 0, 0, 0, 0],
   [0, 0, 0, 0, 0, 0x76, 0x49, 0x49, 0x49, 0x49, 0x49, 0x49, 0, 0, 0, 0],
   [0, 0, 0, 0, 0, 0x5C, 0x62, 0x42, 0x42, 0x42, 0x42, 0x42, 0, 0, 0, 0],
   [0, 0, 0, 0, 0, 0x3C, 0x42, 0x42, 0x42, 0x42, 0x42, 0x3C, 0, 0, 0, 0],
   [0, 0, 0, 0, 0, 0x5C, 0x62, 0x42, 0x42, 0x42, 0x62, 0x5C, 0x40, 0x40, 0x40, 0],
   [0, 0, 0, 0, 0, 0x3A, 0x46, 0x42, 0x42, 0x42, 0x46, 0x3A, 0x02, 0x02, 0x02, 0],
   [0, 0, 0, 0, 0, 0x5C, 0x62, 0x40, 0x40, 0x40, 0x40, 0x40, 0, 0, 0, 0],
   [0, 0, 0, 0, 0, 0x3E, 0x40, 0x40, 0x3C, 0x02, 0x02, 0x7C, 0, 0, 0, 0],
   [0, 0, 0x10, 0x10, 0x10, 0x7C, 0x10, 0x10, 0x10, 0x10, 0x12, 0x0C, 0, 0, 0, 0],
   [0, 0, 0, 0, 0, 0x42, 0x42, 0x42, 0x42, 0x42, 0x46, 0x3A, 0, 0, 0, 0],
   [0, 0, 0, 0, 0, 0x42, 0x42, 0x42, 0x24, 0x24, 0x18, 0x18, 0, 0, 0, 0],
   [0, 0, 0, 0, 0, 0x41, 0x41, 0x49, 0x49, 0x49, 0x49, 0x36, 0, 0, 0, 0],
   [0, 0, 0, 0, 0, 0x42, 0x24, 0x18, 0x18, 0x18, 0x24, 0x42, 0, 0, 0, 0],
   [0, 0, 0, 0, 0, 0x42, 0x42, 0x42, 0x42, 0x46, 0x3A, 0x02, 0x02, 0x42, 0x3C, 0],
   [0, 0, 0, 0, 0, 0x7E, 0x04, 0x08, 0x10, 0x20, 0x40, 0x7E, 0, 0, 0, 0],
   [0, 0, 0x06, 0x08, 0x08, 0x08, 0x08, 0x30, 0x08, 0x08, 0x08, 0x08, 0x06, 0, 0, 0],
   [0, 0, 0x18, 0x18, 0x18, 0x18, 0x18, 0x18, 0x18, 0x18, 0x18, 0x18, 0, 0, 0, 0],
   [0, 0, 0x60, 0x10, 0x10, 0x10, 0x10, 0x0C, 0x10, 0x10, 0x10, 0x10, 0x60, 0, 0, 0],
   [0, 0, 0, 0, 0, 0, 0, 0, 0, 0, 0, 0, 0, 0, 0, 0]]

/-- The glyph that is drawn for a character: characters without one are drawn as a blank. -/
def glyph (c : UInt8) : List UInt8 :=
  let index : ℤ := c.toNat - fontFirstChar
  font8x16.getD (if index < 0 ∨ index ≥ fontNumChars then 0 else index.toNat) []

/-- The pixel in column `i` of row `j` of a glyph is drawn in the foreground colour. -/
def glyphBit (c : UInt8) (i j : ℕ) : Bool := ((glyph c).getD j 0).toNat &&& (1 <<< (7 - i)) != 0

/-- **A blank is background only.** -/
lemma glyphBit_blank (i j : ℕ) : glyphBit 0x20 i j = false := by
  have hglyph : glyph 0x20 = List.replicate 16 0 := by decide
  have hrow : (glyph 0x20).getD j 0 = 0 := by
    rw [hglyph]
    rcases Nat.lt_or_ge j 16 with hj | hj
    · rw [List.getD_replicate _ hj]
    · rw [List.getD_eq_default _ _ (by simpa using hj)]
  rw [glyphBit, hrow, UInt8.toNat_zero, Nat.zero_and]
  rfl

end BengalTiger.Vbe
