import BengalTiger.Common
import BengalTiger.CString
import BengalTiger.Font
import BengalTiger.Lib.Raster

set_option autoImplicit false

/-!
# The framebuffer driver

`kernel/vbe.c` draws into a linear framebuffer with 24 or 32 bits for a pixel. Here the framebuffer
is a memory indexed from its first byte, with the address arithmetic of the code modulo `2 ^ 32`;
it is described pixel by pixel through a raster.

## Main definitions

* `Vbe.Mode` — `vbe_fb` in graphics mode.
* `Vbe.Framebuffer` — a mode with the geometry of a framebuffer.
* `Vbe.Mode.vbePutpixel`, `Vbe.Mode.vbeFillRect`,
  `Vbe.Mode.vbeDrawChar` — the code that stores pixels.
* `Vbe.Framebuffer.vbeScrollRegion`, `Vbe.Framebuffer.vbeDrawString`,
  `Vbe.Framebuffer.vbeGetpixel` — the rest of it.
* `Vbe.Mode.plotRect` — `vbe_putpixel` is called for every pixel of a rectangle.
* `Vbe.Framebuffer.Channels` — three colour channels that do not overlap.

## Main results

* `Vbe.Framebuffer.pixel_vbeFillRect`, `Vbe.Framebuffer.pixel_vbeDrawChar`,
  `Vbe.Framebuffer.pixel_vbeScrollRegion` — what a pixel shows afterwards.
* `Vbe.Framebuffer.pixel_vbeDrawString` — a line of text changes its pixel rows only.
* `Vbe.Framebuffer.vbeGetpixel_of_colorBytes` — a colour that was put is read back.
-/

namespace BengalTiger.Vbe

open ByteMem List

/-! ## The code -/

/-- `vbe_fb` after `vbe_init` returned 1. -/
structure Mode where
  width : ℕ
  height : ℕ
  pitch : ℕ
  bpp : ℕ
  redPos : ℕ
  greenPos : ℕ
  bluePos : ℕ

/-- A mode in which `vbe_fb` describes a framebuffer: the pixels of a row fit between two rows, and
all rows fit in the address space. -/
structure Framebuffer extends Mode where
  bpp_eq : bpp = 24 ∨ bpp = 32
  rows : width * (bpp / 8) ≤ pitch
  fits : pitch * height ≤ 4294967296

/-- The low `n` bytes of a number, the lowest first. -/
def leBytes (n v : ℕ) : List UInt8 := (List.range n).map fun i => UInt8.ofNat (v >>> (8 * i))

/-- Stores to consecutive bytes, whose addresses are 32-bit numbers. -/
def store (m : Mem) (a : ℕ) (bs : List UInt8) : Mem := fun x =>
  if x < 4294967296 then bs[sub32 x a]?.getD (m x) else m x

lemma length_leBytes (n v : ℕ) : (leBytes n v).length = n := by
  rw [leBytes, length_map, length_range]

/-- Stores that do not wrap around. -/
lemma store_eq_write (m : Mem) {a : ℕ} {bs : List UInt8} (h : a + bs.length ≤ 4294967296) :
    store m a bs = write m a bs := by
  funext x
  unfold store write
  by_cases hin : a ≤ x ∧ x < a + bs.length
  · rw [if_pos (by omega), if_pos hin, sub32_of_le hin.1 (by omega), getD_eq_getElem?_getD,
      getElem?_eq_getElem (by omega)]
    rfl
  · rw [if_neg hin]
    split_ifs with hx
    · have hsub : bs.length ≤ sub32 x a := by
        unfold sub32 u32
        omega
      rw [getElem?_eq_none hsub, Option.getD_none]
    · rfl

/-- `VBE_BLACK`, the value of `vbe_bg_color`. -/
def vbeBlack : ℕ := 0x00000000

namespace Mode

variable (fb : Mode)

/-- `pack_hw_color`. -/
def packHwColor (rgb : ℕ) : ℕ :=
  if fb.redPos = 16 ∧ fb.greenPos = 8 ∧ fb.bluePos = 0 then rgb
  else
    let r := (rgb >>> 16) &&& 0xFF
    let g := (rgb >>> 8) &&& 0xFF
    let b := rgb &&& 0xFF
    u32 (r <<< fb.redPos) ||| u32 (g <<< fb.greenPos) ||| u32 (b <<< fb.bluePos)

/-- `row[x] = hw` in the row `y` of a framebuffer with 32 bits for a pixel. -/
def storeWord (m : Mem) (x y hw : ℕ) : Mem :=
  store m (u32 (u32 (y * fb.pitch) + 4 * x)) (leBytes 4 hw)

/-- The three byte stores to a pixel of 24 bits. -/
def storeTriple (m : Mem) (x y hw : ℕ) : Mem :=
  store m (u32 (u32 (y * fb.pitch) + x * 3)) (leBytes 3 hw)

/-- `vbe_putpixel`. -/
def vbePutpixel (m : Mem) (x y color : ℕ) : Mem :=
  if x ≥ fb.width ∨ y ≥ fb.height then m
  else if fb.bpp = 32 then fb.storeWord m x y (fb.packHwColor color)
  else if fb.bpp = 24 then fb.storeTriple m x y (fb.packHwColor color)
  else m

/-- `vbe_fill_rect`. -/
def vbeFillRect (m : Mem) (x y w h color : ℕ) : Mem :=
  if w = 0 ∨ h = 0 then m
  else if x ≥ fb.width ∨ y ≥ fb.height then m
  else
    let w := if u32 (x + w) > fb.width then fb.width - x else w
    let h := if u32 (y + h) > fb.height then fb.height - y else h
    if fb.bpp = 32 then
      (List.range h).foldl (fun m row => (List.range w).foldl (fun m col =>
        fb.storeWord m (x + col) (u32 (y + row)) (fb.packHwColor color)) m) m
    else
      (List.range h).foldl (fun m row => (List.range w).foldl (fun m col =>
        fb.vbePutpixel m (u32 (x + col)) (u32 (y + row)) color) m) m

/-- The masks of the eight pixels of a row. -/
def rowMasks : List ℕ := [0x80, 0x40, 0x20, 0x10, 0x08, 0x04, 0x02, 0x01]

/-- `vbe_draw_char`. -/
def vbeDrawChar (m : Mem) (x y : ℕ) (c : UInt8) (fg bg : ℕ) : Mem :=
  if u32 (x + fontWidth) > fb.width ∨ u32 (y + fontHeight) > fb.height then m
  else if fb.bpp = 32 then
    (List.range fontHeight).foldl (fun m row => (List.range fontWidth).foldl (fun m col =>
      fb.storeWord m (x + col) (u32 (y + row))
        (if ((glyph c).getD row 0).toNat &&& rowMasks.getD col 0 != 0 then fb.packHwColor fg
          else fb.packHwColor bg)) m) m
  else
    (List.range fontHeight).foldl (fun m row => (List.range fontWidth).foldl (fun m col =>
      fb.vbePutpixel m (u32 (x + col)) (u32 (y + row)) (if glyphBit c col row then fg else bg)) m) m

/-! ## Pixel by pixel -/

/-- `vbe_putpixel` is called for every pixel of a rectangle, row by row. -/
def plotRect (m : Mem) (x y w h : ℕ) (color : ℕ → ℕ → ℕ) : Mem :=
  (List.range h).foldl (fun m j => (List.range w).foldl (fun m i =>
    fb.vbePutpixel m (x + i) (y + j) (color i j)) m) m

variable {fb} {m : Mem} {x y w h : ℕ}

/-- The word stores of a rectangle on the screen. -/
lemma foldl_storeWord (hbpp : fb.bpp = 32) (hx : x + w ≤ fb.width) (hy : y + h ≤ fb.height)
    (hlt : y + h < 4294967296) (color : ℕ → ℕ → ℕ) :
    (List.range h).foldl (fun m row => (List.range w).foldl (fun m col =>
      fb.storeWord m (x + col) (u32 (y + row)) (fb.packHwColor (color col row))) m) m =
      fb.plotRect m x y w h color := by
  refine foldl_ext _ _ _ fun m row hrow => foldl_ext _ _ _ fun m col hcol => ?_
  have hrow := mem_range.1 hrow
  have hcol := mem_range.1 hcol
  rw [u32_of_lt (by omega), vbePutpixel, if_neg (by omega), if_pos hbpp]

/-- The pixels of a rectangle whose coordinates do not wrap around. -/
lemma foldl_vbePutpixel (hx : x + w < 4294967296) (hy : y + h < 4294967296)
    (color : ℕ → ℕ → ℕ) :
    (List.range h).foldl (fun m row => (List.range w).foldl (fun m col =>
      fb.vbePutpixel m (u32 (x + col)) (u32 (y + row)) (color col row)) m) m =
      fb.plotRect m x y w h color := by
  refine foldl_ext _ _ _ fun m row hrow => foldl_ext _ _ _ fun m col hcol => ?_
  have hrow := mem_range.1 hrow
  have hcol := mem_range.1 hcol
  rw [u32_of_lt (x := x + col) (by omega), u32_of_lt (x := y + row) (by omega)]

/-- A character inside the screen is plotted. -/
lemma vbeDrawChar_of_fits (hx : x + 8 < 4294967296) (hy : y + 16 < 4294967296)
    (hright : x + 8 ≤ fb.width) (hbelow : y + 16 ≤ fb.height) (c : UInt8) (fg bg : ℕ) :
    fb.vbeDrawChar m x y c fg bg =
      fb.plotRect m x y 8 16 fun i j => if glyphBit c i j then fg else bg := by
  rw [vbeDrawChar, fontWidth, fontHeight, u32_of_lt hx, u32_of_lt hy, if_neg (by omega)]
  split_ifs with hbpp
  · -- the eight unrolled stores of a row test the same bits as the loop
    have hmask : ∀ i < 8, rowMasks.getD i 0 = 1 <<< (7 - i) := by decide
    rw [← foldl_storeWord hbpp hright hbelow hy]
    refine foldl_ext _ _ _ fun m j _ => foldl_ext _ _ _ fun m i hi => ?_
    rw [hmask i (mem_range.1 hi), ← glyphBit, apply_ite fb.packHwColor]
  · exact foldl_vbePutpixel hx hy _

end Mode

namespace Framebuffer

open Mode

variable (fb : Framebuffer)

/-- `unpack_hw_color`. -/
def unpackHwColor (hw : ℕ) : ℕ :=
  if fb.redPos = 16 ∧ fb.greenPos = 8 ∧ fb.bluePos = 0 then hw &&& 0x00FFFFFF
  else
    let r := (hw >>> fb.redPos) &&& 0xFF
    let g := (hw >>> fb.greenPos) &&& 0xFF
    let b := (hw >>> fb.bluePos) &&& 0xFF
    (r <<< 16) ||| (g <<< 8) ||| b

/-- `vbe_getpixel`. -/
def vbeGetpixel (m : Mem) (x y : ℕ) : ℕ :=
  if x ≥ fb.width ∨ y ≥ fb.height then 0
  else if fb.bpp = 32 then fb.unpackHwColor (load32 m (u32 (u32 (y * fb.pitch) + 4 * x)))
  else if fb.bpp = 24 then
    let p := u32 (u32 (y * fb.pitch) + x * 3)
    fb.unpackHwColor ((m p).toNat ||| (m (p + 1)).toNat <<< 8 ||| (m (p + 2)).toNat <<< 16)
  else 0

/-- `vbe_scroll_region`. -/
def vbeScrollRegion (m : Mem) (topY regionH lines bgColor : ℕ) : Mem :=
  if lines = 0 ∨ regionH = 0 then m
  else if topY ≥ fb.height then m
  else
    let regionH := if u32 (topY + regionH) > fb.height then fb.height - topY else regionH
    if lines ≥ regionH then fb.vbeFillRect m 0 topY fb.width regionH bgColor
    else
      let copyLines := regionH - lines
      fb.vbeFillRect (copy m (u32 (topY * fb.pitch)) (u32 (u32 (topY + lines) * fb.pitch))
        (u32 (copyLines * fb.pitch))) 0 (u32 (topY + copyLines)) fb.width lines bgColor

/-- `vbe_scroll`. -/
def vbeScroll (m : Mem) (lines : ℕ) : Mem := fb.vbeScrollRegion m 0 fb.height lines vbeBlack

/-- The next line of a text, where the screen is scrolled at its end. -/
def nextLine (m : Mem) (curY : ℕ) : Mem × ℕ :=
  if u32 (u32 (curY + fontHeight) + fontHeight) > fb.height then
    (fb.vbeScroll m fontHeight, u32 (curY + fontHeight) - fontHeight)
  else (m, u32 (curY + fontHeight))

/-- The loop of `vbe_draw_string`. -/
def drawStringLoop (x fg bg : ℕ) : List UInt8 → ℕ → ℕ → Mem → Mem
  | [], _, _, m => m
  | c :: str, curX, curY, m =>
    if c = newline then
      drawStringLoop x fg bg str x (fb.nextLine m curY).2 (fb.nextLine m curY).1
    else if c = 13 then drawStringLoop x fg bg str x curY m
    else
      let m := fb.vbeDrawChar m curX curY c fg bg
      let curX := u32 (curX + fontWidth)
      if u32 (curX + fontWidth) > fb.width then
        drawStringLoop x fg bg str x (fb.nextLine m curY).2 (fb.nextLine m curY).1
      else drawStringLoop x fg bg str curX curY m

/-- `vbe_draw_string`. -/
def vbeDrawString (m : Mem) (x y : ℕ) (str : List UInt8) (fg bg : ℕ) : Mem :=
  fb.drawStringLoop x fg bg str x y m

/-! ## The framebuffer as a raster -/

/-- The layout of the framebuffer. -/
def raster : Raster := ⟨fb.width, fb.height, fb.pitch, fb.bpp / 8, fb.rows⟩

/-- The bytes that a pixel of a colour holds. -/
def colorBytes (color : ℕ) : List UInt8 := leBytes (fb.bpp / 8) (fb.packHwColor color)

/-- A pixel of the framebuffer. -/
def pixel (m : Mem) (x y : ℕ) : List UInt8 := fb.raster.pixel m x y

variable {fb} {m : Mem} {x y a b : ℕ}

lemma length_colorBytes (color : ℕ) : (fb.colorBytes color).length = fb.raster.depth := by
  rw [colorBytes, length_leBytes]
  rfl

lemma depth_pos (fb : Framebuffer) : 3 ≤ fb.bpp / 8 := by
  have h := fb.bpp_eq
  omega

/-- The width of a framebuffer with rows is a 32-bit number. -/
lemma width_lt (fb : Framebuffer) (h : 0 < fb.height) : fb.width < 4294967296 := by
  have hmul : fb.width * 3 ≤ fb.width * (fb.bpp / 8) := Nat.mul_le_mul_left _ fb.depth_pos
  have hpitch : fb.pitch * 1 ≤ fb.pitch * fb.height := Nat.mul_le_mul_left _ h
  have hrows := fb.rows
  have hfits := fb.fits
  omega

/-- The height of a framebuffer with columns is a 32-bit number. -/
lemma height_lt (fb : Framebuffer) (h : 0 < fb.width) : fb.height < 4294967296 := by
  have hmul : 1 * 3 ≤ fb.width * (fb.bpp / 8) := Nat.mul_le_mul h fb.depth_pos
  have hheight : 3 * fb.height ≤ fb.pitch * fb.height :=
    Nat.mul_le_mul_right _ (hmul.trans fb.rows)
  have hfits := fb.fits
  omega

/-- The bytes of a pixel are in the address space. -/
lemma offset_add_le (hx : x < fb.width) (hy : y < fb.height) :
    fb.raster.offset x y + fb.bpp / 8 ≤ 4294967296 :=
  (Raster.offset_add_le hx hy).trans fb.fits

/-- The address of a pixel is a 32-bit number. -/
lemma offset_lt (hx : x < fb.width) (hy : y < fb.height) :
    fb.raster.offset x y < 4294967296 := by
  have hle := offset_add_le hx hy
  have hdepth := fb.depth_pos
  omega

lemma storeWord_eq (h : fb.bpp = 32) (hx : x < fb.width) (hy : y < fb.height) (hw : ℕ) :
    fb.storeWord m x y hw = fb.raster.poke m x y (leBytes 4 hw) := by
  have hle := offset_add_le hx hy
  have hoffset : fb.raster.offset x y = y * fb.pitch + x * (fb.bpp / 8) := rfl
  rw [h] at hle hoffset
  rw [storeWord, Raster.poke, u32_of_lt (x := y * fb.pitch) (by omega), u32_of_lt (by omega),
    store_eq_write _ (by rw [length_leBytes]; omega), hoffset, Nat.mul_comm 4]

/-- A pixel on the screen is stored as the bytes of its color. -/
lemma vbePutpixel_eq (hx : x < fb.width) (hy : y < fb.height) (color : ℕ) :
    fb.vbePutpixel m x y color = fb.raster.poke m x y (fb.colorBytes color) := by
  rw [vbePutpixel, if_neg (by omega)]
  rcases fb.bpp_eq with h | h
  · have hle := offset_add_le hx hy
    have hoffset : fb.raster.offset x y = y * fb.pitch + x * (fb.bpp / 8) := rfl
    rw [h] at hle hoffset
    rw [if_neg (by omega), if_pos h, storeTriple, Raster.poke, colorBytes, h,
      u32_of_lt (x := y * fb.pitch) (by omega), u32_of_lt (by omega),
      store_eq_write _ (by rw [length_leBytes]; omega), hoffset]
  · rw [if_pos h, storeWord_eq h hx hy, colorBytes, h]

/-- Plotting a rectangle of the screen paints it. -/
lemma plotRect_eq {w h : ℕ} (hx : x + w ≤ fb.width) (hy : y + h ≤ fb.height)
    (color : ℕ → ℕ → ℕ) : fb.plotRect m x y w h color =
      fb.raster.paintRect m x y w h fun i j => fb.colorBytes (color i j) := by
  refine foldl_ext _ _ _ fun m row hrow => foldl_ext _ _ _ fun m col hcol => ?_
  have hrow := mem_range.1 hrow
  have hcol := mem_range.1 hcol
  exact vbePutpixel_eq (by omega) (by omega) _

/-- A rectangle inside the screen. -/
lemma vbeFillRect_eq {w h color : ℕ} (hw : 0 < w) (hh : 0 < h) (hx : x + w ≤ fb.width)
    (hy : y + h ≤ fb.height) : fb.vbeFillRect m x y w h color =
      fb.raster.paintRect m x y w h fun _ _ => fb.colorBytes color := by
  have hlt := fb.height_lt (by omega)
  have hlt' := fb.width_lt (by omega)
  rw [vbeFillRect, if_neg (by omega), if_neg (by omega), ← plotRect_eq hx hy fun _ _ => color]
  simp only [u32_of_lt (show x + w < 4294967296 by omega),
    u32_of_lt (show y + h < 4294967296 by omega), if_neg (show ¬x + w > fb.width by omega),
    if_neg (show ¬y + h > fb.height by omega)]
  split_ifs with hb
  · exact foldl_storeWord hb hx hy (by omega) fun _ _ => color
  · exact foldl_vbePutpixel (by omega) (by omega) fun _ _ => color

/-- A character inside the screen. -/
lemma vbeDrawChar_eq {c : UInt8} {fg bg : ℕ} (hx : x + 8 ≤ fb.width) (hy : y + 16 ≤ fb.height) :
    fb.vbeDrawChar m x y c fg bg =
      fb.raster.paintRect m x y 8 16 fun i j =>
        fb.colorBytes (if glyphBit c i j then fg else bg) := by
  have hlt := fb.height_lt (by omega)
  have hlt' := fb.width_lt (by omega)
  rw [vbeDrawChar_of_fits (by omega) (by omega) hx hy, plotRect_eq hx hy]

/-! ## What a pixel shows -/

/-- **A filled rectangle.** -/
lemma pixel_vbeFillRect {w h color : ℕ} (hw : 0 < w) (hh : 0 < h) (hx : x + w ≤ fb.width)
    (hy : y + h ≤ fb.height) (ha : a < fb.width) :
    fb.pixel (fb.vbeFillRect m x y w h color) a b =
      if y ≤ b ∧ b < y + h ∧ x ≤ a ∧ a < x + w then fb.colorBytes color else fb.pixel m a b := by
  rw [vbeFillRect_eq hw hh hx hy]
  exact Raster.pixel_paintRect (fun _ _ => length_colorBytes _) hx ha

/-- **A character.** -/
lemma pixel_vbeDrawChar {c : UInt8} {fg bg : ℕ} (hx : x + 8 ≤ fb.width) (hy : y + 16 ≤ fb.height)
    (ha : a < fb.width) : fb.pixel (fb.vbeDrawChar m x y c fg bg) a b =
      if y ≤ b ∧ b < y + 16 ∧ x ≤ a ∧ a < x + 8 then
        fb.colorBytes (if glyphBit c (a - x) (b - y) then fg else bg)
      else fb.pixel m a b := by
  rw [vbeDrawChar_eq hx hy]
  exact Raster.pixel_paintRect (fun _ _ => length_colorBytes _) hx ha

/-- **A region that is scrolled up**: its rows move, and the rows at its end are filled. -/
lemma pixel_vbeScrollRegion {topY regionH lines bg : ℕ} (hlines : 0 < lines)
    (hlt : lines < regionH) (hy : topY + regionH ≤ fb.height) (ha : a < fb.width) :
    fb.pixel (fb.vbeScrollRegion m topY regionH lines bg) a b =
      if topY + (regionH - lines) ≤ b ∧ b < topY + regionH then fb.colorBytes bg
      else if topY ≤ b ∧ b < topY + (regionH - lines) then fb.pixel m a (b + lines)
      else fb.pixel m a b := by
  have hheight := fb.height_lt (by omega)
  -- the rows that are moved stand at 32-bit addresses
  have haddr : ∀ y < topY + regionH, u32 (y * fb.pitch) = y * fb.pitch := fun y hy' => by
    have hoffset : fb.raster.offset a y = y * fb.pitch + a * (fb.bpp / 8) := rfl
    have hoffset_lt := offset_lt (y := y) ha (by omega)
    exact u32_of_lt (by omega)
  rw [vbeScrollRegion, if_neg (by omega), if_neg (by omega)]
  simp only [u32_of_lt (show topY + regionH < 4294967296 by omega),
    if_neg (show ¬topY + regionH > fb.height by omega), if_neg (show ¬lines ≥ regionH by omega),
    u32_of_lt (show topY + lines < 4294967296 by omega),
    u32_of_lt (show topY + (regionH - lines) < 4294967296 by omega),
    haddr topY (by omega), haddr (topY + lines) (by omega), haddr (regionH - lines) (by omega)]
  rw [pixel_vbeFillRect (by omega) hlines (by omega) (by omega) ha]
  by_cases hfill : topY + (regionH - lines) ≤ b ∧ b < topY + regionH
  · rw [if_pos (by omega), if_pos hfill]
  · rw [if_neg (by omega), if_neg hfill]
    exact Raster.pixel_copy_rows ha

/-- **A line of text** that fits on the screen changes no pixel row but its own.

**Proof sketch.** Induction on the text with the column generalised: every character is drawn in
the same line, since the test for the end of the line can only hold after the last character. -/
lemma pixel_drawStringLoop {fg bg : ℕ} {str : List UInt8} {curX : ℕ} (hnl : newline ∉ str)
    (hx : x ≤ curX) (hfit : curX + 8 * str.length ≤ fb.width) (hy : y + 32 ≤ fb.height)
    (ha : a < fb.width) (hb : b < y ∨ y + 16 ≤ b) :
    fb.pixel (fb.drawStringLoop x fg bg str curX y m) a b = fb.pixel m a b := by
  have hheight := fb.height_lt (by omega)
  have hwidth := fb.width_lt (by omega)
  induction str generalizing curX m with
  | nil => rfl
  | cons c str ih =>
    rw [mem_cons, not_or] at hnl
    rw [length_cons] at hfit
    rw [drawStringLoop, if_neg fun hc => hnl.1 hc.symm]
    split_ifs with hcr
    · exact ih hnl.2 le_rfl (by omega)
    have hdraw : fb.pixel (fb.vbeDrawChar m curX y c fg bg) a b = fb.pixel m a b := by
      rw [pixel_vbeDrawChar (by omega) (by omega) ha, if_neg (by omega)]
    simp only [fontWidth, u32_of_lt (show curX + 8 < 4294967296 by omega)]
    by_cases hlast : str = []
    · subst hlast
      rw [nextLine, fontHeight, u32_of_lt (x := y + 16) (by omega),
        u32_of_lt (x := y + 16 + 16) (by omega), if_neg (show ¬y + 16 + 16 > fb.height by omega)]
      split_ifs
      · exact hdraw
      · exact hdraw
    · have hpos : 0 < str.length := length_pos_iff.2 hlast
      rw [u32_of_lt (x := curX + 8 + 8) (by omega), if_neg (by omega)]
      exact (ih hnl.2 (by omega) (by omega)).trans hdraw

/-- **A line of text** that fits on the screen changes no pixel row but its own. -/
lemma pixel_vbeDrawString {fg bg : ℕ} {str : List UInt8} (hnl : newline ∉ str)
    (hfit : x + 8 * str.length ≤ fb.width) (hy : y + 32 ≤ fb.height) (ha : a < fb.width)
    (hb : b < y ∨ y + 16 ≤ b) :
    fb.pixel (fb.vbeDrawString m x y str fg bg) a b = fb.pixel m a b :=
  pixel_drawStringLoop hnl le_rfl hfit hy ha hb

/-! ## Reading a pixel back -/

/-- **The colour channels** have 8 bits each, in the pixel and apart from each other. -/
structure Channels (fb : Framebuffer) : Prop where
  red : fb.redPos + 8 ≤ fb.bpp
  green : fb.greenPos + 8 ≤ fb.bpp
  blue : fb.bluePos + 8 ≤ fb.bpp
  redGreen : fb.redPos + 8 ≤ fb.greenPos ∨ fb.greenPos + 8 ≤ fb.redPos
  redBlue : fb.redPos + 8 ≤ fb.bluePos ∨ fb.bluePos + 8 ≤ fb.redPos
  greenBlue : fb.greenPos + 8 ≤ fb.bluePos ∨ fb.bluePos + 8 ≤ fb.greenPos

/-- The number with the given bytes, the lowest first. -/
def leValue : List UInt8 → ℕ
  | [] => 0
  | b :: bs => b.toNat + 256 * leValue bs

/-- The value of the bytes of a number. -/
lemma leValue_leBytes (n v : ℕ) : leValue (leBytes n v) = v % 256 ^ n := by
  induction n generalizing v with
  | zero => rw [Nat.pow_zero, Nat.mod_one]; rfl
  | succ n ih =>
    have hcons : leBytes (n + 1) v = UInt8.ofNat v :: leBytes n (v / 256) := by
      rw [leBytes, range_succ_eq_map, map_cons, map_map, leBytes]
      refine congrArg₂ List.cons rfl (map_congr_left fun i _ => ?_)
      show UInt8.ofNat (v >>> (8 * (i + 1))) = UInt8.ofNat ((v / 256) >>> (8 * i))
      rw [Nat.mul_succ, Nat.add_comm, Nat.shiftRight_add, Nat.shiftRight_eq_div_pow v 8]
    rw [hcons, leValue, ih, UInt8.toNat_ofNat',
      show 256 ^ (n + 1) = 256 * 256 ^ n from Nat.pow_succ', Nat.mod_mul]

/-- A pixel is read through its bytes. -/
lemma vbeGetpixel_eq (hx : x < fb.width) (hy : y < fb.height) :
    fb.vbeGetpixel m x y = fb.unpackHwColor (leValue (fb.pixel m x y)) := by
  have hlt := offset_lt hx hy
  have hoffset : fb.raster.offset x y = y * fb.pitch + x * (fb.bpp / 8) := rfl
  rw [vbeGetpixel, if_neg (by omega)]
  rcases fb.bpp_eq with h | h
  · rw [h] at hoffset
    have hpixel : fb.pixel m x y = [m (fb.raster.offset x y), m (fb.raster.offset x y + 1),
        m (fb.raster.offset x y + 2)] := by
      rw [pixel, Raster.pixel, show fb.raster.depth = 3 from congrArg (· / 8) h]
      rfl
    rw [if_neg (by omega), if_pos h, hpixel, u32_of_lt (x := y * fb.pitch) (by omega),
      u32_of_lt (by omega), show y * fb.pitch + x * 3 = fb.raster.offset x y by omega]
    have h₀ := (m (fb.raster.offset x y)).toNat_lt
    have h₁ := (m (fb.raster.offset x y + 1)).toNat_lt
    dsimp only
    rw [Nat.or_comm (m _).toNat, ← Nat.shiftLeft_add_eq_or_of_lt (by omega), Nat.or_comm,
      ← Nat.shiftLeft_add_eq_or_of_lt (by rw [Nat.shiftLeft_eq]; omega)]
    simp only [leValue, Nat.shiftLeft_eq]
    congr 1
    omega
  · rw [h] at hoffset
    have hpixel : fb.pixel m x y = [m (fb.raster.offset x y), m (fb.raster.offset x y + 1),
        m (fb.raster.offset x y + 2), m (fb.raster.offset x y + 3)] := by
      rw [pixel, Raster.pixel, show fb.raster.depth = 4 from congrArg (· / 8) h]
      rfl
    rw [if_pos h, hpixel, u32_of_lt (x := y * fb.pitch) (by omega), u32_of_lt (by omega),
      show y * fb.pitch + 4 * x = fb.raster.offset x y by omega]
    simp only [leValue, load32]
    congr 1
    omega

lemma and_byte_lt (n : ℕ) : n &&& 0xFF < 256 :=
  Nat.and_lt_two_pow n (show 0xFF < 2 ^ 8 by decide)

/-- What is read is a colour of 24 bits. -/
lemma vbeGetpixel_lt (fb : Framebuffer) (m : Mem) (x y : ℕ) : fb.vbeGetpixel m x y < 16777216 := by
  have hunpack : ∀ hw, fb.unpackHwColor hw < 16777216 := by
    intro hw
    unfold unpackHwColor
    split_ifs
    · exact Nat.and_lt_two_pow hw (show 0x00FFFFFF < 2 ^ 24 by decide)
    · have hr := and_byte_lt (hw >>> fb.redPos)
      have hg := and_byte_lt (hw >>> fb.greenPos)
      have hb := and_byte_lt (hw >>> fb.bluePos)
      refine Nat.or_lt_two_pow (n := 24) (Nat.or_lt_two_pow ?_ ?_) ?_
      · rw [Nat.shiftLeft_eq]
        omega
      · rw [Nat.shiftLeft_eq]
        omega
      · omega
  unfold vbeGetpixel
  split_ifs
  · decide
  · exact hunpack _
  · exact hunpack _
  · decide

/-- A byte in its own channel. -/
lemma channel_self {c : ℕ} (hc : c < 256) (p : ℕ) : (c <<< p) >>> p &&& 0xFF = c := by
  rw [Nat.shiftLeft_shiftRight, Nat.and_two_pow_sub_one_eq_mod c 8]
  exact Nat.mod_eq_of_lt hc

/-- A byte in another channel. -/
lemma channel_of_apart {c p q : ℕ} (hc : c < 256) (h : p + 8 ≤ q ∨ q + 8 ≤ p) :
    (c <<< q) >>> p &&& 0xFF = 0 := by
  rw [Nat.and_two_pow_sub_one_eq_mod _ 8]
  rcases h with h | h
  · obtain ⟨k, rfl⟩ := Nat.exists_eq_add_of_le h
    have hmul : c <<< (p + 8 + k) = 2 ^ p * (2 ^ 8 * (c * 2 ^ k)) := by
      rw [Nat.shiftLeft_eq, Nat.pow_add, Nat.pow_add]
      ring
    rw [hmul, Nat.shiftRight_eq_div_pow, Nat.mul_div_cancel_left _ (Nat.two_pow_pos p)]
    exact Nat.mul_mod_right _ _
  · have hlt : c <<< q < 2 ^ p := by
      rw [Nat.shiftLeft_eq]
      calc c * 2 ^ q < 2 ^ 8 * 2 ^ q := Nat.mul_lt_mul_of_pos_right hc (Nat.two_pow_pos q)
        _ = 2 ^ (q + 8) := by rw [← Nat.pow_add, Nat.add_comm]
        _ ≤ 2 ^ p := Nat.pow_le_pow_right (by decide) h
    rw [Nat.shiftRight_eq_div_pow, Nat.div_eq_of_lt hlt]

/-- A packed colour fits in a pixel. -/
lemma packHwColor_lt (h : fb.Channels) {color : ℕ} (hc : color < 16777216) :
    fb.packHwColor color < 2 ^ fb.bpp := by
  have hshift : ∀ n p : ℕ, p + 8 ≤ fb.bpp → u32 ((n &&& 0xFF) <<< p) < 2 ^ fb.bpp := by
    intro n p hp
    have hlt : (n &&& 0xFF) <<< p < 2 ^ (8 + p) := by
      rw [Nat.shiftLeft_eq, Nat.pow_add]
      exact Nat.mul_lt_mul_of_pos_right (and_byte_lt n) (Nat.two_pow_pos p)
    exact (Nat.mod_le _ _).trans_lt
      (hlt.trans_le (Nat.pow_le_pow_right (by decide) (by omega)))
  unfold packHwColor
  split_ifs
  · have hbpp : 24 ≤ fb.bpp := by
      have := fb.bpp_eq
      omega
    exact hc.trans_le (show 2 ^ 24 ≤ 2 ^ fb.bpp from Nat.pow_le_pow_right (by decide) hbpp)
  · exact Nat.or_lt_two_pow (Nat.or_lt_two_pow (hshift _ _ h.red) (hshift _ _ h.green))
      (hshift _ _ h.blue)

/-- **A colour survives packing and unpacking.** -/
lemma unpackHwColor_packHwColor (h : fb.Channels) {color : ℕ} (hc : color < 16777216) :
    fb.unpackHwColor (fb.packHwColor color) = color := by
  have hbpp : fb.bpp ≤ 32 := by
    have := fb.bpp_eq
    omega
  unfold unpackHwColor packHwColor
  split_ifs with hfast
  · rw [Nat.and_two_pow_sub_one_eq_mod color 24]
    exact Nat.mod_eq_of_lt hc
  · dsimp only
    -- the channels are apart and inside the pixel, so no bit is lost
    have hword : ∀ n p : ℕ, p + 8 ≤ fb.bpp → u32 ((n &&& 0xFF) <<< p) = (n &&& 0xFF) <<< p := by
      intro n p hp
      refine u32_of_lt ?_
      have hpow : 2 ^ p ≤ 2 ^ 24 := Nat.pow_le_pow_right (by decide) (by omega)
      have hn := and_byte_lt n
      rw [Nat.shiftLeft_eq]
      calc (n &&& 0xFF) * 2 ^ p
        _ < 256 * 2 ^ p := Nat.mul_lt_mul_of_pos_right hn (Nat.two_pow_pos p)
        _ ≤ 256 * 2 ^ 24 := Nat.mul_le_mul_left _ hpow
        _ = 4294967296 := by decide
    rw [hword _ _ h.red, hword _ _ h.green, hword _ _ h.blue]
    have hr := and_byte_lt (color >>> 16)
    have hg := and_byte_lt (color >>> 8)
    have hb := and_byte_lt color
    simp only [Nat.shiftRight_or_distrib, Nat.and_or_distrib_right, channel_self hr,
      channel_self hg, channel_self hb, channel_of_apart hr h.redGreen.symm,
      channel_of_apart hr h.redBlue.symm, channel_of_apart hg h.redGreen,
      channel_of_apart hg h.greenBlue.symm, channel_of_apart hb h.redBlue,
      channel_of_apart hb h.greenBlue, Nat.or_zero, Nat.zero_or]
    have hlow : (color >>> 8 &&& 0xFF) <<< 8 + (color &&& 0xFF) < 2 ^ 16 := by
      rw [Nat.shiftLeft_eq]
      omega
    rw [Nat.or_assoc, ← Nat.shiftLeft_add_eq_or_of_lt (i := 8) hb,
      ← Nat.shiftLeft_add_eq_or_of_lt hlow]
    simp only [Nat.shiftLeft_eq, Nat.shiftRight_eq_div_pow, Nat.and_two_pow_sub_one_eq_mod _ 8]
    omega

/-- Equal pixels are read as equal colours. -/
lemma vbeGetpixel_congr {m' : Mem} (hx : x < fb.width) (hy : y < fb.height)
    (h : fb.pixel m' x y = fb.pixel m x y) : fb.vbeGetpixel m' x y = fb.vbeGetpixel m x y := by
  rw [vbeGetpixel_eq hx hy, vbeGetpixel_eq hx hy, h]

/-- **A colour that was put is read back.** -/
lemma vbeGetpixel_of_colorBytes (h : fb.Channels) (hx : x < fb.width) (hy : y < fb.height)
    {color : ℕ} (hc : color < 16777216) (hpixel : fb.pixel m x y = fb.colorBytes color) :
    fb.vbeGetpixel m x y = color := by
  have hpow : 256 ^ (fb.bpp / 8) = 2 ^ fb.bpp := by
    rcases fb.bpp_eq with hb | hb
    · rw [hb]
      decide
    · rw [hb]
      decide
  rw [vbeGetpixel_eq hx hy, hpixel, colorBytes, leValue_leBytes, hpow,
    Nat.mod_eq_of_lt (packHwColor_lt h hc), unpackHwColor_packHwColor h hc]

end Framebuffer

end BengalTiger.Vbe
