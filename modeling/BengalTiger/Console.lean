import BengalTiger.Lib.System
import BengalTiger.Net.IpText
import BengalTiger.Vbe

set_option autoImplicit false

/-!
# The graphical console

`kernel/shell.c` keeps what the console shows twice: as a grid of characters with attributes and as
pixels in the framebuffer. The cursor is drawn over a cell and remembered, so that it can be taken
away again by drawing the cell from the grid. Here is the part of the code that runs in graphics
mode; the copy of the output on the serial line is left out, since it touches neither.

## Main definitions

* `Console.Display` — a framebuffer and the size of the console on it.
* `Console.State` — the framebuffer memory, the grid and the cursor.
* `Console.Display.consolePutCell`, `Console.Display.consoleSetCursor`,
  `Console.Display.consoleClearCells`,
  `Console.Display.consoleWriteCharColor` — the code.
* `Console.Display.Shows` — the pixels of a cell show a character in two colours.
* `Console.Display.Agrees` — the framebuffer shows the grid and the cursor.

## Main results

* `Console.Display.Agrees.consoleScrollUp` and its neighbours — each operation keeps the
  two representations together.
* `Console.console_agrees` — they agree in every run.
-/

namespace BengalTiger.Console

open ByteMem Vbe List

/-! ## The code -/

/-- `VBE_TOPBAR_HEIGHT`. -/
def vbeTopbarHeight : ℕ := 28

/-- `MAX_GRID_COLS`. -/
def maxGridCols : ℕ := 200

/-- `MAX_GRID_ROWS`. -/
def maxGridRows : ℕ := 100

/-- `default_attr`, which nothing changes. -/
def defaultAttr : UInt8 := 0x07

/-- `shell_theme_palette`. -/
def shellThemePalette : List ℕ :=
  [0x000D1117, 0x001F6FEB, 0x002EA043, 0x0039C5CF, 0x00DA3633, 0x008957E5, 0x00D29922, 0x00C9D1D9,
    0x006E7681, 0x0058A6FF, 0x003FB950, 0x0056D4DD, 0x00F85149, 0x00BC8CFF, 0x00FFA657, 0x00F0F6FC]

/-- The foreground colour of an attribute. -/
def themeFg (attr : UInt8) : ℕ := shellThemePalette.getD (attr &&& 0x0F).toNat 0

/-- The background colour of an attribute. -/
def themeBg (attr : UInt8) : ℕ := shellThemePalette.getD ((attr >>> 4) &&& 0x0F).toNat 0

/-- The colours of the cursor. -/
def cursorFg : ℕ := 0x000D1117

/-- The colours of the cursor. -/
def cursorBg : ℕ := 0x00FFA657

/-- `console_cell_t`. -/
structure Cell where
  ch : UInt8
  attr : UInt8

/-- The framebuffer and `con_cols`, `con_rows`: the bounds are those that `shell_init` enforces, and
the console fits on the screen. -/
structure Display where
  fb : Framebuffer
  conCols : ℕ
  conRows : ℕ
  cols_ge : 40 ≤ conCols
  cols_le : conCols ≤ maxGridCols
  rows_ge : 15 ≤ conRows
  rows_le : conRows ≤ maxGridRows
  cols_fit : conCols * 8 ≤ fb.width
  rows_fit : 28 + conRows * 16 ≤ fb.height

/-- The number of columns that `shell_init` computes. -/
lemma cols_bounds (fb : Framebuffer) (hw : 320 ≤ fb.width) :
    40 ≤ max (min (fb.width / fontWidth) maxGridCols) 40 ∧
      max (min (fb.width / fontWidth) maxGridCols) 40 ≤ maxGridCols ∧
      max (min (fb.width / fontWidth) maxGridCols) 40 * 8 ≤ fb.width := by
  simp only [fontWidth, maxGridCols]
  omega

/-- The number of rows that `shell_init` computes. -/
lemma rows_bounds (fb : Framebuffer) (hh : 268 ≤ fb.height) :
    15 ≤ max (min ((fb.height - vbeTopbarHeight) / fontHeight) maxGridRows) 15 ∧
      max (min ((fb.height - vbeTopbarHeight) / fontHeight) maxGridRows) 15 ≤ maxGridRows ∧
      28 + max (min ((fb.height - vbeTopbarHeight) / fontHeight) maxGridRows) 15 * 16 ≤
        fb.height := by
  simp only [vbeTopbarHeight, fontHeight, maxGridRows]
  omega

/-- The console of `shell_init` on a screen that is large enough. -/
def Display.shellInit (fb : Framebuffer) (hw : 320 ≤ fb.width) (hh : 268 ≤ fb.height) :
    Display where
  fb := fb
  conCols := max (min (fb.width / fontWidth) maxGridCols) 40
  conRows := max (min ((fb.height - vbeTopbarHeight) / fontHeight) maxGridRows) 15
  cols_ge := (cols_bounds fb hw).1
  cols_le := (cols_bounds fb hw).2.1
  rows_ge := (rows_bounds fb hh).1
  rows_le := (rows_bounds fb hh).2.1
  cols_fit := (cols_bounds fb hw).2.2
  rows_fit := (rows_bounds fb hh).2.2

/-- The console: framebuffer memory, `shadow_grid` by row and column, and the cursor. -/
structure State where
  vram : Mem
  shadowGrid : ℕ → ℕ → Cell
  curX : ℤ
  curY : ℤ
  drawnCurX : ℤ
  drawnCurY : ℤ
  curVisible : Bool

/-- What the top bar tells: the address, if there is one, where the files are, and the time. -/
structure Bar where
  ip : Option UInt32
  ramdisk : Bool
  hours : UInt8
  minutes : UInt8
  seconds : UInt8

/-- `rtc_format_time`. -/
def rtcFormatTime (hours minutes seconds : UInt8) : List UInt8 :=
  [0x30 + hours / 10, 0x30 + hours % 10, 0x3A, 0x30 + minutes / 10, 0x30 + minutes % 10, 0x3A,
    0x30 + seconds / 10, 0x30 + seconds % 10]

namespace Bar

/-- The text on the left of the top bar. -/
def title : List UInt8 := ascii "BENGAL TIGER OS v1.0.0".toList

/-- The text in the middle of the top bar. -/
def mid (bar : Bar) : List UInt8 :=
  (match bar.ip with
    | some ip => ascii "NET: ".toList ++ Net.netFormatIp ip
    | none => ascii "NET: offline".toList) ++
  ascii (if bar.ramdisk then "  |  FS: RAMDisk" else "  |  FS: ATA HDD").toList

/-- The text on the right of the top bar. -/
def clk (bar : Bar) : List UInt8 :=
  rtcFormatTime bar.hours bar.minutes bar.seconds ++ ascii " UTC".toList

end Bar

/-- A cell of the grid is set. -/
def setCell (grid : ℕ → ℕ → Cell) (row col : ℕ) (cell : Cell) : ℕ → ℕ → Cell := fun r c =>
  if r = row ∧ c = col then cell else grid r c

namespace Display

variable (d : Display)

/-- A character is drawn in the place of a cell. -/
def drawCell (m : Mem) (col row : ℤ) (ch : UInt8) (fg bg : ℕ) : Mem :=
  d.fb.vbeDrawChar m (u32 (col * fontWidth).toNat) (u32 (vbeTopbarHeight + row * fontHeight).toNat)
    (if ch ≠ 0 then ch else 0x20) fg bg

/-- `vbe_render_cell_raw`. -/
def vbeRenderCellRaw (m : Mem) (col row : ℤ) (cell : Cell) : Mem :=
  d.drawCell m col row cell.ch (themeFg cell.attr) (themeBg cell.attr)

/-- A position on the console. -/
def Inside (col row : ℤ) : Prop := 0 ≤ col ∧ col < d.conCols ∧ 0 ≤ row ∧ row < d.conRows

instance (col row : ℤ) : Decidable (d.Inside col row) := by
  unfold Inside
  infer_instance

/-- `vbe_undraw_cursor`. -/
def vbeUndrawCursor (s : State) : State :=
  { s with
    vram := if d.Inside s.drawnCurX s.drawnCurY then
        d.vbeRenderCellRaw s.vram s.drawnCurX s.drawnCurY
          (s.shadowGrid s.drawnCurY.toNat s.drawnCurX.toNat)
      else s.vram
    drawnCurX := -1
    drawnCurY := -1 }

/-- `vbe_draw_cursor_at`. -/
def vbeDrawCursorAt (s : State) (col row : ℤ) : State :=
  if s.curVisible = false then s
  else if ¬d.Inside col row then s
  else
    { s with
      vram := d.drawCell s.vram col row (s.shadowGrid row.toNat col.toNat).ch cursorFg cursorBg
      drawnCurX := col
      drawnCurY := row }

/-- `console_refresh_topbar`. -/
def consoleRefreshTopbar (bar : Bar) (m : Mem) : Mem :=
  let w := d.fb.width
  let m := d.fb.vbeFillRect m 0 0 w (vbeTopbarHeight - 2) 0x00161B22
  let m := d.fb.vbeFillRect m 0 (vbeTopbarHeight - 2) w 2 0x00FF7B00
  let m := d.fb.vbeDrawString m 12 6 Bar.title 0x00FFA657 0x00161B22
  let midX : ℤ := ((w : ℤ) - bar.mid.length * fontWidth).tdiv 2
  let m := if midX > 220 then d.fb.vbeDrawString m midX.toNat 6 bar.mid 0x008B949E 0x00161B22 else m
  let rx : ℤ := (w : ℤ) - bar.clk.length * fontWidth - 12
  if rx > 0 then d.fb.vbeDrawString m rx.toNat 6 bar.clk 0x0056D4DD 0x00161B22 else m

/-- `console_put_cell`. -/
def consolePutCell (s : State) (col row : ℤ) (ch attr : UInt8) : State :=
  if ¬d.Inside col row then s
  else
    let here := col = s.drawnCurX ∧ row = s.drawnCurY
    { s with
      shadowGrid := setCell s.shadowGrid row.toNat col.toNat ⟨ch, attr⟩
      vram := d.vbeRenderCellRaw s.vram col row ⟨ch, attr⟩
      drawnCurX := if here then -1 else s.drawnCurX
      drawnCurY := if here then -1 else s.drawnCurY }

/-- `console_set_cursor`. -/
def consoleSetCursor (s : State) (col row : ℤ) (visible : Bool) : State :=
  let col := if col < 0 then 0 else col
  let col : ℤ := if col ≥ d.conCols then (d.conCols : ℤ) - 1 else col
  let row := if row < 0 then 0 else row
  let row : ℤ := if row ≥ d.conRows then (d.conRows : ℤ) - 1 else row
  let s := d.vbeUndrawCursor { s with curX := col, curY := row, curVisible := visible }
  if visible then d.vbeDrawCursorAt s col row else s

/-- `console_clear_cells`. -/
def consoleClearCells (s : State) (bar : Bar) (attr : UInt8) : State :=
  let grid := (List.range d.conRows).foldl (fun g r => (List.range d.conCols).foldl (fun g c =>
    setCell g r c ⟨0x20, attr⟩) g) s.shadowGrid
  let m := d.fb.vbeFillRect s.vram 0 vbeTopbarHeight d.fb.width (d.fb.height - vbeTopbarHeight)
    (themeBg attr)
  d.consoleSetCursor
    { s with
      drawnCurX := -1
      drawnCurY := -1
      shadowGrid := grid
      vram := d.consoleRefreshTopbar bar m } 0 0 true

/-- A row of the grid is copied from the row below. -/
def copyRow (g : ℕ → ℕ → Cell) (r : ℕ) : ℕ → ℕ → Cell := fun r' c =>
  if r' = r ∧ c < d.conCols then g (r + 1) c else g r' c

/-- `console_scroll_up`. -/
def consoleScrollUp (s : State) : State :=
  let s := d.vbeUndrawCursor s
  let grid := (List.range (d.conRows - 1)).foldl d.copyRow s.shadowGrid
  let grid := (List.range d.conCols).foldl (fun g c =>
    setCell g (d.conRows - 1) c ⟨0x20, defaultAttr⟩) grid
  { s with
    shadowGrid := grid
    vram := d.fb.vbeScrollRegion s.vram vbeTopbarHeight (u32 (d.conRows * fontHeight)) fontHeight
      (shellThemePalette.getD 0 0) }

/-- The loop of `console_write_char_color` that scrolls until the cursor is on the screen. -/
def scrollToCursor (s : State) : State :=
  (fun s => { d.consoleScrollUp s with curY := s.curY - 1 })^[(s.curY + 1 - d.conRows).toNat] s

/-- The cursor steps back. -/
def stepBack (s : State) : State :=
  if s.curX > 0 then { s with curX := s.curX - 1 }
  else if s.curY > 0 then { s with curY := s.curY - 1, curX := d.conCols - 1 }
  else s

/-- The cursor steps on. -/
def stepOn (s : State) : State :=
  if s.curX + 1 ≥ d.conCols then { s with curX := 0, curY := s.curY + 1 }
  else { s with curX := s.curX + 1 }

/-- What `console_write_char_color` does for a character that is no tab, before it scrolls. -/
def place (s : State) (c color : UInt8) : State :=
  if c = newline then { s with curX := 0, curY := s.curY + 1 }
  else if c = 13 then { s with curX := 0 }
  else if c = 8 then
    let s := d.stepBack s
    d.consolePutCell s s.curX s.curY 0x20 defaultAttr
  else if c ≥ 32 then d.stepOn (d.consolePutCell s s.curX s.curY c color)
  else s

/-- `console_write_char_color` for a character that is no tab. -/
def writeNoTab (s : State) (c color : UInt8) : State :=
  let s := d.scrollToCursor (d.place (d.vbeUndrawCursor s) c color)
  d.consoleSetCursor s s.curX s.curY true

/-- `console_write_char_color`. -/
def consoleWriteCharColor (s : State) (c color : UInt8) : State :=
  if c = 9 then
    let s := d.vbeUndrawCursor s
    (List.range (4 - s.curX % 4).toNat).foldl (fun s _ => d.writeNoTab s 0x20 color) s
  else d.writeNoTab s c color

/-- `shell_clear`. -/
def shellClear (s : State) (bar : Bar) : State := d.consoleClearCells s bar defaultAttr

/-- `shell_putchar`. -/
def shellPutchar (s : State) (c : UInt8) : State := d.consoleWriteCharColor s c defaultAttr

/-- `shell_print_color` of a C string. -/
def shellPrintColor (s : State) (str : List UInt8) (color : UInt8) : State :=
  str.foldl (fun s c => d.consoleWriteCharColor s c color) s

/-! ## What a cell shows -/

/-- **The pixels of a cell show a character** in two colours; no character is shown as a blank. -/
def Shows (m : Mem) (col row : ℕ) (ch : UInt8) (fg bg : ℕ) : Prop :=
  ∀ i < 8, ∀ j < 16, d.fb.pixel m (col * 8 + i) (28 + row * 16 + j) =
    d.fb.colorBytes (if glyphBit (if ch ≠ 0 then ch else 0x20) i j then fg else bg)

variable {d} {s : State} {m m' : Mem} {col row col' row' : ℕ} {ch : UInt8} {fg bg : ℕ}

/-- The pixels of a cell are on the screen. -/
lemma pixel_lt (hcol : col < d.conCols) (hrow : row < d.conRows) {i j : ℕ} (hi : i < 8)
    (hj : j < 16) : col * 8 + i < d.fb.width ∧ 28 + row * 16 + j < d.fb.height := by
  have hcols := d.cols_fit
  have hrows := d.rows_fit
  omega

/-- A pixel after a cell was drawn. -/
lemma pixel_drawCell (hcol : col < d.conCols) (hrow : row < d.conRows) {a b : ℕ}
    (ha : a < d.fb.width) : d.fb.pixel (d.drawCell m col row ch fg bg) a b =
      if 28 + row * 16 ≤ b ∧ b < 28 + row * 16 + 16 ∧ col * 8 ≤ a ∧ a < col * 8 + 8 then
        d.fb.colorBytes (if glyphBit (if ch ≠ 0 then ch else 0x20) (a - col * 8)
          (b - (28 + row * 16)) then fg else bg)
      else d.fb.pixel m a b := by
  have hcols := d.cols_fit
  have hrows := d.rows_fit
  have hwidth := d.fb.width_lt (by omega)
  have hheight := d.fb.height_lt (by omega)
  have hx : u32 ((col : ℤ) * fontWidth).toNat = col * 8 := by
    rw [u32_of_lt] <;> simp only [fontWidth] <;> omega
  have hy : u32 ((vbeTopbarHeight : ℤ) + row * fontHeight).toNat = 28 + row * 16 := by
    rw [u32_of_lt] <;> simp only [fontHeight, vbeTopbarHeight] <;> omega
  rw [drawCell, hx, hy]
  exact Framebuffer.pixel_vbeDrawChar (by omega) (by omega) ha

/-- The cell that was drawn. -/
lemma shows_drawCell (m : Mem) (hcol : col < d.conCols) (hrow : row < d.conRows) (ch : UInt8)
    (fg bg : ℕ) : d.Shows (d.drawCell m col row ch fg bg) col row ch fg bg := by
  intro i hi j hj
  rw [pixel_drawCell hcol hrow (pixel_lt hcol hrow hi hj).1, if_pos (by omega),
    Nat.add_sub_cancel_left, Nat.add_sub_cancel_left]

/-- What a cell shows depends on its pixels only. -/
lemma Shows.congr (h : d.Shows m col row ch fg bg) (hm : ∀ i < 8, ∀ j < 16,
    d.fb.pixel m' (col * 8 + i) (28 + row * 16 + j) =
      d.fb.pixel m (col * 8 + i) (28 + row * 16 + j)) : d.Shows m' col row ch fg bg := by
  intro i hi j hj
  rw [hm i hi j hj]
  exact h i hi j hj

/-- The cells beside the one that was drawn. -/
lemma Shows.drawCell (h : d.Shows m col row ch fg bg) (hcol : col < d.conCols)
    (hrow : row < d.conRows) (hcol' : col' < d.conCols) (hrow' : row' < d.conRows)
    (hne : col ≠ col' ∨ row ≠ row') (ch' : UInt8) (fg' bg' : ℕ) :
    d.Shows (d.drawCell m col' row' ch' fg' bg') col row ch fg bg := by
  refine h.congr fun i hi j hj => ?_
  rw [pixel_drawCell hcol' hrow' (pixel_lt hcol hrow hi hj).1, if_neg (by omega)]

/-- A cell of background is a blank. -/
lemma shows_blank (h : ∀ i < 8, ∀ j < 16,
    d.fb.pixel m (col * 8 + i) (28 + row * 16 + j) = d.fb.colorBytes bg) :
    d.Shows m col row 0x20 fg bg := by
  intro i hi j hj
  rw [h i hi j hj, if_pos (show (0x20 : UInt8) ≠ 0 by decide), glyphBit_blank]
  rfl

/-- The other cells of the grid. -/
lemma setCell_of_ne {g : ℕ → ℕ → Cell} {cell : Cell} {c r : ℕ} (h : c ≠ col ∨ r ≠ row) :
    setCell g row col cell r c = g r c := if_neg (by omega)

/-- A cell that is put is drawn as the grid has it. -/
lemma vbeRenderCellRaw_setCell (g : ℕ → ℕ → Cell) (m : Mem) (col row : ℕ) (cell : Cell) :
    d.vbeRenderCellRaw m col row cell = d.drawCell m col row (setCell g row col cell row col).ch
      (themeFg (setCell g row col cell row col).attr)
      (themeBg (setCell g row col cell row col).attr) := by
  rw [setCell, if_pos ⟨rfl, rfl⟩]
  rfl

/-! ## The framebuffer shows the grid -/

/-- The colours in which a cell is to be shown. -/
def inks (s : State) (col row : ℕ) : ℕ × ℕ :=
  if (col : ℤ) = s.drawnCurX ∧ (row : ℤ) = s.drawnCurY then (cursorFg, cursorBg)
  else (themeFg (s.shadowGrid row col).attr, themeBg (s.shadowGrid row col).attr)

/-- **The framebuffer shows the grid**, with the cursor over at most one cell. -/
structure Agrees (d : Display) (s : State) : Prop where
  drawn : s.drawnCurX = -1 ∧ s.drawnCurY = -1 ∨ d.Inside s.drawnCurX s.drawnCurY
  cells : ∀ col row, col < d.conCols → row < d.conRows →
    d.Shows s.vram col row (s.shadowGrid row col).ch (inks s col row).1 (inks s col row).2

/-- No cursor is drawn. -/
def Plain (s : State) : Prop := s.drawnCurX = -1 ∧ s.drawnCurY = -1

lemma Plain.inks_eq (h : Plain s) (col row : ℕ) : inks s col row =
    (themeFg (s.shadowGrid row col).attr, themeBg (s.shadowGrid row col).attr) := by
  rw [inks, if_neg]
  rintro ⟨hcol, -⟩
  rw [h.1] at hcol
  omega

lemma Plain.not_inside (h : Plain s) : ¬d.Inside s.drawnCurX s.drawnCurY := by
  rintro ⟨hx, -⟩
  rw [h.1] at hx
  omega

/-- A position on the console is a cell. -/
lemma Inside.exists_nat {x y : ℤ} (h : d.Inside x y) :
    ∃ col row : ℕ, col < d.conCols ∧ row < d.conRows ∧ x = col ∧ y = row := by
  obtain ⟨hx, hx', hy, hy'⟩ := h
  exact ⟨x.toNat, y.toNat, by omega, by omega, by omega, by omega⟩

/-- **One cell is drawn anew** and the others are left as they were. -/
lemma Agrees.of_drawCell {t : State} (h : d.Agrees s) (hcol : col < d.conCols)
    (hrow : row < d.conRows) (hvram : t.vram = d.drawCell s.vram col row
      (t.shadowGrid row col).ch (inks t col row).1 (inks t col row).2)
    (hdrawn : Plain t ∨ d.Inside t.drawnCurX t.drawnCurY)
    (hother : ∀ c r : ℕ, c ≠ col ∨ r ≠ row →
      t.shadowGrid r c = s.shadowGrid r c ∧ inks t c r = inks s c r) : d.Agrees t := by
  refine ⟨hdrawn, fun c r hc hr => ?_⟩
  rw [hvram]
  by_cases hsame : c = col ∧ r = row
  · obtain ⟨rfl, rfl⟩ := hsame
    exact shows_drawCell s.vram hcol hrow _ _ _
  · have hne : c ≠ col ∨ r ≠ row := by omega
    obtain ⟨hgrid, hinks⟩ := hother c r hne
    rw [hgrid, hinks]
    exact (h.cells c r hc hr).drawCell hc hr hcol hrow hne _ _ _

/-- Taking the cursor away. -/
lemma Agrees.vbeUndrawCursor (h : d.Agrees s) :
    d.Agrees (d.vbeUndrawCursor s) ∧ Plain (d.vbeUndrawCursor s) := by
  have hplain : Plain (d.vbeUndrawCursor s) := ⟨rfl, rfl⟩
  refine ⟨?_, hplain⟩
  rcases h.drawn with hnone | hinside
  · -- no cursor was drawn, and nothing is drawn now
    have hvram : (d.vbeUndrawCursor s).vram = s.vram := if_neg (Plain.not_inside hnone)
    refine ⟨.inl hplain, fun c r hc hr => ?_⟩
    have hinks : inks (d.vbeUndrawCursor s) c r = inks s c r :=
      (hplain.inks_eq c r).trans (Plain.inks_eq hnone c r).symm
    rw [hvram, hinks]
    exact h.cells c r hc hr
  · obtain ⟨col, row, hcol, hrow, hx, hy⟩ := hinside.exists_nat
    refine h.of_drawCell hcol hrow ?_ (.inl hplain) fun c r hne => ⟨rfl, ?_⟩
    · rw [hplain.inks_eq]
      refine (if_pos hinside).trans ?_
      rw [hx, hy]
      rfl
    · rw [hplain.inks_eq, inks, if_neg (by omega)]
      rfl

/-- Drawing the cursor where none is drawn. -/
lemma Agrees.vbeDrawCursorAt (h : d.Agrees s) (hplain : Plain s) (x y : ℤ) :
    d.Agrees (d.vbeDrawCursorAt s x y) := by
  unfold Display.vbeDrawCursorAt
  split_ifs with hvisible hinside
  · exact h
  · obtain ⟨col, row, hcol, hrow, rfl, rfl⟩ := hinside.exists_nat
    refine h.of_drawCell hcol hrow ?_ (.inr hinside) fun c r hne => ⟨rfl, ?_⟩
    · rw [inks, if_pos ⟨rfl, rfl⟩]
      rfl
    · rw [hplain.inks_eq, inks, if_neg (by dsimp only; omega)]
  · exact h

/-- **Putting a cell.** -/
lemma Agrees.consolePutCell (h : d.Agrees s) (x y : ℤ) (ch attr : UInt8) :
    d.Agrees (d.consolePutCell s x y ch attr) := by
  unfold Display.consolePutCell
  split_ifs with hinside
  · obtain ⟨col, row, hcol, hrow, rfl, rfl⟩ := hinside.exists_nat
    by_cases hhere : (col : ℤ) = s.drawnCurX ∧ (row : ℤ) = s.drawnCurY
    · simp only [if_pos hhere]
      refine h.of_drawCell hcol hrow ?_ (.inl ⟨rfl, rfl⟩) fun c r hne => ⟨setCell_of_ne hne, ?_⟩
      · rw [Plain.inks_eq ⟨rfl, rfl⟩]
        exact vbeRenderCellRaw_setCell _ _ _ _ _
      · rw [Plain.inks_eq ⟨rfl, rfl⟩, inks, if_neg (by omega)]
        simp only [Int.toNat_natCast, setCell_of_ne hne]
    · simp only [if_neg hhere]
      refine h.of_drawCell hcol hrow ?_ h.drawn fun c r hne => ⟨setCell_of_ne hne, ?_⟩
      · rw [inks, if_neg hhere]
        exact vbeRenderCellRaw_setCell _ _ _ _ _
      · simp only [inks, Int.toNat_natCast, setCell_of_ne hne]
  · exact h

/-- **Setting the cursor** draws it at most at the new place. -/
lemma Agrees.consoleSetCursor (h : d.Agrees s) (x y : ℤ) (visible : Bool) :
    d.Agrees (d.consoleSetCursor s x y visible) := by
  unfold Display.consoleSetCursor
  extract_lets col col' row row' t
  have hs : d.Agrees { s with curX := col', curY := row', curVisible := visible } :=
    ⟨h.drawn, h.cells⟩
  obtain ⟨ht, hplain⟩ := hs.vbeUndrawCursor
  split_ifs
  · exact ht.vbeDrawCursorAt hplain _ _
  · exact ht

/-- The cursor is on the console. -/
def CursorInside (d : Display) (s : State) : Prop := d.Inside s.curX s.curY

/-- Drawing the cursor does not move it. -/
lemma cur_vbeDrawCursorAt (d : Display) (s : State) (x y : ℤ) :
    (d.vbeDrawCursorAt s x y).curX = s.curX ∧
    (d.vbeDrawCursorAt s x y).curY = s.curY := by
  unfold Display.vbeDrawCursorAt
  split_ifs
  · exact ⟨rfl, rfl⟩
  · exact ⟨rfl, rfl⟩
  · exact ⟨rfl, rfl⟩

/-- **Setting the cursor** brings it onto the console. -/
lemma cursorInside_consoleSetCursor (s : State) (x y : ℤ) (visible : Bool) :
    d.CursorInside (d.consoleSetCursor s x y visible) := by
  have hcols := d.cols_ge
  have hrows := d.rows_ge
  unfold Display.consoleSetCursor
  extract_lets col col' row row' t
  have hinside : d.Inside col' row' := by
    refine ⟨?_, ?_, ?_, ?_⟩ <;> simp only [col', col, row', row] <;> split_ifs <;> omega
  cases visible with
  | false => exact hinside
  | true =>
    obtain ⟨hx, hy⟩ := cur_vbeDrawCursorAt d t col' row'
    rw [if_pos rfl, CursorInside, hx, hy]
    exact hinside

lemma cur_consolePutCell (d : Display) (s : State) (x y : ℤ) (ch attr : UInt8) :
    (d.consolePutCell s x y ch attr).curX = s.curX ∧
      (d.consolePutCell s x y ch attr).curY = s.curY := by
  unfold Display.consolePutCell
  split_ifs
  · exact ⟨rfl, rfl⟩
  · exact ⟨rfl, rfl⟩

/-! ## Clearing -/

/-- A row of the grid that is set. -/
lemma foldl_setCell_row (g : ℕ → ℕ → Cell) (n r₀ : ℕ) (cell : Cell) (r c : ℕ) :
    (List.range n).foldl (fun g c => setCell g r₀ c cell) g r c =
      if r = r₀ ∧ c < n then cell else g r c := by
  induction n with
  | zero => rw [range_zero, foldl_nil, if_neg (by omega)]
  | succ n ih =>
    rw [range_succ, foldl_append, foldl_cons, foldl_nil, setCell, ih]
    split_ifs
    · rfl
    · omega
    · rfl
    · omega
    · omega
    · rfl

/-- The grid that is set. -/
lemma foldl_setCell_grid (g : ℕ → ℕ → Cell) (h n : ℕ) (cell : Cell) (r c : ℕ) :
    (List.range h).foldl (fun g r => (List.range n).foldl (fun g c => setCell g r c cell) g) g r c =
      if r < h ∧ c < n then cell else g r c := by
  induction h with
  | zero => rw [range_zero, foldl_nil, if_neg (by omega)]
  | succ h ih =>
    rw [range_succ, foldl_append, foldl_cons, foldl_nil, foldl_setCell_row, ih]
    split_ifs
    · rfl
    · omega
    · rfl
    · omega
    · omega
    · rfl

/-- The texts of the top bar are short and stand in one line. -/
lemma length_title : Bar.title.length = 22 ∧ newline ∉ Bar.title := by
  decide

/-- The text of a byte has at most three digits. -/
lemma length_kUtoa_byte (n : ℕ) : (kUtoa (n % 256) 10).length ≤ 3 ∧
    newline ∉ kUtoa (n % 256) 10 := by
  have hall : ∀ v < 256, (kUtoa v 10).length ≤ 3 ∧ newline ∉ kUtoa v 10 := by decide +kernel
  exact hall (n % 256) (Nat.mod_lt _ (by decide))

/-- The text of an address is short and on one line. -/
lemma length_netFormatIp (ip : UInt32) : (Net.netFormatIp ip).length ≤ 15 ∧
    newline ∉ Net.netFormatIp ip := by
  obtain ⟨l₃, n₃⟩ := length_kUtoa_byte (ip.toNat / 16777216)
  obtain ⟨l₂, n₂⟩ := length_kUtoa_byte (ip.toNat / 65536)
  obtain ⟨l₁, n₁⟩ := length_kUtoa_byte (ip.toNat / 256)
  obtain ⟨l₀, n₀⟩ := length_kUtoa_byte ip.toNat
  have hdot : newline ≠ 0x2E := by decide
  rw [Net.netFormatIp_eq]
  refine ⟨?_, ?_⟩
  · simp only [length_append, length_cons]
    omega
  · simp only [mem_append, mem_cons, not_or]
    exact ⟨n₃, hdot, n₂, hdot, n₁, hdot, n₀⟩

/-- The middle part of the bar is short and on one line. -/
lemma length_mid (bar : Bar) : bar.mid.length ≤ 36 ∧ newline ∉ bar.mid := by
  obtain ⟨ip, ramdisk, hours, minutes, seconds⟩ := bar
  have hdisk : (ascii (if ramdisk then "  |  FS: RAMDisk" else "  |  FS: ATA HDD").toList).length =
      16 ∧ newline ∉ ascii (if ramdisk then "  |  FS: RAMDisk" else "  |  FS: ATA HDD").toList := by
    cases ramdisk <;> decide
  rw [Bar.mid, length_append, hdisk.1, mem_append, not_or]
  cases ip with
  | none =>
    have hnet : (ascii "NET: offline".toList).length = 12 ∧
      newline ∉ ascii "NET: offline".toList := by decide
    exact ⟨by dsimp only; omega, hnet.2, hdisk.2⟩
  | some ip =>
    have hnet : (ascii "NET: ".toList).length = 5 ∧ newline ∉ ascii "NET: ".toList := by decide
    obtain ⟨hlen, hnl⟩ := length_netFormatIp ip
    dsimp only
    rw [length_append, mem_append, not_or]
    exact ⟨by omega, ⟨hnet.2, hnl⟩, hdisk.2⟩

/-- The clock has twelve characters. -/
lemma length_clk (bar : Bar) : bar.clk.length = 12 ∧ newline ∉ bar.clk := by
  -- the two figures of a byte are no line ends, whatever the clock tells
  have htens : ∀ x : UInt8, newline ≠ 0x30 + x / 10 := fun x h => by
    have hx := x.toNat_lt
    have hval := congrArg UInt8.toNat h
    rw [UInt8.toNat_add, UInt8.toNat_div, show newline.toNat = 10 from rfl,
      show (0x30 : UInt8).toNat = 48 from rfl, show (10 : UInt8).toNat = 10 from rfl] at hval
    omega
  have hones : ∀ x : UInt8, newline ≠ 0x30 + x % 10 := fun x h => by
    have hx := x.toNat_lt
    have hval := congrArg UInt8.toNat h
    rw [UInt8.toNat_add, UInt8.toNat_mod, show newline.toNat = 10 from rfl,
      show (0x30 : UInt8).toNat = 48 from rfl, show (10 : UInt8).toNat = 10 from rfl] at hval
    omega
  have hcolon : newline ≠ 0x3A := by decide
  refine ⟨rfl, ?_⟩
  rw [Bar.clk, rtcFormatTime, mem_append, not_or]
  refine ⟨?_, by decide⟩
  simp only [mem_cons, not_mem_nil, or_false, not_or]
  exact ⟨htens _, hones _, hcolon, htens _, hones _, hcolon, htens _, hones _⟩

/-- **The top bar** stands above the console. -/
lemma pixel_consoleRefreshTopbar (bar : Bar) (m : Mem) {a b : ℕ} (ha : a < d.fb.width)
    (hb : 28 ≤ b) : d.fb.pixel (d.consoleRefreshTopbar bar m) a b = d.fb.pixel m a b := by
  have hcols := d.cols_fit
  have hcols' := d.cols_ge
  have hrows := d.rows_fit
  have hrows' := d.rows_ge
  obtain ⟨htitle, htitle'⟩ := length_title
  obtain ⟨hmid, hmid'⟩ := length_mid bar
  obtain ⟨hclk, hclk'⟩ := length_clk bar
  -- a text in the bar leaves the rows below alone
  have htext : ∀ (m : Mem) (x : ℕ) (str : List UInt8) (fg : ℕ), newline ∉ str →
      x + 8 * str.length ≤ d.fb.width →
      d.fb.pixel (d.fb.vbeDrawString m x 6 str fg 0x00161B22) a b = d.fb.pixel m a b :=
    fun m x str fg hnl hfit =>
      Framebuffer.pixel_vbeDrawString hnl hfit (by omega) ha (.inr (by omega))
  have hmaybe : ∀ (m : Mem) (x : ℤ) (k : ℤ) (str : List UInt8) (fg : ℕ), newline ∉ str →
      (x > k → x.toNat + 8 * str.length ≤ d.fb.width) →
      d.fb.pixel (if x > k then d.fb.vbeDrawString m x.toNat 6 str fg 0x00161B22 else m) a b =
        d.fb.pixel m a b := fun m x k str fg hnl hfit => by
    split_ifs with hx
    · exact htext m _ str fg hnl (hfit hx)
    · rfl
  unfold consoleRefreshTopbar
  extract_lets w m₁ m₂ m₃ midX m₄ rx
  have hmidX : midX = ((d.fb.width : ℤ) - bar.mid.length * 8) / 2 :=
    Int.tdiv_eq_ediv_of_nonneg (by simp only [w, fontWidth]; omega)
  have hrx : rx = (d.fb.width : ℤ) - bar.clk.length * 8 - 12 := rfl
  have hfill : d.fb.pixel m₂ a b = d.fb.pixel m a b := by
    simp only [m₂, m₁, w, vbeTopbarHeight]
    rw [Framebuffer.pixel_vbeFillRect (by omega) (by omega) (by omega) (by omega) ha,
      if_neg (by omega),
      Framebuffer.pixel_vbeFillRect (by omega) (by omega) (by omega) (by omega) ha,
      if_neg (by omega)]
  calc d.fb.pixel _ a b = d.fb.pixel m₄ a b := hmaybe m₄ rx 0 _ _ hclk' fun _ => by omega
    _ = d.fb.pixel m₃ a b := hmaybe m₃ midX 220 _ _ hmid' fun _ => by omega
    _ = d.fb.pixel m₂ a b := htext m₂ 12 _ _ htitle' (by omega)
    _ = d.fb.pixel m a b := hfill

/-- **Clearing the console** shows the empty grid, whatever was shown before. -/
lemma agrees_consoleClearCells (s : State) (bar : Bar) (attr : UInt8) :
    d.Agrees (d.consoleClearCells s bar attr) := by
  refine Agrees.consoleSetCursor ?_ 0 0 true
  have hcols := d.cols_fit
  have hrows := d.rows_fit
  refine ⟨.inl ⟨rfl, rfl⟩, fun col row hcol hrow => ?_⟩
  rw [Plain.inks_eq ⟨rfl, rfl⟩]
  dsimp only
  rw [foldl_setCell_grid, if_pos ⟨hrow, hcol⟩]
  refine shows_blank fun i hi j hj => ?_
  obtain ⟨ha, hb⟩ := pixel_lt hcol hrow hi hj
  rw [pixel_consoleRefreshTopbar bar _ ha (by omega), vbeTopbarHeight,
    Framebuffer.pixel_vbeFillRect (by omega) (by omega) (by omega) (by omega) ha, if_pos (by omega)]

/-! ## Scrolling -/

/-- The rows of the grid that were copied. -/
lemma foldl_copyRow (g : ℕ → ℕ → Cell) (n r c : ℕ) :
    (List.range n).foldl d.copyRow g r c =
      if r < n ∧ c < d.conCols then g (r + 1) c else g r c := by
  induction n generalizing r with
  | zero => rw [range_zero, foldl_nil, if_neg (by omega)]
  | succ n ih =>
    rw [range_succ, foldl_append, foldl_cons, foldl_nil, copyRow, ih, ih]
    by_cases hrow : r = n ∧ c < d.conCols
    · rw [if_pos hrow, if_neg (by omega), if_pos (by omega), hrow.1]
    · rw [if_neg hrow]
      split_ifs
      · rfl
      · omega
      · omega
      · rfl

/-- **Scrolling** moves the pixels as it moves the grid. -/
lemma Agrees.consoleScrollUp (h : d.Agrees s) : d.Agrees (d.consoleScrollUp s) := by
  obtain ⟨ht, hplain⟩ := h.vbeUndrawCursor
  have hcols := d.cols_fit
  have hrows := d.rows_fit
  have hrows' := d.rows_ge
  have hcols' := d.cols_ge
  have hheight := d.fb.height_lt (by omega)
  have hregion : u32 (d.conRows * fontHeight) = d.conRows * 16 := u32_of_lt (by
    simp only [fontHeight]
    omega)
  refine ⟨.inl hplain, fun col row hcol hrow => ?_⟩
  rw [Plain.inks_eq (s := d.consoleScrollUp s) hplain]
  unfold Display.consoleScrollUp
  dsimp only
  rw [foldl_setCell_row, foldl_copyRow, hregion, vbeTopbarHeight, fontHeight]
  by_cases hlast : row = d.conRows - 1
  · rw [if_pos ⟨hlast, hcol⟩]
    refine shows_blank fun i hi j hj => ?_
    rw [Framebuffer.pixel_vbeScrollRegion (by omega) (by omega) (by omega)
      (pixel_lt hcol hrow hi hj).1, if_pos (by omega)]
    rfl
  · rw [if_neg (fun hr => hlast hr.1), if_pos ⟨by omega, hcol⟩]
    have hnext := ht.cells col (row + 1) hcol (by omega)
    rw [hplain.inks_eq] at hnext
    intro i hi j hj
    rw [Framebuffer.pixel_vbeScrollRegion (by omega) (by omega) (by omega)
      (pixel_lt hcol hrow hi hj).1, if_neg (by omega), if_pos (by omega),
      show 28 + row * 16 + j + 16 = 28 + (row + 1) * 16 + j by omega]
    exact hnext i hi j hj

/-! ## Writing -/

/-- The state is in order: the framebuffer shows the grid, and the cursor is on the console. -/
def Inv (d : Display) (s : State) : Prop := d.Agrees s ∧ d.CursorInside s

/-- Moving the cursor changes nothing that is shown. -/
lemma Agrees.moveCursor (h : d.Agrees s) (x y : ℤ) : d.Agrees { s with curX := x, curY := y } :=
  ⟨h.drawn, h.cells⟩

/-- Scrolling keeps the screen and the cells in step. -/
lemma Agrees.scrollToCursor (h : d.Agrees s) : d.Agrees (d.scrollToCursor s) := by
  unfold Display.scrollToCursor
  generalize (s.curY + 1 - d.conRows).toNat = n
  induction n generalizing s with
  | zero => exact h
  | succ n ih =>
    rw [Function.iterate_succ_apply]
    exact ih (h.consoleScrollUp.moveCursor _ _)

lemma Agrees.stepBack (h : d.Agrees s) : d.Agrees (d.stepBack s) := by
  unfold Display.stepBack
  split_ifs
  · exact h.moveCursor _ _
  · exact h.moveCursor _ _
  · exact h

lemma Agrees.stepOn (h : d.Agrees s) : d.Agrees (d.stepOn s) := by
  unfold Display.stepOn
  split_ifs
  · exact h.moveCursor _ _
  · exact h.moveCursor _ _

/-- So does a character. -/
lemma Agrees.place (h : d.Agrees s) (c color : UInt8) : d.Agrees (d.place s c color) := by
  unfold Display.place
  split_ifs
  · exact h.moveCursor _ _
  · exact h.moveCursor _ _
  · exact h.stepBack.consolePutCell _ _ _ _
  · exact (h.consolePutCell _ _ _ _).stepOn
  · exact h

/-- A character that is no tab. -/
lemma Agrees.writeNoTab (h : d.Agrees s) (c color : UInt8) : d.Inv (d.writeNoTab s c color) := by
  have hplaced := (h.vbeUndrawCursor.1.place c color).scrollToCursor
  unfold Display.writeNoTab
  exact ⟨hplaced.consoleSetCursor _ _ _, cursorInside_consoleSetCursor _ _ _ _⟩

/-- **Writing a character**, a tab as up to four blanks. -/
lemma Inv.consoleWriteCharColor (h : d.Inv s) (c color : UInt8) :
    d.Inv (d.consoleWriteCharColor s c color) := by
  unfold Display.consoleWriteCharColor
  split_ifs with htab
  · have hundraw : d.Inv (d.vbeUndrawCursor s) := ⟨h.1.vbeUndrawCursor.1, h.2⟩
    dsimp only
    generalize List.range _ = blanks
    generalize d.vbeUndrawCursor s = t at hundraw
    induction blanks generalizing t with
    | nil => exact hundraw
    | cons _ blanks ih => exact ih _ (hundraw.1.writeNoTab 0x20 color)
  · exact h.1.writeNoTab c color

lemma Inv.shellPrintColor (h : d.Inv s) (str : List UInt8) (color : UInt8) :
    d.Inv (d.shellPrintColor s str color) := by
  unfold Display.shellPrintColor
  induction str generalizing s with
  | nil => exact h
  | cons c str ih => exact ih (h.consoleWriteCharColor c color)

lemma inv_consoleClearCells (s : State) (bar : Bar) (attr : UInt8) :
    d.Inv (d.consoleClearCells s bar attr) :=
  ⟨agrees_consoleClearCells s bar attr, cursorInside_consoleSetCursor _ _ _ _⟩

end Display

/-! ## Runs -/

/-- The operations of the console; the top bar is drawn with what it tells at that time. -/
inductive Op
  | putCell (col row : ℤ) (ch attr : UInt8)
  | setCursor (col row : ℤ) (visible : Bool)
  | clearCells (bar : Bar) (attr : UInt8)
  | putchar (c : UInt8)
  | printColor (str : List UInt8) (color : UInt8)

/-- An operation is carried out. -/
def Display.exec (d : Display) (s : State) : Op → State
  | .putCell col row ch attr => d.consolePutCell s col row ch attr
  | .setCursor col row visible => d.consoleSetCursor s col row visible
  | .clearCells bar attr => d.consoleClearCells s bar attr
  | .putchar c => d.shellPutchar s c
  | .printColor str color => d.shellPrintColor s str color

/-- The runs of the console: `shell_clear` in any state, then any operations. -/
def runs (d : Display) : System State Op where
  init s := ∃ s₀ bar, s = d.shellClear s₀ bar
  step s op t := t = d.exec s op

/-- The invariant holds in every run. -/
lemma inv_of_reachable {d : Display} {s : State} (hs : (runs d).Reachable s) : d.Inv s := by
  refine hs.invariant d.Inv ?_ ?_
  · rintro s ⟨s₀, bar, rfl⟩
    exact Display.inv_consoleClearCells s₀ bar defaultAttr
  · rintro s op t hs rfl
    cases op with
    | putCell col row ch attr =>
      obtain ⟨hx, hy⟩ := Display.cur_consolePutCell d s col row ch attr
      refine ⟨hs.1.consolePutCell col row ch attr, ?_⟩
      rw [Display.CursorInside, Display.exec, hx, hy]
      exact hs.2
    | setCursor col row visible =>
      exact ⟨hs.1.consoleSetCursor col row visible,
        Display.cursorInside_consoleSetCursor s col row visible⟩
    | clearCells bar attr => exact Display.inv_consoleClearCells s bar attr
    | putchar c => exact hs.consoleWriteCharColor c defaultAttr
    | printColor str color => exact hs.shellPrintColor str color

/-- **The two representations of the console agree** after any operations: the cursor is on the
console, and every cell of the framebuffer shows the character of the grid in the colours of its
attribute, but for the one cell under the drawn cursor, which shows it in the colours of the
cursor. -/
theorem console_agrees (d : Display) {s : State} (hs : (runs d).Reachable s) :
    (0 ≤ s.curX ∧ s.curX < d.conCols ∧ 0 ≤ s.curY ∧ s.curY < d.conRows) ∧
    (s.drawnCurX = -1 ∧ s.drawnCurY = -1 ∨ 0 ≤ s.drawnCurX ∧ s.drawnCurX < d.conCols ∧
      0 ≤ s.drawnCurY ∧ s.drawnCurY < d.conRows) ∧
    ∀ col row : ℕ, col < d.conCols → row < d.conRows →
      if (col : ℤ) = s.drawnCurX ∧ (row : ℤ) = s.drawnCurY then
        d.Shows s.vram col row (s.shadowGrid row col).ch cursorFg cursorBg
      else d.Shows s.vram col row (s.shadowGrid row col).ch
        (themeFg (s.shadowGrid row col).attr) (themeBg (s.shadowGrid row col).attr) := by
  obtain ⟨hagrees, hcursor⟩ := inv_of_reachable hs
  refine ⟨hcursor, hagrees.drawn, fun col row hcol hrow => ?_⟩
  have hshows := hagrees.cells col row hcol hrow
  rw [Display.inks] at hshows
  split_ifs at hshows ⊢ with hdrawn
  · exact hshows
  · exact hshows

/-- A small screen. -/
def smallScreen : Framebuffer where
  width := 320
  height := 268
  pitch := 1280
  bpp := 32
  redPos := 16
  greenPos := 8
  bluePos := 0
  bpp_eq := .inr rfl
  rows := by decide
  fits := by decide

/-- The console on the small screen. -/
def smallDisplay : Display := .shellInit smallScreen le_rfl le_rfl

/-- The console after a letter was written to the small screen, whatever it showed before. -/
def lettered : State :=
  smallDisplay.shellPutchar (smallDisplay.shellClear
    ⟨fun _ => 0xAA, fun _ _ => ⟨0x3F, 0x1F⟩, -5, 70, 3, 3, false⟩ ⟨none, true, 12, 0, 0⟩) 0x41

/-- The agreement at work in the first cell of the small screen. -/
theorem console_agrees_lettered : (runs smallDisplay).Reachable lettered ∧
    if ((0 : ℕ) : ℤ) = lettered.drawnCurX ∧ ((0 : ℕ) : ℤ) = lettered.drawnCurY then
      smallDisplay.Shows lettered.vram 0 0 (lettered.shadowGrid 0 0).ch cursorFg cursorBg
    else smallDisplay.Shows lettered.vram 0 0 (lettered.shadowGrid 0 0).ch
      (themeFg (lettered.shadowGrid 0 0).attr) (themeBg (lettered.shadowGrid 0 0).attr) := by
  have hs : (runs smallDisplay).Reachable lettered :=
    .step (.init ⟨_, _, rfl⟩) (show (runs smallDisplay).step _ (.putchar 0x41) _ from rfl)
  exact ⟨hs, (console_agrees smallDisplay hs).2.2 0 0 (by decide) (by decide)⟩

end BengalTiger.Console
