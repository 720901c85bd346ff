import BengalTiger.Lib.System
import BengalTiger.Vbe

set_option autoImplicit false

/-!
# The mouse and its cursor

`kernel/mouse.c` assembles packets of three or four bytes, moves the pointer and draws a cursor of
12 by 19 pixels over the screen. What the cursor covers is saved before it is drawn and put back
when it is erased. Near the right and the bottom edge, the loop that saves stops at the edge and the
loops that draw and put back skip what is behind it.

A call of `mouse_handler` or `mouse_update_cursor` is one step. The dialogue with the PS/2
controller in `mouse_init` is summarised by its outcome.

## Main definitions

* `Mouse.State` — `mouse_state`; `Mouse.mouseHandler`,
  `Mouse.mouseDrawCursor`, `Mouse.mouseEraseCursor`,
  `Mouse.mouseUpdateCursor`, `Mouse.mouseInit` — the code.
* `Mouse.Saved` — the screen without the cursor can be recovered.

## Main results

* `Mouse.Saved.erase`, `Mouse.saved_draw` — erasing and drawing.
* `Mouse.cursor_never_damages` — in every run, erasing the cursor gives the screen back.
-/

namespace BengalTiger.Mouse

open ByteMem Vbe Function List

/-! ## The code -/

/-- The conversion to `int32_t`. -/
def i32 (z : ℤ) : ℤ := z.bmod 4294967296

/-- `MOUSE_CURSOR_WIDTH`. -/
def cursorWidth : ℕ := 12

/-- `MOUSE_CURSOR_HEIGHT`. -/
def cursorHeight : ℕ := 19

/-- `cursor_bitmap`. -/
def cursorBitmap : List (ℕ × ℕ) :=
  [(0x80, 0x00), (0xC0, 0x00), (0xE0, 0x00), (0xF0, 0x00), (0xF8, 0x00), (0xFC, 0x00),
    (0xFE, 0x00), (0xFF, 0x00), (0xFF, 0x80), (0xFF, 0xC0), (0xFF, 0xE0), (0xF0, 0xE0),
    (0xE0, 0xE0), (0xC0, 0x70), (0x80, 0x70), (0x00, 0x38), (0x00, 0x38), (0x00, 0x1C),
    (0x00, 0x1C)]

/-- `(bits >> (15 - col)) & 1` in a row of the bitmap. -/
def cursorBit (row col : ℕ) : Bool :=
  let bits := (cursorBitmap.getD row (0, 0)).1 <<< 8 ||| (cursorBitmap.getD row (0, 0)).2
  (bits >>> (15 - col)) &&& 1 != 0

/-- `is_edge`: the border of the bitmap, and the pixels with a neighbour that is not set. -/
def isEdge (row col : ℕ) : Bool :=
  row == 0 || row == cursorHeight - 1 || col == 0 || col == cursorWidth - 1 ||
    [row - 1, row, row + 1].any fun r => [col - 1, col, col + 1].any fun c => !cursorBit r c

/-- `VBE_WHITE`. -/
def vbeWhite : ℕ := 0x00FFFFFF

/-- `mouse_state_t`. -/
structure State where
  x : ℤ
  y : ℤ
  buttons : UInt8
  wheelDelta : ℤ
  present : Bool
  hasWheel : Bool
  packetIndex : ℕ
  packet : ℕ → UInt8
  packetSize : ℕ
  cursorSave : ℕ → ℕ
  cursorOldX : ℤ
  cursorOldY : ℤ
  cursorDirty : Bool
  cursorVisible : Bool

/-- The loops of `mouse_draw_cursor` that save what the cursor covers; they stop at the edges. -/
def saveLoop (fb : Framebuffer) (m : Mem) (x y : ℤ) (save : ℕ → ℕ) : ℕ → ℕ :=
  let rows := (List.range cursorHeight).takeWhile fun (row : ℕ) => y + row < i32 fb.height
  let cols := (List.range cursorWidth).takeWhile fun (col : ℕ) => x + col < i32 fb.width
  rows.foldl (fun save row => cols.foldl (fun save col =>
    update save (row * cursorWidth + col)
      (fb.vbeGetpixel m (x + col).toNat (y + row).toNat)) save) save

/-- Two loops over the pixels of the cursor that are on the screen. -/
def forCursor (fb : Framebuffer) (x y : ℤ) (put : Mem → ℕ → ℕ → Mem) (m : Mem) : Mem :=
  (List.range cursorHeight).foldl (fun m (row : ℕ) =>
    if y + row < 0 ∨ y + row ≥ i32 fb.height then m
    else (List.range cursorWidth).foldl (fun m (col : ℕ) =>
      if x + col < 0 ∨ x + col ≥ i32 fb.width then m else put m row col) m) m

/-- The state in which the cursor is shown at the pointer. -/
def State.withCursor (s : State) (save : ℕ → ℕ) : State :=
  { s with
    cursorSave := save
    cursorOldX := s.x
    cursorOldY := s.y
    cursorVisible := true }

/-- `mouse_draw_cursor`; `screen` is the framebuffer if it is initialized. -/
def mouseDrawCursor (screen : Option Framebuffer) (s : State) (m : Mem) : State × Mem :=
  screen.elim (s, m) fun fb =>
    if s.present = false then (s, m)
    else if s.x < 0 ∨ s.y < 0 ∨ s.x ≥ i32 fb.width ∨ s.y ≥ i32 fb.height then (s, m)
    else
      (s.withCursor (saveLoop fb m s.x s.y s.cursorSave),
      forCursor fb s.x s.y (fun m row col =>
        if cursorBit row col then
          fb.vbePutpixel m (s.x + col).toNat (s.y + row).toNat
            (if isEdge row col then vbeWhite else vbeBlack)
        else m) m)

/-- `mouse_erase_cursor`. -/
def mouseEraseCursor (screen : Option Framebuffer) (s : State) (m : Mem) : State × Mem :=
  screen.elim (s, m) fun fb =>
    if s.cursorVisible = false then (s, m)
    else
      ({ s with cursorVisible := false },
      forCursor fb s.cursorOldX s.cursorOldY (fun m row col =>
        fb.vbePutpixel m (s.cursorOldX + col).toNat (s.cursorOldY + row).toNat
          (s.cursorSave (row * cursorWidth + col))) m)

/-- `mouse_update_cursor`. -/
def mouseUpdateCursor (screen : Option Framebuffer) (s : State) (m : Mem) : State × Mem :=
  if screen.isNone ∨ s.present = false ∨ s.cursorDirty = false then (s, m)
  else
    let s := { s with cursorDirty := false }
    if s.cursorVisible = true ∧ s.x = s.cursorOldX ∧ s.y = s.cursorOldY then (s, m)
    else
      let r := mouseEraseCursor screen s m
      mouseDrawCursor screen r.1 r.2

/-- A coordinate after a movement: it stays on the screen. -/
def moveClamped (x dx max : ℤ) : ℤ :=
  let x := i32 (x + dx)
  let x := if x < 0 then 0 else x
  if x ≥ i32 max then i32 max - 1 else x

/-- A movement of nine bits: the sign is in the first byte of the packet. -/
def movement (negative : Bool) (b : UInt8) : ℤ :=
  if negative then i32 (b.toNat ||| 0xFFFFFF00 : ℕ) else b.toNat

/-- The pointer moves, unless the packet tells of an overflow. -/
def movePointer (screen : Option Framebuffer) (s : State) : State :=
  let pkt := s.packet
  if pkt 0 &&& 0xC0 = 0 then
    let dx := movement (pkt 0 &&& 0x10 != 0) (pkt 1)
    let dy := -movement (pkt 0 &&& 0x20 != 0) (pkt 2)
    { s with
      x := moveClamped s.x dx (screen.elim 800 fun fb => fb.width)
      y := moveClamped s.y dy (screen.elim 600 fun fb => fb.height)
      cursorDirty := s.cursorDirty || screen.isSome }
  else s

/-- The buttons that a packet tells. -/
def buttonsOf (b : UInt8) : UInt8 :=
  (if b &&& 0x01 != 0 then 1 else 0) ||| (if b &&& 0x02 != 0 then 2 else 0) |||
    (if b &&& 0x04 != 0 then 4 else 0)

/-- The movement of the wheel, a number of four bits with a sign. -/
def wheelOf (b : UInt8) : ℤ :=
  let wheel := b &&& 0x0F
  let wheel := if wheel &&& 0x08 != 0 then wheel ||| 0xF0 else wheel
  (wheel.toNat : ℤ).bmod 256

/-- The last part of `mouse_handler`, for a complete packet. -/
def handlePacket (screen : Option Framebuffer) (s : State) : State :=
  let s := movePointer screen s
  { s with
    buttons := buttonsOf (s.packet 0)
    wheelDelta := if s.packetSize ≥ 4 then wheelOf (s.packet 3) else s.wheelDelta }

/-- `mouse_handler`, which reads a status and a byte. -/
def mouseHandler (screen : Option Framebuffer) (status data : UInt8) (s : State) : State :=
  if status &&& 0x01 = 0 then s
  else if s.present = false then s
  else if s.packetIndex = 0 ∧ data &&& 0x08 = 0 then s
  else
    let s := { s with
      packet := update s.packet s.packetIndex data
      packetIndex := s.packetIndex + 1 }
    if s.packetIndex ≥ s.packetSize then handlePacket screen { s with packetIndex := 0 } else s

/-- How the dialogue with the controller in `mouse_init` ends: whether the mouse was enabled, and
whether it told the number of a mouse with a wheel. -/
structure Dialogue where
  enabled : Bool
  wheel : Bool

/-- `mouse_init`. -/
def mouseInit (screen : Option Framebuffer) (d : Dialogue) (m : Mem) : State × Mem :=
  let s : State :=
    { x := 0, y := 0, buttons := 0, wheelDelta := 0, present := false, hasWheel := d.wheel
      packetIndex := 0, packet := fun _ => 0, packetSize := if d.wheel then 4 else 3
      cursorSave := fun _ => 0, cursorOldX := -1, cursorOldY := -1
      cursorDirty := false, cursorVisible := false }
  if d.enabled = false then (s, m)
  else
    mouseDrawCursor screen { s with
      x := i32 (screen.elim 400 fun fb => (fb.width / 2 : ℕ))
      y := i32 (screen.elim 300 fun fb => (fb.height / 2 : ℕ))
      present := true } m

/-- The calls. -/
inductive Op
  | handler (status data : UInt8)
  | update

/-- A call on the state of the mouse and the framebuffer. -/
def step (screen : Option Framebuffer) (st : State × Mem) : Op → State × Mem
  | .handler status data => (mouseHandler screen status data st.1, st.2)
  | .update => mouseUpdateCursor screen st.1 st.2

/-- The runs of the mouse after `mouse_init`, on a screen with the contents `m₀`. -/
def pointer (fb : Framebuffer) (m₀ : Mem) : System (State × Mem) Op where
  init st := ∃ d, st = mouseInit (some fb) d m₀
  step st op st' := st' = step (some fb) st op

/-! ## Loops that end at an edge -/

/-- A loop that stops. -/
lemma takeWhile_range {k n : ℕ} {p : ℕ → Bool} (hp : ∀ i, p i = true ↔ i < n) :
    (List.range k).takeWhile p = List.range (min k n) := by
  rcases Nat.le_total k n with hle | hle
  · rw [Nat.min_eq_left hle, takeWhile_eq_self_iff]
    intro i hi
    have hlt := mem_range.1 hi
    exact (hp i).2 (by omega)
  · obtain ⟨d, rfl⟩ := Nat.exists_eq_add_of_le hle
    have hfront : ∀ i ∈ List.range n, p i = true := fun i hi => (hp i).2 (mem_range.1 hi)
    have hback : ((List.range d).map (n + ·)).takeWhile p = [] := by
      cases d with
      | zero => rfl
      | succ d =>
        rw [range_succ_eq_map, map_cons, takeWhile_cons_of_neg]
        rw [hp]
        omega
    rw [Nat.min_eq_right hle, range_add, takeWhile_append_of_pos hfront, hback, append_nil]

/-- A loop that skips. -/
lemma foldl_range_skip {σ : Type} {k n : ℕ} {p : ℕ → Prop} [DecidablePred p]
    (hp : ∀ i, p i ↔ n ≤ i) (f : σ → ℕ → σ) (s : σ) :
    (List.range k).foldl (fun s i => if p i then s else f s i) s =
      (List.range (min k n)).foldl f s := by
  induction k with
  | zero => rw [Nat.zero_min]; rfl
  | succ k ih =>
    rw [range_succ, foldl_append, ih, foldl_cons, foldl_nil]
    by_cases hk : n ≤ k
    · rw [if_pos ((hp k).2 hk), Nat.min_eq_right hk, Nat.min_eq_right (by omega)]
    · rw [if_neg fun h => hk ((hp k).1 h), Nat.min_eq_left (by omega), Nat.min_eq_left (by omega),
        range_succ, foldl_append]
      rfl

/-- The pixels of an array that are written row by row. -/
lemma foldl_update_row {n : ℕ} (hn : n ≤ cursorWidth) (j : ℕ) (v : ℕ → ℕ) (f : ℕ → ℕ) {a b : ℕ}
    (ha : a < cursorWidth) :
    (List.range n).foldl (fun f i => update f (j * cursorWidth + i) (v i)) f
      (b * cursorWidth + a) = if b = j ∧ a < n then v a else f (b * cursorWidth + a) := by
  induction n with
  | zero => rw [if_neg (by omega)]; rfl
  | succ n ih =>
    rw [range_succ, foldl_append, foldl_cons, foldl_nil]
    by_cases hlast : b = j ∧ a = n
    · obtain ⟨rfl, rfl⟩ := hlast
      rw [update_self, if_pos (by omega)]
    · have hne : b * cursorWidth + a ≠ j * cursorWidth + n := by
        simp only [cursorWidth] at *
        omega
      rw [update_of_ne hne, ih (by omega)]
      split_ifs
      · rfl
      · omega
      · omega
      · rfl

/-- An array after a rectangle was stored in it row by row. -/
lemma foldl_update_rect {n h : ℕ} (hn : n ≤ cursorWidth) (v : ℕ → ℕ → ℕ) (f : ℕ → ℕ) {a b : ℕ}
    (ha : a < cursorWidth) :
    (List.range h).foldl (fun f j => (List.range n).foldl (fun f i =>
      update f (j * cursorWidth + i) (v i j)) f) f (b * cursorWidth + a) =
        if b < h ∧ a < n then v a b else f (b * cursorWidth + a) := by
  induction h with
  | zero => rw [if_neg (by omega)]; rfl
  | succ h ih =>
    rw [range_succ, foldl_append, foldl_cons, foldl_nil,
      foldl_update_row hn h (fun i => v i h) _ ha, ih]
    split_ifs with h₁ h₂ h₃
    · rw [h₁.1]
    · omega
    · rfl
    · omega
    · omega
    · rfl

/-! ## The part of the cursor on the screen -/

section Screen

variable {fb : Framebuffer} {m m₀ : Mem} {x y : ℕ}

/-- The columns of the cursor that are on the screen. -/
def cols (fb : Framebuffer) (x : ℕ) : ℕ := min cursorWidth (fb.width - x)

/-- The rows of the cursor that are on the screen. -/
def rows (fb : Framebuffer) (y : ℕ) : ℕ := min cursorHeight (fb.height - y)

lemma i32_of_lt {n : ℕ} (h : n < 2147483648) : i32 n = n := by
  unfold i32
  rw [Int.bmod_eq_of_le] <;> omega

/-- A screen with rows and columns has less than `2 ^ 31` of either. -/
lemma size_lt (fb : Framebuffer) (hw : 1 ≤ fb.width) (hh : 1 ≤ fb.height) :
    fb.width < 2147483648 ∧ fb.height < 2147483648 := by
  have hdepth := fb.depth_pos
  have hrows := fb.rows
  have hfits := fb.fits
  have h₁ : fb.width * 3 ≤ fb.width * (fb.bpp / 8) := Nat.mul_le_mul_left _ hdepth
  have h₂ : fb.pitch * 1 ≤ fb.pitch * fb.height := Nat.mul_le_mul_left _ hh
  have h₃ : 3 * fb.height ≤ fb.pitch * fb.height := Nat.mul_le_mul_right _ (by omega)
  omega

/-- The saved pixels are those under the cursor. -/
lemma saveLoop_apply (hw : fb.width < 2147483648) (hh : fb.height < 2147483648) (save : ℕ → ℕ)
    {i j : ℕ} (hi : i < cols fb x) (hj : j < rows fb y) :
    saveLoop fb m x y save (j * cursorWidth + i) = fb.vbeGetpixel m (x + i) (y + j) := by
  have hcols : (List.range cursorWidth).takeWhile
      (fun (col : ℕ) => (x : ℤ) + col < i32 fb.width) = List.range (cols fb x) := by
    refine takeWhile_range fun i => ?_
    rw [i32_of_lt hw, decide_eq_true_eq]
    omega
  have hrows : (List.range cursorHeight).takeWhile
      (fun (row : ℕ) => (y : ℤ) + row < i32 fb.height) = List.range (rows fb y) := by
    refine takeWhile_range fun i => ?_
    rw [i32_of_lt hh, decide_eq_true_eq]
    omega
  have hle : cols fb x ≤ cursorWidth := Nat.min_le_left _ _
  rw [saveLoop, hcols, hrows, foldl_update_rect hle
    (fun i j => fb.vbeGetpixel m ((x : ℤ) + i).toNat ((y : ℤ) + j).toNat) save (by omega),
    if_pos ⟨hj, hi⟩, ← Nat.cast_add, ← Nat.cast_add, Int.toNat_natCast, Int.toNat_natCast]

/-- The loops over the cursor, cut at the edges of the screen. -/
lemma forCursor_eq (hw : fb.width < 2147483648) (hh : fb.height < 2147483648)
    (put : Mem → ℕ → ℕ → Mem) :
    forCursor fb x y put m = (List.range (rows fb y)).foldl (fun m row =>
      (List.range (cols fb x)).foldl (fun m col => put m row col) m) m := by
  rw [forCursor, rows, cols, i32_of_lt hw, i32_of_lt hh,
    foldl_range_skip (n := fb.height - y) (fun i => by omega)]
  refine foldl_ext _ _ _ fun m row _ => ?_
  exact foldl_range_skip (n := fb.width - x) (fun i => by omega) _ _

/-- The pixel is under the cursor at `(x, y)`. -/
def Covers (fb : Framebuffer) (x y a b : ℕ) : Prop :=
  x ≤ a ∧ a < x + cols fb x ∧ y ≤ b ∧ b < y + rows fb y

/-- **Putting pixels under the cursor** leaves the others alone. -/
lemma pixel_forCursor (hw : fb.width < 2147483648) (hh : fb.height < 2147483648)
    {put : Mem → ℕ → ℕ → Mem} {a b : ℕ}
    (hput : ∀ m, ∀ row < rows fb y, ∀ col < cols fb x,
      fb.pixel (put m row col) a b = fb.pixel m a b) :
    fb.pixel (forCursor fb x y put m) a b = fb.pixel m a b := by
  rw [forCursor_eq hw hh]
  refine List.foldlRecOn (motive := fun m' => fb.pixel m' a b = fb.pixel m a b) _ _ rfl ?_
  intro m₁ h₁ row hrow
  refine List.foldlRecOn (motive := fun m' => fb.pixel m' a b = fb.pixel m a b) _ _ h₁ ?_
  intro m₂ h₂ col hcol
  rw [hput m₂ row (mem_range.1 hrow) col (mem_range.1 hcol), h₂]

/-- The pixels of the cursor are put one by one. -/
lemma forCursor_putpixel (hw : fb.width < 2147483648) (hh : fb.height < 2147483648)
    (color : ℕ → ℕ → ℕ) :
    forCursor fb x y (fun m row col =>
      fb.vbePutpixel m ((x : ℤ) + col).toNat ((y : ℤ) + row).toNat (color col row)) m =
        fb.raster.paintRect m x y (cols fb x) (rows fb y) fun i j => fb.colorBytes (color i j) := by
  rw [forCursor_eq hw hh]
  refine foldl_ext _ _ _ fun m row hrow => foldl_ext _ _ _ fun m col hcol => ?_
  have hrow : row < min cursorHeight (fb.height - y) := mem_range.1 hrow
  have hcol : col < min cursorWidth (fb.width - x) := mem_range.1 hcol
  rw [← Nat.cast_add, ← Nat.cast_add, Int.toNat_natCast, Int.toNat_natCast,
    Framebuffer.vbePutpixel_eq (by omega) (by omega)]

/-! ## Erasing and drawing -/

/-- **The screen without the cursor can be recovered**: where the cursor is shown, the pixels under
it were saved and the others are those of the screen before. -/
structure Saved (fb : Framebuffer) (m₀ : Mem) (s : State) (m : Mem) : Prop where
  hidden : s.cursorVisible = false → ∀ a < fb.width, ∀ b < fb.height,
    fb.vbeGetpixel m a b = fb.vbeGetpixel m₀ a b
  shown : s.cursorVisible = true → ∃ x y : ℕ, s.cursorOldX = x ∧ s.cursorOldY = y ∧
    x < fb.width ∧
    (∀ i < cols fb x, ∀ j < rows fb y,
      s.cursorSave (j * cursorWidth + i) = fb.vbeGetpixel m₀ (x + i) (y + j)) ∧
    ∀ a < fb.width, ∀ b < fb.height, ¬Covers fb x y a b →
      fb.vbeGetpixel m a b = fb.vbeGetpixel m₀ a b

variable {s : State}

/-- **Erasing the cursor gives the screen back.** -/
lemma Saved.erase (h : Saved fb m₀ s m) (hch : fb.Channels) (hw : fb.width < 2147483648)
    (hh : fb.height < 2147483648) {a b : ℕ} (ha : a < fb.width) (hb : b < fb.height) :
    fb.vbeGetpixel (mouseEraseCursor (some fb) s m).2 a b = fb.vbeGetpixel m₀ a b := by
  rw [mouseEraseCursor, Option.elim_some]
  cases hvis : s.cursorVisible with
  | false => exact h.hidden hvis a ha b hb
  | true =>
    obtain ⟨x, y, hx, hy, hlt, hsave, hother⟩ := h.shown hvis
    have hcols : x + cols fb x ≤ fb.width := by
      unfold cols
      omega
    rw [if_neg Bool.true_eq_false.mp, hx, hy]
    dsimp only
    rw [forCursor_putpixel hw hh fun i j => s.cursorSave (j * cursorWidth + i)]
    have hpixel := Raster.pixel_paintRect (R := fb.raster) (m := m) (y := y) (b := b)
      (h := rows fb y) (v := fun i j => fb.colorBytes (s.cursorSave (j * cursorWidth + i)))
      (fun _ _ => Framebuffer.length_colorBytes _) hcols ha
    by_cases hcov : Covers fb x y a b
    · obtain ⟨hxa, hax, hyb, hby⟩ := hcov
      have hval := hsave (a - x) (by omega) (b - y) (by omega)
      rw [Nat.add_sub_cancel' hxa, Nat.add_sub_cancel' hyb] at hval
      rw [if_pos ⟨hyb, hby, hxa, hax⟩, hval] at hpixel
      exact Framebuffer.vbeGetpixel_of_colorBytes hch ha hb (fb.vbeGetpixel_lt m₀ a b) hpixel
    · rw [if_neg fun hc => hcov ⟨hc.2.2.1, hc.2.2.2, hc.1, hc.2.1⟩] at hpixel
      rw [Framebuffer.vbeGetpixel_congr ha hb hpixel]
      exact hother a ha b hb hcov

/-- **Drawing the cursor** on a screen without it saves what it covers. -/
lemma saved_draw (h : ∀ a < fb.width, ∀ b < fb.height,
      fb.vbeGetpixel m a b = fb.vbeGetpixel m₀ a b)
    (hvis : s.cursorVisible = false) (hw : fb.width < 2147483648) (hh : fb.height < 2147483648) :
    Saved fb m₀ (mouseDrawCursor (some fb) s m).1 (mouseDrawCursor (some fb) s m).2 := by
  have hsame : Saved fb m₀ s m := ⟨fun _ => h, fun hc => absurd (hvis.symm.trans hc) (by decide)⟩
  rw [mouseDrawCursor, Option.elim_some]
  split_ifs with hpresent hout
  · exact hsame
  · exact hsame
  rw [i32_of_lt hw, i32_of_lt hh] at hout
  obtain ⟨x, hx⟩ := Int.eq_ofNat_of_zero_le (show 0 ≤ s.x by omega)
  obtain ⟨y, hy⟩ := Int.eq_ofNat_of_zero_le (show 0 ≤ s.y by omega)
  refine ⟨fun hc => absurd hc Bool.true_eq_false.mp, fun _ =>
    ⟨x, y, hx, hy, by omega, fun i hi j hj => ?_, ?_⟩⟩
  · have hcol : i < min cursorWidth (fb.width - x) := hi
    have hrow : j < min cursorHeight (fb.height - y) := hj
    dsimp only [State.withCursor]
    rw [hx, hy, saveLoop_apply hw hh _ hi hj]
    exact h _ (by omega) _ (by omega)
  · intro a ha b hb hcov
    rw [← h a ha b hb]
    refine Framebuffer.vbeGetpixel_congr ha hb ?_
    dsimp only
    rw [hx, hy]
    -- the cursor is drawn inside the area it covers
    refine pixel_forCursor hw hh fun m' row hrow col hcol => ?_
    have hcol' : col < min cursorWidth (fb.width - x) := hcol
    have hrow' : row < min cursorHeight (fb.height - y) := hrow
    have hin : x + col < fb.width := by omega
    by_cases hbit : cursorBit row col = true
    · rw [if_pos hbit, ← Nat.cast_add, ← Nat.cast_add, Int.toNat_natCast, Int.toNat_natCast,
        Framebuffer.vbePutpixel_eq hin (by omega)]
      refine Raster.pixel_poke_of_ne (Framebuffer.length_colorBytes _) hin ha ?_
      unfold Covers at hcov
      omega
    · rw [if_neg hbit]

/-! ## Every run -/

/-- **The invariant**: the pointer is on the screen, a packet is not complete between interrupts,
and the screen without the cursor can be recovered. -/
structure Inv (fb : Framebuffer) (m₀ : Mem) (st : State × Mem) : Prop where
  xRange : 0 ≤ st.1.x ∧ st.1.x < fb.width
  yRange : 0 ≤ st.1.y ∧ st.1.y < fb.height
  index : st.1.packetIndex < st.1.packetSize
  saved : Saved fb m₀ st.1 st.2

lemma moveClamped_range {n : ℕ} (h1 : 1 ≤ n) (hn : n < 2147483648) (x dx : ℤ) :
    0 ≤ moveClamped x dx n ∧ moveClamped x dx n < n := by
  unfold moveClamped
  dsimp only
  rw [i32_of_lt hn]
  split_ifs <;> omega

/-- The fields of the packet and of the cursor are the same. -/
structure Frame (s t : State) : Prop where
  index : t.packetIndex = s.packetIndex
  size : t.packetSize = s.packetSize
  visible : t.cursorVisible = s.cursorVisible
  save : t.cursorSave = s.cursorSave
  oldX : t.cursorOldX = s.cursorOldX
  oldY : t.cursorOldY = s.cursorOldY

/-- A complete packet moves the pointer on the screen. -/
lemma movePointer_spec (hw : 1 ≤ fb.width) (hh : 1 ≤ fb.height)
    (hx : 0 ≤ s.x ∧ s.x < fb.width) (hy : 0 ≤ s.y ∧ s.y < fb.height) :
    (0 ≤ (movePointer (some fb) s).x ∧ (movePointer (some fb) s).x < fb.width) ∧
      (0 ≤ (movePointer (some fb) s).y ∧ (movePointer (some fb) s).y < fb.height) ∧
      Frame s (movePointer (some fb) s) := by
  obtain ⟨hw', hh'⟩ := size_lt fb hw hh
  unfold movePointer
  dsimp only [Option.elim_some]
  split_ifs
  · exact ⟨moveClamped_range hw hw' _ _, moveClamped_range hh hh' _ _, rfl, rfl, rfl, rfl, rfl, rfl⟩
  · exact ⟨hx, hy, rfl, rfl, rfl, rfl, rfl, rfl⟩

/-- The buttons and the wheel are not the pointer. -/
lemma handlePacket_spec (screen : Option Framebuffer) (s : State) :
    (handlePacket screen s).x = (movePointer screen s).x ∧
      (handlePacket screen s).y = (movePointer screen s).y ∧
      Frame (movePointer screen s) (handlePacket screen s) :=
  ⟨rfl, rfl, rfl, rfl, rfl, rfl, rfl, rfl⟩

/-- What is saved depends on the fields of the cursor only. -/
lemma Saved.congr {t : State} (h : Saved fb m₀ s m) (hframe : Frame s t) : Saved fb m₀ t m := by
  refine ⟨fun hc => h.hidden (hframe.visible.symm.trans hc), fun hc => ?_⟩
  rw [hframe.save, hframe.oldX, hframe.oldY]
  exact h.shown (hframe.visible.symm.trans hc)

/-- The interrupt handler keeps the invariant: it does not draw. -/
lemma Inv.handler {st : State × Mem} (h : Inv fb m₀ st) (hw : 1 ≤ fb.width) (hh : 1 ≤ fb.height)
    (status data : UInt8) : Inv fb m₀ (mouseHandler (some fb) status data st.1, st.2) := by
  have hindex := h.index
  unfold mouseHandler
  split_ifs with hstatus hpresent hsync
  · exact h
  · exact h
  · exact h
  have hsaved : ∀ n, Saved fb m₀ { st.1 with
      packet := update st.1.packet st.1.packetIndex data
      packetIndex := n } st.2 := fun n => ⟨h.saved.hidden, h.saved.shown⟩
  by_cases hfull : st.1.packetIndex + 1 ≥ st.1.packetSize
  · obtain ⟨hx, hy, hmove⟩ := movePointer_spec (s := { st.1 with
      packet := update st.1.packet st.1.packetIndex data
      packetIndex := 0 }) hw hh h.xRange h.yRange
    obtain ⟨hx', hy', hpacket⟩ := handlePacket_spec (some fb) { st.1 with
      packet := update st.1.packet st.1.packetIndex data
      packetIndex := 0 }
    dsimp only
    rw [if_pos hfull]
    refine ⟨?_, ?_, ?_, ((hsaved 0).congr hmove).congr hpacket⟩
    · rw [hx']
      exact hx
    · rw [hy']
      exact hy
    · rw [hpacket.index, hpacket.size, hmove.index, hmove.size]
      dsimp only
      omega
  · dsimp only
    rw [if_neg hfull]
    exact ⟨h.xRange, h.yRange, by dsimp only; omega, hsaved _⟩

lemma State.withCursor_spec (s : State) (save : ℕ → ℕ) :
    (s.withCursor save).x = s.x ∧ (s.withCursor save).y = s.y ∧
      (s.withCursor save).packetIndex = s.packetIndex ∧
      (s.withCursor save).packetSize = s.packetSize :=
  ⟨rfl, rfl, rfl, rfl⟩

/-- Drawing does not move the pointer. -/
lemma mouseDrawCursor_spec (screen : Option Framebuffer) (s : State) (m : Mem) :
    (mouseDrawCursor screen s m).1.x = s.x ∧ (mouseDrawCursor screen s m).1.y = s.y ∧
      (mouseDrawCursor screen s m).1.packetIndex = s.packetIndex ∧
      (mouseDrawCursor screen s m).1.packetSize = s.packetSize := by
  cases screen with
  | none => exact ⟨rfl, rfl, rfl, rfl⟩
  | some fb =>
    rw [mouseDrawCursor, Option.elim_some]
    split_ifs
    · exact ⟨rfl, rfl, rfl, rfl⟩
    · exact ⟨rfl, rfl, rfl, rfl⟩
    · exact s.withCursor_spec _

lemma mouseEraseCursor_spec (screen : Option Framebuffer) (s : State) (m : Mem) :
    (mouseEraseCursor screen s m).1.x = s.x ∧ (mouseEraseCursor screen s m).1.y = s.y ∧
      (mouseEraseCursor screen s m).1.packetIndex = s.packetIndex ∧
      (mouseEraseCursor screen s m).1.packetSize = s.packetSize := by
  cases screen with
  | none => exact ⟨rfl, rfl, rfl, rfl⟩
  | some fb =>
    rw [mouseEraseCursor, Option.elim_some]
    split_ifs <;> exact ⟨rfl, rfl, rfl, rfl⟩

lemma cursorVisible_mouseEraseCursor (fb : Framebuffer) (s : State) (m : Mem) :
    (mouseEraseCursor (some fb) s m).1.cursorVisible = false := by
  rw [mouseEraseCursor, Option.elim_some]
  split_ifs with hvis
  · exact hvis
  · rfl

/-- Moving the cursor on the screen keeps the invariant. -/
lemma Inv.update {st : State × Mem} (h : Inv fb m₀ st) (hch : fb.Channels) (hw : 1 ≤ fb.width)
    (hh : 1 ≤ fb.height) : Inv fb m₀ (mouseUpdateCursor (some fb) st.1 st.2) := by
  obtain ⟨hw', hh'⟩ := size_lt fb hw hh
  unfold mouseUpdateCursor
  dsimp only
  split_ifs with hidle hplace
  · exact h
  · exact ⟨h.xRange, h.yRange, h.index, ⟨h.saved.hidden, h.saved.shown⟩⟩
  · have hsaved : Saved fb m₀ { st.1 with cursorDirty := false } st.2 :=
      ⟨h.saved.hidden, h.saved.shown⟩
    obtain ⟨hx, hy, hidx, hsize⟩ :=
      mouseEraseCursor_spec (some fb) { st.1 with cursorDirty := false } st.2
    obtain ⟨hx', hy', hidx', hsize'⟩ := mouseDrawCursor_spec (some fb)
      (mouseEraseCursor (some fb) { st.1 with cursorDirty := false } st.2).1
      (mouseEraseCursor (some fb) { st.1 with cursorDirty := false } st.2).2
    refine ⟨?_, ?_, ?_, saved_draw (fun a ha b hb => hsaved.erase hch hw' hh' ha hb)
      (cursorVisible_mouseEraseCursor fb _ _) hw' hh'⟩
    · rw [hx', hx]
      exact h.xRange
    · rw [hy', hy]
      exact h.yRange
    · rw [hidx', hidx, hsize', hsize]
      exact h.index

/-- The invariant holds after `mouse_init`. -/
lemma inv_init (hw : 1 ≤ fb.width) (hh : 1 ≤ fb.height) (d : Dialogue) :
    Inv fb m₀ (mouseInit (some fb) d m₀) := by
  obtain ⟨hw', hh'⟩ := size_lt fb hw hh
  have hsize : 0 < if d.wheel = true then 4 else 3 := by split_ifs <;> decide
  unfold mouseInit
  by_cases hoff : d.enabled = false
  · rw [if_pos hoff]
    exact ⟨⟨le_rfl, by dsimp only; omega⟩, ⟨le_rfl, by dsimp only; omega⟩, hsize,
      ⟨fun _ _ _ _ _ => rfl, fun hc => absurd hc Bool.false_ne_true⟩⟩
  · rw [if_neg hoff, Option.elim_some, Option.elim_some, i32_of_lt (by omega), i32_of_lt (by omega)]
    obtain ⟨hx, hy, hidx, hsize'⟩ := mouseDrawCursor_spec (some fb) _ m₀
    refine ⟨?_, ?_, ?_, saved_draw (fun _ _ _ _ => rfl) rfl hw' hh'⟩
    · rw [hx]
      dsimp only
      omega
    · rw [hy]
      dsimp only
      omega
    · rw [hidx, hsize']
      exact hsize

end Screen

/-- **The cursor never damages the screen.** In every run of calls of `mouse_handler` and
`mouse_update_cursor` after `mouse_init`, the pointer is on the screen, a packet is not complete
between interrupts, and erasing the cursor gives every pixel the colour it had before. -/
theorem cursor_never_damages {fb : Framebuffer} (hw : 1 ≤ fb.width) (hh : 1 ≤ fb.height)
    (hch : fb.Channels) {m₀ : Mem} {st : State × Mem} (h : (pointer fb m₀).Reachable st) :
    (0 ≤ st.1.x ∧ st.1.x < fb.width ∧ 0 ≤ st.1.y ∧ st.1.y < fb.height) ∧
      st.1.packetIndex < st.1.packetSize ∧
      ∀ a < fb.width, ∀ b < fb.height,
        fb.vbeGetpixel (mouseEraseCursor (some fb) st.1 st.2).2 a b = fb.vbeGetpixel m₀ a b := by
  obtain ⟨hw', hh'⟩ := size_lt fb hw hh
  have hinv : Inv fb m₀ st := by
    refine h.invariant (Inv fb m₀) ?_ ?_
    · rintro st ⟨d, rfl⟩
      exact inv_init hw hh d
    · rintro st op st' hst rfl
      cases op with
      | handler status data => exact hst.handler hw hh status data
      | update => exact hst.update hch hw hh
  exact ⟨⟨hinv.xRange.1, hinv.xRange.2, hinv.yRange.1, hinv.yRange.2⟩, hinv.index,
    fun a ha b hb => hinv.saved.erase hch hw' hh' ha hb⟩

/-- A screen of 20 by 10 pixels with 24 bits each. -/
def smallScreen : Framebuffer := ⟨⟨20, 10, 60, 24, 16, 8, 0⟩, .inl rfl, by decide, by decide⟩

/-- The mouse is moved by 5 to the right and the cursor drawn again. -/
def smallMove : State × Mem :=
  [Op.handler 1 8, .handler 1 5, .handler 1 0, .update].foldl (step (some smallScreen))
    (mouseInit (some smallScreen) ⟨true, false⟩ fun _ => 7)

/-- The cursor on a small screen, which it does not fit on, after a movement. -/
theorem cursor_never_damages_smallMove : 1 ≤ smallScreen.width ∧ 1 ≤ smallScreen.height ∧
    smallScreen.Channels ∧ (pointer smallScreen fun _ => 7).Reachable smallMove ∧
    smallMove.1.cursorOldX = 15 ∧
    ∀ a < smallScreen.width, ∀ b < smallScreen.height,
      smallScreen.vbeGetpixel (mouseEraseCursor (some smallScreen) smallMove.1 smallMove.2).2 a b =
        smallScreen.vbeGetpixel (fun _ => 7) a b := by
  have hch : smallScreen.Channels := by
    constructor <;> decide
  have hstep : ∀ st op, (pointer smallScreen fun _ => 7).Reachable st →
      (pointer smallScreen fun _ => 7).Reachable (step (some smallScreen) st op) :=
    fun st op hst => .step hst (show (pointer smallScreen fun _ => 7).step st op _ from rfl)
  have hreach : (pointer smallScreen fun _ => 7).Reachable smallMove :=
    hstep _ .update (hstep _ (.handler 1 0) (hstep _ (.handler 1 5) (hstep _ (.handler 1 8)
      (.init ⟨⟨true, false⟩, rfl⟩))))
  exact ⟨by decide, by decide, hch, hreach, by decide +kernel,
    (cursor_never_damages (by decide) (by decide) hch hreach).2.2⟩

end BengalTiger.Mouse
