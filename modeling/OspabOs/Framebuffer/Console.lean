import Mathlib
import OspabOs.Lib.Machine

/-!
# The framebuffer text console

`FramebufferConsole` draws text on the boot framebuffer. It uses cells of
`char_width` × `char_height` pixels, `cols` across and `rows` down, and it
keeps a text cursor. A character is drawn at the cursor, which then moves on.
At the end of a row the cursor wraps, and below the last row the screen
scrolls up one line.

The model keeps the framebuffer cell by cell. For each cell it records what
was drawn over it last (`Cell`). Pixels, the font bitmap and the pixel format
are left below the model. `draw_char` over a cell of the grid paints the whole
cell, and `scroll` moves whole lines of cells. `screen` is defined at every
row and column; only the cells of the grid are on the framebuffer.

In the release build, `self.rows - 1` wraps when the framebuffer is shorter
than one text line. `scroll` then copies from past the end of the
framebuffer. The model stops there with `none`.

**The laws.** `scroll`'s copy loop moves every line up by one, because it copies
from the top line down (`scroll_screen`).
-/

namespace OspabOs.Framebuffer

/-- `char_width`, in pixels; it never changes. -/
def charWidth : Nat := 8

/-- `char_height`, in pixels; it never changes. -/
def charHeight : Nat := 16

/-- What the framebuffer shows over one character cell, as last drawn. -/
inductive Cell where
  /-- `clear` stored this pixel value over the cell as it is, unconverted. -/
  | cleared (pixel : UInt32)
  /-- `put_pixel` painted every pixel of the cell in one colour. -/
  | solid (color : UInt32)
  /-- `draw_char` drew a printable ASCII character in these colours. -/
  | glyph (c : Char) (fg bg : UInt32)
  deriving DecidableEq, Repr

/-- `FramebufferConsole`, cell by cell. -/
structure Console where
  /-- `!fb_addr.is_null()`. -/
  initialized : Bool
  width : Nat
  height : Nat
  cursorX : Nat
  cursorY : Nat
  fgColor : UInt32
  bgColor : UInt32
  cursorVisible : Bool
  /-- What each cell shows, by row and then by column. -/
  screen : Nat → Nat → Cell

/-- `cols`, set to this by `init_from_limine` and never changed after. -/
def Console.cols (con : Console) : Nat := con.width / charWidth

/-- `rows`, set to this by `init_from_limine` and never changed after. -/
def Console.rows (con : Console) : Nat := con.height / charHeight

/-- `FramebufferConsole::empty()`, the console before boot. -/
def empty : Console where
  initialized := false
  width := 0
  height := 0
  cursorX := 0
  cursorY := 0
  fgColor := 0x00FFFFFF
  bgColor := 0x00000000
  cursorVisible := true
  screen := fun _ _ => .cleared 0

/-- What the boot loader hands over: the framebuffer's size in pixels and
what it already shows. -/
structure BootFramebuffer where
  width : Nat
  height : Nat
  screen : Nat → Nat → Cell

/-- `init_from_limine`. -/
def initFromLimine (con : Console) : Option BootFramebuffer → Console × Bool
  | some fb => ({ con with initialized := true, width := fb.width, height := fb.height, screen := fb.screen }, true)
  | none => (con, false)

/-- The console once the boot loader's framebuffer is in place. -/
def boot (fb : BootFramebuffer) : Console :=
  (initFromLimine empty (some fb)).1

/-- One cell of a screen replaced. -/
def paint (screen : Nat → Nat → Cell) (row col : Nat) (cell : Cell) : Nat → Nat → Cell :=
  Function.update screen row (Function.update (screen row) col cell)

/-- `draw_char` at the top left pixel of the cell in row `row` and column
`col`. Only printable ASCII is drawn. -/
def drawChar (con : Console) (row col : Nat) (c : Char) : Console :=
  if con.initialized = false ∨ c.toNat < 32 ∨ 126 < c.toNat then con
  else { con with screen := paint con.screen row col (.glyph c con.fgColor con.bgColor) }

/-- One turn of `scroll`'s copy loop: text line `line + 1` is copied onto line `line`. -/
def copyUp (screen : Nat → Nat → Cell) (line : Nat) : Nat → Nat → Cell :=
  Function.update screen line (screen (line + 1))

/-- `scroll`: the loop copies the lines up from the top one down, and the
last line is then painted in the background colour. -/
def scroll (con : Console) : Console :=
  if con.initialized = false then con
  else
    let moved := (List.range (con.rows - 1)).foldl copyUp con.screen
    { con with screen := Function.update moved (con.rows - 1) fun _ => .solid con.bgColor }

/-- The line feed shared by `'\n'` and the wrap at the end of a row. -/
def newLine (con : Console) : Option Console :=
  if con.cursorY + 1 < con.rows then some { con with cursorY := con.cursorY + 1 }
  -- `self.rows - 1` wraps on a framebuffer with no text line
  else if con.rows = 0 then none
  else some (scroll { con with cursorY := con.rows - 1 })

/-- `write_char`. -/
def writeChar (con : Console) (c : Char) : Option Console :=
  if con.initialized = false then some con
  else
    match c with
    | '\n' => newLine { con with cursorX := 0 }
    | '\r' => some { con with cursorX := 0 }
    | '\x08' =>
      if 0 < con.cursorX then
        let back := { con with cursorX := con.cursorX - 1 }
        some (drawChar back back.cursorY back.cursorX ' ')
      else some con
    | c =>
      let drawn := drawChar con con.cursorY con.cursorX c
      if drawn.cursorX + 1 < drawn.cols then some { drawn with cursorX := drawn.cursorX + 1 }
      else newLine { drawn with cursorX := 0 }

/-- `write_str`, one character after another. -/
def writeStr (con : Console) (s : List Char) : Option Console :=
  s.foldlM writeChar con

/-- `set_colors`. -/
def setColors (con : Console) (fg bg : UInt32) : Console :=
  { con with fgColor := fg, bgColor := bg }

/-- `clear`: the whole framebuffer gets the background colour with the
alpha byte set, stored without `put_pixel`'s conversion. -/
def clear (con : Console) : Console :=
  if con.initialized = false ∨ con.width = 0 ∨ con.height = 0 then con
  else { con with screen := fun _ _ => .cleared (con.bgColor ||| 0xFF000000), cursorX := 0, cursorY := 0 }

/-- `draw_char_cell`: one character in colours of its own, inside the grid;
a character past ASCII is drawn as `'?'`. -/
def drawCharCell (con : Console) (row col : Nat) (c : Char) (fg bg : UInt32) : Console :=
  if con.initialized = false ∨ con.rows ≤ row ∨ con.cols ≤ col then con
  else
    let ch := if c.toNat < 128 then c else '?'
    let drawn := drawChar { con with fgColor := fg, bgColor := bg } row col ch
    { drawn with fgColor := con.fgColor, bgColor := con.bgColor }

/-- `draw_cursor_at`: a block over the cell, in the foreground colour when
visible and in the background colour when not. The cell is not checked
against the grid. -/
def drawCursorAt (con : Console) (row col : Nat) (visible : Bool) : Console :=
  if con.initialized = false then con
  else { con with screen := paint con.screen row col (.solid (if visible then con.fgColor else con.bgColor)) }

/-- `draw_cursor`, which is `draw_cursor_at` at the cursor. -/
def drawCursor (con : Console) (visible : Bool) : Console :=
  drawCursorAt con con.cursorY con.cursorX visible

/-- `toggle_cursor`, called from the timer interrupt. -/
def toggleCursor (con : Console) : Console :=
  let flipped := { con with cursorVisible := !con.cursorVisible }
  drawCursor flipped flipped.cursorVisible

/-- `hide_cursor`. It leaves `cursor_visible` as it is. -/
def hideCursor (con : Console) : Console :=
  if con.cursorVisible then drawCursor con false else con

/-- `show_cursor`. -/
def showCursor (con : Console) : Console :=
  drawCursor { con with cursorVisible := true } true

/-- The console's operations, each one a call of the kernel's
`framebuffer::` functions made under the console's lock. -/
inductive Op where
  | setColors (fg bg : UInt32)
  | clear
  | writeChar (c : Char)
  | drawCharCell (row col : Nat) (c : Char) (fg bg : UInt32)
  | drawCursor (visible : Bool)
  | drawCursorAt (row col : Nat) (visible : Bool)
  | toggleCursor
  | hideCursor
  | showCursor

/-- One operation; only `write_char` can fail. -/
def step (con : Console) : Op → Option Console
  | .setColors fg bg => some (setColors con fg bg)
  | .clear => some (clear con)
  | .writeChar c => writeChar con c
  | .drawCharCell row col c fg bg => some (drawCharCell con row col c fg bg)
  | .drawCursor visible => some (drawCursor con visible)
  | .drawCursorAt row col visible => some (drawCursorAt con row col visible)
  | .toggleCursor => some (toggleCursor con)
  | .hideCursor => some (hideCursor con)
  | .showCursor => some (showCursor con)

/-! ## What each operation changes -/

section Frame

variable (con : Console)

/-- `draw_char` changes nothing but the screen. -/
theorem drawChar_eq (row col : Nat) (c : Char) :
    drawChar con row col c = { con with screen := (drawChar con row col c).screen } := by
  unfold drawChar
  split <;> rfl

theorem drawChar_screen_of_printable (init : con.initialized = true) {c : Char}
    (printable : 32 ≤ c.toNat ∧ c.toNat ≤ 126) (row col : Nat) :
    (drawChar con row col c).screen = paint con.screen row col (.glyph c con.fgColor con.bgColor) := by
  unfold drawChar
  rw [if_neg (by simp only [init, Bool.true_eq_false, false_or, not_or, Nat.not_lt]; omega)]

theorem drawChar_of_not_printable {c : Char} (hidden : ¬ (32 ≤ c.toNat ∧ c.toNat ≤ 126)) (row col : Nat) :
    drawChar con row col c = con := by
  unfold drawChar
  rw [if_pos (.inr (by omega))]

/-- `draw_cursor_at` changes nothing but the screen. -/
theorem drawCursorAt_eq (row col : Nat) (visible : Bool) :
    drawCursorAt con row col visible = { con with screen := (drawCursorAt con row col visible).screen } := by
  unfold drawCursorAt
  split <;> rfl

/-- `scroll` changes nothing but the screen. -/
theorem scroll_eq : scroll con = { con with screen := (scroll con).screen } := by
  unfold scroll
  split <;> rfl

theorem writeChar_lineFeed (init : con.initialized = true) :
    writeChar con '\n' = newLine { con with cursorX := 0 } := by
  simp [writeChar, init]

theorem writeChar_return (init : con.initialized = true) :
    writeChar con '\r' = some { con with cursorX := 0 } := by
  simp [writeChar, init]

theorem writeChar_backspace (init : con.initialized = true) :
    writeChar con '\x08' =
      if 0 < con.cursorX then some (drawChar { con with cursorX := con.cursorX - 1 } con.cursorY (con.cursorX - 1) ' ')
      else some con := by
  simp [writeChar, init]

theorem writeChar_other (init : con.initialized = true) {c : Char} (lf : c ≠ '\n') (cr : c ≠ '\r')
    (bs : c ≠ '\x08') :
    writeChar con c =
      if con.cursorX + 1 < con.cols then some { drawChar con con.cursorY con.cursorX c with cursorX := con.cursorX + 1 }
      else newLine { drawChar con con.cursorY con.cursorX c with cursorX := 0 } := by
  unfold writeChar
  rw [if_neg (by simp [init])]
  split
  · exact absurd rfl lf
  · exact absurd rfl cr
  · exact absurd rfl bs
  · rw [drawChar_eq]
    rfl

end Frame

/-! ## The copy loop of `scroll` -/

/-- After the first `k` turns of the loop, each line above `k` holds the
line that was below it, and the other lines are untouched. -/
theorem foldl_copyUp (screen : Nat → Nat → Cell) (k line : Nat) :
    (List.range k).foldl copyUp screen line = if line < k then screen (line + 1) else screen line := by
  -- turn `k` reads line `k + 1`, which no earlier turn has written
  induction k generalizing line with
  | zero => simp
  | succ k ih =>
    rw [List.range_succ, List.foldl_append, List.foldl_cons, List.foldl_nil, copyUp]
    by_cases here : line = k
    · subst here
      rw [Function.update_self, ih, if_neg (by omega), if_pos (by omega)]
    · rw [Function.update_of_ne here, ih]
      by_cases below : line < k
      · rw [if_pos below, if_pos (by omega)]
      · rw [if_neg below, if_neg (by omega)]

/-- `scroll` moves every line of the grid up by one and paints the last one
in the background colour. -/
theorem scroll_screen (con : Console) (init : con.initialized = true) (pos : 0 < con.rows) (line : Nat) :
    (scroll con).screen line =
      if line + 1 < con.rows then con.screen (line + 1)
      else if line + 1 = con.rows then fun _ => .solid con.bgColor
      else con.screen line := by
  unfold scroll
  rw [if_neg (by simp [init])]
  dsimp only
  by_cases last : line + 1 = con.rows
  · rw [show line = con.rows - 1 by omega, Function.update_self, if_neg (by omega), if_pos (by omega)]
  · rw [Function.update_of_ne (by omega), foldl_copyUp, if_neg last]
    by_cases above : line < con.rows - 1
    · rw [if_pos above, if_pos (by omega)]
    · rw [if_neg above, if_neg (by omega)]

end OspabOs.Framebuffer
