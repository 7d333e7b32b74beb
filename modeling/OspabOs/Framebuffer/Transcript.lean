import Mathlib
import OspabOs.Framebuffer.Console

/-!
# The console as a window on its transcript

What the console is for: all that is written to it forms a transcript of
lines, and the screen shows `rows` consecutive lines of it. A line that
scrolls off the top leaves the screen but stays, unchanged, in the
transcript. `Transcript` states this as a machine of its own. Its lines never
move, and where the console scrolls, it moves the first line shown (`top`)
down by one instead.

**The refinement.** `Shows con t` says three things. The console's grid is
the window of the transcript from `top`. The cursor is at the same place in
both. The cursor is on the grid. Every operation keeps `Shows` and never
fails (`Shows.step`). So every run of console operations succeeds and shows
the transcript's run of the same operations (`Shows.run`).
-/

namespace OspabOs.Framebuffer

/-- The console's text as its reader sees it. -/
structure Transcript where
  initialized : Bool
  width : Nat
  height : Nat
  fgColor : UInt32
  bgColor : UInt32
  cursorVisible : Bool
  /-- Every line shown so far, from the first one on. -/
  lines : Nat → Nat → Cell
  /-- The first line on the screen. -/
  top : Nat
  /-- The cursor, as a line of the transcript and a column. -/
  line : Nat
  col : Nat

namespace Transcript

def cols (t : Transcript) : Nat := t.width / charWidth

def rows (t : Transcript) : Nat := t.height / charHeight

/-- The boot loader's screen, nothing yet scrolled. -/
def boot (fb : BootFramebuffer) : Transcript where
  initialized := true
  width := fb.width
  height := fb.height
  fgColor := 0x00FFFFFF
  bgColor := 0x00000000
  cursorVisible := true
  lines := fb.screen
  top := 0
  line := 0
  col := 0

/-- A character at a place of the transcript; only printable ASCII shows. -/
def draw (t : Transcript) (line col : Nat) (c : Char) : Transcript :=
  if t.initialized = false ∨ c.toNat < 32 ∨ 126 < c.toNat then t
  else { t with lines := paint t.lines line col (.glyph c t.fgColor t.bgColor) }

/-- A block at a place of the transcript. -/
def block (t : Transcript) (line col : Nat) (visible : Bool) : Transcript :=
  if t.initialized = false then t
  else { t with lines := paint t.lines line col (.solid (if visible then t.fgColor else t.bgColor)) }

/-- The cursor goes down a line. From the screen's last line, the screen
moves one line down the transcript, and the line it uncovers shows in the
background colour. -/
def newLine (t : Transcript) : Transcript :=
  if t.line + 1 < t.top + t.rows then { t with line := t.line + 1 }
  else
    { t with line := t.line + 1, top := t.top + 1,
             lines := Function.update t.lines (t.line + 1) fun _ => .solid t.bgColor }

def writeChar (t : Transcript) (c : Char) : Transcript :=
  if t.initialized = false then t
  else
    match c with
    | '\n' => newLine { t with col := 0 }
    | '\r' => { t with col := 0 }
    | '\x08' => if 0 < t.col then draw { t with col := t.col - 1 } t.line (t.col - 1) ' ' else t
    | c =>
      let drawn := draw t t.line t.col c
      if t.col + 1 < t.cols then { drawn with col := t.col + 1 } else newLine { drawn with col := 0 }

/-- Clearing starts the transcript again from a cleared screen. -/
def clear (t : Transcript) : Transcript :=
  if t.initialized = false ∨ t.width = 0 ∨ t.height = 0 then t
  else { t with lines := fun _ _ => .cleared (t.bgColor ||| 0xFF000000), top := 0, line := 0, col := 0 }

def drawCharCell (t : Transcript) (row col : Nat) (c : Char) (fg bg : UInt32) : Transcript :=
  if t.initialized = false ∨ t.rows ≤ row ∨ t.cols ≤ col then t
  else
    let drawn := draw { t with fgColor := fg, bgColor := bg } (t.top + row) col (if c.toNat < 128 then c else '?')
    { drawn with fgColor := t.fgColor, bgColor := t.bgColor }

/-- The console's operations, on the transcript: a row of the screen is the
line that many lines below `top`. -/
def step (t : Transcript) : Op → Transcript
  | .setColors fg bg => { t with fgColor := fg, bgColor := bg }
  | .clear => clear t
  | .writeChar c => writeChar t c
  | .drawCharCell row col c fg bg => drawCharCell t row col c fg bg
  | .drawCursor visible => block t t.line t.col visible
  | .drawCursorAt row col visible => block t (t.top + row) col visible
  | .toggleCursor => block { t with cursorVisible := !t.cursorVisible } t.line t.col (!t.cursorVisible)
  | .hideCursor => if t.cursorVisible then block t t.line t.col false else t
  | .showCursor => block { t with cursorVisible := true } t.line t.col true

/-- Drawing changes nothing but the lines. -/
theorem draw_eq (t : Transcript) (line col : Nat) (c : Char) :
    t.draw line col c = { t with lines := (t.draw line col c).lines } := by
  unfold draw
  split <;> rfl

theorem writeChar_lineFeed (t : Transcript) (init : t.initialized = true) :
    t.writeChar '\n' = newLine { t with col := 0 } := by
  simp [writeChar, init]

theorem writeChar_return (t : Transcript) (init : t.initialized = true) :
    t.writeChar '\r' = { t with col := 0 } := by
  simp [writeChar, init]

theorem writeChar_backspace (t : Transcript) (init : t.initialized = true) :
    t.writeChar '\x08' = if 0 < t.col then draw { t with col := t.col - 1 } t.line (t.col - 1) ' ' else t := by
  simp [writeChar, init]

theorem writeChar_other (t : Transcript) (init : t.initialized = true) {c : Char} (lf : c ≠ '\n')
    (cr : c ≠ '\r') (bs : c ≠ '\x08') :
    t.writeChar c =
      if t.col + 1 < t.cols then { draw t t.line t.col c with col := t.col + 1 }
      else newLine { draw t t.line t.col c with col := 0 } := by
  unfold writeChar
  rw [if_neg (by simp [init])]
  split
  · exact absurd rfl lf
  · exact absurd rfl cr
  · exact absurd rfl bs
  · rfl

end Transcript

/-! ## The screen as a window -/

/-- Each of the first `rows` rows of the screen is the transcript's line
that many lines below `top`. -/
def Window (screen lines : Nat → Nat → Cell) (top rows : Nat) : Prop :=
  ∀ row < rows, screen row = lines (top + row)

section Window

variable {screen lines : Nat → Nat → Cell} {top rows : Nat}

/-- A cell painted on the screen and on the line it shows, wherever it is. -/
theorem Window.paint (window : Window screen lines top rows) (row col : Nat) {cell cell' : Cell}
    (same : cell = cell') :
    Window (paint screen row col cell) (paint lines (top + row) col cell') top rows := by
  intro r below
  unfold Framebuffer.paint
  subst same
  by_cases here : r = row
  · subst here
    rw [Function.update_self, Function.update_self, window r below]
  · rw [Function.update_of_ne here, Function.update_of_ne (by omega), window r below]

/-- Scrolling the screen is moving the window one line down the transcript. -/
theorem Window.scroll {con : Console} (init : con.initialized = true) (pos : 0 < con.rows)
    (window : Window con.screen lines top con.rows) :
    Window (scroll con).screen (Function.update lines (top + con.rows) fun _ => .solid con.bgColor)
      (top + 1) con.rows := by
  intro r below
  rw [scroll_screen con init pos]
  by_cases last : r + 1 = con.rows
  · rw [if_neg (by omega), if_pos last, show top + 1 + r = top + con.rows by omega, Function.update_self]
  · rw [if_pos (by omega), Function.update_of_ne (by omega), window (r + 1) (by omega)]
    congr 1
    omega

end Window

/-! ## The console shows its transcript -/

/-- The console shows the transcript: the same settings, the cursor at the
same place and on the grid, and the grid the window of the transcript
from `top`. -/
structure Shows (con : Console) (t : Transcript) : Prop where
  initialized : con.initialized = t.initialized
  width : con.width = t.width
  height : con.height = t.height
  fgColor : con.fgColor = t.fgColor
  bgColor : con.bgColor = t.bgColor
  cursorVisible : con.cursorVisible = t.cursorVisible
  col : con.cursorX = t.col
  line : t.top + con.cursorY = t.line
  col_lt : con.cursorX < con.cols
  row_lt : con.cursorY < con.rows
  window : Window con.screen t.lines t.top con.rows

section Shows

variable {con : Console} {t : Transcript}

theorem Shows.cols_eq (h : Shows con t) : con.cols = t.cols := by
  rw [Console.cols, Transcript.cols, h.width]

theorem Shows.rows_eq (h : Shows con t) : con.rows = t.rows := by
  rw [Console.rows, Transcript.rows, h.height]

/-- A new screen that is the window of the new lines. -/
theorem Shows.of_window (h : Shows con t) {screen lines : Nat → Nat → Cell}
    (window : Window screen lines t.top con.rows) :
    Shows { con with screen := screen } { t with lines := lines } :=
  { h with window := window }

/-- The cursor back to the first column, as `'\r'` does. -/
theorem Shows.home (h : Shows con t) : Shows { con with cursorX := 0 } { t with col := 0 } :=
  { h with col := rfl, col_lt := Nat.lt_of_le_of_lt (Nat.zero_le _) h.col_lt }

theorem Shows.drawChar (h : Shows con t) (row col : Nat) {line col' : Nat} (atLine : t.top + row = line)
    (atCol : col = col') (c : Char) :
    Shows (drawChar con row col c) (t.draw line col' c) := by
  subst atLine atCol
  unfold Framebuffer.drawChar Transcript.draw
  by_cases hidden : t.initialized = false ∨ c.toNat < 32 ∨ 126 < c.toNat
  · rw [if_pos (by rw [h.initialized]; exact hidden), if_pos hidden]
    exact h
  · rw [if_neg (by rw [h.initialized]; exact hidden), if_neg hidden]
    exact h.of_window (h.window.paint row col (by rw [h.fgColor, h.bgColor]))

theorem Shows.drawCursorAt (h : Shows con t) (row col : Nat) {visible visible' : Bool} (same : visible = visible') :
    Shows (drawCursorAt con row col visible) (t.block (t.top + row) col visible') := by
  subst same
  unfold Framebuffer.drawCursorAt Transcript.block
  by_cases off : t.initialized = false
  · rw [if_pos (by rw [h.initialized]; exact off), if_pos off]
    exact h
  · rw [if_neg (by rw [h.initialized]; exact off), if_neg off]
    exact h.of_window (h.window.paint row col (by rw [h.fgColor, h.bgColor]))

theorem Shows.drawCursor (h : Shows con t) {visible visible' : Bool} (same : visible = visible') :
    Shows (drawCursor con visible) (t.block t.line t.col visible') := by
  unfold Framebuffer.drawCursor
  rw [← h.line, ← h.col]
  exact h.drawCursorAt _ _ same

/-- The line feed: below the last row the console scrolls where the
transcript moves its window. -/
theorem Shows.newLine (h : Shows con t) (init : con.initialized = true) :
    ∃ con', newLine con = some con' ∧ Shows con' t.newLine := by
  unfold Framebuffer.newLine Transcript.newLine
  by_cases down : con.cursorY + 1 < con.rows
  · rw [if_pos down, if_pos (by rw [← h.line, ← h.rows_eq]; omega)]
    have line := h.line
    exact ⟨_, rfl, { h with
      line := by show t.top + (con.cursorY + 1) = t.line + 1; omega
      row_lt := down }⟩
  · have pos : 0 < con.rows := Nat.lt_of_le_of_lt (Nat.zero_le _) h.row_lt
    have lineAt : t.line + 1 = t.top + con.rows := by
      have := h.line
      have := h.row_lt
      omega
    rw [if_neg down, if_neg (by omega), if_neg (by rw [← h.rows_eq]; omega)]
    -- the console scrolls where the transcript uncovers its next line
    have moved : Window (scroll { con with cursorY := con.rows - 1 }).screen
        (Function.update t.lines (t.line + 1) fun _ => .solid t.bgColor) (t.top + 1) con.rows := by
      rw [lineAt, ← h.bgColor]
      exact Window.scroll init pos h.window
    rw [scroll_eq]
    exact ⟨_, rfl, { h with
      line := by show t.top + 1 + (con.rows - 1) = t.line + 1; omega
      row_lt := by show con.rows - 1 < con.rows; omega
      window := moved }⟩

theorem Shows.writeChar (h : Shows con t) (c : Char) :
    ∃ con', writeChar con c = some con' ∧ Shows con' (t.writeChar c) := by
  by_cases off : t.initialized = false
  · -- without a framebuffer neither changes
    refine ⟨con, ?_, ?_⟩
    · unfold Framebuffer.writeChar
      rw [if_pos (by rw [h.initialized]; exact off)]
    · unfold Transcript.writeChar
      rw [if_pos off]
      exact h
  have init' : t.initialized = true := by simpa using off
  have init : con.initialized = true := by rw [h.initialized]; exact init'
  by_cases lf : c = '\n'
  · subst lf
    rw [writeChar_lineFeed con init, t.writeChar_lineFeed init']
    exact h.home.newLine init
  by_cases cr : c = '\r'
  · subst cr
    rw [writeChar_return con init, t.writeChar_return init']
    exact ⟨_, rfl, h.home⟩
  by_cases bs : c = '\x08'
  · subst bs
    rw [writeChar_backspace con init, t.writeChar_backspace init']
    by_cases moved : 0 < con.cursorX
    · rw [if_pos moved, if_pos (by rw [← h.col]; exact moved)]
      have back : Shows { con with cursorX := con.cursorX - 1 } { t with col := t.col - 1 } :=
        { h with
          col := by show con.cursorX - 1 = t.col - 1; rw [h.col]
          col_lt := by show con.cursorX - 1 < con.cols; have := h.col_lt; omega }
      exact ⟨_, rfl, back.drawChar _ _ h.line (by rw [h.col]) ' '⟩
    · rw [if_neg moved, if_neg (by rw [← h.col]; exact moved)]
      exact ⟨_, rfl, h⟩
  -- any other character is drawn at the cursor, which then moves on or wraps
  rw [writeChar_other con init lf cr bs, t.writeChar_other init' lf cr bs]
  have drawn := h.drawChar _ _ h.line h.col c
  rw [drawChar_eq, Transcript.draw_eq] at drawn ⊢
  by_cases fits : con.cursorX + 1 < con.cols
  · rw [if_pos fits, if_pos (by rw [← h.col, ← h.cols_eq]; exact fits)]
    exact ⟨_, rfl, { drawn with col := by show con.cursorX + 1 = t.col + 1; rw [h.col], col_lt := fits }⟩
  · rw [if_neg fits, if_neg (by rw [← h.col, ← h.cols_eq]; exact fits)]
    exact drawn.home.newLine init

theorem Shows.clear (h : Shows con t) : Shows (clear con) t.clear := by
  unfold Framebuffer.clear Transcript.clear
  by_cases off : t.initialized = false ∨ t.width = 0 ∨ t.height = 0
  · rw [if_pos (by rw [h.initialized, h.width, h.height]; exact off), if_pos off]
    exact h
  · rw [if_neg (by rw [h.initialized, h.width, h.height]; exact off), if_neg off]
    exact { h with
      col := rfl
      line := rfl
      col_lt := Nat.lt_of_le_of_lt (Nat.zero_le _) h.col_lt
      row_lt := Nat.lt_of_le_of_lt (Nat.zero_le _) h.row_lt
      window := fun _ _ => by rw [h.bgColor] }

theorem Shows.drawCharCell (h : Shows con t) (row col : Nat) (c : Char) (fg bg : UInt32) :
    Shows (drawCharCell con row col c fg bg) (t.drawCharCell row col c fg bg) := by
  unfold Framebuffer.drawCharCell Transcript.drawCharCell
  by_cases off : t.initialized = false ∨ t.rows ≤ row ∨ t.cols ≤ col
  · rw [if_pos (by rw [h.initialized, h.rows_eq, h.cols_eq]; exact off), if_pos off]
    exact h
  · rw [if_neg (by rw [h.initialized, h.rows_eq, h.cols_eq]; exact off), if_neg off]
    -- the character's own colours are swapped in for the drawing and back out after
    have swapped : Shows { con with fgColor := fg, bgColor := bg } { t with fgColor := fg, bgColor := bg } :=
      { h with fgColor := rfl, bgColor := rfl }
    have drawn := swapped.drawChar row col rfl rfl (if c.toNat < 128 then c else '?')
    dsimp only
    rw [drawChar_eq, Transcript.draw_eq] at drawn ⊢
    exact { drawn with fgColor := h.fgColor, bgColor := h.bgColor }

/-- Every operation succeeds and keeps the console showing the transcript. -/
theorem Shows.step (h : Shows con t) (op : Op) : ∃ con', step con op = some con' ∧ Shows con' (t.step op) := by
  cases op with
  | setColors fg bg => exact ⟨_, rfl, { h with fgColor := rfl, bgColor := rfl }⟩
  | clear => exact ⟨_, rfl, h.clear⟩
  | writeChar c => exact h.writeChar c
  | drawCharCell row col c fg bg => exact ⟨_, rfl, h.drawCharCell row col c fg bg⟩
  | drawCursor visible => exact ⟨_, rfl, h.drawCursor rfl⟩
  | drawCursorAt row col visible => exact ⟨_, rfl, h.drawCursorAt row col rfl⟩
  | toggleCursor =>
    have flipped : Shows { con with cursorVisible := !con.cursorVisible } { t with cursorVisible := !t.cursorVisible } :=
      { h with cursorVisible := by show (!con.cursorVisible) = !t.cursorVisible; rw [h.cursorVisible] }
    exact ⟨_, rfl, flipped.drawCursor flipped.cursorVisible⟩
  | hideCursor =>
    refine ⟨_, rfl, ?_⟩
    show Shows (if con.cursorVisible then Framebuffer.drawCursor con false else con)
      (if t.cursorVisible then t.block t.line t.col false else t)
    by_cases shown : t.cursorVisible = true
    · rw [if_pos (h.cursorVisible.trans shown), if_pos shown]
      exact h.drawCursor rfl
    · rw [if_neg (by rw [h.cursorVisible]; exact shown), if_neg shown]
      exact h
  | showCursor =>
    have shown : Shows { con with cursorVisible := true } { t with cursorVisible := true } :=
      { h with cursorVisible := rfl }
    exact ⟨_, rfl, shown.drawCursor rfl⟩

/-- The refinement over whole runs. -/
theorem Shows.run (h : Shows con t) (ops : List Op) :
    ∃ con', ops.foldlM Framebuffer.step con = some con' ∧ Shows con' (ops.foldl Transcript.step t) :=
  Machine.foldlM_simulation Shows (fun _ _ op related => related.step op) h ops

end Shows

/-- A framebuffer of at least one text cell shows its boot screen as the
start of the transcript. -/
theorem shows_boot (fb : BootFramebuffer) (wide : charWidth ≤ fb.width) (tall : charHeight ≤ fb.height) :
    Shows (boot fb) (Transcript.boot fb) where
  initialized := rfl
  width := rfl
  height := rfl
  fgColor := rfl
  bgColor := rfl
  cursorVisible := rfl
  col := rfl
  line := rfl
  col_lt := Nat.div_pos wide (by decide)
  row_lt := Nat.div_pos tall (by decide)
  window := fun row _ => by
    show fb.screen row = fb.screen (0 + row)
    rw [Nat.zero_add]

/-- After boot on a framebuffer of at least one text cell, every run of the
console's operations succeeds and shows the transcript of the same run:
the same settings, the cursor at the same place and on the grid, and each
row of the grid the line of the transcript that many lines below the first
one shown. -/
theorem console_shows_transcript (fb : BootFramebuffer) (wide : charWidth ≤ fb.width)
    (tall : charHeight ≤ fb.height) (ops : List Op) :
    ∃ con, ops.foldlM step (boot fb) = some con ∧ Shows con (ops.foldl Transcript.step (Transcript.boot fb)) :=
  (shows_boot fb wide tall).run ops

theorem console_shows_transcript_on_vga :
    charWidth ≤ 640 ∧ charHeight ≤ 480 ∧
      ∃ con, [Op.writeChar 'o', .writeChar 'k', .writeChar '\n', .toggleCursor].foldlM step
          (boot ⟨640, 480, fun _ _ => .cleared 0⟩) = some con ∧
        Shows con ([Op.writeChar 'o', .writeChar 'k', .writeChar '\n', .toggleCursor].foldl Transcript.step
          (Transcript.boot ⟨640, 480, fun _ _ => .cleared 0⟩)) :=
  ⟨by decide, by decide, console_shows_transcript ⟨640, 480, fun _ _ => .cleared 0⟩ (by decide) (by decide) _⟩

end OspabOs.Framebuffer
