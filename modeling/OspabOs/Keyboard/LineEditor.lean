import OspabOs.Lib.ArrayLoop
import OspabOs.Lib.Text

/-!
# The shell's line editor

`drivers::keyboard` keeps the line being typed in `STATE`, a
`KeyboardState` with a 256-byte buffer, a cursor, and five history rows of
256 bytes with their lengths. Five functions edit it, each under the lock:
`handle_char` (Ctrl+C, Enter, Backspace, Tab and printable ASCII; any
other character is ignored) and `handle_arrow_{up,down,left,right}`.

Arrays are functions from index to element (`Lib.ArrayLoop`), and the
hand-written moves over them are that library's loops. What the handlers
print is left out: it reads the state but never writes it. `execute_command_impl`,
which Enter calls after dropping the lock, and `print_history` read the
history and write nothing here.

Tab asks the VFS for the listings of `/bin` and `.`; `Input.char` carries
those names, in that order, as they are when the key arrives. The redraw
after a completion computes `cursor_pos - 1`, which is in range because a
completion of a non-empty name always leaves the cursor past the start.
-/

namespace OspabOs.Keyboard

open ArrayLoop

/-- `CMD_BUFFER_SIZE`. -/
def cmdBufferSize : Nat := 256

/-- `HISTORY_SIZE`. -/
def historySize : Nat := 5

/-- The line-editing fields of `KeyboardState`; the scancode decoder in
`keyboard` is not read by the editor and is left out. -/
structure KeyboardState where
  cmdBuf : Nat → UInt8
  cmdLen : Nat
  cursorPos : Nat
  history : Nat → Nat → UInt8
  historyLens : Nat → Nat
  historyCount : Nat
  historyPos : Option Nat

/-- `STATE` as the kernel starts. -/
def initialState : KeyboardState where
  cmdBuf := fun _ => 0
  cmdLen := 0
  cursorPos := 0
  history := fun _ _ => 0
  historyLens := fun _ => 0
  historyCount := 0
  historyPos := none

/-- `char::is_control`: the general category `Cc`. -/
def isControl (c : Char) : Bool :=
  c.toNat < 0x20 || (0x7F ≤ c.toNat && c.toNat ≤ 0x9F)

/-! ## `handle_char` -/

/-- The printable branch: insert `c as u8` at the cursor if the line has
room for it and its terminator. -/
def insertChar (s : KeyboardState) (b : UInt8) : KeyboardState :=
  let s := { s with historyPos := none }
  if s.cmdLen < cmdBufferSize - 1 then
    let buf := if s.cursorPos < s.cmdLen then shiftUp s.cmdBuf s.cursorPos s.cmdLen 1 else s.cmdBuf
    { s with cmdBuf := Function.update buf s.cursorPos b, cmdLen := s.cmdLen + 1,
             cursorPos := s.cursorPos + 1 }
  else s

/-- Enter: a non-empty line becomes history row 0, the rows below move
down one (the last falls off when all five are in use), and the line is
cleared. -/
def enter (s : KeyboardState) : KeyboardState :=
  let s := { s with historyPos := none, cursorPos := 0 }
  let s :=
    if s.cmdLen > 0 then
      let count := if s.historyCount < historySize then s.historyCount + 1 else s.historyCount
      -- the loop writes `history[i]` and `history_lens[i]` in one body; the
      -- two arrays are disjoint, so it is the two moves one after the other
      { s with historyCount := count,
               history := Function.update (shiftUpPrev s.history 1 count) 0 s.cmdBuf,
               historyLens := Function.update (shiftUpPrev s.historyLens 1 count) 0 s.cmdLen }
    else s
  { s with cmdLen := 0 }

/-- Backspace: delete the byte before the cursor. -/
def backspace (s : KeyboardState) : KeyboardState :=
  let s := { s with historyPos := none }
  if s.cursorPos > 0 then
    { s with cmdBuf := shiftDown s.cmdBuf s.cursorPos s.cmdLen, cmdLen := s.cmdLen - 1,
             cursorPos := s.cursorPos - 1 }
  else s

/-- The scan of the Tab branch: back from the cursor while the byte before
is not a space. -/
def tokenStart (buf : Nat → UInt8) : Nat → Nat
  | 0 => 0
  | n + 1 => if buf n != 0x20 then tokenStart buf n else n + 1

/-- The bytes of `prefix`: the token when it is UTF-8, `""` when it is not. -/
def completionPrefix (token : List UInt8) : List UInt8 :=
  if (Text.fromUtf8 token).isSome then token else []

/-- The two listing loops: every name that starts with `prefix`, in order. -/
def candidates (pre : List UInt8) (names : List (List Char)) : List (List Char) :=
  names.filter (fun name => pre.isPrefixOf (Text.encode name))

/-- Tab: with exactly one candidate, insert the rest of it at the cursor if
the line stays shorter than the buffer; several candidates are only listed
on the screen. -/
def tab (s : KeyboardState) (names : List (List Char)) : KeyboardState :=
  let pre := completionPrefix (slice s.cmdBuf (tokenStart s.cmdBuf s.cursorPos) s.cursorPos)
  match candidates pre names with
  | [completion] =>
    let suffix := (Text.encode completion).drop pre.length
    if s.cmdLen + suffix.length ≥ cmdBufferSize then s
    else
      { s with cmdBuf := writeList (shiftUp s.cmdBuf s.cursorPos s.cmdLen suffix.length) s.cursorPos suffix,
               cmdLen := s.cmdLen + suffix.length, cursorPos := s.cursorPos + suffix.length }
  | _ => s

/-- `handle_char`. -/
def handleChar (s : KeyboardState) (c : Char) (names : List (List Char)) : KeyboardState :=
  match c with
  | '\x03' => { s with historyPos := none, cmdLen := 0, cursorPos := 0 }
  | '\n' | '\r' => enter s
  | '\x08' => backspace s
  | '\t' => tab s names
  | c => if c.isAscii && !isControl c then insertChar s c.toUInt8 else s

/-! ## The arrows -/

/-- Load history row `pos` into the line, cursor at its end. -/
def loadHistory (s : KeyboardState) (pos : Nat) : KeyboardState :=
  { s with historyPos := some pos, cmdLen := s.historyLens pos, cmdBuf := s.history pos,
           cursorPos := s.historyLens pos }

/-- `handle_arrow_up`: one row older, stopping at the oldest. -/
def handleArrowUp (s : KeyboardState) : KeyboardState :=
  if s.historyCount = 0 then s
  else
    match s.historyPos with
    | none => loadHistory s 0
    | some pos => if pos + 1 < s.historyCount then loadHistory s (pos + 1) else s

/-- `handle_arrow_down`: one row newer; past the newest, an empty line. -/
def handleArrowDown (s : KeyboardState) : KeyboardState :=
  match s.historyPos with
  | none => s
  | some 0 => { s with historyPos := none, cmdLen := 0, cursorPos := 0 }
  | some (pos + 1) => loadHistory s pos

/-- `handle_arrow_left`. -/
def handleArrowLeft (s : KeyboardState) : KeyboardState :=
  if s.cursorPos > 0 then { s with cursorPos := s.cursorPos - 1 } else s

/-- `handle_arrow_right`. -/
def handleArrowRight (s : KeyboardState) : KeyboardState :=
  if s.cursorPos < s.cmdLen then { s with cursorPos := s.cursorPos + 1 } else s

/-- What `handle_scancode` hands the editor: a character, with the names
`/bin` and `.` list at that moment, or an arrow. -/
inductive Input where
  | char (c : Char) (names : List (List Char))
  | arrowUp
  | arrowDown
  | arrowLeft
  | arrowRight

/-- One key through the editor. -/
def step (s : KeyboardState) : Input → KeyboardState
  | .char c names => handleChar s c names
  | .arrowUp => handleArrowUp s
  | .arrowDown => handleArrowDown s
  | .arrowLeft => handleArrowLeft s
  | .arrowRight => handleArrowRight s

/-! ## The invariant -/

/-- What every reachable state keeps: the cursor inside the line, the line
shorter than the buffer, at most five history rows, each shorter than the
buffer, and a browsing position naming one of them. -/
structure Invariant (s : KeyboardState) : Prop where
  cursor_le : s.cursorPos ≤ s.cmdLen
  len_lt : s.cmdLen < cmdBufferSize
  count_le : s.historyCount ≤ historySize
  lens_lt : ∀ i < s.historyCount, s.historyLens i < cmdBufferSize
  pos_lt : ∀ i, s.historyPos = some i → i < s.historyCount

theorem cmdBufferSize_pos : 0 < cmdBufferSize := by decide

theorem initialState_invariant : Invariant initialState where
  cursor_le := Nat.le_refl 0
  len_lt := by decide
  count_le := by decide
  lens_lt := fun _ lt => absurd lt (Nat.not_lt_zero _)
  pos_lt := fun _ none_eq => by simp [initialState] at none_eq

namespace Invariant

variable {s : KeyboardState}

theorem insertChar (inv : Invariant s) (b : UInt8) : Invariant (insertChar s b) := by
  by_cases room : s.cmdLen < cmdBufferSize - 1
  · simp only [OspabOs.Keyboard.insertChar, if_pos room]
    refine ⟨Nat.succ_le_succ inv.cursor_le, ?_, inv.count_le, inv.lens_lt, fun i none_eq => by cases none_eq⟩
    dsimp only
    omega
  · simp only [OspabOs.Keyboard.insertChar, if_neg room]
    exact ⟨inv.cursor_le, inv.len_lt, inv.count_le, inv.lens_lt, fun i none_eq => by cases none_eq⟩

theorem enter (inv : Invariant s) : Invariant (enter s) := by
  have count_le := inv.count_le
  by_cases nonempty : s.cmdLen > 0
  · simp only [OspabOs.Keyboard.enter, if_pos nonempty]
    refine ⟨Nat.zero_le 0, cmdBufferSize_pos, ?_, ?_, fun i none_eq => by cases none_eq⟩
    · dsimp only
      split <;> omega
    -- row 0 is the line; the rows below it are the old rows one place up
    intro i lt
    dsimp only at lt ⊢
    have below : i ≤ s.historyCount := by split at lt <;> omega
    rw [Function.update_apply, shiftUpPrev_apply]
    by_cases top : i = 0
    · rw [if_pos top]
      exact inv.len_lt
    · rw [if_neg top, if_pos ⟨by omega, lt⟩]
      exact inv.lens_lt (i - 1) (by omega)
  · simp only [OspabOs.Keyboard.enter, if_neg nonempty]
    exact ⟨Nat.zero_le 0, cmdBufferSize_pos, count_le, inv.lens_lt, fun i none_eq => by cases none_eq⟩

theorem backspace (inv : Invariant s) : Invariant (backspace s) := by
  by_cases moves : s.cursorPos > 0
  · simp only [OspabOs.Keyboard.backspace, if_pos moves]
    have := inv.cursor_le
    have := inv.len_lt
    refine ⟨?_, ?_, inv.count_le, inv.lens_lt, fun i none_eq => by cases none_eq⟩ <;> dsimp only <;> omega
  · simp only [OspabOs.Keyboard.backspace, if_neg moves]
    exact ⟨inv.cursor_le, inv.len_lt, inv.count_le, inv.lens_lt, fun i none_eq => by cases none_eq⟩

theorem tab (inv : Invariant s) (names : List (List Char)) : Invariant (tab s names) := by
  dsimp only [OspabOs.Keyboard.tab]
  split
  · split_ifs with full
    · exact inv
    · have := inv.cursor_le
      refine ⟨?_, ?_, inv.count_le, inv.lens_lt, inv.pos_lt⟩ <;> dsimp only <;> omega
  · exact inv

theorem cancel (inv : Invariant s) :
    Invariant { s with historyPos := none, cmdLen := 0, cursorPos := 0 } :=
  ⟨Nat.zero_le 0, cmdBufferSize_pos, inv.count_le, inv.lens_lt, fun i none_eq => by cases none_eq⟩

theorem handleChar (inv : Invariant s) (c : Char) (names : List (List Char)) :
    Invariant (handleChar s c names) := by
  unfold OspabOs.Keyboard.handleChar
  split
  · exact inv.cancel
  · exact inv.enter
  · exact inv.enter
  · exact inv.backspace
  · exact inv.tab names
  · split
    · exact inv.insertChar _
    · exact inv

theorem loadHistory (inv : Invariant s) {pos : Nat} (lt : pos < s.historyCount) :
    Invariant (loadHistory s pos) where
  cursor_le := Nat.le_refl _
  len_lt := inv.lens_lt pos lt
  count_le := inv.count_le
  lens_lt := inv.lens_lt
  pos_lt := fun i some_eq => by cases some_eq; exact lt

theorem handleArrowUp (inv : Invariant s) : Invariant (handleArrowUp s) := by
  unfold OspabOs.Keyboard.handleArrowUp
  split_ifs with empty
  · exact inv
  · split
    · exact inv.loadHistory (by omega)
    · split_ifs with older
      · exact inv.loadHistory older
      · exact inv

theorem handleArrowDown (inv : Invariant s) : Invariant (handleArrowDown s) := by
  unfold OspabOs.Keyboard.handleArrowDown
  split
  · exact inv
  · exact inv.cancel
  · next pos browsing =>
    exact inv.loadHistory (by have := inv.pos_lt (pos + 1) browsing; omega)

theorem handleArrowLeft (inv : Invariant s) : Invariant (handleArrowLeft s) := by
  unfold OspabOs.Keyboard.handleArrowLeft
  split_ifs with moves
  · refine ⟨?_, inv.len_lt, inv.count_le, inv.lens_lt, inv.pos_lt⟩
    dsimp only
    have := inv.cursor_le
    omega
  · exact inv

theorem handleArrowRight (inv : Invariant s) : Invariant (handleArrowRight s) := by
  unfold OspabOs.Keyboard.handleArrowRight
  split_ifs with moves
  · exact ⟨moves, inv.len_lt, inv.count_le, inv.lens_lt, inv.pos_lt⟩
  · exact inv

/-- Every key keeps the invariant. -/
theorem step (inv : Invariant s) (input : Input) : Invariant (step s input) := by
  cases input with
  | char c names => exact inv.handleChar c names
  | arrowUp => exact inv.handleArrowUp
  | arrowDown => exact inv.handleArrowDown
  | arrowLeft => exact inv.handleArrowLeft
  | arrowRight => exact inv.handleArrowRight

end Invariant

end OspabOs.Keyboard
