import OspabOs.Keyboard.LineEditor
import OspabOs.Lib.Machine

/-!
# The line editor edits a line with a cursor

What the shell promises its user: a line of bytes with a cursor in it, and
up to five earlier lines, newest first. `Editor` is that, each key an
operation on lists: a printable character is inserted at the cursor while
the line is shorter than 255 bytes, Backspace erases the byte before the
cursor, Left and Right move the cursor within the line, Enter pushes a
non-empty line on the history and clears it, Ctrl+C clears it, Up and Down
walk the history newest-first, and Tab inserts the rest of the only name
that completes the word before the cursor.

`KeyboardState.editor` reads an `Editor` off the arrays of `LineEditor`.
From a state with the invariant every key does to it what the abstract key
does (`editor_step`), so over whole runs from `STATE`'s start the arrays
and the lists agree after every key (`line_editor_refines`).
-/

namespace OspabOs.Keyboard

open ArrayLoop

/-- A line with a cursor, the history newest first, and the row of it being
browsed. -/
@[ext] structure Editor where
  line : List UInt8
  cursor : Nat
  history : List (List UInt8)
  browsing : Option Nat

namespace Editor

/-- The empty line, with no history. -/
def empty : Editor := ⟨[], 0, [], none⟩

/-- The bytes after the last space. -/
def lastToken (xs : List UInt8) : List UInt8 :=
  (xs.reverse.takeWhile (· != 0x20)).reverse

/-- The characters the line takes: printable ASCII. -/
def Printable (c : Char) : Prop := 0x20 ≤ c.toNat ∧ c.toNat < 0x7F

instance : DecidablePred Printable := fun _ => inferInstanceAs (Decidable (_ ∧ _))

/-- Insert `text` at the cursor, if the line stays shorter than the buffer. -/
def insert (e : Editor) (text : List UInt8) : Editor :=
  if e.line.length + text.length < cmdBufferSize then
    { e with line := e.line.take e.cursor ++ text ++ e.line.drop e.cursor,
             cursor := e.cursor + text.length }
  else e

/-- An empty line, not browsing. -/
def clear (e : Editor) : Editor := { e with line := [], cursor := 0, browsing := none }

/-- Enter: a non-empty line becomes the newest of at most five. -/
def submit (e : Editor) : Editor :=
  { e.clear with history := if e.line = [] then e.history else (e.line :: e.history).take historySize }

/-- Backspace: erase the byte before the cursor. -/
def erase (e : Editor) : Editor :=
  if 0 < e.cursor then
    { e with line := e.line.eraseIdx (e.cursor - 1), cursor := e.cursor - 1, browsing := none }
  else { e with browsing := none }

/-- Tab: the rest of the only name that the word before the cursor starts. -/
def complete (e : Editor) (names : List (List Char)) : Editor :=
  let pre := completionPrefix (lastToken (e.line.take e.cursor))
  match candidates pre names with
  | [name] => e.insert ((Text.encode name).drop pre.length)
  | _ => e

/-- History row `i` as the line, cursor at its end. -/
def load (e : Editor) (i : Nat) : Editor :=
  { e with line := e.history.getD i [], cursor := (e.history.getD i []).length, browsing := some i }

/-- A character key. -/
def type (e : Editor) (c : Char) (names : List (List Char)) : Editor :=
  if c = '\x03' then e.clear
  else if c = '\n' ∨ c = '\r' then e.submit
  else if c = '\x08' then e.erase
  else if c = '\t' then e.complete names
  else if Printable c then { e with browsing := none }.insert [c.toUInt8]
  else e

/-- Up: one row older, if there is one. -/
def older (e : Editor) : Editor :=
  match e.browsing with
  | none => if e.history = [] then e else e.load 0
  | some i => if i + 1 < e.history.length then e.load (i + 1) else e

/-- Down: one row newer; past the newest, an empty line. -/
def newer (e : Editor) : Editor :=
  match e.browsing with
  | none => e
  | some 0 => e.clear
  | some (i + 1) => e.load i

/-- One key. -/
def step (e : Editor) : Input → Editor
  | .char c names => e.type c names
  | .arrowUp => e.older
  | .arrowDown => e.newer
  | .arrowLeft => { e with cursor := e.cursor - 1 }
  | .arrowRight => { e with cursor := min (e.cursor + 1) e.line.length }

theorem lastToken_concat (xs : List UInt8) (x : UInt8) :
    lastToken (xs ++ [x]) = if x != 0x20 then lastToken xs ++ [x] else [] := by
  -- the last byte either extends the word or is the space that ends it
  cases word : x != 0x20 <;> simp [lastToken, word]

end Editor

/-- The editor the arrays hold. -/
def KeyboardState.editor (s : KeyboardState) : Editor where
  line := window s.cmdBuf s.cmdLen
  cursor := s.cursorPos
  history := window (fun i => window (s.history i) (s.historyLens i)) s.historyCount
  browsing := s.historyPos

/-! ## What the loops compute -/

/-- `is_ascii && !is_control` is printable ASCII. -/
theorem printable_iff (c : Char) : (c.isAscii && !isControl c) = true ↔ Editor.Printable c := by
  simp only [Char.isAscii, isControl, Editor.Printable, Bool.and_eq_true, decide_eq_true_eq,
    Bool.not_eq_true', Bool.or_eq_false_iff, decide_eq_false_iff_not, Bool.and_eq_false_iff, not_lt,
    not_le]
  omega

theorem tokenStart_le (buf : Nat → UInt8) (n : Nat) : tokenStart buf n ≤ n := by
  induction n with
  | zero => exact Nat.le_refl 0
  | succ n ih =>
    rw [tokenStart]
    split_ifs
    · omega
    · exact Nat.le_refl _

/-- The scan back from the cursor stops just after the last space, so it
finds the last word. -/
theorem slice_tokenStart (buf : Nat → UInt8) (n : Nat) :
    slice buf (tokenStart buf n) n = Editor.lastToken (window buf n) := by
  induction n with
  | zero => rfl
  | succ n ih =>
    rw [window_succ, Editor.lastToken_concat, tokenStart]
    by_cases word : (buf n != 0x20) = true
    · rw [if_pos word, if_pos word, slice_succ _ (tokenStart_le buf n), ih]
    · rw [if_neg word, if_neg word, slice_self]

/-- Enter's moves of the history rows and lengths push the line on the
history. -/
theorem window_enter_history {s : KeyboardState} (inv : Invariant s) :
    let count := if s.historyCount < historySize then s.historyCount + 1 else s.historyCount
    window (fun i => window (Function.update (shiftUpPrev s.history 1 count) 0 s.cmdBuf i)
        (Function.update (shiftUpPrev s.historyLens 1 count) 0 s.cmdLen i)) count =
      (window s.cmdBuf s.cmdLen :: s.editor.history).take historySize := by
  intro count
  have count_le := inv.count_le
  have rows : (fun i => window (Function.update (shiftUpPrev s.history 1 count) 0 s.cmdBuf i)
      (Function.update (shiftUpPrev s.historyLens 1 count) 0 s.cmdLen i)) =
      Function.update (shiftUpPrev (fun i => window (s.history i) (s.historyLens i)) 1 count) 0
        (window s.cmdBuf s.cmdLen) := by
    funext i
    by_cases top : i = 0
    · rw [top, Function.update_self, Function.update_self, Function.update_self]
    · rw [Function.update_of_ne top, Function.update_of_ne top, Function.update_of_ne top]
      exact shiftUpPrev_map₂ (fun row len => window row len) s.history s.historyLens 1 count i
  have kept : 0 < count ∧ count - 1 = min 4 s.historyCount := by
    by_cases grows : s.historyCount < historySize
    · simp only [count, if_pos grows]
      simp only [historySize] at grows
      omega
    · simp only [count, if_neg grows]
      simp only [historySize] at grows count_le
      omega
  rw [rows, window_push _ _ kept.1, kept.2, historySize,
    List.take_succ_cons, KeyboardState.editor, take_window]

/-! ## One key at a time -/

section
variable {s : KeyboardState}

theorem editor_insertChar (inv : Invariant s) (b : UInt8) :
    (insertChar s b).editor = { s.editor with browsing := none }.insert [b] := by
  have cursor_le := inv.cursor_le
  by_cases room : s.cmdLen < cmdBufferSize - 1
  · have shifted : (if s.cursorPos < s.cmdLen then shiftUp s.cmdBuf s.cursorPos s.cmdLen 1 else s.cmdBuf) =
        shiftUp s.cmdBuf s.cursorPos s.cmdLen 1 := by
      split_ifs with inside
      · rfl
      · exact (shiftUp_of_le _ _ (by omega)).symm
    have fits : (window s.cmdBuf s.cmdLen).length + [b].length < cmdBufferSize := by
      simp only [length_window, List.length_singleton]
      omega
    simp only [insertChar, if_pos room, shifted, Editor.insert, KeyboardState.editor, fits, reduceIte]
    refine Editor.ext ?_ rfl rfl rfl
    exact window_insert s.cmdBuf cursor_le [b]
  · have full : ¬ (window s.cmdBuf s.cmdLen).length + [b].length < cmdBufferSize := by
      simp only [length_window, List.length_singleton]
      omega
    simp only [insertChar, if_neg room, Editor.insert, KeyboardState.editor, full, reduceIte]

theorem editor_enter (inv : Invariant s) : (enter s).editor = s.editor.submit := by
  by_cases nonempty : s.cmdLen > 0
  · have line : window s.cmdBuf s.cmdLen ≠ [] := by
      rw [← List.length_pos_iff, length_window]
      exact nonempty
    simp only [enter, if_pos nonempty, Editor.submit, Editor.clear]
    rw [show s.editor.line = window s.cmdBuf s.cmdLen from rfl, if_neg line]
    refine Editor.ext rfl rfl ?_ rfl
    exact window_enter_history inv
  · have empty : s.cmdLen = 0 := by omega
    have line : window s.cmdBuf s.cmdLen = [] := by rw [empty]; rfl
    simp only [enter, if_neg nonempty, Editor.submit, Editor.clear]
    rw [show s.editor.line = window s.cmdBuf s.cmdLen from rfl, if_pos line]
    rfl

theorem editor_backspace (inv : Invariant s) : (backspace s).editor = s.editor.erase := by
  by_cases moves : 0 < s.cursorPos
  · simp only [backspace, Editor.erase, KeyboardState.editor, moves, reduceIte]
    refine Editor.ext ?_ rfl rfl rfl
    rw [window_delete s.cmdBuf moves inv.cursor_le, List.eraseIdx_eq_take_drop_succ,
      Nat.sub_add_cancel moves]
  · simp only [backspace, Editor.erase, KeyboardState.editor, moves, reduceIte]

theorem editor_tab (inv : Invariant s) (names : List (List Char)) :
    (tab s names).editor = s.editor.complete names := by
  have cursor_le := inv.cursor_le
  have token : slice s.cmdBuf (tokenStart s.cmdBuf s.cursorPos) s.cursorPos =
      Editor.lastToken ((window s.cmdBuf s.cmdLen).take s.cursorPos) := by
    rw [take_window, Nat.min_eq_left cursor_le, slice_tokenStart]
  simp only [tab, Editor.complete, token]
  rw [show s.editor.line = window s.cmdBuf s.cmdLen from rfl, show s.editor.cursor = s.cursorPos from rfl]
  generalize completionPrefix (Editor.lastToken (List.take s.cursorPos (window s.cmdBuf s.cmdLen))) = pre
  rcases candidates pre names with _ | ⟨name, _ | ⟨other, rest⟩⟩
  · rfl
  · dsimp only
    by_cases full : s.cmdLen + ((Text.encode name).drop pre.length).length ≥ cmdBufferSize
    · rw [if_pos full, Editor.insert, if_neg (by rw [KeyboardState.editor, length_window]; omega)]
    · rw [if_neg full, Editor.insert, if_pos (by rw [KeyboardState.editor, length_window]; omega)]
      refine Editor.ext ?_ rfl rfl rfl
      exact window_insert s.cmdBuf cursor_le _
  · rfl

theorem editor_handleChar (inv : Invariant s) (c : Char) (names : List (List Char)) :
    (handleChar s c names).editor = s.editor.type c names := by
  unfold handleChar
  split
  · simp only [Editor.type, if_true]
    rfl
  · rw [editor_enter inv]
    simp [Editor.type]
  · rw [editor_enter inv]
    simp [Editor.type]
  · rw [editor_backspace inv]
    simp [Editor.type]
  · rw [editor_tab inv]
    simp [Editor.type]
  · next cancel enter₁ enter₂ erase complete =>
    have enter : ¬ (c = '\n' ∨ c = '\r') := not_or.mpr ⟨enter₁, enter₂⟩
    rw [Editor.type, if_neg cancel, if_neg enter, if_neg erase, if_neg complete]
    by_cases printable : (c.isAscii && !isControl c) = true
    · rw [if_pos printable, if_pos ((printable_iff c).mp printable), editor_insertChar inv]
    · rw [if_neg printable, if_neg (mt (printable_iff c).mpr printable)]

theorem editor_loadHistory {pos : Nat} (lt : pos < s.historyCount) :
    (loadHistory s pos).editor = s.editor.load pos := by
  simp only [loadHistory, Editor.load, KeyboardState.editor, getD_window _ lt, length_window]

theorem editor_handleArrowUp (inv : Invariant s) : (handleArrowUp s).editor = s.editor.older := by
  have history : s.editor.history.length = s.historyCount := length_window _ _
  unfold handleArrowUp Editor.older
  rw [show s.editor.browsing = s.historyPos from rfl]
  cases browsing : s.historyPos with
  | none =>
    by_cases empty : s.historyCount = 0
    · rw [if_pos empty, if_pos (List.eq_nil_of_length_eq_zero (history.trans empty))]
    · rw [if_neg empty, if_neg (fun nil => empty (history ▸ congrArg List.length nil))]
      exact editor_loadHistory (Nat.pos_of_ne_zero empty)
  | some pos =>
    have lt := inv.pos_lt pos browsing
    dsimp only
    rw [if_neg (by omega), history]
    by_cases older : pos + 1 < s.historyCount
    · rw [if_pos older, if_pos older]
      exact editor_loadHistory older
    · rw [if_neg older, if_neg older]

theorem editor_handleArrowDown (inv : Invariant s) : (handleArrowDown s).editor = s.editor.newer := by
  unfold handleArrowDown Editor.newer
  rw [show s.editor.browsing = s.historyPos from rfl]
  cases browsing : s.historyPos with
  | none => rfl
  | some pos =>
    cases pos with
    | zero => rfl
    | succ pos =>
      have lt := inv.pos_lt (pos + 1) browsing
      exact editor_loadHistory (by omega)

theorem editor_handleArrowLeft :
    (handleArrowLeft s).editor = { s.editor with cursor := s.editor.cursor - 1 } := by
  unfold handleArrowLeft
  split_ifs with moves
  · rfl
  · refine Editor.ext rfl ?_ rfl rfl
    show s.cursorPos = s.cursorPos - 1
    omega

theorem editor_handleArrowRight (inv : Invariant s) :
    (handleArrowRight s).editor = { s.editor with cursor := min (s.editor.cursor + 1) s.editor.line.length } := by
  have cursor_le := inv.cursor_le
  unfold handleArrowRight
  split_ifs with moves
  · refine Editor.ext rfl ?_ rfl rfl
    show s.cursorPos + 1 = min (s.cursorPos + 1) (window s.cmdBuf s.cmdLen).length
    rw [length_window]
    omega
  · refine Editor.ext rfl ?_ rfl rfl
    show s.cursorPos = min (s.cursorPos + 1) (window s.cmdBuf s.cmdLen).length
    rw [length_window]
    omega

/-- Every key does to the arrays what it does to the line. -/
theorem editor_step (inv : Invariant s) (input : Input) : (step s input).editor = s.editor.step input := by
  cases input with
  | char c names => exact editor_handleChar inv c names
  | arrowUp => exact editor_handleArrowUp inv
  | arrowDown => exact editor_handleArrowDown inv
  | arrowLeft => exact editor_handleArrowLeft
  | arrowRight => exact editor_handleArrowRight inv

/-- From any state with the invariant, a run keeps it and follows the
abstract editor. -/
theorem run_refines (inv : Invariant s) (inputs : List Input) :
    Invariant (inputs.foldl step s) ∧ (inputs.foldl step s).editor = inputs.foldl Editor.step s.editor :=
  Machine.foldl_simulation (fun s e => Invariant s ∧ s.editor = e)
    (fun _ _ input ⟨inv, agree⟩ => ⟨inv.step input, agree ▸ editor_step inv input⟩) ⟨inv, rfl⟩ inputs

end

/-- The line editor, from `STATE`'s start and for every sequence of keys,
keeps its cursor in the line, the line shorter than the buffer, at most five
history rows and a browsing position among them; and its line, cursor and
history are those of the abstract editor fed the same keys. -/
theorem line_editor_refines (inputs : List Input) :
    let s := inputs.foldl step initialState
    (s.cursorPos ≤ s.cmdLen ∧ s.cmdLen ≤ cmdBufferSize - 1 ∧ s.historyCount ≤ historySize ∧
        ∀ i, s.historyPos = some i → i < s.historyCount) ∧
      s.editor = inputs.foldl Editor.step Editor.empty := by
  obtain ⟨inv, agree⟩ := run_refines initialState_invariant inputs
  have len_lt := inv.len_lt
  exact ⟨⟨inv.cursor_le, by omega, inv.count_le, inv.pos_lt⟩, agree⟩

/-- Typing `ab`, Left, `c` and Enter, then Up, gives back `acb` with the
cursor at its end. -/
example :
    let e := [.char 'a' [], .char 'b' [], .arrowLeft, .char 'c' [], .char '\n' [], .arrowUp].foldl
      Editor.step Editor.empty
    e.line = [0x61, 0x63, 0x62] ∧ e.cursor = 3 ∧ e.history = [[0x61, 0x63, 0x62]] := by
  decide

end OspabOs.Keyboard
