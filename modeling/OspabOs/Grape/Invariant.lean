import OspabOs.Grape.Editor

/-!
# What Grape keeps, and what it loses

`Shape` is the part of a sound editing state that every handler keeps: the
cursor is on a row of the file and at most at that row's end. A file that
loads as text or is missing opens in shape, and every key that does not
panic keeps it (`runKeys_shape`).

The rest of a sound state is lost:

- a file that is not UTF-8 opens with NO rows, since `load_file` returns
  its error before pushing the empty row that the missing-file branch
  pushes; `grape::open` goes on to the key loop all the same, and the
  first printable key indexes row 0 of the empty `Vec`
  (`openEditor_invalid_utf8_then_key_panics`);
- the cursor moves by bytes, so Right from the start of a row that opens
  with a multi-byte character stops inside it, and the next character
  typed there panics (`moveRight_splits_char`);
- Left and Right change rows without looking at `scroll_offset`, unlike
  Up and Down, and take the cursor out of the window
  (`moveLeft_leaves_window`, `moveRight_leaves_window`).
-/

namespace OspabOs.Grape

open Vfs

namespace GrapeEditor

/-- The cursor is on a row of the file, at most at that row's end. -/
structure Shape (e : GrapeEditor) : Prop where
  row_lt : e.cursorRow < e.lines.length
  col_le : ∀ line, e.lines[e.cursorRow]? = some line → e.cursorCol ≤ Str.len line

variable {e e' : GrapeEditor}

/-- A handler that leaves the rows and the cursor alone keeps the shape. -/
theorem Shape.of_same (shape : Shape e) (lines : e'.lines = e.lines) (row : e'.cursorRow = e.cursorRow)
    (col : e'.cursorCol = e.cursorCol) : Shape e' where
  row_lt := lines ▸ row ▸ shape.row_lt
  col_le := fun line get => col ▸ shape.col_le line (lines ▸ row ▸ get)

theorem Shape.of_get {line : List Char} (get : e.lines[e.cursorRow]? = some line)
    (col_le : e.cursorCol ≤ Str.len line) : Shape e where
  row_lt := (List.getElem?_eq_some_iff.mp get).1
  col_le := fun other get' => by
    rw [get, Option.some.injEq] at get'
    exact get' ▸ col_le

/-- A key handled by one editor operation whose result is handed on keeps
the shape when that operation does. -/
theorem Shape.of_bind {op : Step GrapeEditor} {vfs vfs' : VfsState} {exit : Bool}
    (keeps : ∀ {e''}, op = .ok e'' → Shape e'')
    (ok : (op >>= fun e'' => pure (false, e'', vfs)) = .ok (exit, e', vfs')) : Shape e' := by
  obtain ⟨e'', done, ok⟩ := Outcome.bind_eq_ok.mp ok
  cases ok
  exact keeps done

/-! ## One handler at a time -/

theorem Shape.handleChar (shape : Shape e) {c : Char} (ok : e.handleChar c = .ok e') : Shape e' := by
  simp only [GrapeEditor.handleChar, Outcome.bind_eq, Outcome.pure_eq_ok] at ok
  obtain ⟨line, _, ok⟩ := Outcome.bind_eq_ok.mp ok
  obtain ⟨line', inserted, ok⟩ := Outcome.bind_eq_ok.mp ok
  cases ok
  exact .of_get (List.getElem?_set_self shape.row_lt) (Str.succ_le_len_of_insert inserted)

theorem Shape.handleBackspace (shape : Shape e) (ok : e.handleBackspace = .ok e') : Shape e' := by
  simp only [GrapeEditor.handleBackspace, Outcome.bind_eq, Outcome.pure_eq_ok] at ok
  by_cases erases : e.cursorCol > 0
  · rw [if_pos erases] at ok
    obtain ⟨line, _, ok⟩ := Outcome.bind_eq_ok.mp ok
    by_cases fits : e.cursorCol ≤ Str.len line
    · rw [if_pos fits] at ok
      obtain ⟨line', removed, ok⟩ := Outcome.bind_eq_ok.mp ok
      cases ok
      exact .of_get (List.getElem?_set_self shape.row_lt) (Str.le_len_of_remove removed)
    · rw [if_neg fits] at ok
      cases ok
      exact shape
  · rw [if_neg erases] at ok
    by_cases joins : e.cursorRow > 0
    -- the row goes, and its text is appended to the row above
    · rw [if_pos joins] at ok
      obtain ⟨⟨current, lines⟩, removed, ok⟩ := Outcome.bind_eq_ok.mp ok
      obtain ⟨previous, _, ok⟩ := Outcome.bind_eq_ok.mp ok
      cases ok
      obtain ⟨_, rfl⟩ := Vec.remove_eq_ok.mp removed
      have row_lt : e.cursorRow - 1 < (e.lines.eraseIdx e.cursorRow).length := by
        rw [List.length_eraseIdx_of_lt shape.row_lt]
        have := shape.row_lt
        omega
      have col_le : Str.len previous ≤ Str.len (previous ++ current) := by
        rw [Str.len_append]
        omega
      exact .of_get (List.getElem?_set_self row_lt) col_le
    · rw [if_neg joins] at ok
      cases ok
      exact shape

/-- Enter leaves the cursor at the start of the row it makes, whatever the
shape before. -/
theorem shape_handleEnter (ok : e.handleEnter = .ok e') : Shape e' := by
  simp only [GrapeEditor.handleEnter, Outcome.bind_eq, Outcome.pure_eq_ok] at ok
  obtain ⟨line, _, ok⟩ := Outcome.bind_eq_ok.mp ok
  obtain ⟨⟨kept, remainder⟩, _, ok⟩ := Outcome.bind_eq_ok.mp ok
  obtain ⟨lines, inserted, ok⟩ := Outcome.bind_eq_ok.mp ok
  obtain ⟨fits, rfl⟩ := Vec.insert_eq_ok.mp inserted
  have get : ((e.lines.set e.cursorRow kept).insertIdx (e.cursorRow + 1) remainder)[e.cursorRow + 1]? =
      some remainder := by
    rw [List.getElem?_insertIdx_self, if_pos fits]
  -- the scroll step touches neither the rows nor the cursor
  split_ifs at ok
  · cases ok
    exact .of_get get (Nat.zero_le _)
  · cases ok
    exact .of_get get (Nat.zero_le _)

theorem clampCol_le (col len : Nat) : clampCol col len ≤ len := by
  unfold clampCol
  split_ifs with past
  · exact Nat.le_refl len
  · omega

theorem Shape.moveUp (shape : Shape e) (ok : e.moveUp = .ok e') : Shape e' := by
  simp only [GrapeEditor.moveUp, Outcome.bind_eq, Outcome.pure_eq_ok] at ok
  by_cases up : e.cursorRow > 0
  · rw [if_pos up] at ok
    obtain ⟨line, get, ok⟩ := Outcome.bind_eq_ok.mp ok
    cases ok
    exact .of_get (Vec.index_eq_ok.mp get) (clampCol_le _ _)
  · rw [if_neg up] at ok
    cases ok
    exact shape

theorem Shape.moveDown (shape : Shape e) (ok : e.moveDown = .ok e') : Shape e' := by
  simp only [GrapeEditor.moveDown, Outcome.bind_eq, Outcome.pure_eq_ok] at ok
  by_cases down : e.cursorRow + 1 < e.lines.length
  · rw [if_pos down] at ok
    obtain ⟨line, get, ok⟩ := Outcome.bind_eq_ok.mp ok
    cases ok
    exact .of_get (Vec.index_eq_ok.mp get) (clampCol_le _ _)
  · rw [if_neg down] at ok
    cases ok
    exact shape

theorem Shape.moveLeft (shape : Shape e) (ok : e.moveLeft = .ok e') : Shape e' := by
  simp only [GrapeEditor.moveLeft, Outcome.bind_eq, Outcome.pure_eq_ok] at ok
  split_ifs at ok with back up
  · cases ok
    exact ⟨shape.row_lt, fun line get => Nat.le_trans (Nat.sub_le _ 1) (shape.col_le line get)⟩
  · obtain ⟨line, get, ok⟩ := Outcome.bind_eq_ok.mp ok
    cases ok
    exact .of_get (Vec.index_eq_ok.mp get) (Nat.le_refl _)
  · cases ok
    exact shape

theorem Shape.moveRight (shape : Shape e) (ok : e.moveRight = .ok e') : Shape e' := by
  simp only [GrapeEditor.moveRight, Outcome.bind_eq, Outcome.pure_eq_ok] at ok
  obtain ⟨line, get, ok⟩ := Outcome.bind_eq_ok.mp ok
  have get := Vec.index_eq_ok.mp get
  split_ifs at ok with forward down
  · cases ok
    exact .of_get get forward
  · cases ok
    exact .of_get (List.getElem?_eq_getElem down) (Nat.zero_le _)
  · cases ok
    exact shape

theorem Shape.delete (shape : Shape e) (ok : e.delete = .ok e') : Shape e' := by
  simp only [GrapeEditor.delete, Outcome.bind_eq, Outcome.pure_eq_ok] at ok
  obtain ⟨line, get, ok⟩ := Outcome.bind_eq_ok.mp ok
  have get := Vec.index_eq_ok.mp get
  split_ifs at ok with erases joins
  · obtain ⟨line', removed, ok⟩ := Outcome.bind_eq_ok.mp ok
    cases ok
    exact .of_get (List.getElem?_set_self shape.row_lt) (Str.le_len_of_remove removed)
  -- the next row goes, and its text is appended to this one
  · obtain ⟨⟨next, lines⟩, removed, ok⟩ := Outcome.bind_eq_ok.mp ok
    obtain ⟨line', get', ok⟩ := Outcome.bind_eq_ok.mp ok
    cases ok
    obtain ⟨_, rfl⟩ := Vec.remove_eq_ok.mp removed
    have same : line' = line := by
      rw [Vec.index_eq_ok, List.getElem?_eraseIdx_of_lt (Nat.lt_succ_self _), get,
        Option.some.injEq] at get'
      exact get'.symm
    have row_lt : e.cursorRow < (e.lines.eraseIdx (e.cursorRow + 1)).length := by
      rw [List.length_eraseIdx_of_lt joins]
      omega
    have col_le : e.cursorCol ≤ Str.len (line' ++ next) := by
      have := shape.col_le line get
      rw [Str.len_append, same]
      omega
    exact .of_get (List.getElem?_set_self row_lt) col_le
  · cases ok
    exact shape

/-- Every key other than a character leaves the editor as `handle_char_input`
would find it, and a character key at or above `' '` is text. -/
theorem handleCharInput_of_printable (vfs : VfsState) {c : Char} (printable : ' ' ≤ c) :
    e.handleCharInput vfs c = (e.handleChar c).bind (fun e => .ok (false, e, vfs)) := by
  unfold handleCharInput
  split
  all_goals first
    | exact absurd printable (by decide)
    | rw [if_pos printable]
      rfl

theorem Shape.saveFile (shape : Shape e) (vfs : VfsState) : Shape (e.saveFile vfs).1 := by
  dsimp only [GrapeEditor.saveFile]
  split
  · exact shape.of_same rfl rfl rfl
  · exact shape.of_same rfl rfl rfl
  · exact shape

theorem Shape.handleCharInput (shape : Shape e) {vfs vfs' : VfsState} {c : Char} {exit : Bool}
    (ok : e.handleCharInput vfs c = .ok (exit, e', vfs')) : Shape e' := by
  unfold GrapeEditor.handleCharInput at ok
  split at ok
  · cases ok
    exact shape.of_same rfl rfl rfl
  · rcases saved : e.saveFile vfs with ⟨e'', vfs''⟩
    rw [saved] at ok
    cases ok
    have kept := shape.saveFile vfs
    rw [saved] at kept
    exact kept
  · cases ok
    split
    · exact shape.of_same rfl rfl rfl
    · exact shape
  · cases ok
    exact shape.of_same rfl rfl rfl
  · cases ok
    exact shape.of_same rfl rfl rfl
  · cases ok
    exact shape.of_same rfl rfl rfl
  · exact Shape.of_bind shape.handleBackspace ok
  · exact Shape.of_bind shape_handleEnter ok
  · exact Shape.of_bind shape_handleEnter ok
  · split_ifs at ok
    · exact Shape.of_bind shape.handleChar ok
    · cases ok
      exact shape

/-- Every key that does not panic keeps the shape. -/
theorem Shape.handleKey (shape : Shape e) {vfs vfs' : VfsState} {key : EditorKey} {exit : Bool}
    (ok : e.handleKey vfs key = .ok (exit, e', vfs')) : Shape e' := by
  cases key with
  | char c => exact shape.handleCharInput ok
  | home =>
    cases ok
    exact ⟨shape.row_lt, fun _ _ => Nat.zero_le _⟩
  | endKey =>
    obtain ⟨line, get, ok⟩ := Outcome.bind_eq_ok.mp ok
    cases ok
    exact .of_get (Vec.index_eq_ok.mp get) (Nat.le_refl _)
  | arrowUp => exact Shape.of_bind shape.moveUp ok
  | arrowDown => exact Shape.of_bind shape.moveDown ok
  | arrowLeft => exact Shape.of_bind shape.moveLeft ok
  | arrowRight => exact Shape.of_bind shape.moveRight ok
  -- ten moves, each of which keeps the shape
  | pageUp =>
    exact Shape.of_bind (Outcome.iterate_invariant Shape (fun _ _ shape moved => shape.moveUp moved) 10 shape) ok
  | pageDown =>
    exact Shape.of_bind (Outcome.iterate_invariant Shape (fun _ _ shape moved => shape.moveDown moved) 10 shape) ok
  | delete => exact Shape.of_bind shape.delete ok

end GrapeEditor

open GrapeEditor

/-- A run of keys that does not panic keeps the shape. -/
theorem runKeys_shape {e e' : GrapeEditor} (shape : Shape e) {vfs vfs' : VfsState} (keys : List EditorKey)
    (ok : runKeys e vfs keys = .ok (e', vfs')) : Shape e' := by
  induction keys generalizing e vfs with
  | nil =>
    cases ok
    exact shape
  | cons key keys ih =>
    obtain ⟨⟨exit, e'', vfs''⟩, handled, ok⟩ := Outcome.bind_eq_ok.mp ok
    have shape'' := shape.handleKey handled
    dsimp only at ok
    split_ifs at ok
    · cases ok
      exact shape''
    · exact ih shape'' ok

/-- `ReadFile` answers with the file's bytes or an error. -/
theorem readFile_cases (vfs : VfsState) (path : List Char) :
    (∃ data, readFile vfs path = .fileData data) ∨ ∃ msg, readFile vfs path = .error msg := by
  unfold readFile
  split
  · split
    · exact .inl ⟨_, rfl⟩
    · exact .inl ⟨_, rfl⟩
    · exact .inr ⟨_, rfl⟩
  · exact .inr ⟨_, rfl⟩

/-- A file that is text, or is missing, opens in shape: on its first row,
at column 0. -/
theorem openEditor_shape (vfs : VfsState) (filename : List Char)
    (text : ∀ data, readFile vfs filename = .fileData data → (Text.fromUtf8 data).isSome) :
    Shape (openEditor filename vfs) := by
  rcases readFile_cases vfs filename with ⟨data, read⟩ | ⟨msg, read⟩
  · obtain ⟨chars, decoded⟩ := Option.isSome_iff_exists.mp (text data read)
    -- an empty text still gets its one row
    have nonempty : (if (Text.lines chars).isEmpty then Text.lines chars ++ [[]] else Text.lines chars) ≠ [] := by
      split
      · simp
      · next full => simpa using full
    simp only [openEditor, GrapeEditor.loadFile, GrapeEditor.new, process, read, decoded]
    exact ⟨List.length_pos_iff.mpr nonempty, fun _ _ => Nat.zero_le _⟩
  · simp only [openEditor, GrapeEditor.loadFile, GrapeEditor.new, process, read]
    exact ⟨by simp, fun _ _ => Nat.zero_le _⟩

/-- A file that is not UTF-8 opens with no rows at all, and the first
printable key then indexes row 0 of the empty `Vec`. -/
theorem openEditor_invalid_utf8_then_key_panics (vfs : VfsState) (filename : List Char) (data : List UInt8)
    (read : readFile vfs filename = .fileData data) (invalid : Text.fromUtf8 data = none)
    (c : Char) (printable : ' ' ≤ c) :
    (openEditor filename vfs).lines = [] ∧ (openEditor filename vfs).handleKey vfs (.char c) = .panic := by
  have loaded : (openEditor filename vfs).lines = [] := by
    simp only [openEditor, GrapeEditor.loadFile, GrapeEditor.new, process, read, invalid]
  refine ⟨loaded, ?_⟩
  rw [handleKey, handleCharInput_of_printable vfs printable, GrapeEditor.handleChar]
  simp only [Outcome.bind_eq, loaded, Vec.index, List.getElem?_nil, Outcome.panic_bind]

theorem openEditor_invalid_utf8_at_tmp :
    let vfs := (process (VfsState.init []) (.writeFile "/tmp/x".toList [0xFF])).2
    readFile vfs "/tmp/x".toList = .fileData [0xFF] ∧ Text.fromUtf8 [0xFF] = none ∧ ' ' ≤ 'a' ∧
      (openEditor "/tmp/x".toList vfs).lines = [] ∧
      (openEditor "/tmp/x".toList vfs).handleKey vfs (.char 'a') = .panic := by
  intro vfs
  have read : readFile vfs "/tmp/x".toList = .fileData [0xFF] := by decide
  have invalid : Text.fromUtf8 [0xFF] = none := by decide
  exact ⟨read, invalid, by decide,
    openEditor_invalid_utf8_then_key_panics vfs _ _ read invalid 'a' (by decide)⟩

/-! ## The cursor leaves a character boundary and the window -/

section
variable {e : GrapeEditor}

/-- Right from the start of a row that opens with a character of several
bytes stops inside that character, where typing panics. -/
theorem moveRight_splits_char {c : Char} {rest : List Char} (get : e.lines[e.cursorRow]? = some (c :: rest))
    (wide : 1 < c.utf8Size) (atStart : e.cursorCol = 0) :
    ∃ e', e.moveRight = .ok e' ∧ e'.lines = e.lines ∧ e'.cursorRow = e.cursorRow ∧
      Str.isCharBoundary (c :: rest) e'.cursorCol = false ∧ ∀ d, e'.handleChar d = .panic := by
  have forward : e.cursorCol < Str.len (c :: rest) := by
    rw [Str.len_cons]
    omega
  have inside : Str.charIndex? (c :: rest) (e.cursorCol + 1) = none :=
    Str.charIndex?_inside (Nat.succ_pos _) (by omega)
  refine ⟨{ e with cursorCol := e.cursorCol + 1 }, ?_, rfl, rfl, ?_, ?_⟩
  · simp only [GrapeEditor.moveRight, Outcome.bind_eq, Vec.index_eq_ok.mpr get, Outcome.ok_bind,
      if_pos forward, Outcome.pure_eq_ok]
  · simp only [Str.isCharBoundary, inside, Option.isSome_none]
  · intro d
    simp only [GrapeEditor.handleChar, Outcome.bind_eq, Vec.index_eq_ok.mpr get, Outcome.ok_bind,
      Str.insert, inside, Outcome.panic_bind]

/-- Left at the start of the window's top row moves to the row above
without scrolling, out of the window. -/
theorem moveLeft_leaves_window (shape : Shape e) (atStart : e.cursorCol = 0)
    (top : e.cursorRow = e.scrollOffset) (below : 0 < e.cursorRow) :
    ∃ e', e.moveLeft = .ok e' ∧ e'.scrollOffset = e.scrollOffset ∧ e'.cursorRow < e'.scrollOffset := by
  have up : e.cursorRow - 1 < e.lines.length := by
    have := shape.row_lt
    omega
  refine ⟨{ e with cursorRow := e.cursorRow - 1, cursorCol := Str.len e.lines[e.cursorRow - 1] }, ?_, rfl, ?_⟩
  · simp only [GrapeEditor.moveLeft, if_neg (show ¬ e.cursorCol > 0 by omega), if_pos below,
      Outcome.bind_eq, Vec.index_of_lt up, Outcome.ok_bind, Outcome.pure_eq_ok]
  · show e.cursorRow - 1 < e.scrollOffset
    omega

/-- Right at the end of the window's bottom row moves to the row below
without scrolling, out of the window. -/
theorem moveRight_leaves_window {line : List Char} (get : e.lines[e.cursorRow]? = some line)
    (atEnd : e.cursorCol = Str.len line) (bottom : e.cursorRow + 1 = e.scrollOffset + e.maxRows)
    (down : e.cursorRow + 1 < e.lines.length) :
    ∃ e', e.moveRight = .ok e' ∧ e'.scrollOffset = e.scrollOffset ∧
      e'.scrollOffset + e'.maxRows ≤ e'.cursorRow := by
  refine ⟨{ e with cursorRow := e.cursorRow + 1, cursorCol := 0 }, ?_, rfl, ?_⟩
  · simp only [GrapeEditor.moveRight, Outcome.bind_eq, Vec.index_eq_ok.mpr get, Outcome.ok_bind,
      if_neg (show ¬ e.cursorCol < Str.len line by omega), if_pos down, Outcome.pure_eq_ok]
  · show e.scrollOffset + e.maxRows ≤ e.cursorRow + 1
    omega

end

end OspabOs.Grape
