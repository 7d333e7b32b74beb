import OspabOs.Lib.Collections
import OspabOs.Vfs.Service

/-!
# Grape, the text editor

`grape::GrapeEditor` holds a file as a `Vec<String>` of lines, a cursor
(`cursor_row`, and `cursor_col` as a BYTE offset into the row), and the
first row on screen (`scroll_offset`) of a window of `max_rows` rows.
`grape::open` builds one for 20 screen rows (so 18 rows of text), loads
the file with `load_file`, and then passes every key to `handle_key` until
it returns `true`.

The editor talks to the VFS service of `Vfs.Service`: `load_file` sends
`ReadFile` and `save_file` sends `WriteFile`, so the key handlers take and
return a `VfsState`. Indexing a line, inserting, removing and splitting at
the cursor are the panicking operations of `Lib.Collections`, and every
handler returns an `Outcome` that is `panic` where the Rust code panics.
`draw` only reads the state, and indexes only rows below `lines.len()`; it
is left out.
-/

namespace OspabOs.Grape

open Vfs

/-- `EditorKey`. -/
inductive EditorKey where
  | char (c : Char)
  | arrowUp
  | arrowDown
  | arrowLeft
  | arrowRight
  | pageUp
  | pageDown
  | home
  | endKey
  | delete

/-- `GrapeEditor`. -/
structure GrapeEditor where
  filename : List Char
  lines : List (List Char)
  cursorRow : Nat
  cursorCol : Nat
  scrollOffset : Nat
  modified : Bool
  message : Option (List Char)
  maxRows : Nat

/-- How a handler ends: with a new editor, or in a panic. -/
abbrev Step := Outcome Empty

namespace GrapeEditor

/-- `GrapeEditor::new`: no lines yet, and two screen rows for the bars. -/
def new (filename : List Char) (maxRows : Nat) : GrapeEditor where
  filename := filename
  lines := []
  cursorRow := 0
  cursorCol := 0
  scrollOffset := 0
  modified := false
  message := none
  maxRows := maxRows - 2

/-- `load_file`: the lines of the file, or one empty line when the file is
missing; a file that is not UTF-8 leaves the lines as they were. -/
def loadFile (e : GrapeEditor) (vfs : VfsState) : Except (List Char) Unit × GrapeEditor :=
  match (process vfs (.readFile e.filename)).1 with
  | .fileData data =>
    match Text.fromUtf8 data with
    | some text =>
      let lines := Text.lines text
      (.ok (), { e with lines := if lines.isEmpty then lines ++ [[]] else lines })
    | none => (.error "File is not valid UTF-8".toList, e)
  | .error msg => (.error msg, { e with lines := e.lines ++ [[]] })
  | _ => (.error "Unexpected response".toList, e)

/-- `show_help`. -/
def showHelp (e : GrapeEditor) : GrapeEditor :=
  { e with message := some "^G=Help ^X=Save ^C=Exit ^W=Search ^K=Cut ^U=Paste".toList }

/-- `save_file`: the lines joined by `'\n'`, written back to the file. -/
def saveFile (e : GrapeEditor) (vfs : VfsState) : GrapeEditor × VfsState :=
  let content := ['\n'].intercalate e.lines
  let (response, vfs) := process vfs (.writeFile e.filename (Text.encode content))
  match response with
  | .success => ({ e with modified := false, message := some "Saved!".toList }, vfs)
  | .error msg => ({ e with message := some ("Save failed: ".toList ++ msg) }, vfs)
  | _ => (e, vfs)

/-- `handle_backspace`: erase the character before the cursor, or join the
row to the one above it. -/
def handleBackspace (e : GrapeEditor) : Step GrapeEditor :=
  if e.cursorCol > 0 then do
    let line ← Vec.index e.lines e.cursorRow
    if e.cursorCol ≤ Str.len line then do
      let line ← Str.remove line (e.cursorCol - 1)
      pure { e with lines := e.lines.set e.cursorRow line, cursorCol := e.cursorCol - 1, modified := true }
    else pure e
  else if e.cursorRow > 0 then do
    let (current, lines) ← Vec.remove e.lines e.cursorRow
    let row := e.cursorRow - 1
    let previous ← Vec.index lines row
    pure { e with lines := lines.set row (previous ++ current), cursorRow := row,
                  cursorCol := Str.len previous, modified := true }
  else pure e

/-- `handle_enter`: split the row at the cursor; the scroll follows a cursor
that leaves the window at the bottom. -/
def handleEnter (e : GrapeEditor) : Step GrapeEditor := do
  let line ← Vec.index e.lines e.cursorRow
  let (kept, remainder) ← Str.splitOff line e.cursorCol
  let row := e.cursorRow + 1
  let lines ← Vec.insert (e.lines.set e.cursorRow kept) row remainder
  let e := { e with lines := lines, cursorRow := row, cursorCol := 0, modified := true }
  pure (if e.cursorRow ≥ e.scrollOffset + e.maxRows then { e with scrollOffset := e.scrollOffset + 1 } else e)

/-- `handle_char`: insert at the cursor and step one byte right. -/
def handleChar (e : GrapeEditor) (c : Char) : Step GrapeEditor := do
  let line ← Vec.index e.lines e.cursorRow
  let line ← Str.insert line e.cursorCol c
  pure { e with lines := e.lines.set e.cursorRow line, cursorCol := e.cursorCol + 1, modified := true }

/-- The column clamped to a row of `len` bytes, as `move_up` and `move_down`
adjust it. -/
def clampCol (col len : Nat) : Nat := if col > len then len else col

/-- `move_up`. -/
def moveUp (e : GrapeEditor) : Step GrapeEditor :=
  if e.cursorRow > 0 then do
    let row := e.cursorRow - 1
    let line ← Vec.index e.lines row
    pure { e with cursorRow := row, scrollOffset := if row < e.scrollOffset then row else e.scrollOffset,
                  cursorCol := clampCol e.cursorCol (Str.len line) }
  else pure e

/-- `move_down`. -/
def moveDown (e : GrapeEditor) : Step GrapeEditor :=
  if e.cursorRow + 1 < e.lines.length then do
    let row := e.cursorRow + 1
    let line ← Vec.index e.lines row
    pure { e with cursorRow := row,
                  scrollOffset := if row ≥ e.scrollOffset + e.maxRows then e.scrollOffset + 1 else e.scrollOffset,
                  cursorCol := clampCol e.cursorCol (Str.len line) }
  else pure e

/-- `move_left`: one byte left, or to the end of the row above. -/
def moveLeft (e : GrapeEditor) : Step GrapeEditor :=
  if e.cursorCol > 0 then pure { e with cursorCol := e.cursorCol - 1 }
  else if e.cursorRow > 0 then do
    let line ← Vec.index e.lines (e.cursorRow - 1)
    pure { e with cursorRow := e.cursorRow - 1, cursorCol := Str.len line }
  else pure e

/-- `move_right`: one byte right, or to the start of the row below. -/
def moveRight (e : GrapeEditor) : Step GrapeEditor := do
  let line ← Vec.index e.lines e.cursorRow
  if e.cursorCol < Str.len line then pure { e with cursorCol := e.cursorCol + 1 }
  else if e.cursorRow + 1 < e.lines.length then pure { e with cursorRow := e.cursorRow + 1, cursorCol := 0 }
  else pure e

/-- The Delete key: erase the character at the cursor, or join the next row
to this one. -/
def delete (e : GrapeEditor) : Step GrapeEditor := do
  let line ← Vec.index e.lines e.cursorRow
  if e.cursorCol < Str.len line then do
    let line ← Str.remove line e.cursorCol
    pure { e with lines := e.lines.set e.cursorRow line, modified := true }
  else if e.cursorRow + 1 < e.lines.length then do
    let (next, lines) ← Vec.remove e.lines (e.cursorRow + 1)
    let line ← Vec.index lines e.cursorRow
    pure { e with lines := lines.set e.cursorRow (line ++ next), modified := true }
  else pure e

/-- `handle_char_input`: the control keys, Backspace, Enter and text; the
`Bool` is whether to leave the editor. -/
def handleCharInput (e : GrapeEditor) (vfs : VfsState) (c : Char) : Step (Bool × GrapeEditor × VfsState) :=
  match c with
  | '\x07' => pure (false, e.showHelp, vfs)
  | '\x18' =>
    let (e, vfs) := e.saveFile vfs
    pure (false, e, vfs)
  | '\x03' =>
    pure (true, if e.modified then { e with message := some "Warning: Unsaved changes! (^X to save)".toList } else e,
      vfs)
  | '\x17' => pure (false, { e with message := some "Search: Not implemented yet".toList }, vfs)
  | '\x0B' => pure (false, { e with message := some "Cut: Not implemented yet".toList }, vfs)
  | '\x15' => pure (false, { e with message := some "Paste: Not implemented yet".toList }, vfs)
  | '\x08' => do
    let e ← e.handleBackspace
    pure (false, e, vfs)
  | '\n' | '\r' => do
    let e ← e.handleEnter
    pure (false, e, vfs)
  | c =>
    if c ≥ ' ' then do
      let e ← e.handleChar c
      pure (false, e, vfs)
    else pure (false, e, vfs)

/-- `handle_key`. -/
def handleKey (e : GrapeEditor) (vfs : VfsState) : EditorKey → Step (Bool × GrapeEditor × VfsState)
  | .char c => e.handleCharInput vfs c
  | .arrowUp => do let e ← e.moveUp; pure (false, e, vfs)
  | .arrowDown => do let e ← e.moveDown; pure (false, e, vfs)
  | .arrowLeft => do let e ← e.moveLeft; pure (false, e, vfs)
  | .arrowRight => do let e ← e.moveRight; pure (false, e, vfs)
  | .pageUp => do let e ← Outcome.iterate moveUp 10 e; pure (false, e, vfs)
  | .pageDown => do let e ← Outcome.iterate moveDown 10 e; pure (false, e, vfs)
  | .home => pure (false, { e with cursorCol := 0 }, vfs)
  | .endKey => do
    let line ← Vec.index e.lines e.cursorRow
    pure (false, { e with cursorCol := Str.len line }, vfs)
  | .delete => do let e ← e.delete; pure (false, e, vfs)

end GrapeEditor

/-- `grape::open` up to its key loop: a 20-row editor with the file loaded
and the message that says how loading went. -/
def openEditor (filename : List Char) (vfs : VfsState) : GrapeEditor :=
  match GrapeEditor.loadFile (GrapeEditor.new filename 20) vfs with
  | (.ok _, e) => { e with message := some "File loaded".toList }
  | (.error _, e) => { e with message := some "New file".toList }

/-- The key loop of `grape::open`, over the keys `read_editor_key_blocking`
returns, until a key asks to leave or the keys run out. -/
def runKeys (e : GrapeEditor) (vfs : VfsState) : List EditorKey → Step (GrapeEditor × VfsState)
  | [] => pure (e, vfs)
  | key :: keys => do
    let (exit, e, vfs) ← e.handleKey vfs key
    if exit then pure (e, vfs) else runKeys e vfs keys

end OspabOs.Grape
