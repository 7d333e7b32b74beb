import Mathlib
import OspabOs.Grape.Editor

/-!
# Opening a file in Grape and saving it unchanged

`load_file` reads the file, refuses it unless it is UTF-8, and keeps
`text.lines()` (one empty line for an empty file); `save_file` joins the
lines with `'\n'` and writes the bytes back with `WriteFile`. For every
file whose bytes are the UTF-8 text `s`, the load succeeds and the save
writes `encode (join (lines s))` (`loadFile_of_text`, `saveFile_state`).

Those bytes are the file's own exactly when `s` has no `"\r\n"` and does
not end in `'\n'` (`Text.intercalate_lines`, with
`Text.fromUtf8_eq_some_iff` for the bytes): the round trip turns every
CRLF into LF and drops a final newline, which every file of the initial
tree has.
-/

namespace OspabOs.Grape

open Vfs

namespace GrapeEditor

/-- `load_file` of a file that is UTF-8 text: the load succeeds with its
lines, or one empty line for an empty file. -/
theorem loadFile_of_text (e : GrapeEditor) {vfs : VfsState} {t : List UInt8} {s : List Char}
    (read : readFile vfs e.filename = .fileData t) (utf8 : Text.fromUtf8 t = some s) :
    e.loadFile vfs =
      (.ok (), { e with lines := if (Text.lines s).isEmpty then Text.lines s ++ [[]] else Text.lines s }) := by
  simp only [loadFile, process, read, utf8]

/-- `save_file` leaves the VFS as the `WriteFile` of the joined lines does,
whatever the service answers. -/
theorem saveFile_state (e : GrapeEditor) (vfs : VfsState) :
    (e.saveFile vfs).2 = (writeFile vfs e.filename (Text.encode (['\n'].intercalate e.lines))).2 := by
  unfold saveFile
  dsimp only [process]
  split <;> rfl

end GrapeEditor

/-- The empty line an empty file is given joins to nothing. -/
theorem intercalate_loaded (ls : List (List Char)) :
    ['\n'].intercalate (if ls.isEmpty then ls ++ [[]] else ls) = ['\n'].intercalate ls := by
  split_ifs with empty
  · rw [List.isEmpty_iff.mp empty]
    rfl
  · rfl

/-- For every file of UTF-8 text `s` at `p`: opening it in Grape succeeds,
saving it unchanged issues the `WriteFile` of `join (lines s)`, and those
bytes are the file's exactly when `s` has no CRLF and no final newline. -/
theorem grape_load_save_round_trip_iff (vfs : VfsState) (p : List Char) (r : Nat) {t : List UInt8}
    {s : List Char} (read : readFile vfs p = .fileData t) (utf8 : Text.fromUtf8 t = some s) :
    ((GrapeEditor.new p r).loadFile vfs).1 = .ok () ∧
      (((GrapeEditor.new p r).loadFile vfs).2.saveFile vfs).2 =
        (writeFile vfs p (Text.encode (['\n'].intercalate (Text.lines s)))).2 ∧
      (Text.encode (['\n'].intercalate (Text.lines s)) = t ↔ ¬ ['\r', '\n'] <:+: s ∧ s.getLast? ≠ some '\n') := by
  have loaded := GrapeEditor.loadFile_of_text (GrapeEditor.new p r) read utf8
  refine ⟨by rw [loaded], ?_, ?_⟩
  · rw [loaded, GrapeEditor.saveFile_state]
    dsimp only
    rw [intercalate_loaded]
    rfl
  · -- the bytes are `encode s`, and `encode` is injective
    rw [← Text.fromUtf8_eq_some_iff.mp utf8, Text.encode_injective.eq_iff]
    exact Text.intercalate_lines s

theorem grape_save_drops_hostname_newline :
    ((GrapeEditor.new "/etc/hostname".toList 20).loadFile (VfsState.init [])).1 = .ok () ∧
      (((GrapeEditor.new "/etc/hostname".toList 20).loadFile (VfsState.init [])).2.saveFile
        (VfsState.init [])).2 = (writeFile (VfsState.init []) "/etc/hostname".toList (Text.encode "ospabOS".toList)).2 ∧
      Text.encode "ospabOS".toList ≠ Text.encode "ospabOS\n".toList := by
  have round := grape_load_save_round_trip_iff (VfsState.init []) "/etc/hostname".toList 20
    (rfl : readFile (VfsState.init []) "/etc/hostname".toList = .fileData (Text.encode "ospabOS\n".toList))
    (Text.fromUtf8_encode _)
  have joined : ['\n'].intercalate (Text.lines "ospabOS\n".toList) = "ospabOS".toList := by decide
  rw [joined] at round
  exact ⟨round.1, round.2.1, fun same => (round.2.2.mp same).2 rfl⟩

end OspabOs.Grape
