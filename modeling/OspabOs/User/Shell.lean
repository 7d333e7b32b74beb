import Mathlib
import OspabOs.Syscall.Files
import OspabOs.Lib.Outcome

/-!
# The user shell

`ospabshell` is the first user program. It runs in ring 3 and reaches the
kernel only through system calls. Its `Terminal` keeps a cursor on an
80 × 25 grid and draws each character with `draw_char` (call 9). The grid
does not scroll: output past the last row goes on in the last row.

`cat` is `print_file`. It copies the path into a 256-byte stack buffer
with a NUL after it and calls `open`. Then it reads 256 bytes at a time,
until a read returns 0 or `!0`, and prints each chunk as a `str` made by
`from_utf8_unchecked`. On bytes that are not UTF-8 that function is
undefined behaviour, a fault here.

**The law.** `cat` of a regular file prints the file's text followed by a
newline when each 256-byte chunk is UTF-8 on its own, and faults otherwise.
Either way it leaves the descriptor open with nothing left to read
(`cat_prints_file`). The shell never closes a descriptor.
-/

namespace OspabOs.User

open Syscall Fs Vfs Text ArrayLoop

/-- `COLS`. -/
def cols : Nat := 80

/-- `ROWS`. -/
def rows : Nat := 25

/-- `FG`. -/
def fg : UInt32 := 0x00E0E0E0

/-- `BG`. -/
def bg : UInt32 := 0x00000000

/-- The arguments of one `syscall::draw_char` call. -/
structure DrawCall where
  x : UInt64
  y : UInt64
  ch : UInt64
  fg : UInt64
  bg : UInt64
  deriving DecidableEq, Repr

/-- `Terminal`: the cell the next character goes to. -/
structure Terminal where
  row : Nat
  col : Nat
  deriving DecidableEq, Repr

/-- What the shell has shown so far: its terminal and the `draw_char` calls
it has made, in order. -/
structure Output where
  term : Terminal
  calls : List DrawCall
  deriving DecidableEq, Repr

namespace Output

/-- `new_line`: the first column of the next row, or of the last row. -/
def newLine (out : Output) : Output :=
  { out with term := { row := if out.term.row + 1 < rows then out.term.row + 1 else out.term.row, col := 0 } }

/-- `put_char`: a `draw_char` call for the cursor's cell, then the cursor
moves on. At the end of a row it wraps, which is the same move as
`new_line`. -/
def putChar (out : Output) (ch : Char) (fg bg : UInt32) : Output :=
  if rows ≤ out.term.row then out
  else
    let call : DrawCall := ⟨out.term.col.toUInt64, out.term.row.toUInt64, ch.toNat.toUInt64, fg.toUInt64, bg.toUInt64⟩
    let drawn : Output := { term := { out.term with col := out.term.col + 1 }, calls := out.calls ++ [call] }
    if cols ≤ drawn.term.col then drawn.newLine else drawn

/-- One character of `write_str_colored`. -/
def emit (fg bg : UInt32) (out : Output) (ch : Char) : Output :=
  if ch = '\n' then out.newLine else out.putChar ch fg bg

/-- `write_str_colored`. -/
def writeStrColored (out : Output) (s : List Char) (fg bg : UInt32) : Output :=
  s.foldl (emit fg bg) out

/-- `write_str`. -/
def writeStr (out : Output) (s : List Char) : Output :=
  out.writeStrColored s User.fg User.bg

theorem writeStr_append (out : Output) (s s' : List Char) :
    out.writeStr (s ++ s') = (out.writeStr s).writeStr s' := by
  unfold writeStr writeStrColored
  rw [List.foldl_append]

end Output

/-! ## `cat` -/

/-- A 256-byte stack buffer of the shell holding a path: zeroed, then as
many bytes of the path as leave room for a NUL, then the NUL. -/
def copyPath (mem : Nat → UInt8) (dst : UInt64) (path : List Char) : Nat → UInt8 :=
  let zeroed := writeList mem dst.toNat (List.replicate 256 0)
  let bytes := encode path
  -- `min(bytes.len(), c_buf.len().saturating_sub(1))`
  let count := min bytes.length 255
  writeList zeroed dst.toNat (bytes.take count ++ [0])

/-- The pieces that successive reads of `len` bytes take off `d`. -/
def chunks : Nat → List UInt8 → List (List UInt8)
  | 0, _ => []
  | _, [] => []
  | len + 1, b :: bs => (b :: bs).take (len + 1) :: chunks (len + 1) (bs.drop len)
termination_by _ d => d.length
decreasing_by
  rw [List.length_drop, List.length_cons]
  omega

/-- What `cat` prints of the bytes it reads: the texts of the 256-byte
chunks, or nothing when a chunk is not UTF-8 on its own. -/
def catText (d : List UInt8) : Option (List Char) :=
  ((chunks 256 d).mapM fromUtf8).map List.flatten

/-- The loop of `print_file`, for at most `fuel` reads into `buf`. `key n`
is what `try_read_key` returns at the `n`-th read. -/
def catLoop (key : Nat → Option Char) (fd buf : UInt64) :
    Nat → Nat → Output → Kernel → Option (Outcome Empty (Output × Kernel))
  | 0, _, _, _ => none
  | fuel + 1, n, out, k =>
    match sysRead k (key n) fd buf 256 with
    | (read, k) =>
      if read = 0 ∨ read = errorCode then some (.ok (out, k))
      else
        -- `from_utf8_unchecked(&buf[..read])`
        match fromUtf8 (userBytes k.mem buf.toNat read.toNat) with
        | none => some .fault
        | some text => catLoop key fd buf fuel (n + 1) (out.writeStr text) k

/-- `print_file`, with its two stack buffers at `pathBuf` and `buf`. -/
def printFile (key : Nat → Option Char) (fuel : Nat) (pathBuf buf : UInt64) (path : List Char)
    (out : Output) (k : Kernel) : Option (Outcome Empty (Output × Kernel)) :=
  match sysOpen { k with mem := copyPath k.mem pathBuf path } pathBuf 0 with
  | (fd, k) =>
    if fd = errorCode then some (.ok (out.writeStr "open failed\n".toList, k))
    else
      match catLoop key fd buf fuel 0 out { k with mem := writeList k.mem buf.toNat (List.replicate 256 0) } with
      | some (.ok (out, k)) => some (.ok (out.writeStr ['\n'], k))
      | other => other

/-- The path `print_file` hands to `open` is the whole path when it fits
before the NUL and holds none. -/
theorem readCString_copyPath (mem : Nat → UInt8) {dst : UInt64} (nonnull : dst ≠ 0) {path : List Char}
    (short : (encode path).length ≤ 255) (noNul : '\x00' ∉ path) :
    readCString (copyPath mem dst path) dst = some path := by
  unfold copyPath
  dsimp only
  rw [List.take_of_length_le (Nat.le_min.mpr ⟨Nat.le_refl _, short⟩),
    readCString_writeList _ nonnull (zero_not_mem_encode noNul) (Nat.le_trans short (by decide)), fromUtf8_encode]

/-! ## The chunks of a file -/

theorem chunks_nil (len : Nat) : chunks len [] = [] := by
  cases len with
  | zero => rw [chunks]
  | succ len =>
    rw [chunks]
    exact Nat.succ_ne_zero len

theorem chunks_of_ne_nil {len : Nat} {d : List UInt8} (nonempty : d ≠ []) (pos : 0 < len) :
    chunks len d = d.take len :: chunks len (d.drop len) := by
  obtain ⟨b, bs, rfl⟩ := List.exists_cons_of_ne_nil nonempty
  obtain ⟨len, rfl⟩ := Nat.exists_eq_add_one_of_ne_zero (Nat.pos_iff_ne_zero.mp pos)
  rw [chunks, List.drop_succ_cons]

theorem catText_nil : catText [] = some [] := by
  rw [catText, chunks_nil]
  rfl

theorem catText_of_ne_nil {d : List UInt8} (nonempty : d ≠ []) :
    catText d = (fromUtf8 (d.take 256)).bind fun text => (catText (d.drop 256)).map (text ++ ·) := by
  unfold catText
  rw [chunks_of_ne_nil nonempty (by decide), List.mapM_cons]
  cases fromUtf8 (d.take 256) with
  | none => rfl
  | some text =>
    cases (chunks 256 (d.drop 256)).mapM fromUtf8 with
    | none => rfl
    | some texts => rfl

/-- When every chunk is UTF-8, so is the whole, with the chunks' texts one
after another. -/
theorem fromUtf8_of_catText {d : List UInt8} {text : List Char} (printed : catText d = some text) :
    fromUtf8 d = some text := by
  rw [fromUtf8_eq_some_iff]
  -- on the length of `d`: the first chunk, then the rest
  induction len : d.length using Nat.strong_induction_on generalizing d text with
  | _ n ih =>
    by_cases empty : d = []
    · subst empty
      rw [catText_nil] at printed
      cases printed
      rfl
    · rw [catText_of_ne_nil empty] at printed
      obtain ⟨first, firstText, printed⟩ := Option.bind_eq_some_iff.mp printed
      obtain ⟨rest, restText, rfl⟩ := Option.map_eq_some_iff.mp printed
      have shorter : (d.drop 256).length < n := by
        rw [List.length_drop, ← len]
        have : d.length ≠ 0 := fun zero => empty (List.eq_nil_of_length_eq_zero zero)
        omega
      rw [encode, List.flatMap_append, ← encode, ← encode, encode_of_fromUtf8 firstText,
        ih _ shorter restText rfl, List.take_append_drop]

/-! ## The loop of `cat` -/

/-- The loop of `print_file` on a descriptor with the bytes `r` left, with
fuel for every read: a fault at the first chunk that is not UTF-8, or else
the texts of all chunks printed and nothing left. -/
theorem catLoop_of_restAt (key : Nat → Option Char) {fd buf : UInt64} (nonnull : buf ≠ 0) :
    ∀ fuel n out k r, restAt k fd.toUInt32.toNat = some r → (r.length + 255) / 256 + 1 ≤ fuel →
      match catText r with
      | none => catLoop key fd buf fuel n out k = some .fault
      | some text => ∃ k', restAt k' fd.toUInt32.toNat = some [] ∧
          catLoop key fd buf fuel n out k = some (.ok (out.writeStr text, k')) := by
  intro fuel
  -- on the fuel: each turn takes a chunk off `r`, or ends the loop
  induction fuel with
  | zero =>
    intro n out k r _ enough
    omega
  | succ fuel ih =>
    intro n out k r has enough
    obtain ⟨t, h, fds, slot, rfl⟩ := restAt_eq_some has
    have guard : ¬ (buf = 0 ∨ (256 : UInt64) = 0) := by
      rintro (zero | zero)
      · exact nonnull zero
      · cases zero
    obtain ⟨count, front, left⟩ := sysRead_of_mem (key n) fd buf 256 fds slot guard
    rcases read : sysRead k (key n) fd buf 256 with ⟨got, k'⟩
    rw [read] at count front left
    dsimp only at count front left
    rw [show (256 : UInt64).toNat = 256 from rfl] at count front left
    rw [catLoop, read]
    dsimp only
    by_cases empty : h.rest = []
    · -- a read of nothing ends the loop
      rw [empty] at count left ⊢
      have zero : got = 0 := UInt64.toNat_inj.mp count
      rw [if_pos (.inl zero), catText_nil]
      exact ⟨k', left, rfl⟩
    · have positive : 0 < min h.rest.length 256 := by
        have := List.length_pos_iff.mpr empty
        omega
      have notError : ¬ (got = 0 ∨ got = errorCode) := by
        rintro (zero | error)
        · rw [zero, UInt64.toNat_zero] at count
          omega
        · rw [error, show errorCode.toNat = 2 ^ 64 - 1 from rfl] at count
          omega
      rw [if_neg notError, count, front, catText_of_ne_nil empty]
      have fuelLeft : ((h.rest.drop 256).length + 255) / 256 + 1 ≤ fuel := by
        rw [List.length_drop]
        omega
      cases first : fromUtf8 (h.rest.take 256) with
      | none => rfl
      | some firstText =>
        have next := ih (n + 1) (out.writeStr firstText) k' _ left fuelLeft
        dsimp only
        cases rest : catText (h.rest.drop 256) with
        | none =>
          rw [rest] at next
          exact next
        | some restText =>
          rw [rest] at next
          obtain ⟨final, emptied, loop⟩ := next
          refine ⟨final, emptied, ?_⟩
          rw [loop, Output.writeStr_append]

/-! ## `cat` -/

/-- `cat` of a regular file `p`, whose path fits the stack buffer, with fuel
for every read: when every 256-byte chunk of the file is UTF-8 on its own,
the shell prints the file's whole text and then a newline, and the
descriptor `open` gave it stays open at the end of the file; otherwise the
loop reaches `from_utf8_unchecked` on bytes that are not UTF-8. -/
theorem cat_prints_file (key : Nat → Option Char) {fuel : Nat} {pathBuf buf : UInt64} {p : List Char}
    (out : Output) {k : Kernel} {s : VfsState} {t : FdTable} {node : VNode} {d : List UInt8}
    (vfs : k.vfs = some s) (fds : k.fds = some t) (fits : t.entries.length < 2 ^ 32)
    (short : (encode p).length ≤ 255) (noNul : '\x00' ∉ p) (pathNonnull : pathBuf ≠ 0) (nonnull : buf ≠ 0)
    (resolves : resolvePath s.root (normalizePath (joinCwd s.currentDir p)) = some node)
    (regular : node.fileType = .regular) (content : readFile s p = .fileData d)
    (enough : (d.length + 255) / 256 + 1 ≤ fuel) :
    match catText d with
    | none => printFile key fuel pathBuf buf p out k = some .fault
    | some text => fromUtf8 d = some text ∧ ∃ k', restAt k' t.firstFree = some [] ∧
        printFile key fuel pathBuf buf p out k = some (.ok (out.writeStr (text ++ ['\n']), k')) := by
  have path : readCString ({ k with mem := copyPath k.mem pathBuf p } : Kernel).mem pathBuf = some p :=
    readCString_copyPath k.mem pathNonnull short noNul
  -- `print_file` opens with flags `0`
  have readOnly : OpenFlags.fromBits 0 = .readOnly := rfl
  have same : node.data.getD [] = d := by
    rw [(vfsOpen_regular s p resolves regular readOnly).1] at content
    injection content
  obtain ⟨index, opened⟩ := @sysOpen_regular { k with mem := copyPath k.mem pathBuf p } s t pathBuf 0 p node
    vfs fds fits path resolves regular readOnly
  rcases opening : sysOpen { k with mem := copyPath k.mem pathBuf p } pathBuf 0 with ⟨fd, k'⟩
  rw [opening, same] at opened
  rw [opening] at index
  dsimp only at index opened
  have small : t.firstFree < 2 ^ 32 := Nat.lt_of_le_of_lt t.firstFree_le fits
  have notError : fd ≠ errorCode := by
    intro error
    rw [error, show errorCode.toNat = 2 ^ 64 - 1 from rfl] at index
    omega
  have slot : fd.toUInt32.toNat = t.firstFree := by
    rw [UInt64.toNat_toUInt32, index, Nat.mod_eq_of_lt small]
  -- zeroing `buf` leaves the descriptors as `open` left them
  have ready : restAt { k' with mem := writeList k'.mem buf.toNat (List.replicate 256 0) } fd.toUInt32.toNat =
      some d := by
    rw [restAt_congr rfl, slot]
    exact opened
  have loop := catLoop_of_restAt key nonnull fuel 0 out _ d ready enough
  unfold printFile
  rw [opening]
  dsimp only
  rw [if_neg notError]
  cases printed : catText d with
  | none =>
    rw [printed] at loop
    rw [loop]
  | some text =>
    rw [printed] at loop
    obtain ⟨final, emptied, run⟩ := loop
    refine ⟨fromUtf8_of_catText printed, final, slot ▸ emptied, ?_⟩
    rw [run, Output.writeStr_append]

theorem cat_prints_hostname :
    ∃ k', restAt k' FdTable.withStdio.firstFree = some [] ∧
      printFile (fun _ => none) 2 1 4096 "/etc/hostname".toList ⟨⟨0, 0⟩, []⟩
          ⟨some (VfsState.init []), some FdTable.withStdio, fun _ => 0⟩ =
        some (.ok (Output.writeStr ⟨⟨0, 0⟩, []⟩ ("ospabOS\n".toList ++ ['\n']), k')) := by
  have printed := @cat_prints_file (fun _ => none) 2 1 4096 "/etc/hostname".toList ⟨⟨0, 0⟩, []⟩
    ⟨some (VfsState.init []), some FdTable.withStdio, fun _ => 0⟩ (VfsState.init []) FdTable.withStdio
    (VNode.newFile "hostname".toList (encode "ospabOS\n".toList)) (encode "ospabOS\n".toList)
    rfl rfl (by decide) (by decide) (by decide) (by decide) (by decide) rfl rfl rfl (by decide)
  have whole : catText (encode "ospabOS\n".toList) = some "ospabOS\n".toList := by
    rw [catText_of_ne_nil (by decide), List.take_of_length_le (by decide), List.drop_eq_nil_of_le (by decide),
      catText_nil, fromUtf8_encode]
    rfl
  rw [whole] at printed
  exact printed.2

end OspabOs.User
