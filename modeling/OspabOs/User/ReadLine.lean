import Mathlib
import OspabOs.User.Shell

/-!
# The user shell's line input

`read_line` reads the keyboard a byte at a time: `read(0, &mut ch, 1)` into
a fresh `ch`, tried again while a read returns 0. A line end (`\r` or `\n`)
moves the terminal to a new line, stores a NUL after the line in the static
`INPUT_BUF` and returns the line's length. Backspace and Delete (8 and 127)
take the last byte off the line and `backspace` erases it on screen; any
other byte is stored, while the line has room for it and the NUL, and
echoed by `put_char`. Descriptor 0 is the keyboard, whose read hands over
`ch as u8` of the key `try_read_key` returned.

The model threads the kernel (`Syscall.Kernel`) through the reads.
`INPUT_BUF` is a function from index to byte with its bound checked as Rust
checks it, so an index out of range is `none`; so is the second `col -= 1`
of `backspace` when `put_char` drew nothing.

**The law.** From a terminal on its 80 × 25 grid, whatever keys arrive,
`read_line` never panics; it returns at the first key whose byte is a line
end, with `INPUT_BUF` holding the typed line (each Backspace having removed
the byte before it, the bytes past 255 dropped) and a NUL after it, and
the terminal still on its grid (`read_line_returns_typed_line`).

The screen does not always follow: a Backspace right after the line
wrapped to a new row finds the cursor in column 0 and erases nothing,
though the byte leaves the line (`backspace_after_wrap_erases_nothing`).
-/

namespace OspabOs.User

open Syscall Fs ArrayLoop

/-- `INPUT_BUF_LEN`. -/
def inputBufLen : Nat := 256

/-- `ch as u8` of a key: the byte the keyboard's read hands over. -/
def keyByte (c : Char) : UInt8 := UInt8.ofNat c.toNat

namespace Output

/-- `backspace`: back a column, a blank in the background colour there, and
back again. `none` is the second `col -= 1` underflowing, when `put_char`
drew nothing. -/
def backspace (out : Output) : Option Output :=
  if out.term.col = 0 then some out
  else
    let out := ({ out with term := { out.term with col := out.term.col - 1 } } : Output).putChar ' ' bg bg
    if out.term.col = 0 then none
    else some { out with term := { out.term with col := out.term.col - 1 } }

end Output

/-- The terminal is on its grid: the next `draw_char` is for a cell of it. -/
def InGrid (out : Output) : Prop :=
  out.term.row < rows ∧ out.term.col < cols

/-- `read_line`'s state: the length so far, `INPUT_BUF`, and the terminal. -/
structure LineInput where
  len : Nat
  buf : Nat → UInt8
  out : Output

/-- One byte `read_line` got that is not a line end. -/
def edit (st : LineInput) (ch : UInt8) : Option LineInput :=
  if ch = 8 ∨ ch = 127 then
    if 0 < st.len then st.out.backspace.map fun out => { st with len := st.len - 1, out := out }
    else some st
  else if inputBufLen ≤ st.len + 1 then some st
  -- `INPUT_BUF[len] = ch`, a checked index
  else if st.len < inputBufLen then
    some ⟨st.len + 1, Function.update st.buf st.len ch, st.out.putChar (Char.ofNat ch.toNat) fg bg⟩
  else none

/-- `read(0, &mut ch, 1)` with `ch` at `chPtr`, zeroed first: the count, and
`ch` after the call. -/
def readByte (k : Kernel) (key : Option Char) (chPtr : UInt64) : UInt64 × UInt8 × Kernel :=
  match sysRead { k with mem := Function.update k.mem chPtr.toNat 0 } key 0 chPtr 1 with
  | (read, k) => (read, k.mem chPtr.toNat, k)

/-- `read_line`, `keys` what `try_read_key` returns at each read. `some none`
is the loop still waiting for a line end when the keys run out, and `none`
a panic. -/
def readLine (chPtr : UInt64) : LineInput → Kernel → List (Option Char) → Option (Option (LineInput × Kernel))
  | _, _, [] => some none
  | st, k, key :: keys =>
    match readByte k key chPtr with
    | (read, ch, k) =>
      if read = 0 then readLine chPtr st k keys
      else if ch = 13 ∨ ch = 10 then
        -- `new_line`, then `INPUT_BUF[len] = 0`
        if st.len < inputBufLen then some (some (⟨st.len, Function.update st.buf st.len 0, st.out.newLine⟩, k))
        else none
      else
        match edit st ch with
        | none => none
        | some st => readLine chPtr st k keys

/-! ## The typed line -/

/-- The line after one more byte: Backspace and Delete take the last byte
off, and any other byte is appended while the line is shorter than 255
bytes. -/
def typeByte (line : List UInt8) (b : UInt8) : List UInt8 :=
  if b = 8 ∨ b = 127 then line.dropLast
  else if 255 ≤ line.length then line
  else line ++ [b]

/-- The line `bytes` type from nothing. -/
def typed (bytes : List UInt8) : List UInt8 :=
  bytes.foldl typeByte []

/-- Descriptor 0 of the running task is the keyboard. -/
def KeyboardAtZero (k : Kernel) : Prop :=
  ∃ t : FdTable, k.fds = some t ∧ t.entries[0]? = some (some (.device .keyboard))


/-! ## The terminal stays on its grid -/

namespace Output

variable {out : Output} {ch : Char} {f b : UInt32}

theorem term_newLine (out : Output) :
    out.newLine.term = ⟨if out.term.row + 1 < rows then out.term.row + 1 else out.term.row, 0⟩ := rfl

theorem calls_newLine (out : Output) : out.newLine.calls = out.calls := rfl

/-- `put_char` on screen draws the cursor's cell. -/
theorem calls_putChar (onScreen : out.term.row < rows) :
    (out.putChar ch f b).calls =
      out.calls ++ [⟨out.term.col.toUInt64, out.term.row.toUInt64, ch.toNat.toUInt64, f.toUInt64, b.toUInt64⟩] := by
  unfold putChar
  rw [if_neg (Nat.not_le.mpr onScreen)]
  dsimp only
  split <;> rfl

/-- `put_char` on screen moves the cursor a column on, or wraps it. -/
theorem term_putChar (onScreen : out.term.row < rows) :
    (out.putChar ch f b).term =
      if cols ≤ out.term.col + 1 then ⟨if out.term.row + 1 < rows then out.term.row + 1 else out.term.row, 0⟩
      else ⟨out.term.row, out.term.col + 1⟩ := by
  unfold putChar
  rw [if_neg (Nat.not_le.mpr onScreen)]
  dsimp only
  split <;> rfl

/-- `backspace` off the first column: a blank drawn one column back, where
the cursor stays. -/
theorem backspace_of_pos (grid : InGrid out) (pos : 0 < out.term.col) :
    out.backspace = some ⟨⟨out.term.row, out.term.col - 1⟩,
      out.calls ++ [⟨(out.term.col - 1).toUInt64, out.term.row.toUInt64, (' ').toNat.toUInt64, bg.toUInt64, bg.toUInt64⟩]⟩ := by
  unfold backspace
  rw [if_neg (Nat.pos_iff_ne_zero.mp pos)]
  dsimp only
  -- the blank goes where the cursor was, so `put_char` does not wrap
  have back : InGrid ({ out with term := { out.term with col := out.term.col - 1 } } : Output) := by
    unfold InGrid at *
    dsimp only
    omega
  have notEnd : ¬ cols ≤ out.term.col - 1 + 1 := by unfold InGrid at grid; omega
  rw [term_putChar back.1, if_neg notEnd, calls_putChar back.1]
  dsimp only
  rw [if_neg (by omega), Nat.sub_add_cancel pos]

theorem backspace_of_inGrid (grid : InGrid out) : ∃ out', out.backspace = some out' ∧ InGrid out' := by
  rcases Nat.eq_zero_or_pos out.term.col with first | pos
  · refine ⟨out, ?_, grid⟩
    unfold backspace
    rw [if_pos first]
  · refine ⟨_, backspace_of_pos grid pos, ?_⟩
    unfold InGrid at *
    dsimp only
    omega

end Output

namespace InGrid

variable {out : Output} {ch : Char} {f b : UInt32}

theorem newLine (grid : InGrid out) : InGrid out.newLine := by
  unfold InGrid at *
  rw [Output.term_newLine]
  dsimp only
  split <;> simp [cols] <;> omega

theorem putChar (grid : InGrid out) : InGrid (out.putChar ch f b) := by
  unfold InGrid at *
  rw [Output.term_putChar grid.1]
  split <;> dsimp only
  · split <;> simp [cols] <;> omega
  · omega

end InGrid

/-! ## A byte from the keyboard -/

/-- A read of one byte at descriptor 0 from the keyboard: a key gives its
byte with count 1, no key count 0 and `ch` still zero. The keyboard stays at
descriptor 0. -/
theorem readByte_keyboard {k : Kernel} (keyboard : KeyboardAtZero k) {chPtr : UInt64} (nonnull : chPtr ≠ 0)
    (key : Option Char) :
    ∃ k', KeyboardAtZero k' ∧
      readByte k key chPtr = ((key.elim 0 fun _ => 1 : Nat).toUInt64, key.elim 0 keyByte, k') := by
  obtain ⟨t, fds, atZero⟩ := keyboard
  let zeroed : Kernel := { k with mem := Function.update k.mem chPtr.toNat 0 }
  have fds' : zeroed.fds = some t := fds
  have found : t.getMut (0 : UInt64).toUInt32 = .ok (.device .keyboard) := by
    rw [FdTable.getMut_eq_ok]
    exact atZero
  -- the handle sees the zeroed `ch`
  have bytes : userBytes zeroed.mem chPtr.toNat (1 : UInt64).toNat = [0] := by
    simp [zeroed, userBytes, window]
  have counted : (FileHandle.device .keyboard).read [0] key =
      (.ok (key.elim 0 fun _ => 1), [key.elim 0 keyByte], .device .keyboard) := by
    cases key <;> rfl
  have read := sysRead_of_getMut_ok zeroed key 0 chPtr 1 fds' found (by simp [nonnull]) (by rw [bytes, counted])
  rw [bytes, counted] at read
  refine ⟨{ zeroed with
      fds := some (writeBack t (0 : UInt64).toUInt32 (.device .keyboard)),
      mem := writeList zeroed.mem chPtr.toNat [key.elim 0 keyByte] }, ⟨_, rfl, ?_⟩, ?_⟩
  · have slot : 0 < t.entries.length := by
      rcases List.getElem?_eq_some_iff.mp atZero with ⟨lt, -⟩
      exact lt
    simp [writeBack, slot]
  · unfold readByte
    rw [read]
    simp [writeList_apply]

theorem readByte_key {k : Kernel} (keyboard : KeyboardAtZero k) {chPtr : UInt64} (nonnull : chPtr ≠ 0) (c : Char) :
    ∃ k', KeyboardAtZero k' ∧ readByte k (some c) chPtr = (1, keyByte c, k') :=
  readByte_keyboard keyboard nonnull (some c)

theorem readByte_no_key {k : Kernel} (keyboard : KeyboardAtZero k) {chPtr : UInt64} (nonnull : chPtr ≠ 0) :
    ∃ k', KeyboardAtZero k' ∧ readByte k none chPtr = (0, 0, k') :=
  readByte_keyboard keyboard nonnull none

/-! ## One byte of the line -/

section Edit

variable {st : LineInput} {ch : UInt8}

theorem edit_of_erase (erase : ch = 8 ∨ ch = 127) (pos : 0 < st.len) :
    edit st ch = st.out.backspace.map fun out => { st with len := st.len - 1, out := out } := by
  unfold edit
  rw [if_pos erase, if_pos pos]

theorem edit_of_erase_empty (erase : ch = 8 ∨ ch = 127) (empty : st.len = 0) : edit st ch = some st := by
  unfold edit
  rw [if_pos erase, if_neg (by omega)]

theorem edit_of_full (plain : ¬ (ch = 8 ∨ ch = 127)) (full : inputBufLen ≤ st.len + 1) : edit st ch = some st := by
  unfold edit
  rw [if_neg plain, if_pos full]

theorem edit_of_room (plain : ¬ (ch = 8 ∨ ch = 127)) (room : st.len + 1 < inputBufLen) :
    edit st ch = some ⟨st.len + 1, Function.update st.buf st.len ch, st.out.putChar (Char.ofNat ch.toNat) fg bg⟩ := by
  unfold edit
  rw [if_neg plain, if_neg (Nat.not_le.mpr room), if_pos (by omega)]

end Edit

/-- What `read_line` keeps of the line typed so far: its length, the line at
the front of `INPUT_BUF` with room after it for the NUL, and the terminal on
its grid. -/
structure Typed (st : LineInput) (line : List UInt8) : Prop where
  len : st.len = line.length
  buf : window st.buf st.len = line
  room : line.length < inputBufLen
  grid : InGrid st.out

/-- A byte that is not a line end edits the line as `typeByte` says, and
never panics. -/
theorem edit_of_typed {st : LineInput} {line : List UInt8} (inv : Typed st line) (ch : UInt8) :
    ∃ st', edit st ch = some st' ∧ Typed st' (typeByte line ch) := by
  unfold typeByte
  by_cases erase : ch = 8 ∨ ch = 127
  · rw [if_pos erase]
    rcases Nat.eq_zero_or_pos st.len with empty | pos
    · -- nothing to take off
      have blank : line = [] := List.eq_nil_of_length_eq_zero (inv.len ▸ empty)
      subst blank
      exact ⟨st, edit_of_erase_empty erase empty, inv⟩
    · obtain ⟨out', erased, grid'⟩ := Output.backspace_of_inGrid inv.grid
      refine ⟨_, by rw [edit_of_erase erase pos, erased]; rfl, ⟨?_, ?_, ?_, grid'⟩⟩
      · rw [List.length_dropLast, inv.len]
      · rw [← inv.buf, List.dropLast_eq_take, take_window, length_window, Nat.min_eq_left (Nat.sub_le _ _)]
      · rw [List.length_dropLast]
        exact Nat.lt_of_le_of_lt (Nat.sub_le _ _) inv.room
  · rw [if_neg erase]
    by_cases full : inputBufLen ≤ st.len + 1
    · -- the line keeps room for the NUL: the byte is dropped
      have long : 255 ≤ line.length := by
        have := inv.len
        unfold inputBufLen at full
        omega
      rw [if_pos long]
      exact ⟨st, edit_of_full erase full, inv⟩
    · have short : ¬ 255 ≤ line.length := by
        have := inv.len
        unfold inputBufLen at full
        omega
      rw [if_neg short]
      refine ⟨_, edit_of_room erase (Nat.not_le.mp full), ⟨?_, ?_, ?_, inv.grid.putChar⟩⟩
      · rw [List.length_append, inv.len]
        rfl
      · dsimp only
        rw [window_succ, window_congr fun j lt => Function.update_of_ne (Nat.ne_of_lt lt) _ _,
          Function.update_self, inv.buf]
      · rw [List.length_append, List.length_singleton]
        unfold inputBufLen
        omega

/-! ## The loop of `read_line` -/

section Loop

variable {chPtr : UInt64} {st st' : LineInput} {k k' : Kernel} {key : Option Char} {keys : List (Option Char)}
  {read : UInt64} {ch : UInt8}

theorem readLine_of_read_zero (got : readByte k key chPtr = (0, ch, k')) :
    readLine chPtr st k (key :: keys) = readLine chPtr st k' keys := by
  rw [readLine, got]
  rfl

theorem readLine_of_edit (got : readByte k key chPtr = (read, ch, k')) (counted : read ≠ 0)
    (notEnd : ¬ (ch = 13 ∨ ch = 10)) (edited : edit st ch = some st') :
    readLine chPtr st k (key :: keys) = readLine chPtr st' k' keys := by
  rw [readLine, got]
  dsimp only
  rw [if_neg counted, if_neg notEnd, edited]

theorem readLine_of_end (got : readByte k key chPtr = (read, ch, k')) (counted : read ≠ 0)
    (isEnd : ch = 13 ∨ ch = 10) (room : st.len < inputBufLen) :
    readLine chPtr st k (key :: keys) =
      some (some (⟨st.len, Function.update st.buf st.len 0, st.out.newLine⟩, k')) := by
  rw [readLine, got]
  dsimp only
  rw [if_neg counted, if_pos isEnd, if_pos room]

/-- Keys without a line end: `read_line` reads them all, neither returning
nor panicking, and `INPUT_BUF` holds the line they type. -/
theorem readLine_prefix (nonnull : chPtr ≠ 0) (pre : List (Option Char))
    (noEnd : ∀ c, some c ∈ pre → ¬ (keyByte c = 13 ∨ keyByte c = 10)) {line : List UInt8}
    (inv : Typed st line) (keyboard : KeyboardAtZero k) :
    ∃ st' k', Typed st' ((pre.filterMap (Option.map keyByte)).foldl typeByte line) ∧ KeyboardAtZero k' ∧
      ∀ rest, readLine chPtr st k (pre ++ rest) = readLine chPtr st' k' rest := by
  induction pre generalizing st line k with
  | nil => exact ⟨st, k, inv, keyboard, fun _ => rfl⟩
  | cons key keys ih =>
    have noEnd' : ∀ c, some c ∈ keys → ¬ (keyByte c = 13 ∨ keyByte c = 10) :=
      fun c mem => noEnd c (List.mem_cons_of_mem _ mem)
    cases key with
    | none =>
      -- no key: the read returns 0 and the loop goes round
      obtain ⟨k1, keyboard1, got⟩ := readByte_no_key keyboard nonnull
      obtain ⟨st', k', inv', keyboard', run⟩ := ih noEnd' inv keyboard1
      refine ⟨st', k', inv', keyboard', fun rest => ?_⟩
      rw [List.cons_append, readLine_of_read_zero got, run]
    | some c =>
      obtain ⟨k1, keyboard1, got⟩ := readByte_key keyboard nonnull c
      obtain ⟨st1, edited, inv1⟩ := edit_of_typed inv (keyByte c)
      obtain ⟨st', k', inv', keyboard', run⟩ := ih noEnd' inv1 keyboard1
      refine ⟨st', k', inv', keyboard', fun rest => ?_⟩
      rw [List.cons_append, readLine_of_edit got (by decide) (noEnd c List.mem_cons_self) edited, run]

end Loop

/-- `read_line` from an empty line and a terminal on its grid: whatever
keys come before the first line end, it never panics; at the line end it
returns with the typed line in `INPUT_BUF` and a NUL after it, the terminal
still on its grid and the keyboard still at descriptor 0. -/
theorem read_line_returns_typed_line {chPtr : UInt64} (nonnull : chPtr ≠ 0) {k : Kernel}
    (keyboard : KeyboardAtZero k) (buf : Nat → UInt8) {out : Output} (grid : InGrid out)
    (pre : List (Option Char)) (noEnd : ∀ c, some c ∈ pre → ¬ (keyByte c = 13 ∨ keyByte c = 10)) :
    readLine chPtr ⟨0, buf, out⟩ k pre = some none ∧
      ∀ c post, (keyByte c = 13 ∨ keyByte c = 10) →
        ∃ st k', readLine chPtr ⟨0, buf, out⟩ k (pre ++ some c :: post) = some (some (st, k')) ∧
          window st.buf st.len = typed (pre.filterMap (Option.map keyByte)) ∧ st.buf st.len = 0 ∧
          InGrid st.out ∧ KeyboardAtZero k' := by
  have start : Typed ⟨0, buf, out⟩ [] := ⟨rfl, rfl, by decide, grid⟩
  obtain ⟨st, k1, inv, keyboard1, run⟩ := readLine_prefix nonnull pre noEnd start keyboard
  constructor
  · -- the keys run out before a line end
    have waiting := run []
    rw [List.append_nil] at waiting
    rw [waiting]
    rfl
  · intro c post isEnd
    obtain ⟨k', keyboard', got⟩ := readByte_key keyboard1 nonnull c
    refine ⟨⟨st.len, Function.update st.buf st.len 0, st.out.newLine⟩, k', ?_, ?_, Function.update_self .., inv.grid.newLine, keyboard'⟩
    · rw [run, readLine_of_end got (by decide) isEnd (inv.len ▸ inv.room)]
    · dsimp only
      rw [window_congr fun j lt => Function.update_of_ne (Nat.ne_of_lt lt) _ _, inv.buf]
      rfl

theorem read_line_returns_ls :
    ∃ st k', readLine 0x1000 ⟨0, fun _ => 0, ⟨⟨0, 7⟩, []⟩⟩ ⟨none, some FdTable.withStdio, fun _ => 0⟩
        ([some 'l', some 'x', some '\x7f', none, some 's'] ++ [some '\r']) = some (some (st, k')) ∧
      window st.buf st.len = [108, 115] ∧ st.buf st.len = 0 := by
  have noEnd : ∀ c, some c ∈ [some 'l', some 'x', some '\x7f', none, some 's'] →
      ¬ (keyByte c = 13 ∨ keyByte c = 10) := by
    intro c mem
    simp only [List.mem_cons, Option.some.injEq, reduceCtorEq, List.not_mem_nil, or_false, false_or] at mem
    rcases mem with rfl | rfl | rfl | rfl <;> decide
  obtain ⟨-, ended⟩ := read_line_returns_typed_line (show (0x1000 : UInt64) ≠ 0 by decide)
    (show KeyboardAtZero ⟨none, some FdTable.withStdio, fun _ => 0⟩ from ⟨FdTable.withStdio, rfl, rfl⟩) (fun _ => 0) (show InGrid ⟨⟨0, 7⟩, []⟩ from ⟨by decide, by decide⟩)
    [some 'l', some 'x', some '\x7f', none, some 's'] noEnd
  obtain ⟨st, k', run, line, nul, -⟩ := ended '\r' [] (by decide)
  exact ⟨st, k', run, line.trans (by decide), nul⟩

/-- A byte typed in the last column moves the cursor to the first column of
the next row, so a Backspace right after it takes the byte off the line but
erases nothing: the line read back is the one before the byte, while the
byte's cell stays drawn. -/
theorem backspace_after_wrap_erases_nothing {chPtr : UInt64} (nonnull : chPtr ≠ 0) {k : Kernel}
    (keyboard : KeyboardAtZero k) {st : LineInput} {line : List UInt8} (inv : Typed st line)
    (short : line.length < 255) (lastCol : st.out.term.col = cols - 1) {c : Char}
    (plain : ¬ (keyByte c = 8 ∨ keyByte c = 127)) (notEnd : ¬ (keyByte c = 13 ∨ keyByte c = 10))
    (post : List (Option Char)) :
    ∃ st' k', readLine chPtr st k (some c :: some '\x08' :: some '\r' :: post) = some (some (st', k')) ∧
      window st'.buf st'.len = line ∧
      st'.out.calls = st.out.calls ++
        [⟨(cols - 1).toUInt64, st.out.term.row.toUInt64, (Char.ofNat (keyByte c).toNat).toNat.toUInt64,
          fg.toUInt64, bg.toUInt64⟩] := by
  have one : (1 : UInt64) ≠ 0 := by decide
  obtain ⟨k1, keyboard1, got1⟩ := readByte_key keyboard nonnull c
  obtain ⟨k2, keyboard2, got2⟩ := readByte_key keyboard1 nonnull '\x08'
  obtain ⟨k3, -, got3⟩ := readByte_key keyboard2 nonnull '\r' 
  have room : st.len + 1 < inputBufLen := by
    have := inv.len
    unfold inputBufLen
    omega
  -- the byte is drawn in the last column, and the cursor wraps to column 0
  have drawn : (st.out.putChar (Char.ofNat (keyByte c).toNat) fg bg).calls = st.out.calls ++
      [⟨(cols - 1).toUInt64, st.out.term.row.toUInt64, (Char.ofNat (keyByte c).toNat).toNat.toUInt64,
        fg.toUInt64, bg.toUInt64⟩] := by
    rw [Output.calls_putChar inv.grid.1, lastCol]
  have wraps : (st.out.putChar (Char.ofNat (keyByte c).toNat) fg bg).term.col = 0 := by
    rw [Output.term_putChar inv.grid.1, if_pos (by rw [lastCol]; decide)]
  -- so `backspace` returns at once
  have erased : (st.out.putChar (Char.ofNat (keyByte c).toNat) fg bg).backspace =
      some (st.out.putChar (Char.ofNat (keyByte c).toNat) fg bg) := by
    unfold Output.backspace
    rw [if_pos wraps]
  refine ⟨⟨st.len, Function.update (Function.update st.buf st.len (keyByte c)) st.len 0,
    (st.out.putChar (Char.ofNat (keyByte c).toNat) fg bg).newLine⟩, k3, ?_, ?_, drawn⟩
  · rw [readLine_of_edit got1 one notEnd (edit_of_room plain room),
      readLine_of_edit got2 one (by decide) (by rw [edit_of_erase (by decide) (Nat.succ_pos _), erased]; rfl)]
    dsimp only
    rw [Nat.add_sub_cancel, readLine_of_end got3 one (by decide) ?_]
    exact Nat.lt_of_succ_lt room
  · dsimp only
    rw [window_congr fun j lt => by rw [Function.update_of_ne (Nat.ne_of_lt lt), Function.update_of_ne (Nat.ne_of_lt lt)],
      inv.buf]

theorem backspace_after_wrap_keeps_a :
    ∃ st' k', readLine 0x1000 ⟨0, fun _ => 0, ⟨⟨0, 79⟩, []⟩⟩ ⟨none, some FdTable.withStdio, fun _ => 0⟩
        [some 'a', some '\x08', some '\r'] = some (some (st', k')) ∧
      window st'.buf st'.len = [] ∧ st'.out.calls = [⟨79, 0, 97, fg.toUInt64, bg.toUInt64⟩] := by
  obtain ⟨st', k', run, line, calls⟩ := backspace_after_wrap_erases_nothing (show (0x1000 : UInt64) ≠ 0 by decide)
    (show KeyboardAtZero ⟨none, some FdTable.withStdio, fun _ => 0⟩ from ⟨FdTable.withStdio, rfl, rfl⟩)
    (show Typed ⟨0, fun _ => 0, ⟨⟨0, 79⟩, []⟩⟩ [] from ⟨rfl, rfl, by decide, ⟨by decide, by decide⟩⟩)
    (by decide) rfl (show ¬ (keyByte 'a' = 8 ∨ keyByte 'a' = 127) by decide) (by decide) []
  exact ⟨st', k', run, line, calls.trans (by decide)⟩

end OspabOs.User
