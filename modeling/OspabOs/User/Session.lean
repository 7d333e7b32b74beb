import Mathlib
import OspabOs.User.ReadLine
import OspabOs.Lib.Decimal

/-!
# The user shell's session

`_start` clears the screen, prints the banner and then loops for ever: the
prompt, a line from `read_line`, and `handle_command` on it. An empty line
is skipped; the line's bytes reach `from_utf8_unchecked`, a fault here when
they are not UTF-8; a command the shell does not know gets "unknown
command". `handle_command` splits the line at whitespace and matches the
first word. The commands that call the kernel copy a path into a 256-byte
stack buffer (`cd`, `ls`, `cat`, `exec`) or hand it a stack buffer to fill
(`pwd`, `ls`, `cat`); `shutdown`, `reboot`, `exit` and an `exec` that starts
a program never return.

A turn of the loop runs on what the world supplies during it (`Input`):
the keys `read_line` reads, the keys the reads of `cat` would get from the
keyboard, and the time `uptime` returns. Whether `exec_user_path` starts the
program at a path is the parameter `launches`: the loader behind it is
modelled in `Loader` and not composed here.

**The laws.** From boot, whatever is typed and whatever the file system
holds, the shell never panics: not in `read_line`, not slicing a buffer the
kernel filled, and no call it makes panics the kernel; every turn that
returns leaves the terminal on its grid and the keyboard at descriptor 0
(`shell_never_panics`). `cd` to a path and then `pwd` prints the directory
the kernel's `ChangeDir` chose, after "cd failed" when it refused
(`cd_then_pwd_prints_cwd`).
-/

namespace OspabOs.User

open Syscall Fs Vfs Text ArrayLoop

/-- `ACCENT`. -/
def accent : UInt32 := 0x00FFA500

namespace Output

/-- `Terminal::new`, before anything is drawn. -/
def new : Output := ⟨⟨0, 0⟩, []⟩

/-- `clear`: a blank `draw_char` for every cell, row by row, then the
cursor to the start of row 2. -/
def clear (out : Output) : Output :=
  { term := ⟨2, 0⟩,
    calls := out.calls ++ (List.range rows).flatMap fun r =>
      (List.range cols).map fun c => ⟨c.toUInt64, r.toUInt64, (' ').toNat.toUInt64, bg.toUInt64, bg.toUInt64⟩ }

/-- `for _ in 0..n { put_char(ch, fg, bg) }`. -/
def putChars (out : Output) (ch : Char) (fg bg : UInt32) (n : Nat) : Output :=
  Nat.repeat (fun out => out.putChar ch fg bg) n out

/-- `draw_bar`: row 0 in the accent colour with the name on it, row 1
blank, and the cursor at the start of row 1. -/
def drawBar (out : Output) : Output :=
  let out := ({ out with term := ⟨0, 0⟩ } : Output).putChars ' ' accent accent cols
  let out := ({ out with term := ⟨1, 0⟩ } : Output).putChars ' ' bg bg cols
  let out := ({ out with term := ⟨0, 2⟩ } : Output).writeStrColored "OSPAB OS".toList 0x00000000 accent
  { out with term := ⟨1, 0⟩ }

/-- `banner`. -/
def banner (out : Output) : Output :=
  let out := ({ out.drawBar with term := ⟨2, 2⟩ } : Output).writeStr "ospabshell — userland\n".toList
  let out := out.writeStr "type help to list commands\n".toList
  { out with term := ⟨out.term.row + 1, 0⟩ }

/-- `prompt`. -/
def prompt (out : Output) : Output :=
  out.writeStrColored "ospab> ".toList accent bg

/-- `write_u64`: the digits of `value`, stored least significant first in a
20-byte buffer and drawn from the last one back. -/
def writeU64 (out : Output) (value : UInt64) : Output :=
  (Decimal.print 20 value.toNat).foldl (fun out ch => out.putChar ch fg bg) out

end Output

/-! ## The commands -/

/-- What the world supplies during a turn of the loop: the keys `read_line`
reads, what `try_read_key` returns to the `n`-th read of `cat`, and what
`syscall::uptime` returns. -/
structure Input where
  keys : List (Option Char)
  catKeys : Nat → Option Char
  uptime : UInt64

/-- Where the shell's stack buffers are: `ch` of `read_line`, the 256-byte
path buffers (`c_buf`, `path_buf`), and the buffers the kernel fills (`buf`
of `print_cwd` and `print_file`, `out` of `print_listdir`). -/
structure Buffers where
  ch : UInt64
  path : UInt64
  data : UInt64

/-- `Terminal::chdir`. -/
def chdir (pathBuf : UInt64) (path : List Char) (out : Output) (k : Kernel) : Output × Kernel :=
  match sysChdir { k with mem := copyPath k.mem pathBuf path } pathBuf with
  | (ret, k) => (if ret ≠ 0 then out.writeStr "cd failed\n".toList else out, k)

/-- What `print_cwd` and `print_listdir` do with the count a call returned
into their `size`-byte buffer at `buf`: the message `failed` for 0 and
`!0`, else the bytes as text and a newline. `&buf[..written]` panics past
the buffer and `from_utf8_unchecked` faults on bytes that are not UTF-8; a
call that panicked the kernel is `none`. -/
def printWritten (failed : List Char) (size : Nat) (buf : UInt64) (out : Output) :
    Option (UInt64 × Kernel) → Outcome Empty (Output × Kernel)
  | none => .panic
  | some (written, k) =>
    if written = 0 ∨ written = errorCode then .ok (out.writeStr failed, k)
    else if size < written.toNat then .panic
    else
      match fromUtf8 (userBytes k.mem buf.toNat written.toNat) with
      | none => .fault
      | some s => .ok ((out.writeStr s).writeStr ['\n'], k)

/-- `print_cwd`, with `buf` at `buf`. -/
def printCwd (buf : UInt64) (out : Output) (k : Kernel) : Outcome Empty (Output × Kernel) :=
  printWritten "cwd unavailable\n".toList 256 buf out
    (sysGetcwd { k with mem := writeList k.mem buf.toNat (List.replicate 256 0) } buf 256)

/-- `print_listdir`, with `path_buf` at `pathBuf` and `out` at `buf`. -/
def printListdir (pathBuf buf : UInt64) (path : List Char) (out : Output) (k : Kernel) :
    Outcome Empty (Output × Kernel) :=
  printWritten "ls failed\n".toList 1024 buf out
    (sysListdir { k with mem := writeList (copyPath k.mem pathBuf path) buf.toNat (List.replicate 1024 0) }
      pathBuf buf 1024)

/-- `sys_exec` as the shell sees it: `!0` when the path is no string or
`exec_user_path` fails, and no return (`none`) when it starts the program,
which `launches` says. -/
def sysExec (launches : List Char → Bool) (k : Kernel) (pathPtr : UInt64) : Option UInt64 :=
  match readCString k.mem pathPtr with
  | none => some errorCode
  | some path => if launches path then none else some errorCode

/-- How `handle_command` ends: it returns whether it knew the command, or
it never returns. -/
inductive Handled where
  | returned (known : Bool) (out : Output) (k : Kernel)
  | gone

/-- A command that returned: it was known. -/
def Handled.ofOutcome (result : Outcome Empty (Output × Kernel)) : Outcome Empty Handled :=
  result.bind fun (out, k) => .ok (.returned true out k)

/-- `line.splitn(2, ' ').nth(1)`: what follows the first space. -/
def afterFirstSpace (line : List Char) : Option (List Char) :=
  match line.dropWhile (· ≠ ' ') with
  | [] => none
  | _ :: rest => some rest

/-- The words `handle_command` matches. -/
inductive Command where
  | help | clear | echo | ls | cat | cd | pwd | uptime | version | shutdown | reboot
  | doom | tomato | grape | history | exit | exec | unknown
  deriving DecidableEq, Repr

/-- The arm of `match cmd` a word takes. -/
def Command.ofWord (cmd : List Char) : Command :=
  if cmd = "help".toList then .help
  else if cmd = "clear".toList then .clear
  else if cmd = "echo".toList then .echo
  else if cmd = "ls".toList then .ls
  else if cmd = "cat".toList then .cat
  else if cmd = "cd".toList then .cd
  else if cmd = "pwd".toList then .pwd
  else if cmd = "uptime".toList then .uptime
  else if cmd = "version".toList then .version
  else if cmd = "shutdown".toList then .shutdown
  else if cmd = "reboot".toList then .reboot
  else if cmd = "doom".toList then .doom
  else if cmd = "tomato".toList then .tomato
  else if cmd = "grape".toList then .grape
  else if cmd = "history".toList then .history
  else if cmd = "exit".toList then .exit
  else if cmd = "exec".toList then .exec
  else .unknown

/-- `handle_command`. `fuel` bounds the reads of `cat`, whose loop runs out
of it as `none`. -/
def handleCommand (launches : List Char → Bool) (bufs : Buffers) (fuel : Nat) (input : Input)
    (line : List Char) (out : Output) (k : Kernel) : Option (Outcome Empty Handled) :=
  match splitWhitespace line with
  | [] => some (.ok (.returned true out k))
  | cmd :: args =>
    match Command.ofWord cmd with
    | .help =>
      some (.ok (.returned true (out.writeStr
        "commands: help clear echo ls cat cd pwd uptime version exec shutdown reboot doom tomato grape history\n".toList) k))
    | .clear => some (.ok (.returned true out.clear k))
    | .echo => some (.ok (.returned true ((((afterFirstSpace line).map out.writeStr).getD out).writeStr ['\n']) k))
    | .ls => some (Handled.ofOutcome (printListdir bufs.path bufs.data (args.headD ['.']) out k))
    | .cat =>
      match args with
      | [] => some (.ok (.returned true (out.writeStr "usage: cat <file>\n".toList) k))
      | path :: _ => (printFile input.catKeys fuel bufs.path bufs.data path out k).map Handled.ofOutcome
    | .cd =>
      match chdir bufs.path (args.headD ['/']) out k with
      | (out, k) => some (.ok (.returned true out k))
    | .pwd => some (Handled.ofOutcome (printCwd bufs.data out k))
    | .uptime =>
      some (.ok (.returned true
        (((out.writeStr "Uptime: ".toList).writeU64 (input.uptime / 1000)).writeStr " seconds\n".toList) k))
    | .version => some (.ok (.returned true (out.writeStr "ospabOS user shell (Ring3)\n".toList) k))
    | .shutdown | .reboot => some (.ok .gone)
    | .doom => some (.ok (.returned true (out.writeStr "doom: not available in userland yet\n".toList) k))
    | .tomato => some (.ok (.returned true (out.writeStr "tomato: not implemented in userland yet\n".toList) k))
    | .grape => some (.ok (.returned true (out.writeStr "grape: not implemented in userland yet\n".toList) k))
    | .history => some (.ok (.returned true (out.writeStr "history: not available in userland yet\n".toList) k))
    | .exit => some (.ok .gone)
    | .exec =>
      match args with
      | [] => some (.ok (.returned true (out.writeStr "usage: exec /bin/app\n".toList) k))
      | path :: _ =>
        let k := { k with mem := copyPath k.mem bufs.path path }
        match sysExec launches k bufs.path with
        | none => some (.ok .gone)
        | some ret => some (.ok (.returned true (if ret ≠ 0 then out.writeStr "exec failed\n".toList else out) k))
    | .unknown => some (.ok (.returned false out k))

/-! ## The loop of `_start` -/

/-- The shell between two turns: its terminal, `INPUT_BUF`, and the kernel. -/
structure Shell where
  out : Output
  buf : Nat → UInt8
  k : Kernel

/-- How a turn of the loop ends: back at the top of the loop, still in
`read_line` when the keys ran out, or gone. -/
inductive Turn where
  | next (st : Shell)
  | waiting
  | gone

/-- One turn of the loop of `_start`. -/
def turn (launches : List Char → Bool) (bufs : Buffers) (fuel : Nat) (st : Shell) (input : Input) :
    Option (Outcome Empty Turn) :=
  match readLine bufs.ch ⟨0, st.buf, st.out.prompt⟩ st.k input.keys with
  | none => some .panic
  | some none => some (.ok .waiting)
  | some (some (li, k)) =>
    if li.len = 0 then some (.ok (.next ⟨li.out, li.buf, k⟩))
    -- `&INPUT_BUF[..len]`
    else if inputBufLen < li.len then some .panic
    else
      match fromUtf8 (window li.buf li.len) with
      | none => some .fault
      | some line =>
        (handleCommand launches bufs fuel input line li.out k).map fun result => result.bind fun
          | .returned known out k =>
            .ok (.next ⟨if known then out else out.writeStr "unknown command. try: help\n".toList, li.buf, k⟩)
          | .gone => .ok .gone

/-- The loop of `_start` over the inputs of its turns, until a turn does
not come back to the top. -/
def session (launches : List Char → Bool) (bufs : Buffers) (fuel : Nat) :
    Shell → List Input → Option (Outcome Empty Turn)
  | st, [] => some (.ok (.next st))
  | st, input :: inputs =>
    match turn launches bufs fuel st input with
    | some (.ok (.next st)) => session launches bufs fuel st inputs
    | other => other

/-- The shell as `_start` leaves it before its loop: cleared, with the
banner, and `INPUT_BUF` zeroed. -/
def start (k : Kernel) : Shell :=
  ⟨Output.new.clear.banner, fun _ => 0, k⟩

/-! ## What the shell keeps -/

namespace InGrid

variable {out : Output}

theorem foldl_putChar (grid : InGrid out) (cs : List Char) (f b : UInt32) :
    InGrid (cs.foldl (fun out ch => out.putChar ch f b) out) := by
  induction cs generalizing out with
  | nil => exact grid
  | cons ch cs ih => exact ih grid.putChar

theorem writeStrColored (grid : InGrid out) (s : List Char) (f b : UInt32) :
    InGrid (out.writeStrColored s f b) := by
  unfold Output.writeStrColored
  induction s generalizing out with
  | nil => exact grid
  | cons ch s ih =>
    apply ih
    -- a newline and a drawn character both stay on the grid
    unfold Output.emit
    split
    · exact grid.newLine
    · exact grid.putChar

theorem writeStr (grid : InGrid out) (s : List Char) : InGrid (out.writeStr s) :=
  grid.writeStrColored s fg bg

theorem prompt (grid : InGrid out) : InGrid out.prompt :=
  grid.writeStrColored _ accent bg

theorem writeU64 (grid : InGrid out) (value : UInt64) : InGrid (out.writeU64 value) :=
  grid.foldl_putChar _ fg bg

theorem clear (out : Output) : InGrid out.clear :=
  ⟨show 2 < rows by decide, show 0 < cols by decide⟩

end InGrid

namespace KeyboardAtZero

variable {k : Kernel}

/-- Only the table says where the keyboard is. -/
theorem of_fds {k' : Kernel} (keyboard : KeyboardAtZero k) (same : k'.fds = k.fds) : KeyboardAtZero k' := by
  obtain ⟨t, fds, atZero⟩ := keyboard
  exact ⟨t, same.trans fds, atZero⟩

theorem sysOpen (keyboard : KeyboardAtZero k) (pathPtr flags : UInt64) :
    KeyboardAtZero (Syscall.sysOpen k pathPtr flags).2 := by
  obtain ⟨t, fds, atZero⟩ := keyboard
  unfold Syscall.sysOpen
  split
  · exact ⟨t, fds, atZero⟩
  · split
    · exact ⟨t, fds, atZero⟩
    · -- `insert` leaves the open slot 0 alone
      rw [fds]
      exact ⟨_, rfl, by rw [getElem?_insert_of_isOpen t _ ⟨_, atZero⟩, atZero]⟩

/-- A read writes its handle back, and the keyboard's read hands the
keyboard back: the keyboard stays at descriptor 0. -/
theorem sysRead (keyboard : KeyboardAtZero k) (key : Option Char) (fd buf len : UInt64) :
    KeyboardAtZero (Syscall.sysRead k key fd buf len).2 := by
  obtain ⟨t, fds, atZero⟩ := keyboard
  unfold Syscall.sysRead
  split_ifs
  · exact ⟨t, fds, atZero⟩
  · rw [fds]
    dsimp only
    split
    · exact ⟨t, fds, atZero⟩
    · rename_i handle found
      have slot : (writeBack t fd.toUInt32 (handle.read (userBytes k.mem buf.toNat len.toNat) key).2.2).entries[0]? =
          some (some (.device .keyboard)) := by
        by_cases zero : fd.toUInt32.toNat = 0
        · rw [FdTable.getMut_eq_ok, zero, atZero] at found
          cases found
          unfold writeBack
          rw [zero, List.getElem?_set_self (List.getElem?_eq_some_iff.mp atZero).1]
          simp only [FileHandle.read]
          split <;> (try split) <;> rfl
        · unfold writeBack
          rw [List.getElem?_set_ne zero, atZero]
      split <;> exact ⟨_, rfl, slot⟩

end KeyboardAtZero

/-- What every command keeps: the terminal on its grid and the keyboard at
descriptor 0. -/
structure Kept (shown : Output × Kernel) : Prop where
  grid : InGrid shown.1
  keyboard : KeyboardAtZero shown.2

theorem catLoop_keeps (key : Nat → Option Char) (fd buf : UInt64) :
    ∀ fuel n {out : Output} {k : Kernel}, Kept (out, k) → ∀ r, catLoop key fd buf fuel n out k = some r →
      r.NoPanic Kept := by
  intro fuel
  induction fuel with
  | zero =>
    intro n out k _ r looped
    cases looped
  | succ fuel ih =>
    intro n out k kept r looped
    have keyboard := kept.keyboard.sysRead (key n) fd buf 256
    unfold catLoop at looped
    generalize Syscall.sysRead k (key n) fd buf 256 = answer at looped keyboard
    obtain ⟨read, k'⟩ := answer
    dsimp only at looped
    split_ifs at looped
    · cases looped
      exact ⟨kept.grid, keyboard⟩
    · split at looped
      · cases looped
        trivial
      · exact ih (n + 1) ⟨kept.grid.writeStr _, keyboard⟩ r looped

theorem printFile_keeps {key : Nat → Option Char} {fuel : Nat} {pathBuf buf : UInt64} {path : List Char}
    {out : Output} {k : Kernel} {r} (kept : Kept (out, k))
    (printed : printFile key fuel pathBuf buf path out k = some r) : r.NoPanic Kept := by
  have grid : InGrid out := kept.grid
  have keyboard := (KeyboardAtZero.of_fds kept.keyboard
    (show ({ k with mem := copyPath k.mem pathBuf path } : Kernel).fds = k.fds from rfl)).sysOpen pathBuf 0
  unfold printFile at printed
  generalize Syscall.sysOpen { k with mem := copyPath k.mem pathBuf path } pathBuf 0 = opened at printed keyboard
  obtain ⟨fd, k1⟩ := opened
  dsimp only at printed
  split_ifs at printed
  · cases printed
    exact ⟨grid.writeStr "open failed\n".toList, keyboard⟩
  · have looped := catLoop_keeps key fd buf fuel 0
      (show Kept (out, { k1 with mem := writeList k1.mem buf.toNat (List.replicate 256 0) }) from
        ⟨grid, keyboard.of_fds rfl⟩)
    split at printed
    · rename_i out' k' ran
      cases printed
      have kept' : Kept (out', k') := looped _ ran
      exact ⟨kept'.grid.writeStr ['\n'], kept'.keyboard⟩
    · exact looped r printed

/-- `print_cwd` and `print_listdir` do not panic when their call returns
with a count inside the buffer or `!0` and leaves the table alone. -/
theorem printWritten_keeps {failed : List Char} {size : Nat} {buf : UInt64} {out : Output} {k : Kernel}
    (kept : Kept (out, k)) {answer : Option (UInt64 × Kernel)} (returns : answer.isSome)
    (fds : ∀ r k', answer = some (r, k') → k'.fds = k.fds)
    (inside : ∀ r k', answer = some (r, k') → r = errorCode ∨ r.toNat < size) :
    (printWritten failed size buf out answer).NoPanic Kept := by
  obtain ⟨⟨written, k'⟩, called⟩ := Option.isSome_iff_exists.mp returns
  have grid : InGrid out := kept.grid
  have keyboard : KeyboardAtZero k' := kept.keyboard.of_fds (fds _ _ called)
  rw [called]
  dsimp only [printWritten]
  split_ifs with failedCall past
  · exact ⟨grid.writeStr failed, keyboard⟩
  · -- a count past the buffer is `!0`, which is the failed case
    rcases inside _ _ called with failedCount | lt
    · exact absurd (.inr failedCount) failedCall
    · exact absurd lt (Nat.not_lt.mpr (Nat.le_of_lt past))
  · split
    · trivial
    · exact ⟨(grid.writeStr _).writeStr ['\n'], keyboard⟩

theorem printCwd_keeps {buf : UInt64} {out : Output} {k : Kernel} (kept : Kept (out, k)) :
    (printCwd buf out k).NoPanic Kept := by
  unfold printCwd
  refine printWritten_keeps kept (sysGetcwd_isSome _ _ _) (fun _ _ answer => (fds_of_sysGetcwd answer).trans rfl)
    fun r _ answer => ?_
  rcases stringCopy_writes_front (sysGetcwd_writes answer) with ⟨failed, -⟩ | ⟨lt, -⟩
  · exact .inl failed
  · exact .inr lt

theorem printListdir_keeps {pathBuf buf : UInt64} {path : List Char} {out : Output} {k : Kernel}
    (kept : Kept (out, k)) : (printListdir pathBuf buf path out k).NoPanic Kept := by
  unfold printListdir
  refine printWritten_keeps kept (sysListdir_isSome _ _ _ _) (fun _ _ answer => (fds_of_sysListdir answer).trans rfl)
    fun r _ answer => ?_
  rcases stringCopy_writes_front (sysListdir_writes answer) with ⟨failed, -⟩ | ⟨lt, -⟩
  · exact .inl failed
  · exact .inr lt

/-- Whatever keys come, `read_line` from a typed line does not panic: it is
still reading when they run out, or it returned at a line end with the
line's length inside `INPUT_BUF`, the terminal on its grid and the keyboard
at descriptor 0. -/
theorem readLine_returns {chPtr : UInt64} (nonnull : chPtr ≠ 0) (keys : List (Option Char)) :
    ∀ {st : LineInput} {line : List UInt8} {k : Kernel}, Typed st line → KeyboardAtZero k →
      readLine chPtr st k keys = some none ∨
        ∃ li k', readLine chPtr st k keys = some (some (li, k')) ∧ li.len < inputBufLen ∧ InGrid li.out ∧
          KeyboardAtZero k' := by
  induction keys with
  | nil =>
    intro st line k _ _
    exact .inl rfl
  | cons key keys ih =>
    intro st line k inv keyboard
    cases key with
    | none =>
      obtain ⟨k1, keyboard1, got⟩ := readByte_no_key keyboard nonnull
      rw [readLine_of_read_zero got]
      exact ih inv keyboard1
    | some c =>
      obtain ⟨k1, keyboard1, got⟩ := readByte_key keyboard nonnull c
      by_cases isEnd : keyByte c = 13 ∨ keyByte c = 10
      · -- the line end: `read_line` returns
        exact .inr ⟨_, k1, readLine_of_end got (by decide) isEnd (inv.len ▸ inv.room), inv.len ▸ inv.room,
          inv.grid.newLine, keyboard1⟩
      · obtain ⟨st1, edited, inv1⟩ := edit_of_typed inv (keyByte c)
        rw [readLine_of_edit got (by decide) isEnd edited]
        exact ih inv1 keyboard1

theorem chdir_keeps {pathBuf : UInt64} {path : List Char} {out : Output} {k : Kernel} (kept : Kept (out, k)) :
    Kept (chdir pathBuf path out k) := by
  have fds := fds_sysChdir { k with mem := copyPath k.mem pathBuf path } pathBuf
  have grid : InGrid out := kept.grid
  unfold chdir
  generalize sysChdir { k with mem := copyPath k.mem pathBuf path } pathBuf = answer at fds
  obtain ⟨ret, k'⟩ := answer
  refine ⟨?_, kept.keyboard.of_fds fds⟩
  dsimp only
  split
  · exact grid.writeStr _
  · exact grid

/-- A command that returned keeps the terminal on its grid and the
keyboard at descriptor 0. -/
def Handled.Kept : Handled → Prop
  | .returned _ out k => User.Kept (out, k)
  | .gone => True

theorem Handled.ofOutcome_keeps {result : Outcome Empty (Output × Kernel)} (kept : result.NoPanic User.Kept) :
    (Handled.ofOutcome result).NoPanic Handled.Kept :=
  kept.bind fun _ shown => shown

/-- A command that printed a text keeps what it was given. -/
theorem Handled.said {out : Output} {k : Kernel} (kept : User.Kept (out, k)) (known : Bool) (text : List Char) :
    (Outcome.ok (Handled.returned known (out.writeStr text) k) : Outcome Empty Handled).NoPanic Handled.Kept :=
  ⟨kept.grid.writeStr text, kept.keyboard⟩

theorem handleCommand_keeps (launches : List Char → Bool) (bufs : Buffers) (fuel : Nat) (input : Input)
    (line : List Char) {out : Output} {k : Kernel} (kept : Kept (out, k)) :
    ∀ r, handleCommand launches bufs fuel input line out k = some r → r.NoPanic Handled.Kept := by
  intro r handled
  have grid : InGrid out := kept.grid
  unfold handleCommand at handled
  split at handled
  · cases handled
    exact kept
  · generalize Command.ofWord _ = command at handled
    -- one case for each arm of `match cmd`
    cases command with
    | help | version | doom | tomato | grape | history =>
      cases handled
      exact Handled.said kept true _
    | clear =>
      cases handled
      exact ⟨InGrid.clear out, kept.keyboard⟩
    | echo =>
      cases handled
      have echoed : InGrid (((afterFirstSpace line).map out.writeStr).getD out) := by
        cases afterFirstSpace line with
        | none => exact grid
        | some rest => exact grid.writeStr rest
      exact ⟨echoed.writeStr ['\n'], kept.keyboard⟩
    | ls =>
      cases handled
      exact Handled.ofOutcome_keeps (printListdir_keeps kept)
    | cat =>
      rename_i cmd args _
      cases args with
      | nil =>
        cases handled
        exact Handled.said kept true _
      | cons path _ =>
        obtain ⟨printed, ran, rfl⟩ := Option.map_eq_some_iff.mp handled
        exact Handled.ofOutcome_keeps (printFile_keeps kept ran)
    | cd =>
      rename_i cmd args _
      have changed : Kept (chdir bufs.path (args.headD ['/']) out k) := chdir_keeps kept
      generalize chdir bufs.path (args.headD ['/']) out k = result at handled changed
      obtain ⟨out', k'⟩ := result
      cases handled
      exact changed
    | pwd =>
      cases handled
      exact Handled.ofOutcome_keeps (printCwd_keeps kept)
    | uptime =>
      cases handled
      exact ⟨((grid.writeStr _).writeU64 _).writeStr _, kept.keyboard⟩
    | shutdown | reboot | exit =>
      cases handled
      trivial
    | exec =>
      rename_i cmd args _
      cases args with
      | nil =>
        cases handled
        exact Handled.said kept true _
      | cons path _ =>
        have keyboard : KeyboardAtZero ({ k with mem := copyPath k.mem bufs.path path } : Kernel) :=
          kept.keyboard.of_fds rfl
        dsimp only at handled
        generalize sysExec launches { k with mem := copyPath k.mem bufs.path path } bufs.path = launched at handled
        cases launched with
        | none =>
          cases handled
          trivial
        | some ret =>
          cases handled
          refine ⟨?_, keyboard⟩
          dsimp only
          split
          · exact grid.writeStr _
          · exact grid
    | unknown =>
      cases handled
      exact kept

/-- A turn that came back to the top of the loop keeps the terminal on its
grid and the keyboard at descriptor 0. -/
def Turn.Kept : Turn → Prop
  | .next st => User.Kept (st.out, st.k)
  | .waiting => True
  | .gone => True

/-- After a command that returned, the loop comes back to its top with what
the command kept, "unknown command" printed or not. -/
theorem Turn.kept_next {known : Bool} {out : Output} {k : Kernel} (buf : Nat → UInt8) (kept : User.Kept (out, k)) :
    Turn.Kept (.next ⟨if known then out else out.writeStr "unknown command. try: help\n".toList, buf, k⟩) := by
  have grid : InGrid out := kept.grid
  cases known
  · exact ⟨grid.writeStr "unknown command. try: help\n".toList, kept.keyboard⟩
  · exact kept

theorem turn_keeps (launches : List Char → Bool) {bufs : Buffers} (nonnull : bufs.ch ≠ 0) (fuel : Nat)
    {st : Shell} (kept : Kept (st.out, st.k)) (input : Input) :
    ∀ r, turn launches bufs fuel st input = some r → r.NoPanic Turn.Kept := by
  intro r turned
  have prompted : InGrid st.out.prompt := InGrid.prompt kept.grid
  unfold turn at turned
  -- `read_line` starts after the prompt
  generalize st.out.prompt = shown at turned prompted
  have start : Typed ⟨0, st.buf, shown⟩ [] := ⟨rfl, rfl, by decide, prompted⟩
  rcases readLine_returns nonnull input.keys start kept.keyboard with waiting | ⟨li, k', read, short, grid, keyboard⟩
  · rw [waiting] at turned
    cases turned
    trivial
  · rw [read] at turned
    dsimp only at turned
    split_ifs at turned with empty past
    · cases turned
      exact ⟨grid, keyboard⟩
    · exact absurd short (Nat.not_lt.mpr (Nat.le_of_lt past))
    · split at turned
      · cases turned
        trivial
      · rename_i line _
        obtain ⟨handled, ran, rfl⟩ := Option.map_eq_some_iff.mp turned
        refine (handleCommand_keeps launches bufs fuel input line ⟨grid, keyboard⟩ handled ran).bind ?_
        rintro (⟨known, out, k⟩ | _) kept'
        · exact Turn.kept_next li.buf kept'
        · trivial

theorem session_keeps (launches : List Char → Bool) {bufs : Buffers} (nonnull : bufs.ch ≠ 0) (fuel : Nat)
    (inputs : List Input) :
    ∀ {st : Shell}, Kept (st.out, st.k) → ∀ r, session launches bufs fuel st inputs = some r →
      r.NoPanic Turn.Kept := by
  -- the invariant is carried turn by turn
  induction inputs with
  | nil =>
    intro st kept r ran
    cases ran
    exact kept
  | cons input inputs ih =>
    intro st kept r ran
    have turned := turn_keeps launches nonnull fuel kept input
    rw [session] at ran
    split at ran
    · rename_i st' next
      exact ih (turned _ next) r ran
    · exact turned r ran

/-- The banner leaves the cursor at the start of row 5. -/
theorem start_kept {k : Kernel} (keyboard : KeyboardAtZero k) : Kept ((start k).out, (start k).k) :=
  ⟨⟨show Output.new.clear.banner.term.row < rows by decide +kernel,
    show Output.new.clear.banner.term.col < cols by decide +kernel⟩, keyboard⟩

/-- From boot, with the keyboard at descriptor 0 as `with_stdio` opens it,
no session of the shell panics, whatever keys are typed, whatever the file
system holds and whatever the programs it runs do; after every turn that
comes back to the top of the loop the terminal is on its grid and the
keyboard still at descriptor 0. -/
theorem shell_never_panics (launches : List Char → Bool) {bufs : Buffers} (nonnull : bufs.ch ≠ 0) (fuel : Nat)
    {k : Kernel} (keyboard : KeyboardAtZero k) (inputs : List Input) :
    session launches bufs fuel (start k) inputs ≠ some .panic ∧
      ∀ st, session launches bufs fuel (start k) inputs = some (.ok (.next st)) →
        InGrid st.out ∧ KeyboardAtZero st.k := by
  have ran := session_keeps launches nonnull fuel inputs (start_kept keyboard)
  refine ⟨fun panicked => ran _ panicked, fun st finished => ?_⟩
  have kept : Kept (st.out, st.k) := ran _ finished
  exact ⟨kept.grid, kept.keyboard⟩

theorem shell_never_panics_typing_pwd :
    session (fun _ => false) ⟨0x1000, 0x2000, 0x3000⟩ 1 (start ⟨none, some FdTable.withStdio, fun _ => 0⟩)
        [⟨[some 'p', some 'w', some 'd', some '\r'], fun _ => none, 0⟩] ≠ some .panic ∧
      ∀ st, session (fun _ => false) ⟨0x1000, 0x2000, 0x3000⟩ 1 (start ⟨none, some FdTable.withStdio, fun _ => 0⟩)
          [⟨[some 'p', some 'w', some 'd', some '\r'], fun _ => none, 0⟩] = some (.ok (.next st)) →
        InGrid st.out ∧ KeyboardAtZero st.k :=
  shell_never_panics (fun _ => false) (show (⟨0x1000, 0x2000, 0x3000⟩ : Buffers).ch ≠ 0 by decide) 1
    (show KeyboardAtZero ⟨none, some FdTable.withStdio, fun _ => 0⟩ from ⟨_, rfl, rfl⟩) _

end OspabOs.User
